namespace SearchLoad.Sampling

class WordSource (σ : Type) where
  next : σ → UInt32 × σ

/-- Hands out given words in order and starts over at their end. -/
structure Replay where
  words : Array UInt32
  taken : Nat

instance : WordSource Replay where
  next r := (r.words[r.taken % r.words.size]?.getD 0, ⟨r.words, r.taken + 1⟩)

def wordCount : Nat := 4294967296

def high (n : Nat) (x : UInt32) : Nat := x.toNat * n / wordCount

def low (n : Nat) (x : UInt32) : Nat := x.toNat * n % wordCount

/-- Whether a second word can still carry into the index. -/
def isUndecided (n : Nat) (x : UInt32) : Bool := (wordCount - n) % wordCount < low n x

/-- Whether the product with a second word carries into the index. -/
def carries (n : Nat) (x y : UInt32) : Bool := wordCount ≤ low n x + high n y

/-- The index below `n` that two words stand for, whether or not the second one is needed. -/
def indexOf (n : Nat) (x y : UInt32) : Nat :=
  if isUndecided n x && carries n x y then high n x + 1 else high n x

/-- Draws an index below `n`, with a second word only where the first leaves it undecided. -/
def draw {σ : Type} [WordSource σ] (n : Nat) (s : σ) : Nat × σ :=
  let (x, s) := WordSource.next s
  if isUndecided n x then
    let (y, s) := WordSource.next s
    (indexOf n x y, s)
  else (indexOf n x 0, s)

theorem indexOf_lt {n : Nat} (h : 0 < n) (x y : UInt32) : indexOf n x y < n := by
  have hx : x.toNat < wordCount := x.toNat_lt
  have hy : y.toNat < wordCount := y.toNat_lt
  have hi : high n x < n := by
    refine Nat.div_lt_of_lt_mul ?_
    exact Nat.mul_lt_mul_of_pos_right hx h
  unfold indexOf
  split
  · rename_i hc
    simp only [Bool.and_eq_true, carries, decide_eq_true_eq] at hc
    have hhy : high n y < n := by
      refine Nat.div_lt_of_lt_mul ?_
      exact Nat.mul_lt_mul_of_pos_right hy h
    refine Nat.lt_of_le_of_ne hi ?_
    intro e
    have hsplit : x.toNat * n = wordCount * high n x + low n x := (Nat.div_add_mod _ _).symm
    have hbound : (x.toNat + 1) * n ≤ wordCount * n := Nat.mul_le_mul_right n hx
    have hmul : wordCount * n = wordCount * (high n x + 1) := congrArg (wordCount * ·) e.symm
    have hone : (x.toNat + 1) * n = x.toNat * n + n := by rw [Nat.add_mul, Nat.one_mul]
    unfold wordCount at *
    omega
  · exact hi

theorem draw_lt {σ : Type} [WordSource σ] {n : Nat} (h : 0 < n) (s : σ) : (draw n s).1 < n := by
  unfold draw
  simp only
  split
  · exact indexOf_lt h _ _
  · exact indexOf_lt h _ _

end SearchLoad.Sampling
