import SearchLoad.Proofs.Span.Sums

namespace SearchLoad.Span

open Number

/-- A number of units as it is written. -/
structure Part where
  count : Nat
  timeUnit : TimeUnit
  name : String

namespace Part

def text (p : Part) : List Char := (toString p.count).toList ++ p.name.toList

def nanos (p : Part) : Nat :=
  match p.timeUnit.length with
  | .nanos k => p.count * k
  | .seconds k => nanosPerSecond * (p.count * k)

/-- The name is one of the unit's, and the part is less than a second if its unit is. -/
structure Proper (p : Part) : Prop where
  named : TimeUnit.ofName? p.name = some p.timeUnit
  short : ∀ k, p.timeUnit.length = .nanos k → p.count * k < nanosPerSecond

def item (p : Part) : Item := ⟨p.count, none, p.timeUnit⟩

theorem nanos_eq (p : Part) : p.nanos = p.count * p.timeUnit.nanos := by
  rw [nanos, TimeUnit.nanos]
  cases p.timeUnit.length with
  | nanos k => rfl
  | seconds k => exact Nat.mul_left_comm _ _ _

theorem Proper.whole {p : Part} (proper : p.Proper) : p.item.Whole :=
  ⟨rfl, fun k unit => Nat.lt_trans (proper.short k unit) (by decide)⟩

theorem spelling {p : Part} (named : TimeUnit.ofName? p.name = some p.timeUnit) :
    p.item.Spelling p.text := by
  obtain ⟨c, ds, written, digits, value⟩ := toString_eq_cons p.count
  obtain ⟨digit, digits⟩ := List.forall_mem_cons.mp digits
  have loose : Loose ds := fun d member => by rw [isLoose, digits d member, Bool.true_or]
  refine ⟨c, ds, [], p.name.toList, digit, loose, ?_, .none, ?_, ?_⟩
  · rw [numeral_digit digit, numeral_of_digits digits, Nat.zero_mul, Nat.zero_add, value, item]
  · rw [String.ofList_toList, named, item]
  · rw [text, written, List.nil_append, List.cons_append]

end Part

/-- Parts as they follow another one. -/
def following (ps : List Part) : List Char := ps.flatMap fun p => ' ' :: p.text

def lengthOf (ps : List Part) : Nat := (ps.map Part.nanos).sum

theorem wholeNanos_item (ps : List Part) : wholeNanos (ps.map Part.item) = lengthOf ps := by
  rw [wholeNanos, lengthOf, List.map_map]
  exact congrArg List.sum (List.map_congr_left fun p _ => p.nanos_eq.symm)

theorem itemsSpelling_following {p : Part} {ps : List Part} (proper : ∀ q ∈ p :: ps, q.Proper) :
    ItemsSpelling ((p :: ps).map Part.item) (p.text ++ following ps) := by
  induction ps generalizing p with
  | nil =>
    have head := Part.spelling (proper p List.mem_cons_self).named
    exact .last head (by simp [Blanks, following])
  | cons q ps ih =>
    obtain ⟨first, others⟩ := List.forall_mem_cons.mp proper
    have space : Blanks [' '] := by simpa [Blanks] using by decide
    have text : following (q :: ps) = [' '] ++ (q.text ++ following ps) := by
      simp [following]
    rw [text]
    exact .next (Part.spelling first.named) space (ih others)

theorem read_parts {p : Part} {ps : List Part} (proper : ∀ q ∈ p :: ps, q.Proper) {total : Span}
    (length : total.nanos = lengthOf (p :: ps)) : read (p.text ++ following ps) = .ok total := by
  refine (itemsSpelling_following proper).read_eq ?_ (length.trans (wholeNanos_item _).symm)
  intro i member
  obtain ⟨q, hq, rfl⟩ := List.mem_map.mp member
  exact (proper q hq).whole

end SearchLoad.Span
