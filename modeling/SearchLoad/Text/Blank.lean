namespace SearchLoad.Text

/-- The characters that have the Unicode property White_Space. -/
def isBlank (c : Char) : Bool :=
  let n := c.toNat
  (9 ≤ n && n ≤ 13) || n == 0x20 || n == 0x85 || n == 0xA0 || n == 0x1680 ||
    (0x2000 ≤ n && n ≤ 0x200A) || n == 0x2028 || n == 0x2029 || n == 0x202F ||
    n == 0x205F || n == 0x3000

def trimEnd (s : List Char) : List Char := (s.reverse.dropWhile isBlank).reverse

def trim (s : List Char) : List Char := trimEnd (s.dropWhile isBlank)

def trimmed (s : String) : String := String.ofList (trim s.toList)

def isAllBlank (s : List Char) : Bool := s.all isBlank

theorem trimEnd_isPrefix (s : List Char) : trimEnd s <+: s := by
  rw [trimEnd, ← List.reverse_suffix, List.reverse_reverse]
  exact List.dropWhile_suffix isBlank

theorem isBlank_of_mem_getLast?_trimEnd {s : List Char} {c : Char}
    (h : c ∈ (trimEnd s).getLast?) : isBlank c = false := by
  have first := List.head?_dropWhile_not isBlank s.reverse
  rw [trimEnd, List.getLast?_reverse, Option.mem_def] at h
  rw [h] at first
  exact first

theorem isBlank_of_mem_getLast?_trim {s : List Char} {c : Char} (h : c ∈ (trim s).getLast?) :
    isBlank c = false := isBlank_of_mem_getLast?_trimEnd h

theorem isBlank_of_mem_head?_trim {s : List Char} {c : Char} (h : c ∈ (trim s).head?) :
    isBlank c = false := by
  have first := List.head?_dropWhile_not isBlank s
  obtain ⟨rest, e⟩ := trimEnd_isPrefix (s.dropWhile isBlank)
  have head : (trimEnd (s.dropWhile isBlank)).head? = some c := h
  rw [← e, List.head?_append, head] at first
  exact first

theorem trimEnd_eq_self_iff {s : List Char} :
    trimEnd s = s ↔ ∀ c ∈ s.getLast?, isBlank c = false := by
  rw [trimEnd, List.reverse_eq_iff]
  rw [← List.head?_reverse]
  generalize s.reverse = t
  cases t with
  | nil => simp
  | cons c t =>
    cases h : isBlank c with
    | false => simp [h]
    | true =>
      simp only [List.dropWhile_cons, h, if_true, List.head?_cons, Option.mem_def,
        Option.some.injEq, forall_eq']
      constructor
      · intro e
        have := congrArg List.length e
        have := (List.dropWhile_sublist isBlank (l := t)).length_le
        simp at *
        omega
      · simp

theorem trim_eq_self {s : List Char} (first : ∀ c ∈ s.head?, isBlank c = false)
    (last : ∀ c ∈ s.getLast?, isBlank c = false) : trim s = s := by
  have h : s.dropWhile isBlank = s := by
    cases s with
    | nil => rfl
    | cons c s => simp [first c (by simp)]
  rw [trim, h, trimEnd_eq_self_iff.mpr last]

theorem trim_append_left {lead : List Char} (free : ∀ c ∈ lead, isBlank c = true)
    (s : List Char) : trim (lead ++ s) = trim s := by
  rw [trim, List.dropWhile_append_of_pos free, trim]

theorem trimEnd_append {trail : List Char} (free : ∀ c ∈ trail, isBlank c = true)
    (s : List Char) : trimEnd (s ++ trail) = trimEnd s := by
  rw [trimEnd, List.reverse_append, List.dropWhile_append_of_pos (by simpa using free), trimEnd]

theorem trim_append_right {trail : List Char} (free : ∀ c ∈ trail, isBlank c = true)
    (s : List Char) : trim (s ++ trail) = trim s := by
  induction s with
  | nil =>
    have blank := trim_append_left free []
    rwa [List.append_nil] at blank
  | cons c s ih =>
    cases blank : isBlank c with
    | true =>
      have one : ∀ d ∈ [c], isBlank d = true := by simpa using blank
      exact (trim_append_left one _).trans (ih.trans (trim_append_left one s).symm)
    | false =>
      rw [trim, trim, List.cons_append, List.dropWhile_cons_of_neg (by simp [blank]),
        List.dropWhile_cons_of_neg (by simp [blank]), ← List.cons_append, trimEnd_append free]

end SearchLoad.Text
