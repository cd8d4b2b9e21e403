import SearchLoad.Number.Integer
import SearchLoad.Text.Blank

namespace SearchLoad.Number

theorem isDigit_iff {c : Char} : isDigit c = true ↔ 48 ≤ c.toNat ∧ c.toNat ≤ 57 := by
  simp [isDigit, Char.le_def, UInt32.le_iff_toNat_le]

theorem isBlank_eq_false_of_isDigit {c : Char} (h : isDigit c = true) :
    Text.isBlank c = false := by
  have range := isDigit_iff.mp h
  simp only [Text.isBlank, Bool.or_eq_false_iff, Bool.and_eq_false_iff, decide_eq_false_iff_not,
    beq_eq_false_iff_ne]
  omega

theorem isDigit_of_mem_toString {n : Nat} {c : Char} (h : c ∈ (toString n).toList) :
    isDigit c = true := by
  rw [Nat.toString_eq_repr, Nat.toList_repr] at h
  have digit : c.isDigit = true := Nat.isDigit_of_mem_toDigits (by decide) (by decide) h
  simpa [isDigit, Char.isDigit, Char.le_def] using digit

/-- A number has a first digit, and the others continue it. -/
theorem toString_eq_cons (n : Nat) : ∃ c ds, (toString n).toList = c :: ds ∧
    (∀ d ∈ c :: ds, isDigit d = true) ∧ Nat.ofDigitChars 10 ds (digitValue c) = n := by
  have written : (toString n).toList = Nat.toDigits 10 n := Nat.toList_repr
  have value : Nat.ofDigitChars 10 (toString n).toList 0 = n := by
    rw [written, Nat.ofDigitChars_ten_toDigits]
  cases h : (toString n).toList with
  | nil => exact absurd (written ▸ h) Nat.toDigits_ne_nil
  | cons c ds =>
    refine ⟨c, ds, rfl, ?_, ?_⟩
    · intro d hd
      exact isDigit_of_mem_toString (h ▸ hd)
    · rw [h, Nat.ofDigitChars_cons, Nat.mul_zero, Nat.zero_add] at value
      exact value

theorem le_ofDigitChars (s : List Char) (n : Nat) : n ≤ Nat.ofDigitChars 10 s n := by
  induction s generalizing n with
  | nil => exact Nat.le_of_eq Nat.ofDigitChars_nil.symm
  | cons c s ih =>
    rw [Nat.ofDigitChars_cons]
    have further := ih (10 * n + (c.toNat - '0'.toNat))
    omega

theorem ofDigitChars_cons_eq (c : Char) (s : List Char) (n : Nat) :
    Nat.ofDigitChars 10 (c :: s) n = Nat.ofDigitChars 10 s (n * 10 + digitValue c) := by
  rw [Nat.ofDigitChars_cons, Nat.mul_comm, digitValue]

theorem ofDigits_eq (s : List Char) : ofDigits s = Nat.ofDigitChars 10 s 0 := by
  have folded : ∀ n, s.foldl (fun n c => n * 10 + digitValue c) n = Nat.ofDigitChars 10 s n := by
    induction s with
    | nil => exact fun n => rfl
    | cons c s ih =>
      intro n
      rw [List.foldl_cons, ih, ofDigitChars_cons_eq]
  exact folded 0

theorem readDigits_eq_ok_iff {s : List Char} {n m : Nat} (small : n ≤ maxUnsigned) :
    readDigits n s = .ok m ↔
      (∀ c ∈ s, isDigit c = true) ∧ Nat.ofDigitChars 10 s n = m ∧ m ≤ maxUnsigned := by
  induction s generalizing n with
  | nil =>
    rw [readDigits, Except.ok.injEq, Nat.ofDigitChars_nil]
    constructor
    · rintro rfl
      exact ⟨by simp, rfl, small⟩
    · exact fun h => h.2.1
  | cons c s ih =>
    rw [readDigits, List.forall_mem_cons, ofDigitChars_cons_eq]
    cases digit : isDigit c with
    | false => simp
    | true =>
      rw [Bool.not_true, if_neg Bool.false_ne_true]
      split
      · rename_i large
        constructor
        · simp
        · rintro ⟨-, rfl, fits⟩
          have grows := le_ofDigitChars s (n * 10 + digitValue c)
          omega
      · rename_i further
        rw [ih (Nat.le_of_not_lt further)]
        simp

/-- Digits, one or more, that write a number; a plus sign may stand before them. -/
def IsDecimal (n : Nat) (s : List Char) : Prop :=
  ∃ ds, ds ≠ [] ∧ (∀ c ∈ ds, isDigit c = true) ∧ Nat.ofDigitChars 10 ds 0 = n ∧
    (s = ds ∨ s = '+' :: ds)

theorem isDecimal_toString (n : Nat) : IsDecimal n (toString n).toList := by
  obtain ⟨c, ds, written, digits, value⟩ := toString_eq_cons n
  refine ⟨c :: ds, by simp, digits, ?_, .inl written⟩
  rw [ofDigitChars_cons_eq, Nat.zero_mul, Nat.zero_add]
  exact value

theorem IsDecimal.mem {n : Nat} {s : List Char} {c : Char} (h : IsDecimal n s)
    (member : c ∈ s) : isDigit c = true ∨ c = '+' := by
  obtain ⟨ds, -, digits, -, rfl | rfl⟩ := h
  · exact .inl (digits c member)
  · exact (List.mem_cons.mp member).symm.imp_left (digits c)

theorem IsDecimal.ne_nil {n : Nat} {s : List Char} (h : IsDecimal n s) : s ≠ [] := by
  obtain ⟨ds, nonempty, -, -, rfl | rfl⟩ := h
  · exact nonempty
  · exact List.cons_ne_nil _ _

theorem IsDecimal.solid {n : Nat} {s : List Char} (h : IsDecimal n s) :
    ∀ c ∈ s, Text.isBlank c = false := by
  intro c member
  rcases h.mem member with digit | rfl
  · exact isBlank_eq_false_of_isDigit digit
  · decide

theorem IsDecimal.trim_eq {n : Nat} {s : List Char} (h : IsDecimal n s) : Text.trim s = s :=
  Text.trim_eq_self (fun c first => h.solid c (List.mem_of_head? first))
    (fun c last => h.solid c (List.mem_of_getLast? last))

/-- An unsigned number is read from the decimal numbers of 64 bits and from nothing else. -/
theorem readUnsigned_eq_ok_iff {s : List Char} {n : Nat} :
    readUnsigned s = .ok n ↔ IsDecimal n s ∧ n ≤ maxUnsigned := by
  have digits : ∀ ds, readDigits 0 ds = .ok n ↔
      (∀ c ∈ ds, isDigit c = true) ∧ Nat.ofDigitChars 10 ds 0 = n ∧ n ≤ maxUnsigned :=
    fun ds => readDigits_eq_ok_iff (Nat.zero_le _)
  have sign : isDigit '+' = false := by decide
  unfold readUnsigned
  split
  · simp +contextual [IsDecimal]
  · have bare : ¬ IsDecimal n ['+'] := by
      rintro ⟨ds, nonempty, each, -, same | same⟩
      · simp [← same, sign] at each
      · exact nonempty (List.cons.inj same).2.symm
    simp [bare]
  · rename_i ds nonempty
    rw [digits]
    constructor
    · rintro ⟨each, value, fits⟩
      exact ⟨⟨ds, nonempty, each, value, .inr rfl⟩, fits⟩
    · rintro ⟨⟨ds', -, each, value, same | same⟩, fits⟩
      · simp [← same, sign] at each
      · obtain rfl := (List.cons.inj same).2
        exact ⟨each, value, fits⟩
  · rename_i nonempty _ unsigned
    rw [digits]
    constructor
    · rintro ⟨each, value, fits⟩
      exact ⟨⟨s, nonempty, each, value, .inl rfl⟩, fits⟩
    · rintro ⟨⟨ds, -, each, value, same | same⟩, fits⟩
      · exact ⟨same ▸ each, same ▸ value, fits⟩
      · exact absurd same (unsigned ds)

theorem readUnsigned_toString {n : Nat} (fits : n ≤ maxUnsigned) :
    readUnsigned (toString n).toList = .ok n :=
  readUnsigned_eq_ok_iff.mpr ⟨isDecimal_toString n, fits⟩

end SearchLoad.Number
