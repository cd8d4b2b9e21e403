import Mathlib.Algebra.Group.Nat.Defs
import Mathlib.Data.List.Basic
import Mathlib.Data.List.Count
import Mathlib.Data.List.TakeWhile
import SearchLoad.Proofs.Number.Decimal
import SearchLoad.Span.Items

namespace SearchLoad.Span

open Number

theorem isUnitLetter_iff {c : Char} : isUnitLetter c = true ↔
    (97 ≤ c.toNat ∧ c.toNat ≤ 122) ∨ (65 ≤ c.toNat ∧ c.toNat ≤ 90) ∨ c.toNat = 181 := by
  have micro : c = 'µ' ↔ c.toNat = 181 := Char.toNat_inj.symm
  simp [isUnitLetter, micro, Char.le_def, UInt32.le_iff_toNat_le, or_assoc]

theorem isBlank_eq_false_of_isUnitLetter {c : Char} (h : isUnitLetter c = true) :
    Text.isBlank c = false := by
  have range := isUnitLetter_iff.mp h
  simp only [Text.isBlank, Bool.or_eq_false_iff, Bool.and_eq_false_iff, decide_eq_false_iff_not,
    beq_eq_false_iff_ne]
  omega

theorem isDigit_eq_false_of_isUnitLetter {c : Char} (h : isUnitLetter c = true) :
    isDigit c = false := by
  have range := isUnitLetter_iff.mp h
  rw [Bool.eq_false_iff, Ne, isDigit_iff]
  omega

theorem isDigit_eq_false_of_isBlank {c : Char} (h : Text.isBlank c = true) : isDigit c = false := by
  rw [Bool.eq_false_iff]
  intro digit
  simp [isBlank_eq_false_of_isDigit digit] at h

theorem TimeUnit.letters_of_ofName? {name : String} {u : TimeUnit} (h : ofName? name = some u) :
    name.toList ≠ [] ∧ ∀ c ∈ name.toList, isUnitLetter c = true := by
  have named : name ∈ u.names := by
    simpa using List.find?_some h
  have letters : (u.names.all fun name => !name.toList.isEmpty && name.toList.all isUnitLetter) =
      true := by
    cases u <;> decide
  have both := List.all_eq_true.mp letters name named
  rw [Bool.and_eq_true] at both
  exact ⟨by simpa using both.1, List.all_eq_true.mp both.2⟩

/-- Characters that do not count between items. -/
def Blanks (s : List Char) : Prop := ∀ c ∈ s, Text.isBlank c = true

instance (s : List Char) : Decidable (Blanks s) :=
  decidable_of_iff (s.all Text.isBlank = true) List.all_eq_true

/-- A digit, or a blank, which does not count among digits. -/
def isLoose (c : Char) : Bool := isDigit c || Text.isBlank c

/-- Digits, with blanks anywhere among them. -/
def Loose (s : List Char) : Prop := ∀ c ∈ s, isLoose c = true

instance (s : List Char) : Decidable (Loose s) :=
  decidable_of_iff (s.all isLoose = true) List.all_eq_true

/-- The number that the digits of a text write behind those of another one. -/
def numeral (n : Nat) (s : List Char) : Nat := Nat.ofDigitChars 10 (s.filter isDigit) n

/-- How many digits a text has. -/
def places (s : List Char) : Nat := s.countP isDigit

section Digits

variable {c : Char} {s : List Char} {n : Nat}

@[simp] theorem numeral_nil : numeral n [] = n := Nat.ofDigitChars_nil

@[simp] theorem places_nil : places [] = 0 := rfl

theorem numeral_digit (h : isDigit c = true) :
    numeral n (c :: s) = numeral (n * 10 + digitValue c) s := by
  rw [numeral, List.filter_cons_of_pos h, ofDigitChars_cons_eq, numeral]

theorem numeral_blank (h : Text.isBlank c = true) : numeral n (c :: s) = numeral n s := by
  rw [numeral, List.filter_cons_of_neg (by simp [isDigit_eq_false_of_isBlank h]), numeral]

theorem numeral_of_digits (digits : ∀ c ∈ s, isDigit c = true) :
    numeral n s = Nat.ofDigitChars 10 s n := by
  rw [numeral, List.filter_eq_self.mpr digits]

theorem places_digit (h : isDigit c = true) : places (c :: s) = places s + 1 := by
  rw [places, List.countP_cons_of_pos h, places]

theorem places_blank (h : Text.isBlank c = true) : places (c :: s) = places s := by
  rw [places, List.countP_cons_of_neg (by simp [isDigit_eq_false_of_isBlank h]), places]

theorem le_numeral : n ≤ numeral n s := le_ofDigitChars _ _

end Digits

/-- What stands for a fraction, if there is one: a point and digits, one or more. -/
inductive FractionSpelling : Option Fraction → List Char → Prop
  | none : FractionSpelling none []
  | some {s : List Char} (loose : Loose s) (full : places s ≠ 0) :
      FractionSpelling (some ⟨numeral 0 s, 10 ^ places s⟩) ('.' :: s)

/-- What stands for an item: digits, one or more, perhaps a fraction, and a name of the unit. -/
def Item.Spelling (i : Item) (s : List Char) : Prop :=
  ∃ c more fraction name, isDigit c = true ∧ Loose more ∧ numeral 0 (c :: more) = i.count ∧
    FractionSpelling i.fraction fraction ∧
    TimeUnit.ofName? (String.ofList name) = some i.timeUnit ∧
    s = c :: (more ++ (fraction ++ name))

/-- What stands for items, one or more, with blanks behind each. -/
inductive ItemsSpelling : List Item → List Char → Prop
  | last {i : Item} {s trail : List Char} (head : i.Spelling s) (free : Blanks trail) :
      ItemsSpelling [i] (s ++ trail)
  | next {i : Item} {is : List Item} {s gap t : List Char} (head : i.Spelling s)
      (free : Blanks gap) (tail : ItemsSpelling is t) : ItemsSpelling (i :: is) (s ++ (gap ++ t))

def Fraction.Fits (f : Fraction) : Prop :=
  f.numerator ≤ maxUnsigned ∧ f.denominator ≤ maxUnsigned

/-- The numbers of an item are of 64 bits. -/
def Item.Fits (i : Item) : Prop := i.count ≤ maxUnsigned ∧ ∀ f ∈ i.fraction, f.Fits

section Shape

variable {c : Char} {s : List Char} {i : Item} {is : List Item}

theorem isLoose_eq_false_iff : isLoose c = false ↔ isDigit c = false ∧ Text.isBlank c = false := by
  rw [isLoose, Bool.or_eq_false_iff]

theorem isLoose_eq_false_of_isUnitLetter (h : isUnitLetter c = true) : isLoose c = false := by
  rw [isLoose, isDigit_eq_false_of_isUnitLetter h, isBlank_eq_false_of_isUnitLetter h, Bool.or_self]

theorem blanks_cons_iff : Blanks (c :: s) ↔ Text.isBlank c = true ∧ Blanks s :=
  List.forall_mem_cons

theorem Item.Spelling.head (h : i.Spelling s) : ∃ c t, s = c :: t ∧ isDigit c = true := by
  obtain ⟨c, more, fraction, name, digit, -, -, -, -, rfl⟩ := h
  exact ⟨c, _, rfl, digit⟩

theorem ItemsSpelling.head {is : List Item} (h : ItemsSpelling is s) :
    ∃ c t, s = c :: t ∧ isDigit c = true := by
  cases h with
  | last head =>
    obtain ⟨c, t, rfl, digit⟩ := head.head
    exact ⟨c, _, rfl, digit⟩
  | next head =>
    obtain ⟨c, t, rfl, digit⟩ := head.head
    exact ⟨c, _, rfl, digit⟩

theorem FractionSpelling.mem {fraction : Option Fraction} (h : FractionSpelling fraction s)
    (member : c ∈ s) : isLoose c = true ∨ c = '.' := by
  cases h with
  | none => contradiction
  | some loose =>
    rcases List.mem_cons.mp member with point | behind
    · exact .inr point
    · exact .inl (loose c behind)

theorem Item.Spelling.mem (h : i.Spelling s) (member : c ∈ s) :
    isLoose c = true ∨ c = '.' ∨ isUnitLetter c = true := by
  obtain ⟨d, more, fraction, name, digit, loose, -, spelled, found, rfl⟩ := h
  have letters := (TimeUnit.letters_of_ofName? found).2
  rw [String.toList_ofList] at letters
  rcases List.mem_cons.mp member with rfl | member
  · exact .inl (by rw [isLoose, digit, Bool.true_or])
  rcases List.mem_append.mp member with member | member
  · exact .inl (loose c member)
  rcases List.mem_append.mp member with member | member
  · exact (spelled.mem member).imp_right .inl
  · exact .inr (.inr (letters c member))

theorem Item.Spelling.getLast? (h : i.Spelling s) : ∀ c ∈ s.getLast?, isUnitLetter c = true := by
  obtain ⟨d, more, fraction, name, -, -, -, -, found, rfl⟩ := h
  obtain ⟨full, letters⟩ := TimeUnit.letters_of_ofName? found
  rw [String.toList_ofList] at full letters
  have apart : d :: (more ++ (fraction ++ name)) = d :: (more ++ fraction) ++ name := by simp
  intro c last
  rw [apart, List.getLast?_append_of_ne_nil _ full] at last
  exact letters c (List.mem_of_getLast? last)

theorem ItemsSpelling.mem (h : ItemsSpelling is s) (member : c ∈ s) :
    isLoose c = true ∨ c = '.' ∨ isUnitLetter c = true := by
  have free : ∀ {gap : List Char}, Blanks gap → c ∈ gap → isLoose c = true := fun free inside => by
    rw [isLoose, free c inside, Bool.or_true]
  induction h with
  | last head trail =>
    rcases List.mem_append.mp member with inside | behind
    · exact head.mem inside
    · exact .inl (free trail behind)
  | next head gap tail ih =>
    rcases List.mem_append.mp member with inside | behind
    · exact head.mem inside
    rcases List.mem_append.mp behind with between | behind
    · exact .inl (free gap between)
    · exact ih behind

/-- Blanks behind the last item are not needed. -/
theorem ItemsSpelling.exists_core (h : ItemsSpelling is s) : ∃ core trail, s = core ++ trail ∧
    ItemsSpelling is core ∧ (∀ c ∈ core.getLast?, isUnitLetter c = true) ∧ Blanks trail := by
  induction h with
  | @last i u trail head free =>
    have bare : ItemsSpelling [i] (u ++ []) := .last head (by simp [Blanks])
    exact ⟨u, trail, rfl, by simpa using bare, head.getLast?, free⟩
  | @next i is u gap t head free tail ih =>
    obtain ⟨core, trail, rfl, spelled, last, free'⟩ := ih
    refine ⟨u ++ (gap ++ core), trail, by simp, .next head free spelled, ?_, free'⟩
    obtain ⟨d, v, rfl, -⟩ := spelled.head
    intro c hc
    rw [← List.append_assoc, List.getLast?_append_of_ne_nil _ (by simp)] at hc
    exact last c hc

theorem ItemsSpelling.trim (h : ItemsSpelling is s) : ItemsSpelling is (Text.trim s) := by
  obtain ⟨core, trail, rfl, spelled, last, free⟩ := h.exists_core
  obtain ⟨d, t, rfl, digit⟩ := spelled.head
  have trimmed : Text.trim (d :: t) = d :: t := by
    refine Text.trim_eq_self ?_ fun c hc => isBlank_eq_false_of_isUnitLetter (last c hc)
    intro c first
    obtain rfl := Option.some.inj first
    exact isBlank_eq_false_of_isDigit digit
  rwa [Text.trim_append_right free, trimmed]

/-- What is no item is not read as one. -/
theorem not_itemsSpelling_zero : ¬ ItemsSpelling is ['0'] := by
  intro h
  obtain ⟨core, trail, whole, spelled, last, -⟩ := h.exists_core
  obtain ⟨c, t, rfl, -⟩ := spelled.head
  obtain ⟨rfl, behind⟩ := List.cons.inj whole
  obtain ⟨rfl, -⟩ := List.append_eq_nil_iff.mp behind.symm
  exact absurd (last '0' rfl) (by decide)

theorem Item.Spelling.proper {s : List Char} (h : i.Spelling s) :
    ∀ f ∈ i.fraction, f.denominator ≠ 0 := by
  obtain ⟨_, _, _, _, -, -, -, fraction, -, -⟩ := h
  intro f member
  generalize i.fraction = found at fraction member
  cases fraction with
  | none => contradiction
  | @some s loose full =>
    obtain rfl := Option.some.inj member
    exact Nat.ne_of_gt (Nat.pow_pos (by decide))

theorem ItemsSpelling.exists_spelling {s : List Char} (h : ItemsSpelling is s) :
    ∀ i ∈ is, ∃ t, i.Spelling t := by
  induction h with
  | last head => simpa using ⟨_, head⟩
  | next head _ _ ih => exact List.forall_mem_cons.mpr ⟨⟨_, head⟩, ih⟩

end Shape

end SearchLoad.Span
