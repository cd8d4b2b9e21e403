import SearchLoad.Proofs.Fallible
import SearchLoad.Proofs.Span.Spelling

namespace SearchLoad.Span

open Number

/-- Nothing else than a letter comes next. -/
def Named (s : List Char) : Prop := ∀ c ∈ s.head?, isUnitLetter c = true

/-- Nothing comes next that would belong to the name of a unit, or to no item at all. -/
def Closed (s : List Char) : Prop := ∀ c ∈ s.head?, isDigit c = true ∨ Text.isBlank c = true

/-- Nothing comes next that would belong to the digits before. -/
def Solid (s : List Char) : Prop := ∀ c ∈ s.head?, isLoose c = false

section Numbers

variable {c : Char} {s t u rest : List Char} {n m : Nat}

theorem Named.solid (h : Named s) : Solid s :=
  fun c first => isLoose_eq_false_of_isUnitLetter (h c first)

theorem FractionSpelling.solid {fraction : Option Fraction} (h : FractionSpelling fraction s)
    (named : Named rest) : Solid (s ++ rest) := by
  cases h with
  | none => exact named.solid
  | some =>
    intro c first
    obtain rfl := Option.some.inj first
    decide

theorem exists_loose (s : List Char) : ∃ t u, s = t ++ u ∧ Loose t ∧ Solid u := by
  refine ⟨s.takeWhile isLoose, s.dropWhile isLoose, List.takeWhile_append_dropWhile.symm,
    fun c member => List.mem_takeWhile_imp member, ?_⟩
  intro c first
  have stop := List.head?_dropWhile_not isLoose s
  rwa [Option.mem_def.mp first] at stop

theorem Loose.takeWhile_append (loose : Loose t) (solid : Solid u) :
    (t ++ u).takeWhile isLoose = t := by
  rw [List.takeWhile_append_of_pos loose]
  cases u with
  | nil => simp
  | cons c u =>
    have stop : isLoose c = false := solid c rfl
    rw [List.takeWhile_cons_of_neg (by simp [stop]), List.append_nil]

/-- Digits are taken as far as they go. -/
theorem Loose.append_inj {t' u' : List Char} (loose : Loose t) (solid : Solid u)
    (loose' : Loose t') (solid' : Solid u') (h : t ++ u = t' ++ u') : t = t' ∧ u = u' := by
  have same := congrArg (List.takeWhile isLoose) h
  rw [loose.takeWhile_append solid, loose'.takeWhile_append solid'] at same
  subst same
  exact ⟨rfl, List.append_cancel_left h⟩

theorem fit_eq_ok_iff : fit n = .ok m ↔ n ≤ maxUnsigned ∧ n = m := by
  unfold fit
  split
  · rename_i fits
    simp [fits]
  · rename_i large
    simp [large]

/-- A fraction ends at its unit, or at the end. -/
theorem readFraction_solid {f g : Fraction} {place : List Char} (solid : Solid u) :
    readFraction f place u = .ok (g, rest) ↔
      f.denominator ≠ 1 ∧ Named u ∧ f = g ∧ u = rest := by
  cases u with
  | nil => by_cases bare : f.denominator = 1 <;> simp [readFraction, bare, Named]
  | cons c u =>
    obtain ⟨digit, blank⟩ := isLoose_eq_false_iff.mp (solid c rfl)
    by_cases letter : isUnitLetter c = true
    · by_cases bare : f.denominator = 1 <;>
        simp [readFraction, digit, blank, letter, bare, Named]
    · simp [readFraction, digit, blank, letter, Named]

theorem readFraction_loose {f g : Fraction} {place : List Char} (loose : Loose t)
    (solid : Solid u) (fits : f.Fits) : readFraction f place (t ++ u) = .ok (g, rest) ↔
      ⟨numeral f.numerator t, f.denominator * 10 ^ places t⟩ = g ∧ g.Fits ∧ g.denominator ≠ 1 ∧
        Named u ∧ u = rest := by
  induction t generalizing f place with
  | nil =>
    rw [List.nil_append, numeral_nil, places_nil, Nat.pow_zero, Nat.mul_one,
      readFraction_solid solid]
    constructor
    · rintro ⟨more, named, rfl, same⟩
      exact ⟨rfl, fits, more, named, same⟩
    · rintro ⟨rfl, -, more, named, same⟩
      exact ⟨more, named, rfl, same⟩
  | cons c t ih =>
    obtain ⟨first, loose⟩ := List.forall_mem_cons.mp loose
    rw [List.cons_append, readFraction]
    by_cases digit : isDigit c = true
    · simp only [if_pos digit, bind_eq_ok_iff, fit_eq_ok_iff, numeral_digit digit,
        places_digit digit, Nat.pow_succ', ← Nat.mul_assoc]
      constructor
      · rintro ⟨_, ⟨le, rfl⟩, _, ⟨le', rfl⟩, read⟩
        exact (ih loose ⟨le', le⟩).mp read
      · rintro ⟨rfl, fits, behind⟩
        have le : f.denominator * 10 ≤ maxUnsigned :=
          Nat.le_trans (Nat.le_mul_of_pos_right _ (Nat.pow_pos (by decide))) fits.2
        have le' : f.numerator * 10 + digitValue c ≤ maxUnsigned := Nat.le_trans le_numeral fits.1
        exact ⟨_, ⟨le, rfl⟩, _, ⟨le', rfl⟩, (ih loose ⟨le', le⟩).mpr ⟨rfl, fits, behind⟩⟩
    · have blank : Text.isBlank c = true := by simpa [isLoose, digit] using first
      rw [if_neg digit, if_pos blank, numeral_blank blank, places_blank blank]
      exact ih loose fits

theorem readFraction_eq_ok_iff {f g : Fraction} {place : List Char} (fits : f.Fits) :
    readFraction f place s = .ok (g, rest) ↔ ∃ t, s = t ++ rest ∧ Loose t ∧
      ⟨numeral f.numerator t, f.denominator * 10 ^ places t⟩ = g ∧ g.Fits ∧ g.denominator ≠ 1 ∧
      Named rest := by
  obtain ⟨t, u, rfl, loose, solid⟩ := exists_loose s
  rw [readFraction_loose loose solid fits]
  constructor
  · rintro ⟨value, fits, more, named, rfl⟩
    exact ⟨t, rfl, loose, value, fits, more, named⟩
  · rintro ⟨t', whole, loose', value, fits, more, named⟩
    obtain ⟨rfl, rfl⟩ := loose.append_inj solid loose' named.solid whole
    exact ⟨value, fits, more, named, rfl⟩

theorem readAmount_loose {a : Amount × List Char} (loose : Loose t) (small : n ≤ maxUnsigned) :
    readAmount n (t ++ u) = .ok a ↔
      numeral n t ≤ maxUnsigned ∧ readAmount (numeral n t) u = .ok a := by
  induction t generalizing n with
  | nil =>
    rw [List.nil_append, numeral_nil]
    exact (and_iff_right small).symm
  | cons c t ih =>
    obtain ⟨first, loose⟩ := List.forall_mem_cons.mp loose
    rw [List.cons_append, readAmount]
    by_cases digit : isDigit c = true
    · simp only [if_pos digit, bind_eq_ok_iff, fit_eq_ok_iff, numeral_digit digit]
      constructor
      · rintro ⟨_, ⟨le, rfl⟩, read⟩
        exact (ih loose le).mp read
      · rintro ⟨fits, read⟩
        have le : n * 10 + digitValue c ≤ maxUnsigned := Nat.le_trans le_numeral fits
        exact ⟨_, ⟨le, rfl⟩, (ih loose le).mpr ⟨fits, read⟩⟩
    · have blank : Text.isBlank c = true := by simpa [isLoose, digit] using first
      rw [if_neg digit, if_pos blank, numeral_blank blank]
      exact ih loose small

/-- A number without a fraction ends at its unit, or at the end. -/
theorem readAmount_named {a : Amount} (named : Named u) :
    readAmount n u = .ok (a, rest) ↔ a = ⟨n, none⟩ ∧ u = rest := by
  cases u with
  | nil => simp [readAmount, eq_comm]
  | cons c u =>
    have letter : isUnitLetter c = true := named c rfl
    obtain ⟨digit, blank⟩ := isLoose_eq_false_iff.mp (isLoose_eq_false_of_isUnitLetter letter)
    simp [readAmount, digit, blank, letter, eq_comm]

theorem readAmount_point {a : Amount} :
    readAmount n ('.' :: u) = .ok (a, rest) ↔ ∃ t, u = t ++ rest ∧ Loose t ∧ places t ≠ 0 ∧
      a = ⟨n, some ⟨numeral 0 t, 10 ^ places t⟩⟩ ∧ (∀ f ∈ a.fraction, f.Fits) ∧ Named rest := by
  have first : Fraction.Fits ⟨0, 1⟩ := ⟨by decide, by decide⟩
  have digit : isDigit '.' = false := by decide
  have blank : Text.isBlank '.' = false := by decide
  have letter : isUnitLetter '.' = false := by decide
  simp only [readAmount, digit, blank, letter, Bool.false_eq_true, if_false, if_true,
    bind_eq_ok_iff, Prod.exists, readFraction_eq_ok_iff first, Nat.one_mul]
  constructor
  · rintro ⟨f, rest, ⟨t, rfl, loose, rfl, fits, more, named⟩, last⟩
    obtain ⟨rfl, rfl⟩ := Prod.mk.inj (Except.ok.inj last)
    exact ⟨t, rfl, loose, by simpa using more, rfl, by simpa using fits, named⟩
  · rintro ⟨t, rfl, loose, full, rfl, fits, named⟩
    exact ⟨_, rest, ⟨t, rfl, loose, rfl, fits _ rfl, by simpa using full, named⟩, rfl⟩

theorem readAmount_solid {a : Amount} (solid : Solid u) :
    readAmount n u = .ok (a, rest) ↔ ∃ v, u = v ++ rest ∧ n = a.count ∧
      FractionSpelling a.fraction v ∧ (∀ f ∈ a.fraction, f.Fits) ∧ Named rest := by
  obtain ⟨count, fraction⟩ := a
  constructor
  · intro read
    by_cases named : Named u
    · obtain ⟨same, rfl⟩ := (readAmount_named named).mp read
      obtain ⟨rfl, rfl⟩ := Amount.mk.inj same
      exact ⟨[], rfl, rfl, .none, by simp, named⟩
    cases u with
    | nil => simp [Named] at named
    | cons c u =>
      obtain ⟨digit, blank⟩ := isLoose_eq_false_iff.mp (solid c rfl)
      have letter : isUnitLetter c = false := by simpa [Named] using named
      by_cases point : c = '.'
      · subst point
        obtain ⟨t, rfl, loose, full, same, fits, named⟩ := readAmount_point.mp read
        obtain ⟨rfl, rfl⟩ := Amount.mk.inj same
        exact ⟨'.' :: t, rfl, rfl, .some loose full, fits, named⟩
      · simp [readAmount, digit, blank, letter, point] at read
  · rintro ⟨v, rfl, rfl, spelled, fits, named⟩
    cases spelled with
    | none => exact (readAmount_named named).mpr ⟨rfl, rfl⟩
    | some loose full => exact readAmount_point.mpr ⟨_, rfl, loose, full, rfl, fits, named⟩

theorem readAmount_eq_ok_iff {a : Amount} (small : n ≤ maxUnsigned) :
    readAmount n s = .ok (a, rest) ↔ ∃ t v, s = t ++ (v ++ rest) ∧ Loose t ∧
      numeral n t = a.count ∧ a.count ≤ maxUnsigned ∧ FractionSpelling a.fraction v ∧
      (∀ f ∈ a.fraction, f.Fits) ∧ Named rest := by
  obtain ⟨t, u, rfl, loose, solid⟩ := exists_loose s
  rw [readAmount_loose loose small, readAmount_solid solid]
  constructor
  · rintro ⟨fits, v, rfl, count, behind⟩
    exact ⟨t, v, rfl, loose, count, count ▸ fits, behind⟩
  · rintro ⟨t', v, whole, loose', count, fits, fraction, fits', named⟩
    obtain ⟨rfl, rfl⟩ := loose.append_inj solid loose' (fraction.solid named) whole
    exact ⟨count ▸ fits, v, rfl, count, fraction, fits', named⟩

theorem findUnit_eq_ok_iff {name : String} {v : TimeUnit} :
    findUnit n name = .ok v ↔ TimeUnit.ofName? name = some v := by
  unfold findUnit
  split <;> simp_all

end Numbers

section Items

variable {c : Char} {s t rest : List Char} {i : Item}

theorem Closed.not_letter (h : Closed rest) : ∀ c ∈ rest.head?, isUnitLetter c = false := by
  intro c first
  rw [Bool.eq_false_iff]
  intro letter
  have loose := isLoose_eq_false_iff.mp (isLoose_eq_false_of_isUnitLetter letter)
  simpa [loose] using h c first

/-- The letters of a name are taken up to where nothing more belongs to it. -/
theorem span_letters (letters : ∀ c ∈ t, isUnitLetter c = true) (closed : Closed rest) :
    (t ++ rest).takeWhile isUnitLetter = t ∧ (t ++ rest).dropWhile isUnitLetter = rest := by
  rw [List.takeWhile_append_of_pos letters, List.dropWhile_append_of_pos letters]
  cases rest with
  | nil => simp
  | cons c rest =>
    have stop : isUnitLetter c = false := closed.not_letter c rfl
    simp [stop]

theorem closed_iff : (rest.head?.any fun c => !isDigit c && !Text.isBlank c) = false ↔
    Closed rest := by
  cases rest with
  | nil => simp [Closed]
  | cons c rest => cases digit : isDigit c <;> simp [Closed, digit]

/-- An item is read from what stands for it, up to where its unit ends. -/
theorem readItem_eq_ok_iff (digit : isDigit c = true) :
    readItem (digitValue c) s = .ok (i, rest) ↔
      ∃ t, c :: s = t ++ rest ∧ i.Spelling t ∧ i.Fits ∧ Closed rest := by
  have small : digitValue c ≤ maxUnsigned := by
    have range := isDigit_iff.mp digit
    have zero : '0'.toNat = 48 := rfl
    unfold digitValue maxUnsigned
    omega
  have value : ∀ t, numeral 0 (c :: t) = numeral (digitValue c) t := fun t => by
    rw [numeral_digit digit, Nat.zero_mul, Nat.zero_add]
  simp only [readItem, bind_eq_ok_iff, Prod.exists, readAmount_eq_ok_iff small]
  constructor
  · rintro ⟨amount, s', ⟨t, v, rfl, loose, count, fits, fraction, fits', -⟩, step⟩
    split at step
    · simp [bind_eq_ok_iff] at step
    · rename_i closed
      simp only [bind_eq_ok_iff, findUnit_eq_ok_iff] at step
      obtain ⟨u, found, last⟩ := step
      obtain ⟨rfl, rfl⟩ := Prod.mk.inj (Except.ok.inj last)
      refine ⟨c :: (t ++ (v ++ s'.takeWhile isUnitLetter)), by simp, ?_, ⟨fits, fits'⟩, ?_⟩
      · exact ⟨c, t, v, _, digit, loose, (value t).trans count, fraction, found, rfl⟩
      · exact closed_iff.mp (by simpa using closed)
  · rintro ⟨t, whole, ⟨c', more, v, name, -, loose, count, fraction, found, rfl⟩, fits, closed⟩
    obtain ⟨rfl, rfl⟩ := List.cons.inj whole
    obtain ⟨full, letters⟩ := TimeUnit.letters_of_ofName? found
    rw [String.toList_ofList] at full letters
    obtain ⟨taken, left⟩ := span_letters letters closed
    have named : Named (name ++ rest) := by
      intro d first
      rw [List.head?_append_of_ne_nil _ full] at first
      exact letters d (List.mem_of_head? first)
    refine ⟨⟨i.count, i.fraction⟩, name ++ rest,
      ⟨more, v, by simp, loose, (value more).symm.trans count, fits.1, fraction, fits.2, named⟩, ?_⟩
    rw [taken, left, closed_iff.mpr closed, if_neg Bool.false_ne_true]
    exact bind_eq_ok_iff.mpr ⟨_, findUnit_eq_ok_iff.mpr found, rfl⟩

/-- The first digit of an item, behind blanks. -/
theorem readFirst_eq_ok_some_iff {n : Nat} : readFirst s = .ok (some (n, t)) ↔
    ∃ gap c, Blanks gap ∧ isDigit c = true ∧ digitValue c = n ∧ s = gap ++ c :: t := by
  constructor
  · intro read
    unfold readFirst at read
    split at read
    · simp at read
    · rename_i c u found
      split at read
      · rename_i digit
        obtain ⟨rfl, rfl⟩ := Prod.mk.inj (Option.some.inj (Except.ok.inj read))
        refine ⟨s.takeWhile Text.isBlank, c, fun d => List.mem_takeWhile_imp, digit, rfl, ?_⟩
        rw [← found, List.takeWhile_append_dropWhile]
      · contradiction
  · rintro ⟨gap, c, free, digit, rfl, rfl⟩
    have left : (gap ++ c :: t).dropWhile Text.isBlank = c :: t := by
      rw [List.dropWhile_append_of_pos free,
        List.dropWhile_cons_of_neg (by simp [isBlank_eq_false_of_isDigit digit])]
    rw [readFirst, left]
    simp only [digit, if_true]

theorem readFirst_eq_ok_none_iff : readFirst s = .ok none ↔ Blanks s := by
  rw [Blanks, ← List.dropWhile_eq_nil_iff]
  unfold readFirst
  split
  · rename_i found
    simp [found]
  · rename_i c u found
    split <;> simp [found]

/-- The next item may follow at once. -/
theorem readNext_eq_ok_some_iff {n : Nat} (closed : Closed s) : readNext s = .ok (some (n, t)) ↔
    ∃ gap c, Blanks gap ∧ isDigit c = true ∧ digitValue c = n ∧ s = gap ++ c :: t := by
  cases s with
  | nil => simp [readNext]
  | cons c s =>
    rw [readNext]
    split
    · rename_i digit
      constructor
      · intro read
        obtain ⟨rfl, rfl⟩ := Prod.mk.inj (Option.some.inj (Except.ok.inj read))
        exact ⟨[], c, by simp [Blanks], digit, rfl, rfl⟩
      · rintro ⟨gap, d, free, -, rfl, whole⟩
        cases gap with
        | nil =>
          obtain ⟨rfl, rfl⟩ := List.cons.inj whole
          rfl
        | cons b gap =>
          obtain ⟨rfl, -⟩ := List.cons.inj whole
          simp [isBlank_eq_false_of_isDigit digit, blanks_cons_iff] at free
    · rename_i other
      have blank : Text.isBlank c = true := (closed c rfl).resolve_left other
      rw [readFirst_eq_ok_some_iff]
      constructor
      · rintro ⟨gap, d, free, digit, value, rfl⟩
        exact ⟨c :: gap, d, blanks_cons_iff.mpr ⟨blank, free⟩, digit, value, rfl⟩
      · rintro ⟨gap, d, free, digit, value, whole⟩
        cases gap with
        | nil =>
          obtain ⟨rfl, -⟩ := List.cons.inj whole
          exact absurd digit other
        | cons b gap =>
          obtain ⟨rfl, rfl⟩ := List.cons.inj whole
          exact ⟨gap, d, (blanks_cons_iff.mp free).2, digit, value, rfl⟩

theorem readNext_eq_ok_none_iff (closed : Closed s) : readNext s = .ok none ↔ Blanks s := by
  cases s with
  | nil => simp [readNext, Blanks]
  | cons c s =>
    rw [readNext, blanks_cons_iff]
    split
    · rename_i digit
      simp [isBlank_eq_false_of_isDigit digit]
    · rename_i other
      rw [readFirst_eq_ok_none_iff, (closed c rfl).resolve_left other]
      simp

theorem Closed.blanks_append {gap : List Char} (free : Blanks gap) (h : Closed s) :
    Closed (gap ++ s) := by
  cases gap with
  | nil => exact h
  | cons c gap =>
    intro d first
    obtain rfl := Option.some.inj first
    exact .inr (free c List.mem_cons_self)

/-- An item is added, and then what follows it. -/
theorem addItems_item (fuel : Nat) (sum : Span) (h : i.Spelling (c :: t)) (fits : i.Fits)
    (closed : Closed rest) : addItems (fuel + 1) sum (digitValue c) (t ++ rest) =
      addItem sum i >>= fun sum => readNext rest >>= fun found =>
        match found with
        | none => .ok sum
        | some (n, s) => addItems fuel sum n s := by
  obtain ⟨d, u, whole, digit⟩ := h.head
  obtain ⟨rfl, rfl⟩ := List.cons.inj whole
  have read := (readItem_eq_ok_iff digit).mpr ⟨c :: t, List.cons_append.symm, h, fits, closed⟩
  rw [addItems, read]
  rfl

theorem addItems_last (fuel : Nat) (sum : Span) (h : i.Spelling (c :: t)) (fits : i.Fits)
    (free : Blanks rest) :
    addItems (fuel + 1) sum (digitValue c) (t ++ rest) = addItem sum i := by
  have closed : Closed rest := fun c first => .inr (free c (List.mem_of_head? first))
  rw [addItems_item fuel sum h fits closed, (readNext_eq_ok_none_iff closed).mpr free]
  cases addItem sum i <;> rfl

theorem addItems_next (fuel : Nat) (sum : Span) (h : i.Spelling (c :: t)) (fits : i.Fits)
    {gap : List Char} (free : Blanks gap) {d : Char} (digit : isDigit d = true) :
    addItems (fuel + 1) sum (digitValue c) (t ++ (gap ++ d :: s)) =
      addItem sum i >>= fun sum => addItems fuel sum (digitValue d) s := by
  have closed : Closed (gap ++ d :: s) := .blanks_append free (by simp [Closed, digit])
  have next := (readNext_eq_ok_some_iff closed).mpr ⟨gap, d, free, digit, rfl, rfl⟩
  rw [addItems_item fuel sum h fits closed, next]
  rfl

theorem spelling_of_addItems {fuel : Nat} {sum total : Span} (digit : isDigit c = true)
    (enough : s.length < fuel) (read : addItems fuel sum (digitValue c) s = .ok total) :
    ∃ is, ItemsSpelling is (c :: s) ∧ (∀ i ∈ is, i.Fits) ∧ is.foldlM addItem sum = .ok total := by
  induction fuel generalizing sum c s with
  | zero => contradiction
  | succ fuel ih =>
    simp only [addItems, bind_eq_ok_iff, Prod.exists] at read
    obtain ⟨i, rest, item, sofar, added, found, next, step⟩ := read
    obtain ⟨t, whole, spelled, fits, closed⟩ := (readItem_eq_ok_iff digit).mp item
    cases found with
    | none =>
      obtain rfl := Except.ok.inj step
      have free := (readNext_eq_ok_none_iff closed).mp next
      exact ⟨[i], whole ▸ .last spelled free, by simpa using fits, by simpa using added⟩
    | some r =>
      obtain ⟨n, s'⟩ := r
      obtain ⟨gap, d, free, digit', rfl, rfl⟩ := (readNext_eq_ok_some_iff closed).mp next
      have shorter : s'.length < fuel := by
        have lengths := congrArg List.length whole
        obtain ⟨_, _, rfl, -⟩ := spelled.head
        simp at lengths
        omega
      obtain ⟨is, spelled', fits', rest⟩ := ih digit' shorter step
      refine ⟨i :: is, whole ▸ .next spelled free spelled', ?_, ?_⟩
      · exact List.forall_mem_cons.mpr ⟨fits, fits'⟩
      · exact bind_eq_ok_iff.mpr ⟨sofar, added, rest⟩

theorem addItems_of_spelling {is : List Item} {text : List Char} (h : ItemsSpelling is text)
    (fits : ∀ i ∈ is, i.Fits) (whole : text = c :: s) {fuel : Nat} (enough : s.length < fuel)
    {sum total : Span} (added : is.foldlM addItem sum = .ok total) :
    addItems fuel sum (digitValue c) s = .ok total := by
  induction h generalizing c s fuel sum with
  | @last i u trail head free =>
    obtain ⟨fuel, rfl⟩ := Nat.exists_eq_add_one.mpr (Nat.zero_lt_of_lt enough)
    obtain ⟨d, t, rfl, -⟩ := head.head
    obtain ⟨rfl, rfl⟩ := List.cons.inj (List.cons_append ▸ whole)
    rw [addItems_last fuel sum head (fits i List.mem_cons_self) free]
    simpa using added
  | @next i is u gap v head free tail ih =>
    obtain ⟨fuel, rfl⟩ := Nat.exists_eq_add_one.mpr (Nat.zero_lt_of_lt enough)
    obtain ⟨d, t, rfl, -⟩ := head.head
    obtain ⟨rfl, rfl⟩ := List.cons.inj (List.cons_append ▸ whole)
    obtain ⟨e, v, rfl, digit⟩ := tail.head
    obtain ⟨fit, fits⟩ := List.forall_mem_cons.mp fits
    rw [List.foldlM_cons, bind_eq_ok_iff] at added
    obtain ⟨sofar, first, more⟩ := added
    have shorter : v.length < fuel := by
      simp only [List.length_append, List.length_cons] at enough
      omega
    rw [addItems_next fuel sum head fit free digit, first]
    exact ih fits rfl shorter more

/-- A span is read from what is written as items, or as zero, and from nothing else. -/
theorem read_eq_ok_iff {text : List Char} {total : Span} : read text = .ok total ↔
    text = ['0'] ∧ total = zero ∨ ∃ lead t is, text = lead ++ t ∧ Blanks lead ∧
      ItemsSpelling is t ∧ (∀ i ∈ is, i.Fits) ∧ is.foldlM addItem zero = .ok total := by
  unfold read
  split
  · rename_i bare
    constructor
    · intro same
      exact .inl ⟨bare, (Except.ok.inj same).symm⟩
    · rintro (⟨-, rfl⟩ | ⟨lead, t, is, rfl, free, spelled, -⟩)
      · rfl
      · obtain ⟨c, u, rfl, digit⟩ := spelled.head
        cases lead with
        | nil =>
          rw [List.nil_append] at bare
          exact absurd spelled (bare.symm ▸ not_itemsSpelling_zero)
        | cons b lead => simp at bare
  · rename_i long
    simp only [long, false_and, false_or, mapError_eq_ok_iff, bind_eq_ok_iff]
    constructor
    · rintro ⟨found, first, step⟩
      cases found with
      | none => contradiction
      | some r =>
        obtain ⟨n, s⟩ := r
        obtain ⟨gap, c, free, digit, rfl, rfl⟩ := readFirst_eq_ok_some_iff.mp first
        obtain ⟨is, spelled, fits, added⟩ := spelling_of_addItems digit (Nat.lt_succ_self _) step
        exact ⟨gap, c :: s, is, rfl, free, spelled, fits, added⟩
    · rintro ⟨lead, t, is, rfl, free, spelled, fits, added⟩
      obtain ⟨c, u, rfl, digit⟩ := spelled.head
      exact ⟨_, readFirst_eq_ok_some_iff.mpr ⟨lead, c, free, digit, rfl, rfl⟩,
        addItems_of_spelling spelled fits rfl (Nat.lt_succ_self _) added⟩

/-- Of a text whose ends are not blank, a span is read from the items alone. -/
theorem read_trim_eq_ok_iff {total : Span} : read (Text.trim s) = .ok total ↔
    Text.trim s = ['0'] ∧ total = zero ∨ ∃ is, ItemsSpelling is (Text.trim s) ∧
      (∀ i ∈ is, i.Fits) ∧ is.foldlM addItem zero = .ok total := by
  rw [read_eq_ok_iff]
  refine or_congr_right ⟨?_, ?_⟩
  · rintro ⟨lead, t, is, whole, free, spelled, fits, added⟩
    cases lead with
    | nil => exact ⟨is, whole ▸ spelled, fits, added⟩
    | cons b lead =>
      have first : b ∈ (Text.trim s).head? := by simp [whole]
      have solid : Text.isBlank b = false := Text.isBlank_of_mem_head?_trim first
      simp [blanks_cons_iff, solid] at free
  · rintro ⟨is, spelled, fits, added⟩
    exact ⟨[], _, is, rfl, by simp [Blanks], spelled, fits, added⟩

end Items

end SearchLoad.Span
