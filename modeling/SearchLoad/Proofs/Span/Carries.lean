import SearchLoad.Proofs.Span.Reading

namespace SearchLoad.Span

open Number

variable {α β : Type}

/-- A step that never carries beyond the longest span. -/
def Carryless (x : Except Stop α) : Prop := x ≠ .error (.fault .carryOverflow)

theorem Carryless.bind {x : Except Stop α} {f : α → Except Stop β} (first : Carryless x)
    (next : ∀ a, Carryless (f a)) : Carryless (x >>= f) := by
  intro carried
  rcases bind_eq_error_iff.mp carried with here | ⟨a, -, later⟩
  · exact first here
  · exact next a later

section Readers

variable {s : List Char} {n : Nat}

theorem carryless_ok {a : α} : Carryless (.ok a) := by
  simp [Carryless]

theorem carryless_error {stop : Stop} (other : stop ≠ .fault .carryOverflow) :
    Carryless (.error stop : Except Stop α) := by
  simpa [Carryless] using other

theorem carryless_fit : Carryless (fit n) := by
  unfold fit
  split
  · exact carryless_ok
  · exact carryless_error (by simp)

theorem carryless_readFraction {f : Fraction} {place : List Char} :
    Carryless (readFraction f place s) := by
  induction s generalizing f place with
  | nil =>
    unfold readFraction
    split
    · exact carryless_error (by simp)
    · exact carryless_ok
  | cons c s ih =>
    unfold readFraction
    split
    · exact carryless_fit.bind fun _ => carryless_fit.bind fun _ => ih
    split
    · exact ih
    split
    · split
      · exact carryless_error (by simp)
      · exact carryless_ok
    · exact carryless_error (by simp)

theorem carryless_readAmount : Carryless (readAmount n s) := by
  induction s generalizing n with
  | nil => exact carryless_ok
  | cons c s ih =>
    unfold readAmount
    split
    · exact carryless_fit.bind fun _ => ih
    split
    · exact ih
    split
    · exact carryless_ok
    split
    · exact carryless_readFraction.bind fun _ => carryless_ok
    · exact carryless_error (by simp)

theorem carryless_findUnit {name : String} : Carryless (findUnit n name) := by
  unfold findUnit
  split
  · exact carryless_ok
  · split <;> exact carryless_error (by simp)

theorem carryless_readItem : Carryless (readItem n s) := by
  refine carryless_readAmount.bind fun a => ?_
  dsimp only
  split
  · exact carryless_error (by simp)
  · exact carryless_findUnit.bind fun _ => carryless_ok

theorem carryless_readFirst : Carryless (readFirst s) := by
  unfold readFirst
  split
  · exact carryless_ok
  split
  · exact carryless_ok
  · exact carryless_error (by simp)

theorem carryless_readNext : Carryless (readNext s) := by
  cases s with
  | nil => exact carryless_ok
  | cons c s =>
    rw [readNext]
    split
    · exact carryless_ok
    · exact carryless_readFirst

theorem carryless_scaleLength {l : TimeUnit.Length} : Carryless (scaleLength n l) := by
  intro carried
  cases l with
  | nanos k => exact carryless_fit (map_eq_error_iff.mp carried)
  | seconds k => exact carryless_fit (map_eq_error_iff.mp carried)

theorem carryless_divideLength {l : TimeUnit.Length} : Carryless (divideLength n l) := by
  unfold divideLength
  split
  · split
    · exact carryless_ok
    · exact carryless_error (by simp)
  · split
    · exact carryless_ok
    · exact carryless_error (by simp)

end Readers

/-- Nanoseconds, of one second at most, that make one more than the longest span. -/
structure Overfills (sum : Span) (n : Nat) : Prop where
  within : n ≤ nanosPerSecond
  full : sum.nanos + n = maxNanos + 1

/-- An item whose count or fraction, told in nanoseconds, is one step too far. -/
inductive Item.Overfills (sum : Span) (i : Item) : Prop
  | count {k : Nat} (short : i.timeUnit.length = .nanos k) (full : sum.Overfills (i.count * k))
  | fraction {f : Fraction} {k n : Nat} {sofar : Span} (given : i.fraction = some f)
      (added : addItem sum ⟨i.count, none, i.timeUnit⟩ = .ok sofar)
      (short : i.timeUnit.fractionLength = some (.nanos k)) (fits : f.numerator * k ≤ maxUnsigned)
      (even : n * f.denominator = f.numerator * k) (full : sofar.Overfills n)

/-- A text with items that can be added up to the last of them, which is one step too far. -/
def Overfilled (text : List Char) : Prop :=
  ∃ lead is i t rest sofar, text = lead ++ (t ++ rest) ∧ Blanks lead ∧
    ItemsSpelling (is ++ [i]) t ∧ Closed rest ∧ (∀ j ∈ is ++ [i], j.Fits) ∧
    is.foldlM addItem zero = .ok sofar ∧ i.Overfills sofar

section Sums

variable {sum : Span} {l : TimeUnit.Length} {i : Item} {n m : Nat}

theorem addLength_eq_carry_iff : addLength sum l = .error (.fault .carryOverflow) ↔
    ∃ n, l = .nanos n ∧ sum.Overfills n := by
  cases l with
  | seconds n =>
    rw [addLength]
    split <;> simp
  | nanos n =>
    have below : sum.subNanos < nanosPerSecond := Nat.mod_lt _ (by decide)
    have parts : nanosPerSecond * (sum.nanos / nanosPerSecond) + sum.subNanos = sum.nanos :=
      Nat.div_add_mod _ _
    have le := sum.nanos_le
    simp only [addLength, bind_eq_error_iff, fit_eq_ok_iff, TimeUnit.Length.nanos.injEq,
      exists_eq_left']
    constructor
    · rintro (wide | ⟨part, ⟨-, rfl⟩, step⟩)
      · exact absurd wide carryless_fit
      split at step
      · contradiction
      · rename_i beyond
        split at step
        · rename_i second
          have long : ¬ sum.nanos + n ≤ maxNanos := by
            simpa [ofNanos?] using beyond
          refine ⟨by omega, ?_⟩
          unfold nanosPerSecond at *
          unfold maxNanos at *
          omega
        · simp at step
    · rintro ⟨within, full⟩
      have beyond : ofNanos? (sum.nanos + n) = none := dif_neg (by omega)
      have second : sum.subNanos + n = nanosPerSecond := by
        unfold nanosPerSecond at *
        unfold maxNanos at *
        omega
      refine .inr ⟨_, ⟨by rw [second]; decide, rfl⟩, ?_⟩
      rw [beyond, second]
      simp

theorem scaleLength_eq_nanos_iff : scaleLength n l = .ok (.nanos m) ↔
    ∃ k, l = .nanos k ∧ n * k ≤ maxUnsigned ∧ n * k = m := by
  cases l with
  | nanos k => simp [scaleLength, map_eq_ok_iff, fit_eq_ok_iff]
  | seconds k => simp [scaleLength, map_eq_ok_iff]

theorem divideLength_eq_nanos_iff (proper : n ≠ 0) : divideLength n l = .ok (.nanos m) ↔
    ∃ k, l = .nanos k ∧ m * n = k := by
  cases l with
  | nanos k =>
    rw [divideLength]
    simp only [TimeUnit.Length.nanos.injEq, exists_eq_left']
    split
    · rename_i even
      have exact := Nat.div_mul_cancel (Nat.dvd_of_mod_eq_zero even)
      simp only [Except.ok.injEq, TimeUnit.Length.nanos.injEq]
      constructor
      · rintro rfl
        exact exact
      · rintro rfl
        exact Nat.mul_div_cancel _ (Nat.pos_of_ne_zero proper)
    · rename_i odd
      simp only [reduceCtorEq, false_iff]
      rintro rfl
      exact odd (Nat.mul_mod_left _ _)
  | seconds k =>
    rw [divideLength]
    split <;> simp

theorem addFraction_eq_carry_iff {u : TimeUnit} {f : Fraction} (proper : f.denominator ≠ 0) :
    addFraction sum u f = .error (.fault .carryOverflow) ↔
      ∃ k n, u.fractionLength = some (.nanos k) ∧ f.numerator * k ≤ maxUnsigned ∧
        n * f.denominator = f.numerator * k ∧ sum.Overfills n := by
  unfold addFraction
  split
  · rename_i unknown
    simp [unknown]
  · rename_i l unit
    simp only [bind_eq_error_iff, addLength_eq_carry_iff, unit, Option.some.injEq]
    constructor
    · rintro (scaled | ⟨whole, scaled, divided | ⟨part, divided, n, rfl, full⟩⟩)
      · exact absurd scaled carryless_scaleLength
      · exact absurd divided carryless_divideLength
      obtain ⟨m, rfl, even⟩ := (divideLength_eq_nanos_iff proper).mp divided
      obtain ⟨k, rfl, fits, rfl⟩ := scaleLength_eq_nanos_iff.mp scaled
      exact ⟨k, n, rfl, fits, even, full⟩
    · rintro ⟨k, n, rfl, fits, even, full⟩
      exact .inr ⟨_, scaleLength_eq_nanos_iff.mpr ⟨k, rfl, fits, rfl⟩,
        .inr ⟨_, (divideLength_eq_nanos_iff proper).mpr ⟨_, rfl, even⟩, n, rfl, full⟩⟩

theorem addItem_count {sofar : Span} : addItem sum ⟨i.count, none, i.timeUnit⟩ = .ok sofar ↔
    ∃ whole, scaleLength i.count i.timeUnit.length = .ok whole ∧
      addLength sum whole = .ok sofar := by
  simp [addItem, bind_eq_ok_iff]

theorem addItem_eq_carry_iff (proper : ∀ f ∈ i.fraction, f.denominator ≠ 0) :
    addItem sum i = .error (.fault .carryOverflow) ↔ i.Overfills sum := by
  simp only [addItem, bind_eq_error_iff]
  constructor
  · rintro (scaled | ⟨whole, scaled, carried | ⟨sofar, added, step⟩⟩)
    · exact absurd scaled carryless_scaleLength
    · obtain ⟨n, rfl, full⟩ := addLength_eq_carry_iff.mp carried
      obtain ⟨k, short, -, rfl⟩ := scaleLength_eq_nanos_iff.mp scaled
      exact .count short full
    · split at step
      · contradiction
      · rename_i f fraction
        obtain ⟨k, n, short, fits, even, full⟩ :=
          (addFraction_eq_carry_iff (proper f fraction)).mp step
        exact .fraction fraction (addItem_count.mpr ⟨whole, scaled, added⟩) short fits even full
  · rintro (⟨short, full⟩ | ⟨fraction, added, short, fits, even, full⟩)
    · refine .inr ⟨_, scaleLength_eq_nanos_iff.mpr ⟨_, short, ?_, rfl⟩,
        .inl (addLength_eq_carry_iff.mpr ⟨_, rfl, full⟩)⟩
      exact Nat.le_trans full.within (by decide)
    · obtain ⟨whole, scaled, added⟩ := addItem_count.mp added
      refine .inr ⟨whole, scaled, .inr ⟨_, added, ?_⟩⟩
      rw [fraction]
      exact (addFraction_eq_carry_iff (proper _ fraction)).mpr ⟨_, _, short, fits, even, full⟩

end Sums

section Texts

variable {c : Char} {s : List Char} {sum : Span}

theorem overfilled_of_addItems {fuel : Nat} (digit : isDigit c = true)
    (carried : addItems fuel sum (digitValue c) s = .error (.fault .carryOverflow)) :
    ∃ is i t rest sofar, c :: s = t ++ rest ∧ ItemsSpelling (is ++ [i]) t ∧ Closed rest ∧
      (∀ j ∈ is ++ [i], j.Fits) ∧ is.foldlM addItem sum = .ok sofar ∧ i.Overfills sofar := by
  induction fuel generalizing sum c s with
  | zero => contradiction
  | succ fuel ih =>
    simp only [addItems, bind_eq_error_iff, Prod.exists] at carried
    rcases carried with carried | ⟨i, rest, item, step⟩
    · exact absurd carried carryless_readItem
    obtain ⟨t, whole, spelled, fits, closed⟩ := (readItem_eq_ok_iff digit).mp item
    rcases step with here | ⟨sofar, added, carried | ⟨found, next, later⟩⟩
    · have last : ItemsSpelling [i] (t ++ []) := .last spelled (by decide)
      rw [List.append_nil] at last
      exact ⟨[], i, t, rest, sum, whole, last, closed, by simpa using fits, rfl,
        (addItem_eq_carry_iff spelled.proper).mp here⟩
    · exact absurd carried carryless_readNext
    cases found with
    | none => contradiction
    | some r =>
      obtain ⟨n, s'⟩ := r
      obtain ⟨gap, d, free, digit', rfl, rfl⟩ := (readNext_eq_ok_some_iff closed).mp next
      obtain ⟨is, j, u, rest, sofar', whole', spelled', closed', fits', added', full⟩ :=
        ih digit' later
      refine ⟨i :: is, j, t ++ (gap ++ u), rest, sofar', ?_, .next spelled free spelled', closed',
        List.forall_mem_cons.mpr ⟨fits, fits'⟩, ?_, full⟩
      · rw [whole, whole', List.append_assoc, List.append_assoc]
      · exact bind_eq_ok_iff.mpr ⟨sofar, added, added'⟩

theorem addItems_of_overfilled {is : List Item} {i : Item} {t rest : List Char} {sofar : Span}
    {fuel : Nat} (h : ItemsSpelling (is ++ [i]) t) (closed : Closed rest)
    (fits : ∀ j ∈ is ++ [i], j.Fits) (added : is.foldlM addItem sum = .ok sofar)
    (full : i.Overfills sofar) (whole : t ++ rest = c :: s) (enough : s.length < fuel) :
    addItems fuel sum (digitValue c) s = .error (.fault .carryOverflow) := by
  induction is generalizing t c s fuel sum with
  | nil =>
    obtain ⟨fuel, rfl⟩ := Nat.exists_eq_add_one.mpr (Nat.zero_lt_of_lt enough)
    obtain rfl := Except.ok.inj added
    cases h with
    | next _ _ tail => cases tail
    | @last _ u trail head free =>
      obtain ⟨d, u, rfl, -⟩ := head.head
      rw [List.append_assoc, List.cons_append] at whole
      obtain ⟨rfl, rfl⟩ := List.cons.inj whole
      rw [addItems_item fuel sum head (fits i (by simp)) (.blanks_append free closed),
        (addItem_eq_carry_iff head.proper).mpr full]
      rfl
  | cons j is ih =>
    obtain ⟨fuel, rfl⟩ := Nat.exists_eq_add_one.mpr (Nat.zero_lt_of_lt enough)
    obtain ⟨fit, fits⟩ := List.forall_mem_cons.mp fits
    rw [List.foldlM_cons, bind_eq_ok_iff] at added
    obtain ⟨first, added, more⟩ := added
    rw [List.cons_append] at h
    generalize others : is ++ [i] = js at h
    cases h with
    | last => simp at others
    | @next _ _ u gap v head free tail =>
      subst others
      obtain ⟨d, u, rfl, -⟩ := head.head
      obtain ⟨e, w, start, digit⟩ := tail.head
      have behind : v ++ rest = e :: (w ++ rest) := by rw [start, List.cons_append]
      rw [List.append_assoc, List.cons_append, List.append_assoc, behind] at whole
      obtain ⟨rfl, rfl⟩ := List.cons.inj whole
      have shorter : (w ++ rest).length < fuel := by
        simp only [List.length_append, List.length_cons] at enough ⊢
        omega
      rw [addItems_next fuel sum head fit free digit, added]
      exact ih tail fits more behind shorter

/-- Reading a span carries beyond the longest one for the texts that are overfilled, and for no
other. -/
theorem read_eq_carry_iff {text : List Char} :
    read text = .error .carryOverflow ↔ Overfilled text := by
  unfold read
  split
  · rename_i bare
    simp only [reduceCtorEq, false_iff]
    rintro ⟨lead, is, i, t, rest, sofar, rfl, free, spelled, -⟩
    obtain ⟨c, u, rfl, digit⟩ := spelled.head
    cases lead with
    | nil =>
      obtain ⟨rfl, behind⟩ := List.cons.inj bare
      obtain ⟨rfl, -⟩ := List.append_eq_nil_iff.mp behind
      exact not_itemsSpelling_zero spelled
    | cons b lead => simp at bare
  · rename_i long
    rw [mapError_eq_error_iff]
    constructor
    · rintro ⟨stop, carried, located⟩
      obtain rfl : stop = .fault .carryOverflow := by
        cases stop <;> simp_all [Stop.locate]
      rcases bind_eq_error_iff.mp carried with carried | ⟨found, first, step⟩
      · exact absurd carried carryless_readFirst
      cases found with
      | none => simp at step
      | some r =>
        obtain ⟨n, s⟩ := r
        obtain ⟨gap, c, free, digit, rfl, rfl⟩ := readFirst_eq_ok_some_iff.mp first
        obtain ⟨is, i, t, rest, sofar, whole, behind⟩ := overfilled_of_addItems digit step
        exact ⟨gap, is, i, t, rest, sofar, by rw [whole], free, behind⟩
    · rintro ⟨lead, is, i, t, rest, sofar, rfl, free, spelled, closed, fits, added, full⟩
      obtain ⟨c, u, rfl, digit⟩ := spelled.head
      refine ⟨.fault .carryOverflow, bind_eq_error_iff.mpr (.inr ⟨some (digitValue c, u ++ rest),
        readFirst_eq_ok_some_iff.mpr ⟨lead, c, free, digit, rfl, rfl⟩, ?_⟩), rfl⟩
      exact addItems_of_overfilled spelled closed fits added full rfl (Nat.lt_succ_self _)

end Texts

end SearchLoad.Span
