import Mathlib.Algebra.Order.BigOperators.Group.List
import Mathlib.Algebra.Order.Field.Rat
import Mathlib.Tactic.FieldSimp
import Mathlib.Tactic.Ring
import SearchLoad.Proofs.Span.Reading

namespace SearchLoad.Span

open Number

def TimeUnit.Length.inNanos : Length → Nat
  | .nanos n => n
  | .seconds n => nanosPerSecond * n

def TimeUnit.nanos (u : TimeUnit) : Nat := u.length.inNanos

/-- The number that an item has of its unit. -/
def Item.number (i : Item) : Rat :=
  i.count + i.fraction.elim 0 fun f => (f.numerator : Rat) / f.denominator

/-- The exact length of an item, in nanoseconds. -/
def Item.nanos (i : Item) : Rat := i.number * i.timeUnit.nanos

/-- The exact length of items together. -/
def exactNanos (is : List Item) : Rat := (is.map Item.nanos).sum

variable {sum total : Span} {i : Item} {is : List Item} {n : Nat} {l m : TimeUnit.Length}

theorem TimeUnit.inNanos_of_fractionLength {u : TimeUnit} (h : u.fractionLength = some l) :
    l.inNanos = u.nanos := by
  cases u <;> cases h <;> rfl

theorem exactNanos_cons (i : Item) (is : List Item) :
    exactNanos (i :: is) = i.nanos + exactNanos is := by
  rw [exactNanos, List.map_cons, List.sum_cons, exactNanos]

theorem nanos_of_addLength (h : addLength sum l = .ok total) :
    total.nanos = sum.nanos + l.inNanos := by
  cases l with
  | nanos n =>
    simp only [addLength, bind_eq_ok_iff] at h
    obtain ⟨_, -, step⟩ := h
    split at step
    · rename_i added
      obtain rfl := Except.ok.inj step
      exact ofNanos?_eq_some_iff.mp added
    · split at step <;> contradiction
  | seconds n =>
    rw [addLength] at h
    split at h
    · rename_i added
      obtain rfl := Except.ok.inj h
      exact ofNanos?_eq_some_iff.mp added
    · contradiction

theorem inNanos_of_scaleLength (h : scaleLength n l = .ok m) : m.inNanos = n * l.inNanos := by
  cases l with
  | nanos k =>
    simp only [scaleLength, map_eq_ok_iff, fit_eq_ok_iff] at h
    obtain ⟨_, ⟨-, rfl⟩, rfl⟩ := h
    rfl
  | seconds k =>
    simp only [scaleLength, map_eq_ok_iff, fit_eq_ok_iff] at h
    obtain ⟨_, ⟨-, rfl⟩, rfl⟩ := h
    exact Nat.mul_left_comm _ _ _

theorem inNanos_of_divideLength (h : divideLength n l = .ok m) : m.inNanos * n = l.inNanos := by
  cases l with
  | nanos k =>
    rw [divideLength] at h
    split at h
    · rename_i even
      obtain rfl := Except.ok.inj h
      exact Nat.div_mul_cancel (Nat.dvd_of_mod_eq_zero even)
    · contradiction
  | seconds k =>
    rw [divideLength] at h
    split at h
    · rename_i even
      obtain rfl := Except.ok.inj h
      rw [TimeUnit.Length.inNanos, Nat.mul_assoc,
        Nat.div_mul_cancel (Nat.dvd_of_mod_eq_zero even), TimeUnit.Length.inNanos]
    · contradiction

theorem nanos_of_addFraction {u : TimeUnit} {f : Fraction} (proper : f.denominator ≠ 0)
    (h : addFraction sum u f = .ok total) :
    (total.nanos : Rat) = sum.nanos + (f.numerator : Rat) / f.denominator * u.nanos := by
  unfold addFraction at h
  split at h
  · contradiction
  · rename_i k unit
    simp only [bind_eq_ok_iff] at h
    obtain ⟨whole, scaled, part, divided, added⟩ := h
    have even : part.inNanos * f.denominator = f.numerator * u.nanos := by
      rw [inNanos_of_divideLength divided, inNanos_of_scaleLength scaled,
        TimeUnit.inNanos_of_fractionLength unit]
    have proper : (f.denominator : Rat) ≠ 0 := by exact_mod_cast proper
    have share : (part.inNanos : Rat) = (f.numerator : Rat) / f.denominator * u.nanos := by
      field_simp
      exact_mod_cast even
    rw [nanos_of_addLength added, Nat.cast_add, share]

/-- An item is added exactly. -/
theorem nanos_of_addItem (proper : ∀ f ∈ i.fraction, f.denominator ≠ 0)
    (h : addItem sum i = .ok total) : (total.nanos : Rat) = sum.nanos + i.nanos := by
  simp only [addItem, bind_eq_ok_iff] at h
  obtain ⟨whole, scaled, sofar, added, step⟩ := h
  have units : (sofar.nanos : Rat) = sum.nanos + i.count * i.timeUnit.nanos := by
    rw [nanos_of_addLength added, inNanos_of_scaleLength scaled]
    push_cast
    rfl
  cases fraction : i.fraction with
  | none =>
    rw [fraction] at step
    obtain rfl := Except.ok.inj step
    rw [units, Item.nanos, Item.number, fraction, Option.elim_none, add_zero]
  | some f =>
    rw [fraction] at step
    rw [nanos_of_addFraction (proper f fraction) step, units, Item.nanos, Item.number, fraction,
      Option.elim_some]
    ring

theorem nanos_of_foldlM (proper : ∀ i ∈ is, ∃ t, i.Spelling t)
    (h : is.foldlM addItem sum = .ok total) : (total.nanos : Rat) = sum.nanos + exactNanos is := by
  induction is generalizing sum with
  | nil =>
    obtain rfl := Except.ok.inj h
    simp [exactNanos]
  | cons i is ih =>
    obtain ⟨⟨t, spelled⟩, proper⟩ := List.forall_mem_cons.mp proper
    rw [List.foldlM_cons, bind_eq_ok_iff] at h
    obtain ⟨sofar, added, rest⟩ := h
    rw [ih proper rest, nanos_of_addItem spelled.proper added, exactNanos_cons, add_assoc]

/-- What items are written as is read as their exact sum. -/
theorem ItemsSpelling.nanos_eq {s : List Char} (h : ItemsSpelling is s)
    (added : is.foldlM addItem zero = .ok total) : (total.nanos : Rat) = exactNanos is := by
  rw [nanos_of_foldlM h.exists_spelling added]
  simp [zero]

/-- A whole number of units, and of less than 2^63 nanoseconds if its unit is below a second. -/
structure Item.Whole (i : Item) : Prop where
  fraction : i.fraction = none
  short : ∀ k, i.timeUnit.length = .nanos k → i.count * k < 2 ^ 63

namespace Item.Whole

/-- An item is added in full if that makes a span. -/
theorem addItem_eq (h : i.Whole) (adds : total.nanos = sum.nanos + i.count * i.timeUnit.nanos) :
    addItem sum i = .ok total := by
  have le := total.nanos_le
  have below : sum.subNanos < nanosPerSecond := Nat.mod_lt _ (by decide)
  have whole : ∃ k, scaleLength i.count i.timeUnit.length = .ok k ∧
      addLength sum k = .ok total := by
    have short := h.short
    rw [TimeUnit.nanos] at adds
    cases unit : i.timeUnit.length with
    | nanos k =>
      have short := short k unit
      rw [unit, TimeUnit.Length.inNanos] at adds
      refine ⟨.nanos (i.count * k), map_eq_ok_iff.mpr ⟨_, fit_eq_ok_iff.mpr ⟨?_, rfl⟩, rfl⟩, ?_⟩
      · unfold maxUnsigned
        omega
      · refine bind_eq_ok_iff.mpr ⟨_, fit_eq_ok_iff.mpr ⟨?_, rfl⟩, ?_⟩
        · unfold nanosPerSecond at below
          unfold maxUnsigned
          omega
        · rw [ofNanos?_eq_some_iff.mpr adds]
    | seconds k =>
      rw [unit, TimeUnit.Length.inNanos, Nat.mul_left_comm] at adds
      refine ⟨.seconds (i.count * k), map_eq_ok_iff.mpr ⟨_, fit_eq_ok_iff.mpr ⟨?_, rfl⟩, rfl⟩, ?_⟩
      · unfold nanosPerSecond at adds
        unfold maxUnsigned
        omega
      · rw [addLength, ofNanos?_eq_some_iff.mpr adds]
  obtain ⟨k, scaled, added⟩ := whole
  simp only [addItem, scaled, added, bind, Except.bind, h.fraction]

theorem fits (h : i.Whole) (le : i.count * i.timeUnit.nanos ≤ maxNanos) : i.Fits := by
  refine ⟨?_, by simp [h.fraction]⟩
  have short := h.short
  rw [TimeUnit.nanos] at le
  unfold maxNanos at le
  unfold maxUnsigned
  cases unit : i.timeUnit <;>
    simp only [unit, TimeUnit.length, TimeUnit.Length.inNanos, TimeUnit.Length.nanos.injEq,
      forall_eq', nanosPerSecond] at short le <;>
    omega

end Item.Whole

/-- How many nanoseconds whole numbers of units are. -/
def wholeNanos (is : List Item) : Nat := (is.map fun i => i.count * i.timeUnit.nanos).sum

theorem wholeNanos_cons (i : Item) (is : List Item) :
    wholeNanos (i :: is) = i.count * i.timeUnit.nanos + wholeNanos is := by
  rw [wholeNanos, List.map_cons, List.sum_cons, wholeNanos]

/-- Items of whole numbers are added if that makes a span. -/
theorem foldlM_whole (whole : ∀ i ∈ is, i.Whole) (adds : total.nanos = sum.nanos + wholeNanos is) :
    is.foldlM addItem sum = .ok total := by
  induction is generalizing sum with
  | nil => exact congrArg Except.ok (Span.eq_of_nanos adds.symm)
  | cons i is ih =>
    obtain ⟨first, whole⟩ := List.forall_mem_cons.mp whole
    rw [wholeNanos_cons, ← Nat.add_assoc] at adds
    have le : total.nanos ≤ maxNanos := total.nanos_le
    -- What is added so far is a span because all of it is.
    obtain ⟨sofar, part⟩ : ∃ sofar : Span, sofar.nanos = sum.nanos + i.count * i.timeUnit.nanos :=
      ⟨⟨_, by unfold maxNanos at le; omega⟩, rfl⟩
    exact bind_eq_ok_iff.mpr ⟨sofar, first.addItem_eq part, ih whole (part ▸ adds)⟩

/-- What items of whole numbers are written as is read as their sum, if that is a span. -/
theorem ItemsSpelling.read_eq {s : List Char} (h : ItemsSpelling is s)
    (whole : ∀ i ∈ is, i.Whole) (length : total.nanos = wholeNanos is) : read s = .ok total := by
  have le : total.nanos ≤ maxNanos := total.nanos_le
  have fits : ∀ i ∈ is, i.Fits := by
    intro i member
    refine (whole i member).fits (Nat.le_trans ?_ (length ▸ le))
    exact List.le_sum_of_mem (List.mem_map.mpr ⟨i, member, rfl⟩)
  exact read_eq_ok_iff.mpr (.inr ⟨[], s, is, rfl, by simp [Blanks], h, fits,
    foldlM_whole whole (length.trans (Nat.zero_add _).symm)⟩)

end SearchLoad.Span
