import Mathlib.Data.List.Induction
import Mathlib.Order.Bounds.Basic
import SearchLoad.Proofs.Profile.Ramp

namespace SearchLoad

/-- A fault of what stages ask for, and not of how they are written. -/
def ProfileFault.IsRule : ProfileFault → Prop
  | .noStages | .targetTooHigh _ | .durationOverflow => True
  | .invalidStage _ | .invalidDuration _ _ | .invalidTarget _ | .aborted => False

namespace Profile

/-- The stage at a place asks for too many users. -/
def IsHigh (stages : List Stage) (i : Nat) : Prop :=
  ∃ s, stages[i]? = some s ∧ maxTarget < s.target

/-- The stages up to a place, the one there included, take more time than a span has. -/
def IsLong (stages : List Stage) (j : Nat) : Prop :=
  j < stages.length ∧ Span.maxNanos < nanosOf (stages.take (j + 1))

/-- Stages that a profile can be made of, if there are any. -/
structure Admissible (stages : List Stage) : Prop where
  low : ∀ s ∈ stages, s.target ≤ maxTarget
  fits : nanosOf stages ≤ Span.maxNanos

theorem nanosOf_le_of_isPrefix {ss tt : List Stage} (h : ss <+: tt) : nanosOf ss ≤ nanosOf tt := by
  obtain ⟨more, rfl⟩ := h
  rw [nanosOf_append]
  exact Nat.le_add_right _ _

theorem addStages_append {before : List Stage} (low : ∀ s ∈ before, s.target ≤ maxTarget)
    {sum total : Span} (adds : total.nanos = sum.nanos + nanosOf before) (rest : List Stage) :
    addStages sum (before ++ rest) = addStages total rest := by
  induction before generalizing sum with
  | nil => rw [List.nil_append, Span.eq_of_nanos adds]
  | cons s before ih =>
    obtain ⟨lower, low⟩ := List.forall_mem_cons.mp low
    rw [nanosOf_cons, ← Nat.add_assoc] at adds
    -- What is added so far is a span because the sum to come is.
    obtain ⟨sofar, added⟩ : ∃ sofar : Span, sum.add? s.duration = some sofar := by
      have le : total.nanos ≤ Span.maxNanos := total.nanos_le
      exact ⟨⟨sum.nanos + s.duration.nanos, by unfold Span.maxNanos at le; omega⟩,
        Span.add?_eq_some_iff.mpr rfl⟩
    rw [List.cons_append, addStages, if_neg (Nat.not_lt.mpr lower), added]
    exact ih low (by rw [adds, Span.add?_eq_some_iff.mp added])

namespace Admissible

variable {stages before after : List Stage} {s : Stage}

theorem concat (h : Admissible before) (low : s.target ≤ maxTarget)
    (fits : nanosOf before + s.duration.nanos ≤ Span.maxNanos) : Admissible (before ++ [s]) := by
  refine ⟨?_, ?_⟩
  · exact List.forall_mem_append.mpr ⟨h.low, by simpa using low⟩
  · rw [nanosOf_append]
    simpa [nanosOf] using fits

/-- Stages up to the first one that breaks a rule are added. -/
theorem addStages_eq (h : Admissible before) (rest : List Stage) :
    ∃ sofar : Span, sofar.nanos = nanosOf before ∧
      addStages .zero (before ++ rest) = addStages sofar rest :=
  ⟨⟨nanosOf before, h.fits⟩, rfl, addStages_append h.low (Nat.zero_add _).symm rest⟩

theorem ofStages_eq (h : Admissible stages) (nonempty : stages ≠ []) :
    ∃ p : Profile, ofStages stages = .ok p ∧ p.stages = stages ∧
      p.total.nanos = nanosOf stages := by
  obtain ⟨total, length, added⟩ := h.addStages_eq []
  rw [List.append_nil] at added
  refine ⟨⟨stages, total⟩, ?_, rfl, length⟩
  rw [ofStages, if_neg (by simpa using nonempty), added]
  rfl

theorem of_ofStages {p : Profile} (h : ofStages stages = .ok p) : Admissible stages :=
  ⟨(Profile.of_ofStages h).2.2, total_of_ofStages h ▸ p.total.nanos_le⟩

theorem not_isHigh (h : Admissible before) {i : Nat} (early : i < before.length)
    (rest : List Stage) : ¬ IsHigh (before ++ rest) i := by
  rintro ⟨t, found, high⟩
  rw [List.getElem?_append_left early] at found
  exact Nat.not_lt.mpr (h.low t (List.mem_of_getElem? found)) high

theorem not_isLong (h : Admissible before) {j : Nat} (early : j < before.length)
    (rest : List Stage) : ¬ IsLong (before ++ rest) j := by
  rintro ⟨-, long⟩
  rw [List.take_append_of_le_length early] at long
  exact Nat.not_lt.mpr (Nat.le_trans (nanosOf_le_of_isPrefix (List.take_prefix _ _)) h.fits) long

/-- No stage before is blamed. -/
theorem length_le (h : Admissible before) {rest : List Stage} {i : Nat}
    (breaks : IsHigh (before ++ rest) i ∨ IsLong (before ++ rest) i) : before.length ≤ i := by
  by_contra early
  rcases breaks with high | long
  · exact h.not_isHigh (Nat.lt_of_not_le early) rest high
  · exact h.not_isLong (Nat.lt_of_not_le early) rest long

end Admissible

section Offender

variable {before after : List Stage} {s : Stage}

theorem isHigh_length (high : maxTarget < s.target) :
    IsHigh (before ++ s :: after) before.length :=
  ⟨s, by simp, high⟩

theorem isLong_length (long : Span.maxNanos < nanosOf before + s.duration.nanos) :
    IsLong (before ++ s :: after) before.length := by
  refine ⟨by simp, ?_⟩
  have upto : (before ++ s :: after).take (before.length + 1) = before ++ [s] := by
    rw [List.append_cons]
    exact List.take_left' (by simp)
  rw [upto, nanosOf_append]
  simpa [nanosOf] using long

theorem ofStages_of_high (admissible : Admissible before) (high : maxTarget < s.target) :
    ofStages (before ++ s :: after) = .error (.targetTooHigh s.target) := by
  obtain ⟨sofar, -, added⟩ := admissible.addStages_eq (s :: after)
  rw [ofStages, if_neg (by simp), added, addStages, if_pos high]
  rfl

theorem ofStages_of_long (admissible : Admissible before) (low : s.target ≤ maxTarget)
    (long : Span.maxNanos < nanosOf before + s.duration.nanos) :
    ofStages (before ++ s :: after) = .error .durationOverflow := by
  obtain ⟨sofar, length, added⟩ := admissible.addStages_eq (s :: after)
  have overflows : sofar.add? s.duration = none := by
    rw [Span.add?, length, Span.ofNanos?, dif_neg (Nat.not_le.mpr long)]
  rw [ofStages, if_neg (by simp), added, addStages, if_neg (Nat.not_lt.mpr low), overflows]
  rfl

end Offender

/-- Stages break no rule, or there is a first one that does. -/
theorem admissible_or_offender (stages : List Stage) : Admissible stages ∨
    ∃ before s after, stages = before ++ s :: after ∧ Admissible before ∧
      (maxTarget < s.target ∨
        s.target ≤ maxTarget ∧ Span.maxNanos < nanosOf before + s.duration.nanos) := by
  induction stages using List.reverseRecOn with
  | nil => exact .inl ⟨by simp, Nat.zero_le _⟩
  | append_singleton stages s ih =>
    rcases ih with admissible | ⟨before, t, after, rfl, admissible, breaks⟩
    · rcases Nat.lt_or_ge maxTarget s.target with high | low
      · exact .inr ⟨stages, s, [], rfl, admissible, .inl high⟩
      rcases Nat.lt_or_ge Span.maxNanos (nanosOf stages + s.duration.nanos) with long | fits
      · exact .inr ⟨stages, s, [], rfl, admissible, .inr ⟨low, long⟩⟩
      · exact .inl (admissible.concat low fits)
    · exact .inr ⟨before, t, after ++ [s], by simp, admissible, breaks⟩

theorem exists_ofStages_iff {stages : List Stage} (nonempty : stages ≠ []) :
    (∃ p, ofStages stages = .ok p) ↔ Admissible stages := by
  constructor
  · rintro ⟨p, made⟩
    exact .of_ofStages made
  · intro admissible
    obtain ⟨p, made, -⟩ := admissible.ofStages_eq nonempty
    exact ⟨p, made⟩

theorem ofStages_eq_noStages_iff {stages : List Stage} :
    ofStages stages = .error .noStages ↔ stages = [] := by
  constructor
  · intro refused
    by_contra nonempty
    rcases admissible_or_offender stages with
      admissible | ⟨before, s, after, rfl, admissible, high | ⟨low, long⟩⟩
    · obtain ⟨p, made, -⟩ := admissible.ofStages_eq nonempty
      simp [made] at refused
    · simp [ofStages_of_high admissible high] at refused
    · simp [ofStages_of_long admissible low long] at refused
  · rintro rfl
    rfl

theorem ofStages_fault {stages : List Stage} {fault : ProfileFault}
    (h : ofStages stages = .error fault) : fault.IsRule := by
  by_cases empty : stages = []
  · subst empty
    exact Except.error.inj h ▸ trivial
  rcases admissible_or_offender stages with
    admissible | ⟨before, s, after, rfl, admissible, high | ⟨low, long⟩⟩
  · obtain ⟨p, made, -⟩ := admissible.ofStages_eq empty
    simp [made] at h
  · rw [ofStages_of_high admissible high] at h
    exact Except.error.inj h ▸ trivial
  · rw [ofStages_of_long admissible low long] at h
    exact Except.error.inj h ▸ trivial

/-- The first stage that is too high, if the stages before it are not too long. -/
def IsBlamed (stages : List Stage) (i : Nat) : Prop :=
  IsLeast {i | IsHigh stages i} i ∧ ∀ j, IsLeast {j | IsLong stages j} j → i ≤ j

/-- A profile is made of one stage or more exactly if no target is too high and the durations add up
to a span; it has these stages and that total. Otherwise the first stage that is too high is blamed,
unless the stages before it are too long already. -/
theorem first_offender_is_blamed (stages : List Stage) :
    (ofStages stages = .error .noStages ↔ stages = []) ∧
      (stages ≠ [] →
        ((∃ p, ofStages stages = .ok p) ↔
          (∀ s ∈ stages, s.target ≤ maxTarget) ∧ nanosOf stages ≤ Span.maxNanos) ∧
        (∀ p, ofStages stages = .ok p → p.stages = stages ∧ p.total.nanos = nanosOf stages) ∧
        ((¬ ∃ p, ofStages stages = .ok p) →
          (∀ i, IsBlamed stages i →
            ∃ s, stages[i]? = some s ∧ ofStages stages = .error (.targetTooHigh s.target)) ∧
          ((¬ ∃ i, IsBlamed stages i) → ofStages stages = .error .durationOverflow))) := by
  refine ⟨ofStages_eq_noStages_iff, fun nonempty => ⟨?_, ?_, ?_⟩⟩
  · rw [exists_ofStages_iff nonempty]
    exact ⟨fun h => ⟨h.low, h.fits⟩, fun h => ⟨h.1, h.2⟩⟩
  · exact fun p made => ⟨(of_ofStages made).1, total_of_ofStages made⟩
  rw [exists_ofStages_iff nonempty]
  intro refused
  rcases admissible_or_offender stages with
    admissible | ⟨before, s, after, rfl, admissible, high | ⟨low, long⟩⟩
  · exact absurd admissible refused
  · have first : IsLeast {i | IsHigh (before ++ s :: after) i} before.length :=
      ⟨isHigh_length high, fun i found => admissible.length_le (.inl found)⟩
    have blamed : IsBlamed (before ++ s :: after) before.length :=
      ⟨first, fun j found => admissible.length_le (.inr found.1)⟩
    refine ⟨?_, fun made => absurd ⟨_, blamed⟩ made⟩
    rintro i ⟨least, -⟩
    obtain rfl : i = before.length := least.unique first
    exact ⟨s, by simp, ofStages_of_high admissible high⟩
  · have first : IsLeast {j | IsLong (before ++ s :: after) j} before.length :=
      ⟨isLong_length long, fun j found => admissible.length_le (.inr found)⟩
    refine ⟨?_, fun _ => ofStages_of_long admissible low long⟩
    rintro i ⟨⟨⟨t, found, high⟩, -⟩, early⟩
    -- The stage that is too high can only be the one that is too long, and that one is low.
    obtain rfl : i = before.length :=
      Nat.le_antisymm (early _ first) (admissible.length_le (.inl ⟨t, found, high⟩))
    obtain rfl : s = t := by simpa using found
    exact absurd high (Nat.not_lt.mpr low)

/-- Of a stage that is both too high and too long the target is blamed, and a stage that is too long
is blamed before a later one that is too high. -/
example : ofStages [⟨.longest, 1⟩, ⟨.ofMillis 1, 100001⟩, ⟨.zero, 100002⟩] =
      .error (.targetTooHigh 100001) ∧
    ofStages [⟨.longest, 1⟩, ⟨.ofMillis 1, 0⟩, ⟨.zero, 100001⟩] = .error .durationOverflow := by
  decide

end Profile

end SearchLoad
