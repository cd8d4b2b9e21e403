import SearchLoad.Profile.Basic
import SearchLoad.Proofs.Profile.RoundTrip

namespace SearchLoad.Profile

def nanosOf (stages : List Stage) : Nat := (stages.map fun s => s.duration.nanos).sum

@[simp] theorem nanosOf_cons (s : Stage) (ss : List Stage) :
    nanosOf (s :: ss) = s.duration.nanos + nanosOf ss := by
  rw [nanosOf, List.map_cons, List.sum_cons, nanosOf]

theorem nanosOf_append (ss tt : List Stage) : nanosOf (ss ++ tt) = nanosOf ss + nanosOf tt := by
  rw [nanosOf, List.map_append, List.sum_append, nanosOf, nanosOf]

theorem total_of_addStages {stages : List Stage} {sum total : Span}
    (h : addStages sum stages = .ok total) : total.nanos = sum.nanos + nanosOf stages := by
  induction stages generalizing sum with
  | nil =>
    cases h
    rfl
  | cons s ss ih =>
    unfold addStages at h
    split at h
    · contradiction
    · split at h
      · rename_i longer added
        rw [ih h, Span.add?_eq_some_iff.mp added, nanosOf_cons, Nat.add_assoc]
      · contradiction

theorem total_of_ofStages {stages : List Stage} {p : Profile} (h : ofStages stages = .ok p) :
    p.total.nanos = nanosOf stages := by
  obtain ⟨-, -, added⟩ := addStages_of_ofStages h
  rw [total_of_addStages added]
  exact Nat.zero_add _

/-- The stages' ends are passed one after the other. -/
theorem targetFrom_eq_none_iff {start elapsed : Nat} (begun : start ≤ elapsed) (previous : Nat)
    (stages : List Stage) :
    targetFrom start previous elapsed stages = none ↔ start + nanosOf stages ≤ elapsed := by
  induction stages generalizing start previous with
  | nil => exact iff_of_true rfl begun
  | cons s ss ih =>
    rw [targetFrom, nanosOf_cons, ← Nat.add_assoc]
    by_cases inside : elapsed < start + s.duration.nanos
    · rw [if_pos inside]
      exact iff_of_false nofun (by omega)
    · rw [if_neg inside, ih (Nat.le_of_not_lt inside)]

/-- A profile is over at its total and not before. -/
theorem targetAt_eq_none_iff {p : Profile} (admitted : ofStages p.stages = .ok p) (elapsed : Nat) :
    p.targetAt elapsed = none ↔ p.total.nanos ≤ elapsed := by
  rw [targetAt, targetFrom_eq_none_iff (Nat.zero_le elapsed), total_of_ofStages admitted,
    Nat.zero_add]

end SearchLoad.Profile
