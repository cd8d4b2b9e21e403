import Mathlib.Logic.Relation
import SearchLoad.Proofs.Profile.Ramp
import SearchLoad.Proofs.Run.Fleet
import SearchLoad.Run.Controller

namespace SearchLoad.Run

open Relation

/-- A fleet as the controller sees it: its users by their numbers, its peak and its history. -/
structure Roster where
  active : List Nat
  retired : List Nat
  peak : Nat
  history : List (Nat × FleetEvent)
deriving DecidableEq, Repr

namespace Roster

def empty : Roster := ⟨[], [], 0, []⟩

def spawn (now : Nat) (r : Roster) : Roster :=
  let id := r.active.length + r.retired.length
  { r with active := id :: r.active, history := (now, .spawned id) :: r.history }

def retire (now : Nat) (r : Roster) : Roster :=
  match r.active with
  | [] => r
  | id :: ids =>
    { r with
      active := ids
      retired := id :: r.retired
      history := (now, .retired id) :: r.history }

def notePeak (now : Nat) (r : Roster) : Roster :=
  if r.peak < r.active.length then
    { r with peak := r.active.length, history := (now, .peaked r.active.length) :: r.history }
  else r

theorem history_spawn (now : Nat) (r : Roster) : r.history <:+ (r.spawn now).history :=
  List.suffix_cons _ _

theorem history_retire (now : Nat) (r : Roster) : r.history <:+ (r.retire now).history := by
  unfold retire
  split
  · exact List.suffix_refl _
  · exact List.suffix_cons _ _

theorem history_notePeak (now : Nat) (r : Roster) : r.history <:+ (r.notePeak now).history := by
  unfold notePeak
  split
  · exact List.suffix_cons _ _
  · exact List.suffix_refl _

end Roster

namespace Fleet

def roster (f : Fleet) : Roster :=
  ⟨f.active.map User.id, f.retired.map User.id, f.peak, f.history⟩

@[simp] theorem length_active_roster (f : Fleet) : f.roster.active.length = f.active.length :=
  List.length_map _

@[simp] theorem roster_spawn (f : Fleet) (scene : Scene) (now : Nat) :
    (f.spawn scene now).roster = f.roster.spawn now := by
  simp [roster, spawn, Roster.spawn, spawned, User.spawn]

@[simp] theorem roster_retire (f : Fleet) (now : Nat) :
    (f.retire now).roster = f.roster.retire now := by
  obtain ⟨active, retired, peak, history⟩ := f
  cases active <;> rfl

@[simp] theorem roster_notePeak (f : Fleet) (now : Nat) :
    (f.notePeak now).roster = f.roster.notePeak now := by
  by_cases more : f.peak < f.active.length <;> simp [roster, notePeak, Roster.notePeak, more]

/-- No step of a user is seen in the roster. -/
theorem Place.roster_fill (p : Place) {u v : User} (h : v.id = u.id) :
    (p.fill v).roster = (p.fill u).roster := by
  rw [roster, p.active_ids_fill h, p.retired_ids_fill h, p.peak_fill v u, p.history_fill v u,
    roster]

end Fleet

/-- What the controller is about to do; what comes after the profile is no part of the plan. -/
inductive Duty
  | look
  | resize (target : Nat)
  | sleep
  | finished
deriving DecidableEq, Repr

structure Plan where
  time : Nat
  duty : Duty
  roster : Roster
deriving DecidableEq, Repr

namespace Plan

variable {p : Profile} {tick : Span} {v w w' : Plan}

def start : Plan := ⟨0, .look, .empty⟩

/-- The controller's next step; none once the profile was found over. -/
def next (p : Profile) (tick : Span) (v : Plan) : Option Plan :=
  match v.duty with
  | .look =>
    match p.targetAt v.time with
    | some target => some { v with duty := .resize target }
    | none => some { v with duty := .finished }
  | .resize target =>
    if v.roster.active.length < target then some { v with roster := v.roster.spawn v.time }
    else if target < v.roster.active.length then some { v with roster := v.roster.retire v.time }
    else some { v with roster := v.roster.notePeak v.time, duty := .sleep }
  | .sleep => some { v with time := wakeTime v.time tick.nanos, duty := .look }
  | .finished => none

def Leads (p : Profile) (tick : Span) : Plan → Plan → Prop :=
  ReflTransGen fun v w => v.next p tick = some w

theorem Leads.total (h : Leads p tick v w) (h' : Leads p tick v w') :
    Leads p tick w w' ∨ Leads p tick w' w :=
  ReflTransGen.total_of_right_unique (fun _ _ _ one other => Option.some.inj (one.symm.trans other))
    h h'

theorem history_next (h : v.next p tick = some w) : v.roster.history <:+ w.roster.history := by
  unfold next at h
  split at h
  · split at h <;> (cases h; exact List.suffix_refl _)
  · split at h
    · cases h
      exact v.roster.history_spawn v.time
    · split at h <;> cases h
      · exact v.roster.history_retire v.time
      · exact v.roster.history_notePeak v.time
  · cases h
    exact List.suffix_refl _
  · contradiction

/-- What was done stays done. -/
theorem Leads.history (h : Leads p tick v w) : v.roster.history <:+ w.roster.history := by
  induction h with
  | refl => exact List.suffix_refl _
  | tail _ step ih => exact ih.trans (history_next step)

theorem Leads.eq_of_finished (h : Leads p tick v w) (finished : v.duty = .finished) : w = v := by
  rcases h.cases_head with same | ⟨_, step, _⟩
  · exact same.symm
  · simp [next, finished] at step

/-- Where plans from one start are over, they are the same. -/
theorem Leads.finished_unique (h : Leads p tick v w) (h' : Leads p tick v w')
    (finished : w.duty = .finished) (finished' : w'.duty = .finished) : w = w' := by
  rcases h.total h' with leads | leads
  · exact (leads.eq_of_finished finished).symm
  · exact leads.eq_of_finished finished'

end Plan

/-- A time at which the controller wakes, not before the profile's total, as no earlier wake is. -/
def IsFirstWakeAfter (p : Profile) (tick : Span) (time : Nat) : Prop :=
  ∃ k, time = k * min tick.nanos longestSleep ∧ p.total.nanos ≤ time ∧
    ∀ j < k, j * min tick.nanos longestSleep < p.total.nanos

namespace Plan

variable {p : Profile} {tick : Span} {v w : Plan}

/-- The plan is at one of the wakes, and the profile was not over at the earlier ones; whether it is
over now is seen at a look. -/
structure Punctual (p : Profile) (tick : Span) (v : Plan) : Prop where
  wakes : ∃ k, v.time = k * min tick.nanos longestSleep ∧
    ∀ j < k, j * min tick.nanos longestSleep < p.total.nanos
  resizing : ∀ target, v.duty = .resize target → v.time < p.total.nanos
  sleeping : v.duty = .sleep → v.time < p.total.nanos
  finished : v.duty = .finished → p.total.nanos ≤ v.time

theorem Punctual.start : Plan.start.Punctual p tick :=
  ⟨⟨0, (Nat.zero_mul _).symm, nofun⟩, nofun, nofun, nofun⟩

theorem Punctual.next (admitted : Profile.ofStages p.stages = .ok p) (h : v.Punctual p tick)
    (step : v.next p tick = some w) : w.Punctual p tick := by
  have finished_iff := Profile.targetAt_eq_none_iff admitted v.time
  obtain ⟨wakes, resizing, sleeping, -⟩ := h
  unfold Plan.next at step
  split at step
  · split at step
    · rename_i target asked
      cases step
      have early : v.time < p.total.nanos := by simpa [asked] using finished_iff
      exact ⟨wakes, fun _ _ => early, nofun, nofun⟩
    · rename_i ended
      cases step
      exact ⟨wakes, nofun, nofun, fun _ => finished_iff.mp ended⟩
  · rename_i target duty
    have early := resizing target duty
    split at step
    · cases step
      exact ⟨wakes, resizing, sleeping, by simp [duty]⟩
    · split at step
      · cases step
        exact ⟨wakes, resizing, sleeping, by simp [duty]⟩
      · cases step
        exact ⟨wakes, nofun, fun _ => early, nofun⟩
  · rename_i duty
    cases step
    obtain ⟨k, time, earlier⟩ := wakes
    refine ⟨⟨k + 1, ?_, ?_⟩, nofun, nofun, nofun⟩
    · show wakeTime v.time tick.nanos = _
      rw [wakeTime, time, Nat.succ_mul]
    · intro j hj
      -- The wake before this one is the only one that was not counted as earlier yet.
      rcases Nat.lt_succ_iff_lt_or_eq.mp hj with before | rfl
      · exact earlier j before
      · exact time ▸ sleeping duty
  · contradiction

theorem Leads.punctual (admitted : Profile.ofStages p.stages = .ok p)
    (h : Leads p tick .start v) : v.Punctual p tick := by
  induction h with
  | refl => exact .start
  | tail _ step ih => exact ih.next admitted step

/-- The profile is found over at the first wake that is not before its total. -/
theorem Leads.isFirstWakeAfter (admitted : Profile.ofStages p.stages = .ok p)
    (h : Leads p tick .start v) (finished : v.duty = .finished) :
    IsFirstWakeAfter p tick v.time := by
  obtain ⟨⟨k, time, earlier⟩, -, -, late⟩ := h.punctual admitted
  exact ⟨k, time, late finished, earlier⟩

end Plan

end SearchLoad.Run
