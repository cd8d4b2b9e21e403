import SearchLoad.Proofs.Profile.Interpolation

namespace SearchLoad

/-- Nothing if the second time is the later one. -/
def Span.sub? (a b : Span) : Option Span :=
  if b.nanos ≤ a.nanos then ofNanos? (a.nanos - b.nanos) else none

theorem Span.sub?_eq_some {a b : Span} (h : b.nanos ≤ a.nanos) :
    ∃ c, a.sub? b = some c ∧ c.nanos = a.nanos - b.nanos := by
  refine ⟨⟨a.nanos - b.nanos, (Nat.sub_le _ _).trans a.nanos_le⟩, ?_, rfl⟩
  rw [sub?, if_pos h, ofNanos?_eq_some_iff]

namespace Profile

/-- The operations that could fail in a walk over the stages. -/
inductive WalkFault
  | sumOverflow
  | negativeTime
  | divisionByZero
deriving DecidableEq, Repr

/-- `targetFrom` in spans, with a look at each operation before its result is used. A stage without
duration takes no seconds, so that it is found out by its divisor. -/
def walk (start : Span) (previous : Nat) (elapsed : Span) :
    List Stage → Except WalkFault (Option Nat)
  | [] => .ok none
  | s :: ss =>
    match start.add? s.duration with
    | none => .error .sumOverflow
    | some stop =>
      if elapsed.nanos < stop.nanos then
        match elapsed.sub? start with
        | none => .error .negativeTime
        | some since =>
          if inSeconds s.duration.nanos = 0 then .error .divisionByZero
          else .ok (some (interpolate previous s.target
            (progress since.nanos s.duration.nanos)))
      else walk stop s.target elapsed ss

/-- The walk has come to a time not later than asked for, and the stages left end in time. -/
theorem walk_eq {start elapsed : Span} (begun : start.nanos ≤ elapsed.nanos) (previous : Nat)
    {stages : List Stage} (fits : start.nanos + nanosOf stages ≤ Span.maxNanos) :
    walk start previous elapsed stages =
      .ok (targetFrom start.nanos previous elapsed.nanos stages) := by
  induction stages generalizing start previous with
  | nil => rfl
  | cons s ss ih =>
    rw [nanosOf_cons, ← Nat.add_assoc] at fits
    have stop_le : start.nanos + s.duration.nanos ≤ Span.maxNanos :=
      (Nat.le_add_right _ _).trans fits
    obtain ⟨stop, stops⟩ : ∃ stop : Span, stop.nanos = start.nanos + s.duration.nanos :=
      ⟨⟨_, stop_le⟩, rfl⟩
    have added : start.add? s.duration = some stop := Span.add?_eq_some_iff.mpr stops
    rw [walk, added, targetFrom, ← stops]
    dsimp only
    by_cases inside : elapsed.nanos < stop.nanos
    · obtain ⟨since, taken, since_eq⟩ := Span.sub?_eq_some begun
      have lasting : 0 < s.duration.nanos := by omega
      have divisor : inSeconds s.duration.nanos ≠ 0 := (inSeconds_pos lasting).ne'
      rw [if_pos inside, if_pos inside, taken]
      dsimp only
      rw [if_neg divisor, since_eq]
    · rw [if_neg inside, if_neg inside]
      exact ih (Nat.le_of_not_lt inside) s.target (stops ▸ fits)

/-- Stages that no profile is made of may overflow. -/
example : walk .zero 0 .longest [⟨.longest, 1⟩, ⟨.ofMillis 1, 0⟩] = .error .sumOverflow := by
  decide

/-- The ways to get a profile: from stages, from a text, or the standard one. -/
inductive Obtainable : Profile → Prop
  | ofStages {stages : List Stage} {p : Profile} (made : ofStages stages = .ok p) : Obtainable p
  | parse {text : String} {p : Profile} (read : parse text = .ok p) : Obtainable p
  | standard : Obtainable standard

theorem ofStages_of_parse {text : String} {p : Profile} (h : parse text = .ok p) :
    ∃ stages, ofStages stages = .ok p := by
  rw [parse, read] at h
  cases reading : ((text.toList.splitOn ',').filter fun piece => !Text.isAllBlank piece).mapM
      Stage.read with
  | error fault => simp [reading, bind, Except.bind] at h
  | ok stages => exact ⟨stages, by simpa [reading, bind, Except.bind] using h⟩

theorem Obtainable.admitted {p : Profile} (h : p.Obtainable) :
    Profile.ofStages p.stages = .ok p := by
  cases h with
  | ofStages made => rwa [(of_ofStages made).1]
  | parse read =>
    obtain ⟨stages, made⟩ := ofStages_of_parse read
    rwa [(of_ofStages made).1]
  | standard => decide

/-- Asking a profile for its number of users at any time goes through without a fault. Its total is
the sum of its durations, and it asks for no more users just from then on. -/
theorem walk_never_fails (p : Profile) (obtained : p.Obtainable) (elapsed : Span) :
    walk .zero 0 elapsed p.stages = .ok (p.targetAt elapsed.nanos) ∧
      p.total.nanos = nanosOf p.stages ∧
      (p.targetAt elapsed.nanos = none ↔ p.total.nanos ≤ elapsed.nanos) := by
  have total := total_of_ofStages obtained.admitted
  have fits : Span.zero.nanos + nanosOf p.stages ≤ Span.maxNanos := by
    rw [← total]
    exact (Nat.zero_add _).trans_le p.total.nanos_le
  exact ⟨walk_eq (Nat.zero_le _) 0 fits, total, targetAt_eq_none_iff obtained.admitted _⟩

/-- The longest profile in two stages: its ends are the last times there are. -/
theorem longest_walk_never_fails :
    let long : Span := ⟨18446744073709551614999999999, by decide⟩
    let p : Profile := ⟨[⟨.zero, 5⟩, ⟨long, 10⟩, ⟨.ofMillis 1000, 0⟩], .longest⟩
    p.Obtainable ∧ walk .zero 0 long p.stages = .ok (some 10) ∧
      walk .zero 0 .longest p.stages = .ok none := by
  intro long p
  have made : Profile.ofStages p.stages = .ok p := by decide +kernel
  have obtained : p.Obtainable := .ofStages made
  have last : p.targetAt long.nanos = some 10 := by decide +kernel
  have isOver := (walk_never_fails p obtained .longest).2.2.mpr (Nat.le_refl _)
  refine ⟨obtained, ?_, ?_⟩
  · rw [(walk_never_fails p obtained long).1, last]
  · rw [(walk_never_fails p obtained .longest).1, isOver]

end Profile

end SearchLoad
