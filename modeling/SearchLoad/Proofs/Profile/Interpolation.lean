import Mathlib.Tactic.GCongr
import SearchLoad.Proofs.Number.Rounding
import SearchLoad.Proofs.Profile.Ramp

namespace SearchLoad.Profile

open Number Number.Binary64

/-- Nanoseconds within a second, in seconds. -/
def fraction (nanos : Nat) : Rat := div (ofNat nanos) Span.nanosPerSecond

theorem inSeconds_eq (nanos : Nat) : inSeconds nanos =
    nearest (ofNat (nanos / Span.nanosPerSecond) + fraction (nanos % Span.nanosPerSecond)) := rfl

theorem ofNat_mono {m n : Nat} (h : m ≤ n) : ofNat m ≤ ofNat n :=
  nearest_mono (Nat.cast_le.mpr h)

theorem ofNat_nonneg (n : Nat) : 0 ≤ ofNat n := nearest_nonneg (Nat.cast_nonneg n)

theorem isValue_ofNat (n : Nat) : IsValue (ofNat n) := isValue_nearest n

theorem ofNat_of_le {n : Nat} (small : n ≤ 2 ^ 53) : ofNat n = n :=
  nearest_of_isValue (isValue_natCast small)

theorem fraction_nonneg (nanos : Nat) : 0 ≤ fraction nanos :=
  nearest_nonneg (div_nonneg (ofNat_nonneg nanos) (Nat.cast_nonneg _))

theorem fraction_mono {m n : Nat} (h : m ≤ n) : fraction m ≤ fraction n := by
  refine nearest_mono ?_
  have := ofNat_mono h
  gcongr

theorem fraction_lt_one {nanos : Nat} (h : nanos < Span.nanosPerSecond) : fraction nanos < 1 := by
  have most : fraction (Span.nanosPerSecond - 1) < 1 := by decide +kernel
  exact (fraction_mono (Nat.le_sub_one_of_lt h)).trans_lt most

/-- A time is not later than the next whole second, in seconds too. -/
theorem inSeconds_le_ofNat (nanos : Nat) :
    inSeconds nanos ≤ ofNat (nanos / Span.nanosPerSecond + 1) := by
  have small : fraction (nanos % Span.nanosPerSecond) < 1 :=
    fraction_lt_one (Nat.mod_lt _ (by decide))
  rw [inSeconds_eq]
  generalize nanos / Span.nanosPerSecond = seconds
  rcases Nat.lt_or_ge seconds (2 ^ 53) with exact | large
  · rw [ofNat_of_le exact.le, ofNat_of_le exact]
    refine nearest_le (isValue_natCast exact) ?_
    push_cast
    linarith
  · -- Beside so many seconds the fraction is lost.
    have value : IsValue ((2 ^ 53 : Nat) : Rat) := isValue_natCast (Nat.le_refl _)
    have large' : 2 ^ 53 ≤ ofNat seconds := by
      have := le_nearest value (Nat.cast_le.mpr large)
      exact_mod_cast this
    rw [nearest_add_of_large (isValue_ofNat seconds) large' (fraction_nonneg _) small]
    exact ofNat_mono (Nat.le_succ seconds)

theorem ofNat_le_inSeconds (nanos : Nat) :
    ofNat (nanos / Span.nanosPerSecond) ≤ inSeconds nanos := by
  refine le_nearest (isValue_ofNat _) ?_
  exact le_add_of_nonneg_right (fraction_nonneg _)

/-- Times in seconds are in the order of times. -/
theorem inSeconds_mono {a b : Nat} (h : a ≤ b) : inSeconds a ≤ inSeconds b := by
  rcases (Nat.div_le_div_right (c := Span.nanosPerSecond) h).eq_or_lt with same | less
  · have rest : a % Span.nanosPerSecond ≤ b % Span.nanosPerSecond := by
      have ha := Nat.div_add_mod a Span.nanosPerSecond
      have hb := Nat.div_add_mod b Span.nanosPerSecond
      rw [same] at ha
      omega
    rw [inSeconds_eq, inSeconds_eq, same]
    exact nearest_mono (add_le_add_right (fraction_mono rest) _)
  · calc inSeconds a ≤ ofNat (a / Span.nanosPerSecond + 1) := inSeconds_le_ofNat a
      _ ≤ ofNat (b / Span.nanosPerSecond) := ofNat_mono less
      _ ≤ inSeconds b := ofNat_le_inSeconds b

@[simp] theorem inSeconds_zero : inSeconds 0 = 0 := by
  simp [inSeconds_eq, fraction, ofNat, div]

theorem inSeconds_pos {nanos : Nat} (h : 0 < nanos) : 0 < inSeconds nanos := by
  have least : 0 < inSeconds 1 := by decide +kernel
  exact least.trans_le (inSeconds_mono h)

theorem progress_zero (duration : Nat) : progress 0 duration = 0 := by
  simp [progress, div]

theorem progress_nonneg (elapsed duration : Nat) : 0 ≤ progress elapsed duration := by
  refine nearest_nonneg (div_nonneg ?_ ?_)
  · exact inSeconds_zero ▸ inSeconds_mono (Nat.zero_le elapsed)
  · exact inSeconds_zero ▸ inSeconds_mono (Nat.zero_le duration)

theorem progress_mono {e e' : Nat} (h : e ≤ e') (duration : Nat) :
    progress e duration ≤ progress e' duration := by
  refine nearest_mono ?_
  have ordered := inSeconds_mono h
  have nonneg := inSeconds_zero ▸ inSeconds_mono (Nat.zero_le duration)
  gcongr

theorem progress_le_one {elapsed duration : Nat} (h : elapsed ≤ duration) :
    progress elapsed duration ≤ 1 := by
  have one : IsValue ((1 : Nat) : Rat) := isValue_natCast (by decide)
  rw [Nat.cast_one] at one
  refine nearest_le one (div_le_one_of_le₀ (inSeconds_mono h) ?_)
  exact inSeconds_zero ▸ inSeconds_mono (Nat.zero_le duration)

/-- A part of the way from one number of users to another, before it is rounded down. -/
def between (start target : Nat) (progress : Rat) : Rat :=
  add start (mul (sub target start) progress)

theorem interpolate_eq (start target : Nat) (progress : Rat) :
    interpolate start target progress = (between start target progress).floor.toNat := rfl

theorem sub_eq {start target : Nat} (low : start ≤ maxTarget) (low' : target ≤ maxTarget) :
    sub target start = target - start := by
  have value : IsValue (((target : Int) - start : Int) : Rat) := by
    refine isValue_intCast (abs_le.mpr ⟨?_, ?_⟩) <;> unfold maxTarget at low low' <;> omega
  push_cast at value
  exact nearest_of_isValue value

theorem isValue_target {n : Nat} (low : n ≤ maxTarget) : IsValue (n : Rat) :=
  isValue_natCast (low.trans (by decide))

theorem between_zero {start : Nat} (low : start ≤ maxTarget) (target : Nat) :
    between start target 0 = start := by
  rw [between, mul, mul_zero, nearest_zero, add, add_zero, nearest_of_isValue (isValue_target low)]

theorem interpolate_zero {start : Nat} (low : start ≤ maxTarget) (target : Nat) :
    interpolate start target 0 = start := by
  rw [interpolate_eq, between_zero low, ← Int.cast_natCast, Rat.floor_intCast, Int.toNat_natCast]

section

variable {start target : Nat} (low : start ≤ maxTarget) (low' : target ≤ maxTarget)

include low low'

theorem between_one : between start target 1 = target := by
  have exact : nearest (sub target start) = sub target start :=
    nearest_of_isValue (isValue_nearest _)
  rw [between, mul, mul_one, exact, sub_eq low low', add, add_sub_cancel,
    nearest_of_isValue (isValue_target low')]

theorem between_mono (up : start ≤ target) {p p' : Rat} (h : p ≤ p') :
    between start target p ≤ between start target p' := by
  have rise : (0 : Rat) ≤ target - start := sub_nonneg.mpr (Nat.cast_le.mpr up)
  refine nearest_mono (add_le_add_right (nearest_mono ?_) _)
  rw [sub_eq low low']
  exact mul_le_mul_of_nonneg_left h rise

theorem between_anti (down : target ≤ start) {p p' : Rat} (h : p ≤ p') :
    between start target p' ≤ between start target p := by
  have fall : (target : Rat) - start ≤ 0 := sub_nonpos.mpr (Nat.cast_le.mpr down)
  refine nearest_mono (add_le_add_right (nearest_mono ?_) _)
  rw [sub_eq low low']
  exact mul_le_mul_of_nonpos_left h fall

theorem between_bounds {p : Rat} (nonneg : 0 ≤ p) (le_one : p ≤ 1) :
    (min start target : Nat) ≤ between start target p ∧
      between start target p ≤ (max start target : Nat) := by
  rcases le_total start target with up | down
  · have first := between_mono low low' up nonneg
    have last := between_mono low low' up le_one
    rw [between_zero low] at first
    rw [between_one low low'] at last
    rw [min_eq_left up, max_eq_right up]
    exact ⟨first, last⟩
  · have first := between_anti low low' down nonneg
    have last := between_anti low low' down le_one
    rw [between_zero low] at first
    rw [between_one low low'] at last
    rw [min_eq_right down, max_eq_left down]
    exact ⟨last, first⟩

theorem interpolate_mono (up : start ≤ target) {p p' : Rat} (h : p ≤ p') :
    interpolate start target p ≤ interpolate start target p' :=
  Int.toNat_le_toNat (Rat.floor_monotone (between_mono low low' up h))

theorem interpolate_anti (down : target ≤ start) {p p' : Rat} (h : p ≤ p') :
    interpolate start target p' ≤ interpolate start target p :=
  Int.toNat_le_toNat (Rat.floor_monotone (between_anti low low' down h))

/-- Nothing is lost when the floor is taken for a number of users. -/
theorem natCast_interpolate {p : Rat} (nonneg : 0 ≤ p) (le_one : p ≤ 1) :
    (interpolate start target p : Int) = (between start target p).floor := by
  have least := (between_bounds low low' nonneg le_one).1
  refine Int.toNat_of_nonneg (Rat.le_floor_iff.mpr ?_)
  exact (Nat.cast_nonneg (min start target)).trans least

theorem interpolate_bounds {p : Rat} (nonneg : 0 ≤ p) (le_one : p ≤ 1) :
    min start target ≤ interpolate start target p ∧
      interpolate start target p ≤ max start target := by
  obtain ⟨least, most⟩ := between_bounds low low' nonneg le_one
  have floor := natCast_interpolate low low' nonneg le_one
  have least' : ((min start target : Nat) : Int) ≤ (between start target p).floor :=
    Rat.le_floor_iff.mpr (by exact_mod_cast least)
  have most' : (between start target p).floor ≤ ((max start target : Nat) : Int) := by
    have := (Rat.floor_le _).trans most
    exact_mod_cast this
  omega

end

/-- How many users there are at the end of some stages, with `previous` users before them. -/
def lastTarget (previous : Nat) (stages : List Stage) : Nat :=
  (stages.getLast?.map Stage.target).getD previous

theorem lastTarget_cons (previous : Nat) (s : Stage) (ss : List Stage) :
    lastTarget previous (s :: ss) = lastTarget s.target ss := by
  cases h : ss.getLast? <;> simp [lastTarget, List.getLast?_cons, h]

/-- Stages that are over are passed. -/
theorem targetFrom_append (start previous elapsed : Nat) (before rest : List Stage)
    (passed : start + nanosOf before ≤ elapsed) :
    targetFrom start previous elapsed (before ++ rest) =
      targetFrom (start + nanosOf before) (lastTarget previous before) elapsed rest := by
  induction before generalizing start previous with
  | nil => rfl
  | cons s ss ih =>
    rw [nanosOf_cons, ← Nat.add_assoc] at passed ⊢
    have isOver : ¬ elapsed < start + s.duration.nanos := by omega
    rw [List.cons_append, targetFrom, if_neg isOver, ih _ _ passed, lastTarget_cons]

/-- At a time `s` is the first stage to end after it, and the stages before `s` are these. -/
structure Underway (p : Profile) (elapsed : Nat) (before : List Stage) (s : Stage) : Prop where
  among : ∃ after, p.stages = before ++ s :: after
  begun : nanosOf before ≤ elapsed
  unfinished : elapsed < nanosOf before + s.duration.nanos

variable {p : Profile} {elapsed : Nat} {before : List Stage} {s : Stage}

theorem Underway.targetAt_eq (h : p.Underway elapsed before s) :
    p.targetAt elapsed = some (interpolate (lastTarget 0 before) s.target
      (progress (elapsed - nanosOf before) s.duration.nanos)) := by
  obtain ⟨⟨after, stages⟩, begun, unfinished⟩ := h
  have passed := targetFrom_append 0 0 elapsed before (s :: after) (by simpa using begun)
  rw [Nat.zero_add] at passed
  rw [targetAt, stages, passed, targetFrom, if_pos unfinished]

/-- Until a profile is over, one of its stages is under way. -/
theorem exists_underway (admitted : ofStages p.stages = .ok p) (h : elapsed < p.total.nanos) :
    ∃ before s, p.Underway elapsed before s := by
  have search : ∀ (before rest : List Stage), p.stages = before ++ rest →
      nanosOf before ≤ elapsed → ∃ before s, p.Underway elapsed before s := by
    intro before rest
    induction rest generalizing before with
    | nil =>
      intro stages passed
      rw [total_of_ofStages admitted, stages, List.append_nil] at h
      omega
    | cons s ss ih =>
      intro stages begun
      by_cases inside : elapsed < nanosOf before + s.duration.nanos
      · exact ⟨before, s, ⟨ss, stages⟩, begun, inside⟩
      · refine ih (before ++ [s]) (by simpa using stages) ?_
        rw [nanosOf_append, nanosOf_cons]
        exact Nat.le_of_not_lt inside
  exact search [] p.stages rfl (Nat.zero_le elapsed)

theorem le_highest (h : s ∈ p.stages) : s.target ≤ p.highest := by
  have grows : ∀ (ss : List Stage) (n : Nat), n ≤ ss.foldl (fun n s => max n s.target) n ∧
      ∀ s ∈ ss, s.target ≤ ss.foldl (fun n s => max n s.target) n := by
    intro ss
    induction ss with
    | nil => simp
    | cons t ss ih =>
      intro n
      obtain ⟨first, rest⟩ := ih (max n t.target)
      refine ⟨(Nat.le_max_left _ _).trans first, List.forall_mem_cons.mpr ⟨?_, rest⟩⟩
      exact (Nat.le_max_right _ _).trans first
  exact (grows p.stages 0).2 s h

theorem highest_le {bound : Nat} (h : ∀ s ∈ p.stages, s.target ≤ bound) : p.highest ≤ bound := by
  have stays : ∀ (ss : List Stage) (n : Nat), n ≤ bound → (∀ s ∈ ss, s.target ≤ bound) →
      ss.foldl (fun n s => max n s.target) n ≤ bound := by
    intro ss
    induction ss with
    | nil => exact fun _ low _ => low
    | cons t ss ih =>
      intro n low all
      obtain ⟨one, all⟩ := List.forall_mem_cons.mp all
      exact ih _ (Nat.max_le.mpr ⟨low, one⟩) all
  exact stays p.stages 0 (Nat.zero_le _) h

namespace Underway

theorem mem (h : p.Underway elapsed before s) : s ∈ p.stages := by
  obtain ⟨after, stages⟩ := h.among
  simp [stages]

theorem lastTarget_le_highest (h : p.Underway elapsed before s) :
    lastTarget 0 before ≤ p.highest := by
  obtain ⟨after, stages⟩ := h.among
  unfold lastTarget
  cases last : before.getLast? with
  | none => exact Nat.zero_le _
  | some t =>
    refine le_highest ?_
    rw [stages]
    exact List.mem_append_left _ (List.mem_of_getLast? last)

theorem progress_le_one (h : p.Underway elapsed before s) :
    progress (elapsed - nanosOf before) s.duration.nanos ≤ 1 := by
  have := h.unfinished
  exact Profile.progress_le_one (by omega)

end Underway

/-- While a stage is under way, the number of users is between the target before and its own, so it
is never above the profile's highest, which is one that a stage may ask for. At the very start it is
the target before, and from then on it only rises in a stage that ramps up and only falls in one
that ramps down. -/
theorem ramp_stays_between_targets (p : Profile) (admitted : ofStages p.stages = .ok p)
    (before : List Stage) (s : Stage) :
    (∀ elapsed, p.Underway elapsed before s → ∃ n, p.targetAt elapsed = some n ∧
      min (lastTarget 0 before) s.target ≤ n ∧ n ≤ max (lastTarget 0 before) s.target ∧
      n ≤ p.highest ∧ p.highest ≤ maxTarget) ∧
    (p.Underway (nanosOf before) before s →
      p.targetAt (nanosOf before) = some (lastTarget 0 before)) ∧
    ∀ e e' n n', p.Underway e before s → p.Underway e' before s → e ≤ e' →
      p.targetAt e = some n → p.targetAt e' = some n' →
      (lastTarget 0 before ≤ s.target → n ≤ n') ∧ (s.target ≤ lastTarget 0 before → n' ≤ n) := by
  have limit : p.highest ≤ maxTarget := highest_le (of_ofStages admitted).2.2
  have low : ∀ {elapsed}, p.Underway elapsed before s → lastTarget 0 before ≤ maxTarget :=
    fun h => h.lastTarget_le_highest.trans limit
  have low' : ∀ {elapsed}, p.Underway elapsed before s → s.target ≤ maxTarget :=
    fun h => (le_highest h.mem).trans limit
  refine ⟨?_, ?_, ?_⟩
  · intro elapsed h
    obtain ⟨least, most⟩ := interpolate_bounds (low h) (low' h) (progress_nonneg _ _)
      h.progress_le_one
    exact ⟨_, h.targetAt_eq, least, most,
      most.trans (max_le h.lastTarget_le_highest (le_highest h.mem)), limit⟩
  · intro h
    rw [h.targetAt_eq, Nat.sub_self, progress_zero, interpolate_zero (low h)]
  · intro e e' n n' h h' later asked asked'
    have further := progress_mono (Nat.sub_le_sub_right later (nanosOf before)) s.duration.nanos
    rw [h.targetAt_eq, Option.some.injEq] at asked
    rw [h'.targetAt_eq, Option.some.injEq] at asked'
    subst asked asked'
    exact ⟨fun up => interpolate_mono (low h) (low' h) up further,
      fun down => interpolate_anti (low h) (low' h) down further⟩

/-- All of the longest ramp, a nanosecond before its end too, where it is as good as over. -/
theorem longest_ramp_stays_between :
    let p : Profile := ⟨[⟨.zero, 5⟩, ⟨.longest, 100000⟩], .longest⟩
    p.targetAt 0 = some 5 ∧ p.targetAt (Span.maxNanos - 1) = some 100000 ∧ p.highest = 100000 ∧
      ∀ e n, e < Span.maxNanos → p.targetAt e = some n → 5 ≤ n ∧ n ≤ 100000 := by
  intro p
  have admitted : ofStages p.stages = .ok p := by decide +kernel
  have underway : ∀ e < Span.maxNanos, p.Underway e [⟨.zero, 5⟩] ⟨.longest, 100000⟩ :=
    fun e early => ⟨⟨[], rfl⟩, Nat.zero_le e, early.trans_eq (Nat.zero_add _).symm⟩
  have last : p.targetAt (Span.maxNanos - 1) = some 100000 := by decide +kernel
  have ramp := ramp_stays_between_targets p admitted [⟨.zero, 5⟩] ⟨.longest, 100000⟩
  refine ⟨ramp.2.1 (underway 0 (by decide)), last, by decide, ?_⟩
  intro e n early asked
  obtain ⟨n', asked', least, most, -⟩ := ramp.1 e (underway e early)
  obtain rfl : n = n' := Option.some.inj (asked.symm.trans asked')
  exact ⟨least, most⟩

end SearchLoad.Profile
