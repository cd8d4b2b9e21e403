import SearchLoad.Proofs.Run.Plan
import SearchLoad.Proofs.Run.VirtualClock

namespace SearchLoad.Run

variable {scene scene' : Scene} {o o' : Options}

namespace Control

@[simp] def duty : Control → Duty
  | .looking => .look
  | .resizing _ target => .resize target
  | .sleeping => .sleep
  | _ => .finished

/-- When the profile was found over. -/
@[simp] def elapsed? : Control → Option Nat
  | .stopping elapsed => some elapsed
  | .awaiting elapsed .. => some elapsed
  | .returned report _ => some report.elapsed
  | _ => none

end Control

namespace Moment

variable {m m' : Moment}

/-- Until the profile is over, the controller's clock stands still but for its sleeps, and these end
on time. Users may be late. -/
def Prompt (o : Options) (m m' : Moment) : Prop :=
  match m.control with
  | .looking | .resizing .. => m'.clock = m.clock
  | .sleeping => m'.clock = m.clock ∨ m'.clock = wakeTime m.clock o.tick.nanos
  | _ => True

/-- The moments that a test can come to if computing takes the controller no time. -/
inductive OnTime (scene : Scene) (o : Options) : Moment → Prop
  | start : OnTime scene o .start
  | step {m m' : Moment} (before : OnTime scene o m) (next : Step scene o m m')
      (prompt : Prompt o m m') : OnTime scene o m'

theorem OnTime.reached (h : OnTime scene o m) : Reached scene o m := by
  induction h with
  | start => exact .start
  | step _ next _ ih => exact ih.step next

def plan (m : Moment) : Plan :=
  ⟨m.control.elapsed?.getD m.clock, m.control.duty, m.fleet.roster⟩

/-- A step goes on with the plan or leaves it as it is. -/
theorem Step.leads (next : Step scene o m m') (prompt : Prompt o m m') :
    Plan.Leads o.profile o.tick m.plan m'.plan := by
  cases next with
  | look place => exact .refl
  | @move p u v e place moves =>
    have same : (p.fill v).roster = m.fleet.roster := place ▸ p.roster_fill moves.id_eq
    rw [plan, plan, same]
    exact .refl
  | wake control later asked =>
    simp only [Prompt, control] at prompt
    refine .single ?_
    simp [plan, control, Plan.next, ← prompt, asked]
  | spawn control few later =>
    simp only [Prompt, control] at prompt
    refine .single ?_
    simp [plan, control, Plan.next, prompt, few]
  | retire control many later =>
    simp only [Prompt, control] at prompt
    refine .single ?_
    simp [plan, control, Plan.next, prompt, many, Nat.lt_asymm many]
  | settle control enough later =>
    simp only [Prompt, control] at prompt
    refine .single ?_
    simp [plan, control, Plan.next, prompt, enough]
  | rouse control later =>
    simp only [Prompt, control] at prompt
    -- If the clock stood still, the sleep took no time.
    have woken := prompt.elim
      (fun still => Nat.le_antisymm (still ▸ Nat.le_add_right _ _) later) id
    refine .single ?_
    simp [plan, control, Plan.next, woken]
  | @expire now elapsed control later finished last =>
    simp only [Prompt, control] at prompt
    obtain rfl : now = m.clock := Nat.le_antisymm (prompt ▸ last) later
    refine .single ?_
    simp [plan, control, Plan.next, prompt, finished]
  | @flag elapsed peak newer older retired u history control place raised =>
    have same : ((Fleet.Place.active newer older retired peak history).fill u.stop).roster =
        m.fleet.roster := place ▸ Fleet.Place.roster_fill _ rfl
    rw [plan, plan, same]
    exact .refl
  | await control | join control | abort control | report control =>
    rw [plan, control]
    exact .refl

theorem OnTime.leads (h : OnTime scene o m) :
    Plan.Leads o.profile o.tick .start m.plan := by
  induction h with
  | start => exact .refl
  | step _ next prompt ih => exact ih.trans (next.leads prompt)

/-- Whatever a test does under load, the plan goes on. -/
theorem OnTime.exists_next {v : Plan} (h : OnTime scene o m)
    (next : m.plan.next o.profile o.tick = some v) : ∃ m', OnTime scene o m' ∧ m'.plan = v := by
  cases control : m.control with
  | looking =>
    simp only [plan, control, Control.duty, Control.elapsed?, Plan.next] at next
    split at next
    · rename_i target asked
      cases next
      exact ⟨_, h.step (.wake control (Nat.le_refl _) asked) (by simp [Prompt, control]), rfl⟩
    · rename_i finished
      cases next
      exact ⟨_, h.step (.expire control (Nat.le_refl _) finished (Nat.le_refl _))
        (by simp [Prompt, control]), rfl⟩
  | resizing time target =>
    simp only [plan, control, Control.duty, Control.elapsed?, Plan.next] at next
    split at next
    · rename_i few
      cases next
      refine ⟨_, h.step (.spawn control (by simpa using few) (Nat.le_refl _))
        (by simp [Prompt, control]), ?_⟩
      simp [plan, control]
    · split at next
      · rename_i many
        cases next
        refine ⟨_, h.step (.retire control (by simpa using many) (Nat.le_refl _))
          (by simp [Prompt, control]), ?_⟩
        simp [plan, control]
      · rename_i few many
        simp only [Fleet.length_active_roster] at few many
        cases next
        refine ⟨_, h.step (.settle control (by omega) (Nat.le_refl _))
          (by simp [Prompt, control]), ?_⟩
        simp [plan]
  | sleeping =>
    simp only [plan, control, Control.duty, Control.elapsed?, Plan.next] at next
    cases next
    exact ⟨_, h.step (.rouse control (Nat.le_refl _)) (by simp [Prompt, control]), rfl⟩
  | stopping | awaiting | returned =>
    simp [plan, control, Plan.next] at next

theorem exists_onTime (scene : Scene) {v : Plan} (h : Plan.Leads o.profile o.tick .start v) :
    ∃ m, OnTime scene o m ∧ m.plan = v := by
  induction h with
  | refl => exact ⟨_, .start, rfl⟩
  | tail _ next ih =>
    obtain ⟨m, onTime, rfl⟩ := ih
    exact onTime.exists_next next

/-- The peak in a report is the one that the fleet has. -/
theorem Step.reported_peak (next : Step scene o m m')
    (h : ∀ report awaited, m.control = .returned report awaited →
      report.peakUsers = m.fleet.peak) :
    ∀ report awaited, m'.control = .returned report awaited →
      report.peakUsers = m'.fleet.peak := by
  cases next with
  | look place => exact h
  | @move p u v e place moves =>
    intro report awaited returned
    rw [h report awaited returned, place]
    exact p.peak_fill u v
  | spawn control | retire control | flag control => simp [control]
  | wake | settle | rouse | expire | await | join | abort => simp
  | report control =>
    intro report awaited returned
    cases returned
    rfl

theorem Reached.reported_peak (h : Reached scene o m) :
    ∀ report awaited, m.control = .returned report awaited →
      report.peakUsers = m.fleet.peak := by
  induction h with
  | start => simp [Moment.start]
  | step _ next ih => exact next.reported_peak ih

end Moment

namespace Fleet

variable {p : Profile} {tick : Span} {time target : Nat}

theorem leads_grow (k : Nat) {f : Fleet} (few : k ≤ target - f.active.length) :
    Plan.Leads p tick ⟨time, .resize target, f.roster⟩
      ⟨time, .resize target, (f.grow scene time k).roster⟩ := by
  induction k generalizing f with
  | zero => exact .refl
  | succ k ih =>
    have fewer : f.active.length < target := by omega
    have rest : k ≤ target - (f.spawn scene time).active.length := by
      simp only [spawn, List.length_cons]
      omega
    exact .head (by simp [Plan.next, fewer]) (ih rest)

theorem leads_shrink (k : Nat) {f : Fleet} (many : k ≤ f.active.length - target) :
    Plan.Leads p tick ⟨time, .resize target, f.roster⟩
      ⟨time, .resize target, (f.shrink time k).roster⟩ := by
  induction k generalizing f with
  | zero => exact .refl
  | succ k ih =>
    have more : target < f.active.length := by omega
    have rest : k ≤ (f.retire time).active.length - target := by
      have one : f.shrink time 1 = f.retire time := rfl
      rw [← one, active_shrink, List.length_drop]
      omega
    exact .head (by simp [Plan.next, more, Nat.lt_asymm more]) (ih rest)

theorem leads_resize (scene : Scene) (f : Fleet) :
    Plan.Leads p tick ⟨time, .resize target, f.roster⟩
      ⟨time, .sleep, (f.resize scene time target).roster⟩ := by
  have grown : Plan.Leads p tick ⟨time, .resize target, f.roster⟩
      ⟨time, .resize target, (f.grow scene time (target - f.active.length)).roster⟩ :=
    leads_grow _ (Nat.le_refl _)
  have shrunk := grown.trans (leads_shrink _ (Nat.le_refl _))
  have enough := active_length_resize f scene time target
  rw [resize, active_notePeak] at enough
  exact shrunk.tail (by simp [Plan.next, enough, resize])

@[simp] theorem roster_advance (f : Fleet) (scene : Scene) (limit : Nat) :
    (f.advance scene limit).roster = f.roster := by
  have same : User.id ∘ User.advance scene limit = User.id := by
    funext u
    exact User.id_stepBefore limit _ u
  simp [roster, advance, same]

end Fleet

theorem Follows.leads {wakes : List (Nat × Nat)} {c : Controller} (h : Follows scene o wakes c) :
    Plan.Leads o.profile o.tick .start ⟨c.time, .look, c.fleet.roster⟩ := by
  induction h with
  | start => exact .refl
  | @wake wakes c target before asked ih =>
    have resizing : Plan.Leads o.profile o.tick .start ⟨c.time, .resize target, c.fleet.roster⟩ :=
      ih.tail (by simp [Plan.next, asked])
    have asleep := resizing.trans (c.fleet.leads_resize scene)
    exact asleep.tail (by simp [Plan.next, Controller.wake])

namespace Controller

/-- Where a simulated test stops following its profile, the plan is over. -/
theorem leads_of_follow {fuel : Nat} {c : Controller}
    (h : Controller.start.follow scene o fuel = some c) :
    Plan.Leads o.profile o.tick .start ⟨c.time, .finished, c.fleet.roster⟩ := by
  obtain ⟨wakes, follows, finished⟩ := Follows.start.of_follow h
  exact follows.leads.tail (by simp [Plan.next, finished])

theorem exists_follow (scene : Scene)
    (admitted : Profile.ofStages o.profile.stages = .ok o.profile) (fuel : Nat) (c : Controller)
    (enough : o.profile.total.nanos ≤ c.time + fuel * min o.tick.nanos longestSleep) :
    ∃ last, c.follow scene o (fuel + 1) = some last := by
  induction fuel generalizing c with
  | zero =>
    have finished := (Profile.targetAt_eq_none_iff admitted c.time).mpr (by simpa using enough)
    exact ⟨c, by simp [follow, finished]⟩
  | succ fuel ih =>
    rw [follow]
    split
    · exact ⟨c, rfl⟩
    · refine ih _ ?_
      simp only [wake, wakeTime]
      rw [Nat.succ_mul] at enough
      omega

/-- A profile is over after as many wakes as are allowed for, unless the clock never moves. -/
theorem exists_last (scene : Scene)
    (admitted : Profile.ofStages o.profile.stages = .ok o.profile)
    (moves : 0 < o.tick.nanos ∨ o.profile.total.nanos = 0) :
    ∃ last, Controller.start.follow scene o (maxWakes o) = some last := by
  unfold maxWakes
  split
  · rename_i still
    exact exists_follow scene admitted 0 .start (by omega)
  · have step : 0 < min o.tick.nanos longestSleep := by
      have : 0 < longestSleep := by decide
      omega
    have enough := Nat.lt_mul_div_succ o.profile.total.nanos step
    rw [Nat.mul_comm] at enough
    refine exists_follow scene admitted _ .start ?_
    simpa [Controller.start] using Nat.le_of_lt enough

end Controller

/-- The reports of the simulated test, if it returns, and of all tests on the virtual clock that
return. -/
inductive Reports (scene : Scene) (o : Options) : Report → Prop
  | simulated {r : Result} (returns : simulate scene o = some r) : Reports scene o r.report
  | onTime {m : Moment} {report : Report} {awaited : List Awaited} (h : m.OnTime scene o)
      (control : m.control = .returned report awaited) : Reports scene o report

theorem Reports.leads {report : Report} (h : Reports scene o report) :
    ∃ roster : Roster, roster.peak = report.peakUsers ∧
      Plan.Leads o.profile o.tick .start ⟨report.elapsed, .finished, roster⟩ := by
  cases h with
  | @simulated r returns =>
    obtain ⟨wakes, c, -, follows, finished, ends⟩ := Follows.of_simulate returns
    obtain ⟨elapsed, peak⟩ := report_of_finish ends
    refine ⟨c.fleet.roster, peak.symm, ?_⟩
    rw [elapsed]
    exact follows.leads.tail (by simp [Plan.next, finished])
  | @onTime m report awaited h control =>
    have plan : m.plan = ⟨report.elapsed, .finished, m.fleet.roster⟩ := by
      simp [Moment.plan, control]
    exact ⟨m.fleet.roster, (h.reached.reported_peak _ _ control).symm, plan ▸ h.leads⟩

/-- What the controller does depends on the profile and the tick alone. In two tests that have
these, what it did up to some moment of one is the beginning of what it did up to some moment of the
other or the other way round, and whatever it comes to in the one it can come to in the other; once
the profile is over it did the same in both, on the simulated clock too. The reports give the same
time and the same peak, and the time is that of the first wake that found the profile over. -/
theorem load_ignores_target (scene scene' : Scene) (o o' : Options)
    (profile : o'.profile = o.profile) (tick : o'.tick = o.tick)
    (admitted : Profile.ofStages o.profile.stages = .ok o.profile) :
    (∀ m m', Moment.OnTime scene o m → Moment.OnTime scene' o' m' →
      (m.fleet.history <:+ m'.fleet.history ∨ m'.fleet.history <:+ m.fleet.history) ∧
      (m.control.duty = .finished → m'.control.duty = .finished → m'.plan = m.plan)) ∧
    (∀ m, Moment.OnTime scene o m → ∃ m', Moment.OnTime scene' o' m' ∧ m'.plan = m.plan) ∧
    (0 < o.tick.nanos ∨ o.profile.total.nanos = 0 →
      ∃ c c', Controller.start.follow scene o (Controller.maxWakes o) = some c ∧
        Controller.start.follow scene' o' (Controller.maxWakes o') = some c' ∧
        c'.time = c.time ∧ c'.fleet.roster = c.fleet.roster) ∧
    ∀ report report', Reports scene o report → Reports scene' o' report' →
      report'.elapsed = report.elapsed ∧ report'.peakUsers = report.peakUsers ∧
      IsFirstWakeAfter o.profile o.tick report.elapsed := by
  refine ⟨?_, ?_, ?_, ?_⟩
  · intro m m' h h'
    have leads := h.leads
    have leads' := h'.leads
    rw [profile, tick] at leads'
    exact ⟨(leads.total leads').imp Plan.Leads.history Plan.Leads.history,
      fun finished finished' => leads'.finished_unique leads finished' finished⟩
  · intro m h
    have leads := h.leads
    rw [← profile, ← tick] at leads
    exact Moment.exists_onTime scene' leads
  · intro moves
    obtain ⟨c, followed⟩ := Controller.exists_last scene admitted moves
    obtain ⟨c', followed'⟩ := Controller.exists_last (o := o') scene'
      (by rw [profile, admitted]) (by rw [profile, tick]; exact moves)
    have leads := Controller.leads_of_follow followed
    have leads' := Controller.leads_of_follow followed'
    rw [profile, tick] at leads'
    have same := leads'.finished_unique leads rfl rfl
    exact ⟨c, c', followed, followed', congrArg Plan.time same, congrArg Plan.roster same⟩
  · intro report report' h h'
    obtain ⟨roster, peak, leads⟩ := h.leads
    obtain ⟨roster', peak', leads'⟩ := h'.leads
    rw [profile, tick] at leads'
    have same := leads'.finished_unique leads rfl rfl
    refine ⟨congrArg Plan.time same, ?_, leads.isFirstWakeAfter admitted rfl⟩
    rw [← peak, ← peak']
    exact congrArg (fun v => v.roster.peak) same

/-- Whether searches return or not, and however long users are waited for, the brief test takes two
seconds and has two users at most. -/
theorem brief_load_ignores_target :
    ∃ r r', simulate briefScene briefOptions = some r ∧
      simulate mutedScene { briefOptions with gracefulStop := .ofMillis 500 } = some r' ∧
      r.report.stats.iterations = 1 ∧ r'.report.stats.iterations = 0 ∧
      r.report.elapsed = 2000000000 ∧ r.report.peakUsers = 2 ∧
      r'.report.elapsed = r.report.elapsed ∧ r'.report.peakUsers = r.report.peakUsers ∧
      IsFirstWakeAfter briefOptions.profile briefOptions.tick r.report.elapsed := by
  have load := load_ignores_target briefScene mutedScene briefOptions
    { briefOptions with gracefulStop := .ofMillis 500 } rfl rfl (by decide +kernel)
  have brief : (simulate briefScene briefOptions).map (fun r =>
      (r.report.stats.iterations, r.report.elapsed, r.report.peakUsers)) =
      some (1, 2000000000, 2) := by decide +kernel
  have muted : (simulate mutedScene { briefOptions with gracefulStop := .ofMillis 500 }).map
      (fun r => r.report.stats.iterations) = some 0 := by decide +kernel
  obtain ⟨r, returns, brief⟩ := Option.map_eq_some_iff.mp brief
  obtain ⟨r', returns', muted⟩ := Option.map_eq_some_iff.mp muted
  simp only [Prod.mk.injEq] at brief
  have same := load.2.2.2 _ _ (.simulated returns) (.simulated returns')
  exact ⟨r, r', returns, returns', brief.1, muted, brief.2.1, brief.2.2, same⟩

end SearchLoad.Run
