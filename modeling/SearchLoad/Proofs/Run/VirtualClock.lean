import Mathlib.Data.List.Induction
import Mathlib.Data.List.Perm.Subperm
import SearchLoad.Proofs.Run.Schedule

namespace SearchLoad.Run

variable {scene : Scene} {o : Options}

namespace Fleet

theorem exists_place {f : Fleet} {u : User} (h : u ∈ f.users) : ∃ p : Place, f = p.fill u := by
  obtain ⟨active, retired, peak, history⟩ := f
  rcases List.mem_append.mp h with h | h
  · obtain ⟨newer, older, rfl⟩ := List.append_of_mem h
    exact ⟨.active newer older retired peak history, rfl⟩
  · obtain ⟨later, earlier, rfl⟩ := List.append_of_mem h
    exact ⟨.retired active later earlier peak history, rfl⟩

/-- What can be done to any one user can be done to all of them. -/
theorem map_users {P : Fleet → Prop} {g : User → User}
    (one : ∀ (p : Place) (u : User), P (p.fill u) → P (p.fill (g u))) {f : Fleet} (h : P f) :
    P { f with active := f.active.map g, retired := f.retired.map g } := by
  obtain ⟨active, retired, peak, history⟩ := f
  have actives : ∀ done todo : List User, P ⟨done ++ todo, retired, peak, history⟩ →
      P ⟨done ++ todo.map g, retired, peak, history⟩ := by
    intro done todo
    induction todo generalizing done with
    | nil => exact id
    | cons u us ih =>
      intro h
      have step := one (.active done us retired peak history) u h
      simpa using ih (done ++ [g u]) (by simpa [Place.fill] using step)
  have retireds : ∀ done todo : List User, P ⟨active.map g, done ++ todo, peak, history⟩ →
      P ⟨active.map g, done ++ todo.map g, peak, history⟩ := by
    intro done todo
    induction todo generalizing done with
    | nil => exact id
    | cons u us ih =>
      intro h
      have step := one (.retired (active.map g) done us peak history) u h
      simpa using ih (done ++ [g u]) (by simpa [Place.fill] using step)
  exact retireds [] retired (actives [] active h)

end Fleet

/-- A user's steps before a time are taken one by one, each when it is due. -/
theorem User.stepBefore_induction {P : User → Prop} {limit : Nat}
    (step : ∀ u t, u.due? = some t → t < limit → P u → P (u.step scene)) (fuel : Nat) {u : User}
    (h : P u) : P (u.stepBefore scene limit fuel) := by
  induction fuel generalizing u with
  | zero => exact h
  | succ fuel ih =>
    unfold User.stepBefore
    split
    · rename_i t due
      split
      · rename_i early
        exact ih (step u t due early h)
      · exact h
    · exact h

namespace Moment

/-- Steps that leave all but the fleet and the record alone bring it to `f`. -/
def CanHave (scene : Scene) (o : Options) (m : Moment) (f : Fleet) : Prop :=
  ∃ events, Reached scene o { m with fleet := f, events := events }

variable {m : Moment}

theorem Reached.canHave (h : Reached scene o m) : m.CanHave scene o m.fleet := ⟨m.events, h⟩

/-- The step that is due on the virtual clock is one that the user can take under a schedule. -/
theorem CanHave.step (fresh : m.looked = []) (p : Fleet.Place) (u : User)
    (h : m.CanHave scene o (p.fill u)) : m.CanHave scene o (p.fill (u.step scene)) := by
  obtain ⟨events, h⟩ := h
  cases hp : u.phase with
  | idle since =>
    cases hs : u.stopping with
    | true =>
      have moved := h.step (.move rfl (.finish hp (by simp [fresh]) hs (Nat.le_refl since)))
      exact ⟨_, by simpa [User.step, hp, hs, fresh] using moved⟩
    | false =>
      have looked := h.step (.look rfl hp hs (by simp [fresh]))
      have sent := looked.step (.move rfl (.send hp (by simp) (Nat.le_refl since)))
      exact ⟨_, by simpa [User.step, hp, hs, fresh] using sent⟩
  | searching since q response =>
    cases response with
    | answered after outcome =>
      have moved := h.step (.move rfl (.take hp (Nat.le_refl (since + after))))
      exact ⟨_, by simpa [User.step, hp, fresh] using moved⟩
    | crashed after message =>
      have moved := h.step (.move rfl (.crash hp (Nat.le_refl (since + after))))
      exact ⟨_, by simpa [User.step, hp, fresh] using moved⟩
    | silent => exact ⟨events, by simpa [User.step, hp] using h⟩
  | ended time => exact ⟨events, by simpa [User.step, hp] using h⟩
  | crashed time message => exact ⟨events, by simpa [User.step, hp] using h⟩

theorem CanHave.stepBefore (fresh : m.looked = []) (p : Fleet.Place) (limit fuel : Nat) (u : User)
    (h : m.CanHave scene o (p.fill u)) :
    m.CanHave scene o (p.fill (u.stepBefore scene limit fuel)) :=
  User.stepBefore_induction (P := fun v => m.CanHave scene o (p.fill v))
    (fun v _ _ _ hv => hv.step fresh p v) fuel h

theorem CanHave.advance (fresh : m.looked = []) (limit : Nat) {f : Fleet}
    (h : m.CanHave scene o f) : m.CanHave scene o (f.advance scene limit) :=
  Fleet.map_users (fun p u hu => hu.stepBefore fresh p limit _ u) h

theorem CanHave.grow {target time : Nat} (control : m.control = .resizing time target) (k : Nat)
    {f : Fleet} (few : k ≤ target - f.active.length) (h : m.CanHave scene o f) :
    m.CanHave scene o (f.grow scene m.clock k) := by
  induction k generalizing f with
  | zero => exact h
  | succ k ih =>
    obtain ⟨events, h⟩ := h
    refine ih ?_ ⟨_, h.step (.spawn control ?_ (Nat.le_refl m.clock))⟩
    · simp only [Fleet.spawn, List.length_cons]
      omega
    · show f.active.length < target
      omega

theorem CanHave.shrink {target time : Nat} (control : m.control = .resizing time target) (k : Nat)
    {f : Fleet} (many : k ≤ f.active.length - target) (h : m.CanHave scene o f) :
    m.CanHave scene o (f.shrink m.clock k) := by
  induction k generalizing f with
  | zero => exact h
  | succ k ih =>
    obtain ⟨events, h⟩ := h
    refine ih ?_ ⟨_, h.step (.retire control ?_ (Nat.le_refl m.clock))⟩
    · obtain ⟨active, retired, peak, history⟩ := f
      cases active with
      | nil => simp at many
      | cons u us =>
        simp only [Fleet.retire, List.length_cons] at many ⊢
        omega
    · show target < f.active.length
      omega

/-- The stop flags go up oldest first. -/
theorem CanHave.stopAll {elapsed : Nat} (control : m.control = .stopping elapsed) {f : Fleet}
    (h : m.CanHave scene o f) : m.CanHave scene o f.stopAll := by
  obtain ⟨active, retired, peak, history⟩ := f
  have flags : ∀ newer older : List User, (∀ u ∈ older, u.stopping = true) →
      m.CanHave scene o ⟨newer ++ older, retired, peak, history⟩ →
      m.CanHave scene o ⟨newer.map User.stop ++ older, retired, peak, history⟩ := by
    intro newer
    induction newer using List.reverseRecOn with
    | nil => exact fun _ _ h => h
    | append_singleton newer u ih =>
      intro older raised h
      obtain ⟨events, h⟩ := h
      have place : (⟨newer ++ [u] ++ older, retired, peak, history⟩ : Fleet) =
          (Fleet.Place.active newer older retired peak history).fill u := by
        simp [Fleet.Place.fill]
      have flagged := h.step (.flag control place raised)
      simpa using ih (u.stop :: older) (by simpa [User.stop] using raised) ⟨_, flagged⟩
  simpa [Fleet.stopAll] using flags active [] (by simp) (by simpa using h)

end Moment

namespace User

/-- If the user's task is over, it was before this time. -/
def OverBefore (limit : Nat) (u : User) : Prop :=
  ∀ time verdict, u.verdict = some (time, verdict) → time < limit

theorem OverBefore.mono {u : User} {limit later : Nat} (h : u.OverBefore limit)
    (le : limit ≤ later) : u.OverBefore later :=
  fun time verdict e => Nat.lt_of_lt_of_le (h time verdict e) le

theorem OverBefore.stepBefore {limit : Nat} (fuel : Nat) {u : User} (h : u.OverBefore limit) :
    (u.stepBefore scene limit fuel).OverBefore limit := by
  refine stepBefore_induction ?_ fuel h
  intro v t due early hv time verdict e
  cases hp : v.phase with
  | idle since =>
    cases hs : v.stopping <;> simp_all [due?, User.step, finish, send, User.verdict]
  | searching since q response =>
    cases response <;> simp_all [due?, User.step, take, crash, User.verdict]
  | ended time => simp [due?, hp] at due
  | crashed time message => simp [due?, hp] at due

@[simp] theorem id_step (u : User) : (u.step scene).id = u.id := by
  unfold User.step
  repeat' split
  all_goals rfl

@[simp] theorem id_stepBefore (limit fuel : Nat) (u : User) :
    (u.stepBefore scene limit fuel).id = u.id :=
  stepBefore_induction (P := fun v => v.id = u.id) (fun v _ _ _ hv => v.id_step.trans hv) fuel rfl

/-- A user whose flag is up is done after its last search, if that returns. -/
theorem verdict_settle {u v : User} (flag : u.stopping = true) (h : u.settle? scene = some v) :
    v = (u.step scene).step scene ∧ ∃ time verdict, v.verdict = some (time, verdict) := by
  unfold settle? at h
  split at h
  · contradiction
  · rename_i silent
    cases h
    refine ⟨rfl, ?_⟩
    cases hp : u.phase with
    | idle since => simp [User.step, hp, flag, finish, User.verdict]
    | searching since q response =>
      cases response with
      | answered after outcome => simp [User.step, hp, flag, take, finish, User.verdict]
      | crashed after message => simp [User.step, hp, crash, User.verdict]
      | silent => exact absurd hp (silent since q)
    | ended time => simp [User.step, hp, User.verdict]
    | crashed time message => simp [User.step, hp, User.verdict]

theorem settle_eq_self {u : User} {end? : Nat × Verdict} (h : u.verdict = some end?) :
    u.settle? scene = some u := by
  cases hp : u.phase with
  | ended time => simp [settle?, User.step, hp]
  | crashed time message => simp [settle?, User.step, hp]
  | idle since => simp [User.verdict, hp] at h
  | searching since q response => simp [User.verdict, hp] at h

/-- How a stopped user comes to its end, if it does: the user then, the time, and the verdict. -/
def last? (scene : Scene) (u : User) : Option (User × Nat × Verdict) :=
  (u.settle? scene).bind fun v => v.verdict.map fun ended => (v, ended)

theorem last?_eq_some_iff {u v : User} {ended : Nat × Verdict} :
    u.last? scene = some (v, ended) ↔ u.settle? scene = some v ∧ v.verdict = some ended := by
  simp only [last?, Option.bind_eq_some_iff, Option.map_eq_some_iff, Prod.mk.injEq]
  constructor
  · rintro ⟨w, settled, e, isOver, rfl, rfl⟩
    exact ⟨settled, isOver⟩
  · rintro ⟨settled, isOver⟩
    exact ⟨v, settled, ended, isOver, rfl, rfl⟩

end User

theorem await_eq (scene : Scene) (deadline : Option Nat) (now : Nat) (u : User) :
    await scene deadline now u =
      match deadline, u.last? scene with
      | none, none => none
      | none, some (v, time, verdict) => some ⟨v, verdict, max now time⟩
      | some limit, none => some ⟨u, .aborted, max now limit⟩
      | some limit, some (v, time, verdict) =>
        some (if time < limit then ⟨v, verdict, max now time⟩
          else ⟨u, .aborted, max now limit⟩) := by
  unfold await User.last?
  cases u.settle? scene with
  | none => cases deadline <;> rfl
  | some v => cases isOver : v.verdict <;> cases deadline <;> simp [isOver]

/-- A wait ends with the user's end, if that is before the deadline, and at the deadline with the
user as it was, if it is not. -/
theorem await_outcome {deadline : Option Nat} {now : Nat} {u : User} {a : Awaited}
    (waited : await scene deadline now u = some a) :
    (∃ v time verdict, u.last? scene = some (v, time, verdict) ∧
      (∀ limit ∈ deadline, time < limit) ∧ a = ⟨v, verdict, max now time⟩) ∨
    ∃ limit ∈ deadline, (∀ v time verdict, u.last? scene = some (v, time, verdict) →
      limit ≤ time) ∧ a = ⟨u, .aborted, max now limit⟩ := by
  rw [await_eq] at waited
  cases deadline with
  | none =>
    cases ends : u.last? scene with
    | none => simp [ends] at waited
    | some ended =>
      simp only [ends, Option.some.injEq] at waited
      exact .inl ⟨_, _, _, rfl, by simp, waited.symm⟩
  | some limit =>
    cases ends : u.last? scene with
    | none =>
      simp only [ends, Option.some.injEq] at waited
      exact .inr ⟨limit, rfl, by simp, waited.symm⟩
    | some ended =>
      obtain ⟨v, time, verdict⟩ := ended
      simp only [ends, Option.some.injEq] at waited
      by_cases early : time < limit
      · rw [if_pos early] at waited
        exact .inl ⟨v, time, verdict, rfl, by simpa using early, waited.symm⟩
      · rw [if_neg early] at waited
        refine .inr ⟨limit, rfl, ?_, waited.symm⟩
        rintro v' time' verdict' ⟨⟩
        exact Nat.le_of_not_lt early

/-- A wait ends with the user's end or, with the user as it was, at the deadline. -/
theorem await_cases {deadline : Option Nat} {now : Nat} {u : User} {a : Awaited}
    (finished : ∀ limit ∈ deadline, u.OverBefore limit)
    (waited : await scene deadline now u = some a) :
    (∃ v time verdict, u.settle? scene = some v ∧ v.verdict = some (time, verdict) ∧
      a = ⟨v, verdict, max now time⟩) ∨
    (∃ limit, deadline = some limit ∧ u.verdict = none ∧ a = ⟨u, .aborted, max now limit⟩) := by
  rcases await_outcome waited with ⟨v, time, verdict, ends, -, rfl⟩ | ⟨limit, hl, late, rfl⟩
  · obtain ⟨settled, isOver⟩ := User.last?_eq_some_iff.mp ends
    exact .inl ⟨v, time, verdict, settled, isOver, rfl⟩
  · refine .inr ⟨limit, hl, Option.eq_none_iff_forall_ne_some.mpr ?_, rfl⟩
    rintro ⟨time, verdict⟩ isOver
    have ends : u.last? scene = some (u, time, verdict) :=
      User.last?_eq_some_iff.mpr ⟨User.settle_eq_self isOver, isOver⟩
    have early := finished limit hl time verdict isOver
    exact absurd early (Nat.not_lt.mpr (late u time verdict ends))

/-- The controller on the virtual clock, as it is about to look at the clock, and its wakes so far
with the numbers of users asked for, latest first. -/
inductive Follows (scene : Scene) (o : Options) : List (Nat × Nat) → Controller → Prop
  | start : Follows scene o [] .start
  | wake {wakes : List (Nat × Nat)} {c : Controller} {target : Nat}
      (before : Follows scene o wakes c) (asked : o.profile.targetAt c.time = some target) :
      Follows scene o ((c.time, target) :: wakes) (c.wake scene o.tick target)

namespace Follows

variable {wakes : List (Nat × Nat)} {c : Controller}

theorem of_follow {fuel : Nat} {last : Controller} (h : Follows scene o wakes c)
    (ended : c.follow scene o fuel = some last) :
    ∃ wakes', Follows scene o wakes' last ∧ o.profile.targetAt last.time = none := by
  induction fuel generalizing wakes c with
  | zero => simp [Controller.follow] at ended
  | succ fuel ih =>
    unfold Controller.follow at ended
    split at ended
    · rename_i finished
      cases ended
      exact ⟨wakes, h, finished⟩
    · rename_i target asked
      exact ih (h.wake asked) ended

/-- The loop comes to each of these wakes, and goes on from there. -/
theorem follow_eq (h : Follows scene o wakes c) (fuel : Nat) :
    Controller.start.follow scene o (fuel + wakes.length) = c.follow scene o fuel := by
  induction h generalizing fuel with
  | start => rfl
  | @wake wakes c target before asked ih =>
    rw [List.length_cons, ← Nat.succ_add_eq_add_succ, ih, Controller.follow, asked]

/-- Where the loop ends is where the profile is over. -/
theorem exists_follow_iff : (∃ fuel, Controller.start.follow scene o fuel = some c) ↔
    ∃ wakes, Follows scene o wakes c ∧ o.profile.targetAt c.time = none := by
  constructor
  · rintro ⟨fuel, ended⟩
    exact Follows.start.of_follow ended
  · rintro ⟨wakes, follows, finished⟩
    refine ⟨1 + wakes.length, ?_⟩
    rw [follows.follow_eq, Controller.follow, finished]

/-- A simulated test that returns has followed its profile and finished where that was over. -/
theorem of_simulate {r : Result} (h : simulate scene o = some r) : ∃ wakes c,
    Controller.start.follow scene o (Controller.maxWakes o) = some c ∧ Follows scene o wakes c ∧
      o.profile.targetAt c.time = none ∧ finish scene o c = some r := by
  obtain ⟨c, followed, ends⟩ := Option.bind_eq_some_iff.mp h
  obtain ⟨wakes, follows, finished⟩ := Follows.start.of_follow followed
  exact ⟨wakes, c, followed, follows, finished, ends⟩

def AtLook (scene : Scene) (o : Options) (wakes : List (Nat × Nat)) (c : Controller) : Prop :=
  ∃ events, Moment.Reached scene o ⟨c.time, .looking, c.fleet, [], events, wakes⟩

theorem resized {target : Nat} (h : AtLook scene o wakes c)
    (asked : o.profile.targetAt c.time = some target) :
    ∃ events, Moment.Reached scene o ⟨c.time, .sleeping, c.fleet.resize scene c.time target, [],
      events, (c.time, target) :: wakes⟩ := by
  obtain ⟨events, h⟩ := h
  have woken := (h.step (.wake rfl (Nat.le_refl c.time) asked)).canHave
  have grown := woken.grow rfl (target - c.fleet.active.length) (Nat.le_refl _)
  obtain ⟨events, shrunk⟩ := grown.shrink rfl _ (Nat.le_refl _)
  have enough : ((c.fleet.grow scene c.time (target - c.fleet.active.length)).shrink c.time
      ((c.fleet.grow scene c.time (target - c.fleet.active.length)).active.length - target)
      ).active.length = target := by
    simp only [Fleet.active_shrink, List.length_drop, Fleet.active_length_grow]
    omega
  have settled := shrunk.step (.settle rfl enough (Nat.le_refl c.time))
  rw [enough] at settled
  exact ⟨events, settled⟩

theorem atLook (h : Follows scene o wakes c) : AtLook scene o wakes c := by
  induction h with
  | start => exact ⟨[], .start⟩
  | wake before asked ih =>
    rename_i wakes c target
    obtain ⟨events, slept⟩ := resized ih asked
    have advanced := slept.canHave.advance rfl (wakeTime c.time o.tick.nanos)
    obtain ⟨events, advanced⟩ := advanced
    exact ⟨events, advanced.step (.rouse rfl (Nat.le_refl _))⟩

theorem over_before (h : Follows scene o wakes c) : ∀ u ∈ c.fleet.users, u.OverBefore c.time := by
  induction h with
  | start => simp [Controller.start, Fleet.empty, Fleet.users]
  | wake before asked ih =>
    rename_i wakes c target
    have resized : ∀ u ∈ (c.fleet.resize scene c.time target).users, u.OverBefore c.time :=
      Fleet.forall_users_resize (fun id => by simp [User.OverBefore, User.spawn, User.verdict])
        (fun u hu => hu) target ih
    intro v hv
    obtain ⟨u, hu, rfl⟩ : ∃ u ∈ (c.fleet.resize scene c.time target).users,
        u.advance scene (wakeTime c.time o.tick.nanos) = v := by
      simpa [Controller.wake, Fleet.advance, Fleet.users, ← List.map_append] using hv
    exact ((resized u hu).mono (Nat.le_add_right _ _)).stepBefore _

theorem stopped_over_before (h : Follows scene o wakes c) :
    ∀ u ∈ c.fleet.stopAll.users, u.OverBefore c.time := by
  intro u hu
  have earlier := h.over_before
  simp only [Fleet.users, Fleet.stopAll, List.mem_append, List.mem_map] at hu earlier
  rcases hu with ⟨v, hv, rfl⟩ | hu
  · exact earlier v (.inl hv)
  · exact earlier u (.inr hu)

end Follows

namespace Moment

def awaitingAt (now elapsed : Nat) (deadline : Option Nat) (f : Fleet)
    (events : List (Nat × UserEvent)) (wakes : List (Nat × Nat)) (queue : List Nat)
    (awaited : List Awaited) : Moment :=
  ⟨now, .awaiting elapsed deadline queue awaited, f, [], events, wakes⟩

/-- The fleet after a wait: the users that were not awaited are as they were, and the awaited one is
as it is told. -/
structure Waited (f f' : Fleet) (queue : List Nat) (awaited : List Awaited) : Prop where
  peak : f'.peak = f.peak
  others : ∀ u ∈ f.users, u.id ∉ queue → u ∈ f'.users
  told : ∀ a ∈ awaited, a.user ∈ f'.users

/-- One wait on the virtual clock is one under a schedule. -/
theorem await_reached {now elapsed : Nat} {deadline : Option Nat} {f : Fleet} {u : User}
    {events : List (Nat × UserEvent)} {wakes : List (Nat × Nat)} {queue : List Nat}
    {awaited : List Awaited} {a : Awaited}
    (h : Reached scene o (awaitingAt now elapsed deadline f events wakes (u.id :: queue) awaited))
    (member : u ∈ f.users) (flag : u.stopping = true)
    (finished : ∀ limit ∈ deadline, u.OverBefore limit)
    (waited : await scene deadline now u = some a) :
    ∃ f' events', Reached scene o
        (awaitingAt a.time elapsed deadline f' events' wakes queue (awaited ++ [a])) ∧
      Waited f f' [u.id] [a] ∧ a.user.id = u.id := by
  obtain ⟨p, rfl⟩ := Fleet.exists_place member
  rcases await_cases finished waited with
    ⟨v, time, verdict, settled, ended, rfl⟩ | ⟨limit, rfl, undone, rfl⟩
  · obtain ⟨rfl, -⟩ := User.verdict_settle flag settled
    have canHave := ((h.canHave).step rfl p u).step rfl p (u.step scene)
    obtain ⟨events', moved⟩ := canHave
    have id_eq : ((u.step scene).step scene).id = u.id := by simp
    refine ⟨p.fill ((u.step scene).step scene), events', ?_, ⟨p.peak_fill _ _, ?_, ?_⟩, id_eq⟩
    · exact moved.step (.join (by rw [id_eq]; rfl) (p.mem_fill _) ended (Nat.le_max_left now time))
    · intro w hw hq
      rcases Fleet.Place.mem_users_fill.mp hw with rfl | hw
      · simp at hq
      · exact Fleet.Place.mem_users_fill.mpr (.inr hw)
    · simpa using p.mem_fill _
  · refine ⟨p.fill u, events, ?_, ⟨rfl, fun w hw _ => hw, by simpa using member⟩, rfl⟩
    exact h.step (.abort rfl member undone (Nat.le_max_left now limit) (Nat.le_max_right now limit))

theorem awaitAll_reached {now elapsed : Nat} {deadline : Option Nat} {f : Fleet}
    {us : List User} {events : List (Nat × UserEvent)} {wakes : List (Nat × Nat)}
    {awaited rest : List Awaited}
    (h : Reached scene o
      (awaitingAt now elapsed deadline f events wakes (us.map User.id) awaited))
    (nodup : (us.map User.id).Nodup) (members : ∀ u ∈ us, u ∈ f.users)
    (flags : ∀ u ∈ us, u.stopping = true)
    (finished : ∀ u ∈ us, ∀ limit ∈ deadline, u.OverBefore limit)
    (waited : awaitAll scene deadline now us = some rest) :
    ∃ now' f' events', Reached scene o
        (awaitingAt now' elapsed deadline f' events' wakes [] (awaited ++ rest)) ∧
      Waited f f' (us.map User.id) rest ∧
      rest.map (fun a => a.user.id) = us.map User.id := by
  induction us generalizing now f events awaited rest with
  | nil =>
    cases waited
    exact ⟨now, f, events, by simpa using h, ⟨rfl, fun _ hu _ => hu, by simp⟩, rfl⟩
  | cons u us ih =>
    obtain ⟨a, first, waited⟩ := Option.bind_eq_some_iff.mp waited
    obtain ⟨rest, last, waited⟩ := Option.bind_eq_some_iff.mp waited
    cases waited
    obtain ⟨fresh, nodup⟩ := List.nodup_cons.mp nodup
    obtain ⟨f₁, events₁, h₁, waited₁, id_eq⟩ :=
      await_reached h (members u List.mem_cons_self) (flags u List.mem_cons_self)
        (finished u List.mem_cons_self) first
    have stay : ∀ v ∈ us, v ∈ f₁.users := by
      intro v hv
      refine waited₁.others v (members v (List.mem_cons_of_mem _ hv)) ?_
      rw [List.mem_singleton]
      exact fun e => fresh (e ▸ List.mem_map_of_mem hv)
    obtain ⟨now', f', events', h', waited', ids⟩ := ih h₁ nodup stay
      (fun v hv => flags v (List.mem_cons_of_mem _ hv))
      (fun v hv => finished v (List.mem_cons_of_mem _ hv)) last
    refine ⟨now', f', events', by simpa using h', ⟨?_, ?_, ?_⟩, by simp [id_eq, ids]⟩
    · exact waited'.peak.trans waited₁.peak
    · intro v hv hq
      simp only [List.map_cons, List.mem_cons, not_or] at hq
      exact waited'.others v (waited₁.others v hv (by simpa using hq.1)) hq.2
    · intro b hb
      rcases List.mem_cons.mp hb with rfl | hb
      · exact waited'.others b.user (waited₁.told b (by simp)) (id_eq ▸ fresh)
      · exact waited'.told b hb

end Moment

theorem eq_of_deadline? {now limit : Nat} {ahead : Span} (h : deadline? now ahead = some limit) :
    limit = now + ahead.nanos := by
  unfold deadline? at h
  split at h
  · cases h
    rfl
  · contradiction

theorem le_deadline {now limit : Nat} {ahead : Span} (h : deadline? now ahead = some limit) :
    now ≤ limit :=
  eq_of_deadline? h ▸ Nat.le_add_right now ahead.nanos

/-- Users that are known as they are, one of each number, are all users. -/
theorem perm_users_of_told {f : Fleet} {awaited : List Awaited} (numbered : f.Numbered)
    (ids : (awaited.map fun a => a.user.id).Perm f.ids)
    (told : ∀ a ∈ awaited, a.user ∈ f.users) : (awaited.map Awaited.user).Perm f.users := by
  have nodup : (awaited.map fun a => a.user.id).Nodup := ids.nodup_iff.mpr numbered.nodup
  have subset : awaited.map Awaited.user ⊆ f.users := by
    intro u hu
    obtain ⟨a, ha, rfl⟩ := List.mem_map.mp hu
    exact told a ha
  refine (List.subperm_of_subset ?_ subset).perm_of_length_le ?_
  · exact List.Nodup.of_map User.id (by simpa [Function.comp_def] using nodup)
  · simpa [Fleet.ids] using Nat.le_of_eq ids.length_eq.symm

theorem report_of_finish {c : Controller} {r : Result} (ends : finish scene o c = some r) :
    r.report.elapsed = c.time ∧ r.report.peakUsers = c.fleet.peak := by
  obtain ⟨awaited, -, ends⟩ := Option.bind_eq_some_iff.mp ends
  cases ends
  exact ⟨rfl, rfl⟩

/-- A simulated test that returns is a test under a schedule that returns the same report, and its
users are the ones of that test. -/
theorem simulate_reached {r : Result} (h : simulate scene o = some r) :
    ∃ m awaited, Moment.Reached scene o m ∧ m.control = .returned r.report awaited ∧
      r.users.Perm m.fleet.users := by
  obtain ⟨wakes, c, -, follows, finished, h⟩ := Follows.of_simulate h
  obtain ⟨awaited, waited, h⟩ := Option.bind_eq_some_iff.mp h
  obtain ⟨events, looking⟩ := follows.atLook
  have stopping := looking.step (.expire rfl (Nat.le_refl c.time) finished (Nat.le_refl c.time))
  obtain ⟨events, stopped⟩ := stopping.canHave.stopAll rfl
  have awaiting := stopped.step (.await rfl (by simp [Fleet.stopAll, User.stop])
    (Nat.le_refl c.time))
  have numbered : c.fleet.stopAll.Numbered := awaiting.numbered
  have before := follows.stopped_over_before
  obtain ⟨now, f, events, ended, waits, -⟩ := Moment.awaitAll_reached awaiting
    ((Fleet.awaited_ids_perm _).nodup_iff.mpr numbered.nodup)
    (fun u hu => Fleet.mem_awaited.mp hu)
    (fun u hu => (looking.flagged rfl).stopAll u (Fleet.mem_awaited.mp hu))
    (fun u hu limit hl => (before u (Fleet.mem_awaited.mp hu)).mono (le_deadline hl)) waited
  have returned := ended.step (.report rfl)
  cases h
  refine ⟨_, awaited, returned, ?_, ?_⟩
  · show Control.returned ⟨merged awaited, c.time, f.peak, abortedCount awaited⟩ awaited = _
    rw [waits.peak]
    rfl
  · show ((awaited.map Awaited.user).mergeSort fun u v => u.id ≤ v.id).Perm f.users
    refine (List.mergeSort_perm _ _).trans (perm_users_of_told returned.numbered ?_ waits.told)
    exact returned.tallied.1 ▸ Fleet.awaited_ids_perm f

/-- One word to draw, and a target that answers each user's first search only. -/
def briefScene : Scene where
  sampler := ⟨⟨#["a"]⟩, by decide⟩
  target := ⟨fun _ n _ => if n = 0 then .answered 1500000000 .succeeded else .silent⟩
  generator := fun id => .ofSeed id.toUInt64

/-- The brief test where no search returns. -/
def mutedScene : Scene := { briefScene with target := ⟨fun _ _ _ => .silent⟩ }

/-- Two users at once, and two seconds to be rid of them. -/
def briefOptions : Options where
  profile := ⟨[⟨.ofMillis 0, 2⟩, ⟨.ofMillis 2000, 0⟩], .ofMillis 2000⟩
  tick := .ofMillis 1000
  gracefulStop := .ofMillis 1000
  seed := some 0

end SearchLoad.Run
