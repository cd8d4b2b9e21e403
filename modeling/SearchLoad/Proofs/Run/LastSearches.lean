import SearchLoad.Proofs.Run.GracefulStop
import SearchLoad.Proofs.Run.Stopping

namespace SearchLoad.Run

open Relation

variable {scene : Scene} {o : Options}

namespace User

/-- Every search of the user's was sent before this time. -/
def SentBefore (limit : Nat) (u : User) : Prop := ∀ s ∈ u.searches, s.1 < limit

theorem SentBefore.mono {u : User} {limit later : Nat} (h : u.SentBefore limit)
    (le : limit ≤ later) : u.SentBefore later :=
  fun s hs => Nat.lt_of_lt_of_le (h s hs) le

/-- Only a user with its flag down sends a search, and it does so when it is due. -/
theorem searches_step (scene : Scene) (u : User) : (u.step scene).searches = u.searches ∨
    u.stopping = false ∧
      ∃ t q, u.due? = some t ∧ (u.step scene).searches = u.searches ++ [(t, q)] := by
  cases hp : u.phase with
  | idle since =>
    cases hs : u.stopping with
    | true => exact .inl (by simp [User.step, hp, hs, finish, searches])
    | false =>
      refine .inr ⟨rfl, since, (scene.sampler.sample u.generator).1, by simp [due?, hp], ?_⟩
      simp [User.step, hp, hs, send, searches]
  | searching since q response =>
    cases response <;> exact .inl (by simp [User.step, hp, take, crash, searches])
  | ended time => exact .inl (by simp [User.step, hp])
  | crashed time message => exact .inl (by simp [User.step, hp])

@[simp] theorem stopping_step (u : User) : (u.step scene).stopping = u.stopping := by
  unfold User.step
  repeat' split
  all_goals rfl

theorem SentBefore.stepBefore {limit : Nat} (fuel : Nat) {u : User} (h : u.SentBefore limit) :
    (u.stepBefore scene limit fuel).SentBefore limit := by
  refine stepBefore_induction ?_ fuel h
  intro v t due early hv s hs
  rcases v.searches_step scene with same | ⟨-, t', q, due', sent⟩
  · exact hv s (same ▸ hs)
  · obtain rfl : t = t' := Option.some.inj (due.symm.trans due')
    rw [sent] at hs
    rcases List.mem_append.mp hs with earlier | last
    · exact hv s earlier
    · obtain rfl := List.mem_singleton.mp last
      exact early

/-- A user whose flag is up sends nothing on the virtual clock. -/
theorem searches_step_of_stopping {u : User} (flag : u.stopping = true) :
    (u.step scene).searches = u.searches := by
  rcases u.searches_step scene with same | ⟨down, -⟩
  · exact same
  · rw [flag] at down
    contradiction

theorem searches_stepBefore (scene : Scene) (limit fuel : Nat) {u : User}
    (flag : u.stopping = true) : (u.stepBefore scene limit fuel).searches = u.searches := by
  let kept (v : User) : Prop := v.stopping = true ∧ v.searches = u.searches
  have all : kept (u.stepBefore scene limit fuel) := by
    apply stepBefore_induction ?_ fuel ⟨flag, rfl⟩
    intro v t due early hv
    exact ⟨v.stopping_step.trans hv.1, (searches_step_of_stopping hv.1).trans hv.2⟩
  exact all.2

theorem searches_settle {u v : User} (flag : u.stopping = true) (h : u.settle? scene = some v) :
    v.searches = u.searches := by
  obtain ⟨rfl, -⟩ := verdict_settle flag h
  rw [searches_step_of_stopping (u.stopping_step.trans flag), searches_step_of_stopping flag]

end User

namespace Fleet

/-- Every search was sent before this time, and those of a retired user before its retirement. -/
structure Quiet (now : Nat) (f : Fleet) : Prop where
  numbered : f.Numbered
  sent : ∀ u ∈ f.users, u.SentBefore now
  retired : ∀ u ∈ f.retired, ∀ time, (time, .retired u.id) ∈ f.history → u.SentBefore time

theorem Numbered.not_retired {f : Fleet} (h : f.Numbered) {u : User} (active : u ∈ f.active)
    (time : Nat) : (time, .retired u.id) ∉ f.history := by
  intro retired
  have listed : u.id ∈ f.retiredIds := List.mem_filterMap.mpr ⟨_, retired, rfl⟩
  rw [h.retirements] at listed
  exact h.disjoint (List.mem_map_of_mem active) listed

namespace Quiet

variable {now : Nat} {f : Fleet}

theorem spawn (h : f.Quiet now) : (f.spawn scene now).Quiet now := by
  refine ⟨h.numbered.spawn scene now, ?_, ?_⟩
  · refine List.forall_mem_cons.mpr ⟨?_, h.sent⟩
    simp [User.SentBefore, User.searches, User.spawn]
  · intro u hu time retired
    have earlier : (time, .retired u.id) ∈ f.history := by simpa [Fleet.spawn] using retired
    exact h.retired u hu time earlier

theorem retire (h : f.Quiet now) : (f.retire now).Quiet now := by
  refine ⟨h.numbered.retire now, Fleet.forall_users_retire (fun u hu => hu) now h.sent, ?_⟩
  have going {u : User} := h.numbered.not_retired (u := u)
  obtain ⟨numbered, sent, retired⟩ := h
  cases ha : f.active with
  | nil => simpa [Fleet.retire, ha] using retired
  | cons u us =>
    have member : u ∈ f.active := ha ▸ List.mem_cons_self
    simp only [Fleet.retire, ha, List.forall_mem_cons]
    constructor
    · intro time at_time
      rcases List.mem_cons.mp at_time with last | earlier
      · cases last
        exact sent u (List.mem_append_left _ member)
      · exact absurd earlier (going member time)
    · intro v hv time at_time
      rcases List.mem_cons.mp at_time with last | earlier
      · obtain rfl := congrArg Prod.fst last
        exact sent v (List.mem_append_right _ hv)
      · exact retired v hv time earlier

theorem notePeak (h : f.Quiet now) : (f.notePeak now).Quiet now := by
  refine ⟨h.numbered.notePeak now, by simpa using h.sent, ?_⟩
  unfold Fleet.notePeak
  split
  · simpa using h.retired
  · exact h.retired

end Quiet

end Fleet

namespace Follows

variable {wakes : List (Nat × Nat)} {c : Controller}

theorem quiet (h : Follows scene o wakes c) : c.fleet.Quiet c.time := by
  induction h with
  | start => exact ⟨.empty, by simp [Controller.start, Fleet.empty, Fleet.users],
      by simp [Controller.start, Fleet.empty]⟩
  | wake before asked ih =>
    rename_i wakes c target
    have resized : (c.fleet.resize scene c.time target).Quiet c.time :=
      Fleet.resize_induction (fun f hf => hf.spawn) (fun f hf => hf.retire)
        (fun f hf => hf.notePeak) target ih
    obtain ⟨events, slept⟩ := Follows.resized before.atLook asked
    obtain ⟨events, looking⟩ := (before.wake asked).atLook
    refine ⟨looking.numbered, ?_, ?_⟩
    · intro v hv
      obtain ⟨u, hu, rfl⟩ : ∃ u ∈ (c.fleet.resize scene c.time target).users,
          u.advance scene (wakeTime c.time o.tick.nanos) = v := by
        simpa [Controller.wake, Fleet.advance, Fleet.users, ← List.map_append] using hv
      exact ((resized.sent u hu).mono (Nat.le_add_right _ _)).stepBefore _
    · intro v hv time retired
      obtain ⟨u, hu, rfl⟩ := List.mem_map.mp hv
      have flag : u.stopping = true := (slept.flagged rfl).up u hu
      rw [User.advance, User.id_stepBefore] at retired
      have same := User.searches_stepBefore scene (wakeTime c.time o.tick.nanos)
        (2 * wakeTime c.time o.tick.nanos + 2) flag
      intro s hs
      exact resized.retired u hu time retired s (same ▸ hs)

theorem ids_of_finish {r : Result} (h : Follows scene o wakes c)
    (ends : finish scene o c = some r) : (r.users.map User.id).Perm c.fleet.ids := by
  obtain ⟨awaited, fair, users, -⟩ := h.finish_fair ends
  have ids : (awaited.map Awaited.user).map User.id = c.fleet.awaited.map User.id := by
    rw [List.map_map]
    exact fair.order
  exact (users.map User.id).trans (ids ▸ c.fleet.awaited_ids_perm)

/-- At the end of a run each user has sent what it had when the profile was over. -/
theorem searches_of_finish {r : Result} (h : Follows scene o wakes c)
    (ends : finish scene o c = some r) {v : User} (hv : v ∈ r.users) :
    ∃ u ∈ c.fleet.users, u.id = v.id ∧ u.searches = v.searches := by
  obtain ⟨awaited, waited, ends⟩ := Option.bind_eq_some_iff.mp ends
  cases ends
  obtain ⟨a, ha, rfl⟩ := List.mem_map.mp ((List.mergeSort_perm _ _).mem_iff.mp hv)
  obtain ⟨events, looking⟩ := h.atLook
  have flags := (looking.flagged rfl).stopAll
  obtain ⟨-, -, only⟩ := awaited_of_awaitAll waited
  obtain ⟨u, hu, now, waited⟩ := only a ha
  have member := Fleet.mem_awaited.mp hu
  have same : a.user.searches = u.searches := by
    rcases await_outcome waited with ⟨v, time, verdict, last, -, rfl⟩ | ⟨limit, -, -, rfl⟩
    · exact User.searches_settle (flags u member) (User.last?_eq_some_iff.mp last).1
    · rfl
  have id_eq := id_of_await waited
  rcases List.mem_append.mp member with active | retired
  · obtain ⟨w, hw, rfl⟩ := List.mem_map.mp active
    exact ⟨w, List.mem_append_left _ hw, id_eq.symm, same.symm⟩
  · exact ⟨u, List.mem_append_right _ retired, id_eq.symm, same.symm⟩

/-- On the virtual clock nothing is sent once the flag is up. -/
theorem sent_before {r : Result} (h : Follows scene o wakes c) (ends : finish scene o c = some r)
    {v : User} (hv : v ∈ r.users) : v.SentBefore c.time ∧
      ∀ time, (time, .retired v.id) ∈ c.fleet.history → v.SentBefore time := by
  obtain ⟨u, hu, id_eq, same⟩ := h.searches_of_finish ends hv
  have quiet := h.quiet
  constructor
  · intro s hs
    exact quiet.sent u hu s (same ▸ hs)
  · intro time at_time s hs
    rw [← id_eq] at at_time
    have retired : u ∈ c.fleet.retired := by
      rcases List.mem_append.mp hu with active | retired
      · exact absurd at_time (quiet.numbered.not_retired active time)
      · exact retired
    exact quiet.retired u retired time at_time s (same ▸ hs)

end Follows

/-- Under every schedule a user has one search under way at most, and as many sent as it has
iterations or one more. Once its flag is up, it stays up, and the user sends nothing but a search
that it had looked for before; a search under way is recorded when it returns, and the task ends
with that. Who is retired stays so. On the virtual clock users send nothing from their retirement
on, or from the end of the profile. -/
theorem stopped_users_wind_down (scene : Scene) (o : Options) :
    (∀ m, Moment.Reached scene o m →
      (∀ u ∈ m.fleet.users, m.OneByOne u) ∧ m.Raised ∧
      (∀ u ∈ m.fleet.users, u.stopping = true → m.Stopped scene o u) ∧
      ∀ m', ReflTransGen (Moment.Step scene o) m m' → ∀ i ∈ m.fleet.retired.map User.id,
        i ∈ m'.fleet.retired.map User.id ∧ i ∉ m'.fleet.active.map User.id) ∧
    ∀ r, simulate scene o = some r → ∃ c,
      Controller.start.follow scene o (Controller.maxWakes o) = some c ∧
      c.time = r.report.elapsed ∧ (r.users.map User.id).Perm c.fleet.ids ∧ ∀ u ∈ r.users, u.Paced ∧
        (u.searches.length = u.stats.iterations ∨ u.searches.length = u.stats.iterations + 1) ∧
        u.SentBefore c.time ∧
        ∀ time, (time, .retired u.id) ∈ c.fleet.history → u.SentBefore time := by
  constructor
  · intro m h
    exact ⟨fun u hu => h.oneByOne hu, h.raised, fun u hu flag => h.stopped hu flag,
      fun m' later i retired => h.stays_retired later retired⟩
  · intro r returns
    obtain ⟨wakes, c, followed, follows, -, ends⟩ := Follows.of_simulate returns
    obtain ⟨m, awaited, h, -, users⟩ := simulate_reached returns
    refine ⟨c, followed, (report_of_finish ends).1.symm, follows.ids_of_finish ends, ?_⟩
    intro u hu
    have member := users.mem_iff.mp hu
    have own := h.oneByOne member
    have sent := own.sent
    rw [← searches_eq_sentBy (h.recorded.histories u member), List.length_map] at sent
    exact ⟨own.paced, sent, follows.sent_before ends hu⟩

/-- In the brief test the newer user can be retired between its look at the flag and its search. -/
theorem exists_late_look : ∃ m, Moment.Reached briefScene briefOptions m ∧
    (User.spawn briefScene 0 1).stop ∈ m.fleet.retired ∧ 1 ∈ m.looked := by
  have first : briefOptions.profile.targetAt 0 = some 2 := by decide +kernel
  have second : briefOptions.profile.targetAt 1000000000 = some 1 := by decide +kernel
  have began : Moment.Reached briefScene briefOptions .start := .start
  have woken := began.step (.wake rfl (Nat.le_refl 0) first)
  have one := woken.step (.spawn rfl (by decide) (Nat.le_refl 0))
  have both := one.step (.spawn rfl (by decide) (Nat.le_refl 0))
  have asleep := both.step (.settle rfl rfl (Nat.le_refl 0))
  have due : wakeTime 0 briefOptions.tick.nanos ≤ 1000000000 := by decide
  have awake := asleep.step (.rouse rfl due)
  have resizing := awake.step (.wake rfl (Nat.le_refl _) second)
  have looked := resizing.step (.look (u := .spawn briefScene 0 1)
    (p := .active [] [.spawn briefScene 0 0] [] 2 _) rfl rfl rfl List.not_mem_nil)
  have retired := looked.step (.retire rfl (by decide) (Nat.le_refl _))
  exact ⟨_, retired, List.mem_cons_self, List.mem_cons_self⟩

/-- That user sends the search that it had looked for, and its task ends with the answer. On the
virtual clock the same user was retired while it searched; it sent nothing afterwards. -/
theorem brief_users_wind_down :
    (∃ m m' v q, Moment.Reached briefScene briefOptions m ∧
      ReflTransGen (Moment.Step briefScene briefOptions) m m' ∧
      1 ∈ m.fleet.retired.map User.id ∧ 1 ∉ m'.fleet.active.map User.id ∧
      v ∈ m'.fleet.users ∧ v.id = 1 ∧ v.stopping = true ∧
      v.events = [.stopped, .returned q .succeeded, .sent q, .started] ∧
      ∃ time, v.verdict = some (time, .joined v.stats)) ∧
    ∃ (r : Result) (c : Controller), simulate briefScene briefOptions = some r ∧
      (1000000000, .retired 1) ∈ c.fleet.history ∧ r.report.stats.iterations = 1 ∧
      ∃ u ∈ r.users, u.id = 1 ∧ u.SentBefore 1000000000 := by
  constructor
  · obtain ⟨m, h, member, looked⟩ := exists_late_look
    obtain ⟨-, -, stopped, stays⟩ := (stopped_users_wind_down briefScene briefOptions).1 m h
    have user := List.mem_append_right m.fleet.active member
    obtain ⟨m', v, later, down, events, ended⟩ := (stopped _ user rfl).can_end
    have listed : 1 ∈ m.fleet.retired.map User.id := List.mem_map_of_mem member
    obtain ⟨q, remaining⟩ : ∃ q, (User.spawn briefScene 0 1).stop.remaining briefScene
        (1 ∈ m.looked) = [.sent q, .returned q .succeeded, .stopped] := by
      refine ⟨(briefScene.sampler.sample (briefScene.generator 1)).1, ?_⟩
      simp [User.remaining, User.stop, User.spawn, looked, briefScene, Response.ending]
    have events : v.events = [.stopped, .returned q .succeeded, .sent q, .started] := by
      change v.events = (User.remaining briefScene (1 ∈ m.looked) _).reverse ++ _ at events
      rw [events, remaining]
      rfl
    have paced := (((stopped_users_wind_down briefScene briefOptions).1 m' (h.later later)).1 v
      down.member).paced
    obtain ⟨⟨time, e⟩, last, rfl⟩ : ∃ x ∈ v.history, x.2 = .stopped :=
      List.mem_map.mp (events ▸ List.mem_cons_self : .stopped ∈ v.events)
    exact ⟨m, m', v, q, h, later, listed, (stays m' later 1 listed).2, down.member, down.id_eq,
      down.flag, events, time, paced.joined time last⟩
  · have counted : (simulate briefScene briefOptions).map (fun r => r.report.stats.iterations) =
        some 1 := by decide +kernel
    have retired : (Controller.start.follow briefScene briefOptions
        (Controller.maxWakes briefOptions)).map (fun c =>
          (decide ((1000000000, .retired 1) ∈ c.fleet.history), c.fleet.ids)) =
        some (true, [0, 1]) := by decide +kernel
    obtain ⟨r, returns, counted⟩ := Option.map_eq_some_iff.mp counted
    obtain ⟨c, followed, retired⟩ := Option.map_eq_some_iff.mp retired
    simp only [Prod.mk.injEq, decide_eq_true_eq] at retired
    obtain ⟨c', followed', -, ids, users⟩ :=
      (stopped_users_wind_down briefScene briefOptions).2 r returns
    obtain rfl : c = c' := Option.some.inj (followed.symm.trans followed')
    have listed : 1 ∈ r.users.map User.id := by
      rw [ids.mem_iff, retired.2]
      decide
    obtain ⟨u, hu, id⟩ := List.mem_map.mp listed
    exact ⟨r, c, returns, retired.1, counted, u, hu, id, (users u hu).2.2.2 _ (id ▸ retired.1)⟩

end SearchLoad.Run
