import SearchLoad.Proofs.Run.Accounting
import SearchLoad.Proofs.Run.SharedClock

namespace SearchLoad.Run

variable {scene : Scene} {o : Options} {deadline : Option Nat} {report : Report}
  {awaited : List Awaited}

/-- What a report says of these users, who were awaited up to a deadline: each has one verdict,
and it is due; the statistics are those of the joined ones, whose iterations and failures add up,
and the aborted ones are counted. -/
structure FairReport (deadline : Option Nat) (ids : List Nat) (report : Report)
    (awaited : List Awaited) : Prop where
  order : (awaited.map fun a => a.user.id) = ids
  distinct : ids.Nodup
  due : ∀ a ∈ awaited, a.IsDue deadline
  stats : report.stats = ((joined awaited).map Prod.snd).foldl Stats.merge .empty
  iterations : report.stats.iterations = ((joined awaited).map fun x => x.2.iterations).sum
  failures : report.stats.failures = ((joined awaited).map fun x => x.2.failures).sum
  aborted : report.abortedUsers = (awaited.filter fun a => a.verdict = .aborted).length
  endless : deadline = none → report.abortedUsers = 0

theorem FairReport.of_due {ids : List Nat} (order : (awaited.map fun a => a.user.id) = ids)
    (distinct : ids.Nodup) (due : ∀ a ∈ awaited, a.IsDue deadline)
    (stats : report.stats = merged awaited) (aborted : report.abortedUsers = abortedCount awaited) :
    FairReport deadline ids report awaited := by
  have iterations := merged_sum (f := Stats.iterations) rfl (fun _ _ => rfl) awaited
  have failures := merged_sum (f := Stats.failures) rfl (fun _ _ => rfl) awaited
  refine ⟨order, distinct, due, stats.trans (merged_eq awaited), ?_, ?_, aborted, ?_⟩
  · rw [stats, iterations]
  · rw [stats, failures]
  rintro rfl
  have joined : ∀ a ∈ awaited, ¬ a.verdict = .aborted := by
    intro a ha abort
    obtain ⟨limit, limited, -⟩ := (due a ha).of_aborted abort
    contradiction
  rw [aborted, abortedCount, List.length_eq_zero_iff, List.filter_eq_nil_iff]
  simpa using joined

theorem FairReport.unique {ids : List Nat} (h : FairReport deadline ids report awaited)
    {a b : Awaited} (ha : a ∈ awaited) (hb : b ∈ awaited) (same : a.user.id = b.user.id) : a = b :=
  List.inj_on_of_nodup_map (h.order ▸ h.distinct) ha hb same

namespace Moment

variable {t : Nat} {m : Moment}

/-- Each user was awaited, and either aborted or joined as it is. -/
theorem Reached.exists_awaited (h : Reached scene o m) (back : m.control = .returned report awaited)
    {u : User} (hu : u ∈ m.fleet.users) : ∃ a ∈ awaited, a.user.id = u.id ∧
      (a.verdict = .aborted ∨ a.user = u ∧ ∃ time, u.verdict = some (time, a.verdict)) := by
  have tally := h.tally back
  obtain ⟨a, ha, id⟩ : ∃ a ∈ awaited, a.user.id = u.id := by
    have listed : u.id ∈ awaited.map fun a => a.user.id :=
      tally.ids ▸ List.mem_map_of_mem (Fleet.mem_awaited.mpr hu)
    exact List.mem_map.mp listed
  refine ⟨a, ha, id, (tally.fits a ha).imp_right ?_⟩
  rintro ⟨member, ended⟩
  obtain rfl : a.user = u := List.inj_on_of_nodup_map h.numbered.nodup member hu id
  exact ⟨rfl, ended⟩

/-- In the end of a test on one clock all verdicts are due. Who was done before the deadline was
joined as it is, and who never was done was aborted. -/
theorem Timed.fair (h : Timed scene o t m) (back : m.control = .returned report awaited) :
    ∃ stop, report.elapsed ≤ stop ∧
      FairReport (deadline? stop o.gracefulStop) (m.fleet.awaited.map User.id) report awaited ∧
      ∀ u ∈ m.fleet.users,
        (∀ time verdict, u.verdict = some (time, verdict) →
          (∀ limit ∈ deadline? stop o.gracefulStop, time < limit) →
            ∃ a ∈ awaited, a.user = u ∧ a.verdict = verdict) ∧
        (u.verdict = none → ∃ a ∈ awaited, a.user.id = u.id ∧ a.verdict = .aborted) := by
  have tally := h.reached.tally back
  have settling := h.settling
  simp only [Settling, back] at settling
  obtain ⟨stop, later, fair⟩ := settling
  have distinct : (m.fleet.awaited.map User.id).Nodup :=
    m.fleet.awaited_ids_perm.nodup_iff.mpr h.reached.numbered.nodup
  refine ⟨stop, later, .of_due tally.ids distinct (fun a ha => (fair a ha).due) tally.stats
    tally.aborted, ?_⟩
  intro u hu
  obtain ⟨a, ha, id, outcome⟩ := h.reached.exists_awaited back hu
  constructor
  · intro time verdict ended early
    rcases outcome with aborted | ⟨same, time', own⟩
    · obtain ⟨limit, limited, -⟩ := (fair a ha).due.of_aborted aborted
      have late := (fair a ha).late aborted u hu id.symm limit limited time verdict ended
      exact absurd (early limit limited) (Nat.not_lt.mpr late)
    · rw [own] at ended
      cases ended
      exact ⟨a, ha, same, rfl⟩
  · intro undone
    rcases outcome with aborted | ⟨-, time, own⟩
    · exact ⟨a, ha, id, aborted⟩
    · rw [undone] at own
      contradiction

/-- With a deadline the waits come to their end, whatever the users do. -/
theorem Timed.exists_returned {elapsed limit : Nat} {queue : List Nat} (h : Timed scene o t m)
    (control : m.control = .awaiting elapsed (some limit) queue awaited) :
    ∃ t' m' report awaited', Timed scene o t' m' ∧ m'.control = .returned report awaited' := by
  induction queue generalizing t m awaited with
  | nil =>
    exact ⟨t, _, _, _, h.still (.report control) rfl rfl, rfl⟩
  | cons id queue ih =>
    have tallied := h.reached.tallied
    simp only [Tallied, control] at tallied
    obtain ⟨u, member, rfl⟩ : ∃ u ∈ m.fleet.awaited, u.id = id := by
      have listed : id ∈ m.fleet.awaited.map User.id := by simp [← tallied.1]
      exact List.mem_map.mp listed
    have member := Fleet.mem_awaited.mp member
    have past : m.clock ≤ max t limit := Nat.le_trans h.clock_le (Nat.le_max_left t limit)
    have later : t ≤ max t limit := Nat.le_max_left t limit
    cases isOver : u.verdict with
    | none =>
      have late : limit ≤ max t limit := Nat.le_max_right t limit
      exact ih (h.read (.abort control member isOver past late) later rfl) rfl
    | some ended =>
      exact ih (h.read (.join control member isOver past) later rfl) rfl

end Moment

theorem User.id_settle {u v : User} (h : u.settle? scene = some v) : v.id = u.id := by
  unfold settle? at h
  split at h
  · contradiction
  · cases h
    rw [id_step, id_step]

theorem exists_await (scene : Scene) (limit now : Nat) (u : User) :
    ∃ a, await scene (some limit) now u = some a := by
  rw [await_eq]
  cases u.last? scene with
  | none => exact ⟨_, rfl⟩
  | some ended => exact ⟨_, rfl⟩

theorem exists_awaitAll (scene : Scene) (limit now : Nat) (us : List User) :
    ∃ awaited, awaitAll scene (some limit) now us = some awaited := by
  induction us generalizing now with
  | nil => exact ⟨[], rfl⟩
  | cons u us ih =>
    obtain ⟨a, first⟩ := exists_await scene limit now u
    obtain ⟨rest, others⟩ := ih a.time
    exact ⟨a :: rest, by simp [awaitAll, first, others]⟩

section

variable {u : User} {a : Awaited} {now : Nat}

theorem id_of_await (waited : await scene deadline now u = some a) : a.user.id = u.id := by
  rcases await_outcome waited with ⟨v, time, verdict, ends, -, rfl⟩ | ⟨limit, -, -, rfl⟩
  · exact User.id_settle (User.last?_eq_some_iff.mp ends).1
  · rfl

theorem isDue_of_await (finished : ∀ limit ∈ deadline, u.OverBefore limit)
    (waited : await scene deadline now u = some a) : a.IsDue deadline := by
  rcases await_cases finished waited with
    ⟨v, time, verdict, -, isOver, rfl⟩ | ⟨limit, limited, undone, rfl⟩
  · exact .inl ⟨time, isOver⟩
  · exact .inr ⟨undone, rfl, limit, limited, Nat.le_max_right now limit⟩

theorem await_early {v : User} {time : Nat} {verdict : Verdict}
    (ends : u.last? scene = some (v, time, verdict)) (early : ∀ limit ∈ deadline, time < limit)
    (waited : await scene deadline now u = some a) : a.user = v ∧ a.verdict = verdict := by
  rcases await_outcome waited with ⟨w, _, _, ends', -, rfl⟩ | ⟨limit, limited, late, rfl⟩
  · rw [ends] at ends'
    cases ends'
    exact ⟨rfl, rfl⟩
  · exact absurd (early limit limited) (Nat.not_lt.mpr (late v time verdict ends))

theorem await_late {limit : Nat} (limited : limit ∈ deadline)
    (late : ∀ v time verdict, u.last? scene = some (v, time, verdict) → limit ≤ time)
    (waited : await scene deadline now u = some a) : a.user = u ∧ a.verdict = .aborted := by
  rcases await_outcome waited with ⟨v, time, verdict, ends, early, rfl⟩ | ⟨_, -, -, rfl⟩
  · exact absurd (early limit limited) (Nat.not_lt.mpr (late v time verdict ends))
  · exact ⟨rfl, rfl⟩

end

/-- Each user is awaited in its turn, from some time on, and nobody else is. -/
theorem awaited_of_awaitAll {now : Nat} {us : List User}
    (waited : awaitAll scene deadline now us = some awaited) :
    (awaited.map fun a => a.user.id) = us.map User.id ∧
      (∀ u ∈ us, ∃ a ∈ awaited, ∃ now, await scene deadline now u = some a) ∧
      ∀ a ∈ awaited, ∃ u ∈ us, ∃ now, await scene deadline now u = some a := by
  induction us generalizing now awaited with
  | nil =>
    cases waited
    simp
  | cons u us ih =>
    obtain ⟨a, first, waited⟩ := Option.bind_eq_some_iff.mp waited
    obtain ⟨rest, others, waited⟩ := Option.bind_eq_some_iff.mp waited
    cases waited
    obtain ⟨ids, each, only⟩ := ih others
    refine ⟨by rw [List.map_cons, List.map_cons, id_of_await first, ids], ?_, ?_⟩
    · refine List.forall_mem_cons.mpr ⟨⟨a, List.mem_cons_self, now, first⟩, ?_⟩
      intro v hv
      obtain ⟨b, hb, waited⟩ := each v hv
      exact ⟨b, List.mem_cons_of_mem a hb, waited⟩
    · refine List.forall_mem_cons.mpr ⟨⟨u, List.mem_cons_self, now, first⟩, ?_⟩
      intro b hb
      obtain ⟨v, hv, waited⟩ := only b hb
      exact ⟨v, List.mem_cons_of_mem u hv, waited⟩

theorem Fleet.awaited_ids_stopAll (f : Fleet) :
    f.stopAll.awaited.map User.id = f.awaited.map User.id := by
  have same : User.id ∘ User.stop = User.id := rfl
  simp [stopAll, awaited, same]

/-- What the end of a run on the virtual clock does to the users at the end of the profile. -/
theorem Follows.finish_fair {wakes : List (Nat × Nat)} {c : Controller} {r : Result}
    (h : Follows scene o wakes c) (ends : finish scene o c = some r) : ∃ awaited,
    FairReport (deadline? c.time o.gracefulStop) (c.fleet.awaited.map User.id) r.report awaited ∧
    r.users.Perm (awaited.map Awaited.user) ∧
    ∀ u ∈ c.fleet.stopAll.awaited, ∃ a ∈ awaited, ∃ now,
      await scene (deadline? c.time o.gracefulStop) now u = some a := by
  obtain ⟨awaited, waited, ends⟩ := Option.bind_eq_some_iff.mp ends
  cases ends
  obtain ⟨ids, each, only⟩ := awaited_of_awaitAll waited
  obtain ⟨events, looking⟩ := h.atLook
  have numbered : c.fleet.Numbered := looking.numbered
  have distinct : (c.fleet.awaited.map User.id).Nodup :=
    c.fleet.awaited_ids_perm.nodup_iff.mpr numbered.nodup
  refine ⟨awaited, .of_due (ids.trans c.fleet.awaited_ids_stopAll) distinct ?_ rfl rfl,
    List.mergeSort_perm _ _, each⟩
  intro a ha
  obtain ⟨u, hu, now, waited⟩ := only a ha
  have isOver := h.stopped_over_before u (Fleet.mem_awaited.mp hu)
  exact isDue_of_await (fun limit limited => isOver.mono (le_deadline limited)) waited

/-- The graceful stop is fair to every user. In a test on one clock that returns, who was done
before the deadline is joined as it is, whatever its place in the order of the waits; who was not
done when its wait ended, and so who never is, is aborted, which is not before the deadline, counted
once, and leaves nothing in the statistics; and without a deadline nobody is aborted. With one the
waits come to their end. On the virtual clock it depends on nothing but how a user comes to its end:
before the deadline, and it is joined, or not, and it is aborted. -/
theorem graceful_stop_is_fair (scene : Scene) (o : Options) :
    (∀ t m report awaited, Moment.Timed scene o t m → m.control = .returned report awaited →
      ∃ stop, report.elapsed ≤ stop ∧
        FairReport (deadline? stop o.gracefulStop) (m.fleet.awaited.map User.id) report awaited ∧
        ∀ u ∈ m.fleet.users,
          (∀ time verdict, u.verdict = some (time, verdict) →
            (∀ limit ∈ deadline? stop o.gracefulStop, time < limit) →
              ∃ a ∈ awaited, a.user = u ∧ a.verdict = verdict) ∧
          (u.verdict = none → ∃ a ∈ awaited, a.user.id = u.id ∧ a.verdict = .aborted)) ∧
    (∀ t m elapsed limit queue awaited, Moment.Timed scene o t m →
      m.control = .awaiting elapsed (some limit) queue awaited →
        ∃ t' m' report awaited', Moment.Timed scene o t' m' ∧
          m'.control = .returned report awaited') ∧
    ∀ c, Controller.start.follow scene o (Controller.maxWakes o) = some c →
      (deadline? c.time o.gracefulStop ≠ none → ∃ r, simulate scene o = some r) ∧
      ∀ r, simulate scene o = some r → ∃ awaited,
        FairReport (deadline? c.time o.gracefulStop) (c.fleet.awaited.map User.id) r.report
          awaited ∧
        r.users.Perm (awaited.map Awaited.user) ∧
        ∀ u ∈ c.fleet.stopAll.awaited,
          (∀ v time verdict, u.last? scene = some (v, time, verdict) →
            (∀ limit ∈ deadline? c.time o.gracefulStop, time < limit) →
              ∃ a ∈ awaited, a.user = v ∧ a.verdict = verdict) ∧
          ∀ limit ∈ deadline? c.time o.gracefulStop,
            (∀ v time verdict, u.last? scene = some (v, time, verdict) → limit ≤ time) →
              ∃ a ∈ awaited, a.user = u ∧ a.verdict = .aborted := by
  refine ⟨fun _ _ _ _ h back => h.fair back,
    fun _ _ _ _ _ _ h control => h.exists_returned control, ?_⟩
  intro c followed
  constructor
  · intro limited
    obtain ⟨limit, limited⟩ := Option.ne_none_iff_exists'.mp limited
    obtain ⟨awaited, waited⟩ := exists_awaitAll scene limit c.time c.fleet.stopAll.awaited
    exact ⟨_, by simp [simulate, followed, finish, limited, waited]; rfl⟩
  · intro r returns
    obtain ⟨c', followed', ends⟩ := Option.bind_eq_some_iff.mp returns
    obtain rfl : c = c' := Option.some.inj (followed.symm.trans followed')
    obtain ⟨wakes, follows, -⟩ := Follows.start.of_follow followed
    obtain ⟨awaited, report, users, each⟩ := follows.finish_fair ends
    refine ⟨awaited, report, users, ?_⟩
    intro u hu
    obtain ⟨a, ha, now, waited⟩ := each u hu
    exact ⟨fun v time verdict ends early => ⟨a, ha, await_early ends early waited⟩,
      fun limit limited late => ⟨a, ha, await_late limited late waited⟩⟩

/-- The older user of two, whose first search never returns. -/
def hungUser : User := (User.spawn mutedScene 0 0).send mutedScene 0

/-- The newer one, which gets round to nothing before its flag is up. -/
def idleUser : User := .spawn mutedScene 0 1

/-- The fleet of the two but for the older one. -/
def besideHung (history : List (Nat × FleetEvent)) : Fleet.Place :=
  .active [idleUser] [] [] 2 history

/-- The fleet of the two but for the newer one, once the other one's flag is up. -/
def besideIdle (history : List (Nat × FleetEvent)) : Fleet.Place :=
  .active [] [hungUser.stop] [] 2 history

theorem exists_asleep : ∃ history events wakes, Moment.Timed mutedScene briefOptions 0
    ⟨0, .sleeping, (besideHung history).fill hungUser, [], events, wakes⟩ := by
  have asked : briefOptions.profile.targetAt 0 = some 2 := by decide +kernel
  have began : Moment.Timed mutedScene briefOptions 0 .start := .start
  have resizing := began.read (.wake rfl (Nat.le_refl 0) asked) (Nat.le_refl 0) rfl
  have one := resizing.spawn rfl (show 0 < 2 by decide) (Nat.le_refl 0)
  have both := one.spawn rfl (show 1 < 2 by decide) (Nat.le_refl 0)
  have asleep := both.read (.settle rfl rfl (Nat.le_refl 0)) (Nat.le_refl 0) rfl
  have looked := asleep.still (.look (p := besideHung _) (u := .spawn mutedScene 0 0) rfl rfl rfl
    List.not_mem_nil) rfl rfl
  exact ⟨_, _, _, looked.move (p := besideHung _) (v := hungUser) rfl
    (.send rfl List.mem_cons_self (Nat.le_refl 0)) rfl (Nat.le_refl 0)⟩

theorem exists_awaiting : ∃ history events wakes, Moment.Timed mutedScene briefOptions 2000000000
    ⟨2000000000, .awaiting 2000000000 (some 3000000000) [0, 1] [],
      (besideIdle history).fill idleUser.stop, [], events, wakes⟩ := by
  obtain ⟨history, events, wakes, asleep⟩ := exists_asleep
  have isOver : briefOptions.profile.targetAt 2000000000 = none := by decide +kernel
  have due : wakeTime 0 briefOptions.tick.nanos ≤ 2000000000 := by decide
  have awake := asleep.read (.rouse rfl due) (Nat.zero_le _) rfl
  have stopping := awake.read (.expire rfl (Nat.le_refl _) isOver (Nat.le_refl 2000000000))
    (Nat.le_refl _) rfl
  have one := stopping.flag (u := hungUser) rfl rfl (by simp)
  have both : Moment.Timed mutedScene briefOptions 2000000000
      ⟨2000000000, .stopping 2000000000, (besideIdle history).fill idleUser.stop, [], _, wakes⟩ :=
    one.flag rfl rfl (by simp [User.stop])
  have raised : ∀ u ∈ ((besideIdle history).fill idleUser.stop).active, u.stopping = true := by
    simp [besideIdle, Fleet.Place.fill, User.stop]
  exact ⟨history, _, wakes,
    both.read (.await rfl raised (Nat.le_refl 2000000000)) (Nat.le_refl 2000000000) rfl⟩

/-- The newer user ends half a second before the deadline, while the controller waits for the older
one until a second after it. -/
theorem exists_late_run : ∃ m report awaited u,
    Moment.Timed mutedScene briefOptions 4000000000 m ∧ m.control = .returned report awaited ∧
    report.elapsed = 2000000000 ∧ report.abortedUsers = 1 ∧ u ∈ m.fleet.users ∧ u.id = 1 ∧
    u.verdict = some (2500000000, .joined .empty) := by
  obtain ⟨history, events, wakes, awaiting⟩ := exists_awaiting
  have ended := awaiting.move (p := besideIdle history) rfl
    (.finish rfl List.not_mem_nil rfl (Nat.zero_le 2500000000)) rfl (by decide)
  have late : (3000000000 : Nat) ≤ 4000000000 := by decide
  have past : (2000000000 : Nat) ≤ 4000000000 := by decide
  have aborted := ended.read (.abort (u := hungUser.stop) rfl
    (Fleet.Place.mem_users_fill.mpr (.inr List.mem_cons_self)) rfl past late)
    (show 2500000000 ≤ 4000000000 by decide) rfl
  have joined := aborted.read (.join rfl ((besideIdle history).mem_fill _) rfl
    (Nat.le_refl 4000000000)) (Nat.le_refl _) rfl
  have returned := joined.still (.report rfl) rfl rfl
  exact ⟨_, _, _, _, returned, rfl, rfl, rfl, (besideIdle history).mem_fill _, rfl, rfl⟩

/-- The oldest of three users hears of no search. Those of the others take the longer the newer the
user is, and the second of each fails. -/
def trioScene : Scene := { briefScene with
  target := ⟨fun id n _ =>
    if id = 0 then .silent
    else .answered (id * 400000000) (if n = 1 then .failed "down" else .succeeded)⟩ }

/-- The brief test with three users to begin with. -/
def trioOptions : Options := { briefOptions with
  profile := ⟨[⟨.ofMillis 0, 3⟩, ⟨.ofMillis 2000, 0⟩], .ofMillis 2000⟩ }

/-- How each user comes to its end, if it does: the time and the verdict. -/
def endsOf (scene : Scene) (us : List User) : List (Nat × Option (Nat × Verdict)) :=
  us.map fun u => (u.id, (u.last? scene).map Prod.snd)

theorem exists_last_of_mem {us : List User} {id time : Nat} {verdict : Verdict}
    (listed : (id, some (time, verdict)) ∈ endsOf scene us) :
    ∃ u ∈ us, ∃ v, u.last? scene = some (v, time, verdict) ∧ v.id = id := by
  obtain ⟨u, hu, same⟩ := List.mem_map.mp listed
  obtain ⟨rfl, ends⟩ := Prod.mk.inj same
  obtain ⟨⟨v, ended⟩, last, rfl⟩ := Option.map_eq_some_iff.mp ends
  exact ⟨u, hu, v, last, User.id_settle (User.last?_eq_some_iff.mp last).1⟩

theorem FairReport.verdict_of_early {ids : List Nat} {us : List User}
    (fair : FairReport deadline ids report awaited)
    (each : ∀ u ∈ us, ∀ v time verdict, u.last? scene = some (v, time, verdict) →
      (∀ limit ∈ deadline, time < limit) → ∃ a ∈ awaited, a.user = v ∧ a.verdict = verdict)
    {a : Awaited} (ha : a ∈ awaited) {time : Nat} {verdict : Verdict}
    (listed : (a.user.id, some (time, verdict)) ∈ endsOf scene us)
    (early : ∀ limit ∈ deadline, time < limit) : a.verdict = verdict := by
  obtain ⟨u, hu, v, last, id⟩ := exists_last_of_mem listed
  obtain ⟨b, hb, rfl, same⟩ := each u hu v time verdict last early
  exact fair.unique hb ha id ▸ same

theorem exists_silent_of_mem {us : List User} {id : Nat} (listed : (id, none) ∈ endsOf scene us) :
    ∃ u ∈ us, u.last? scene = none ∧ u.id = id := by
  obtain ⟨u, hu, same⟩ := List.mem_map.mp listed
  obtain ⟨rfl, ends⟩ := Prod.mk.inj same
  exact ⟨u, hu, Option.map_eq_none_iff.mp ends, rfl⟩

theorem awaited_ids_of_ends {f : Fleet} {ends : List (Nat × Option (Nat × Verdict))}
    (h : endsOf scene f.stopAll.awaited = ends) : f.awaited.map User.id = ends.map Prod.fst := by
  rw [← h, endsOf, List.map_map, ← f.awaited_ids_stopAll]
  rfl

/-- The user that ends in time is joined though the one before it uses up the whole wait, on a clock
that all tasks read and on the virtual one. Of three users the two that end in time are joined, and
what they did is what the report adds up. -/
theorem late_stop_is_fair :
    (∃ t m report awaited, Moment.Timed mutedScene briefOptions t m ∧
      m.control = .returned report awaited ∧ report.abortedUsers = 1 ∧
      ∃ a ∈ awaited, a.user.id = 1 ∧ a.verdict = .joined .empty) ∧
    (∃ r awaited, simulate briefScene briefOptions = some r ∧
      (r.report.abortedUsers, r.report.stats.iterations) = (1, 1) ∧
      FairReport (some 3000000000) [0, 1] r.report awaited ∧
      ∃ a ∈ awaited, a.user.id = 1 ∧ a.verdict ≠ .aborted) ∧
    ∃ r awaited, simulate trioScene trioOptions = some r ∧
      FairReport (some 3000000000) [0, 2, 1] r.report awaited ∧
      ((joined awaited).map fun x => (x.1, x.2.iterations, x.2.failures)) =
        [(2, 2, 1), (1, 3, 1)] ∧
      r.report.stats.iterations = 2 + 3 ∧ r.report.stats.failures = 1 + 1 ∧
      r.report.abortedUsers = 1 := by
  refine ⟨?_, ?_, ?_⟩
  · obtain ⟨m, report, awaited, u, timed, back, elapsed, aborted, member, id, ended⟩ :=
      exists_late_run
    obtain ⟨stop, later, -, early⟩ := (graceful_stop_is_fair mutedScene briefOptions).1 _ m report
      awaited timed back
    have soon : ∀ limit ∈ deadline? stop briefOptions.gracefulStop, 2500000000 < limit := by
      intro limit limited
      have wait : briefOptions.gracefulStop.nanos = 1000000000 := by decide
      have := eq_of_deadline? limited
      omega
    obtain ⟨a, ha, rfl, verdict⟩ := (early u member).1 _ _ ended soon
    exact ⟨_, m, report, awaited, timed, back, aborted, a, ha, id, verdict⟩
  · have counts : (simulate briefScene briefOptions).map (fun r =>
        (r.report.abortedUsers, r.report.stats.iterations)) = some (1, 1) := by decide +kernel
    have ends : (Controller.start.follow briefScene briefOptions
        (Controller.maxWakes briefOptions)).map (fun c =>
          (c.time, endsOf briefScene c.fleet.stopAll.awaited)) =
        some (2000000000, [(0, none), (1, some (1500000000, .joined ⟨1, 0, ⟨[(1499136, 1)]⟩⟩))]) :=
      by decide +kernel
    obtain ⟨r, returns, counts⟩ := Option.map_eq_some_iff.mp counts
    obtain ⟨c, followed, ends⟩ := Option.map_eq_some_iff.mp ends
    obtain ⟨time, ends⟩ := Prod.mk.inj ends
    obtain ⟨awaited, fair, -, each⟩ :=
      ((graceful_stop_is_fair briefScene briefOptions).2.2 c followed).2 r returns
    rw [awaited_ids_of_ends ends, time] at fair
    rw [time] at each
    obtain ⟨u, hu, v, last, id⟩ := exists_last_of_mem (ends ▸ List.mem_cons_of_mem _
      List.mem_cons_self)
    obtain ⟨a, ha, rfl, verdict⟩ := (each u hu).1 v _ _ last (by decide)
    exact ⟨r, awaited, returns, counts, fair, a, ha, id, by simp [verdict]⟩
  · have ends : (Controller.start.follow trioScene trioOptions
        (Controller.maxWakes trioOptions)).map (fun c =>
          (c.time, endsOf trioScene c.fleet.stopAll.awaited)) =
        some (2000000000, [(0, none), (2, some (1600000000, .joined ⟨2, 1, ⟨[(799744, 2)]⟩⟩)),
          (1, some (1200000000, .joined ⟨3, 1, ⟨[(399872, 3)]⟩⟩))]) := by decide +kernel
    obtain ⟨c, followed, ends⟩ := Option.map_eq_some_iff.mp ends
    obtain ⟨time, ends⟩ := Prod.mk.inj ends
    obtain ⟨returning, fairly⟩ := (graceful_stop_is_fair trioScene trioOptions).2.2 c followed
    rw [time] at returning fairly
    obtain ⟨r, returns⟩ := returning nofun
    obtain ⟨awaited, fair, -, each⟩ := fairly r returns
    rw [awaited_ids_of_ends ends] at fair
    have order := fair.order
    obtain ⟨x, y, z, rfl⟩ := List.length_eq_three.mp (by simpa using congrArg List.length order)
    simp only [List.map_cons, List.map_nil, List.cons.injEq, and_true] at order
    obtain ⟨zero, two, one⟩ := order
    have first : x.verdict = .aborted := by
      obtain ⟨u, hu, silent, id⟩ := exists_silent_of_mem (ends ▸ List.mem_cons_self)
      obtain ⟨a, ha, rfl, verdict⟩ := (each u hu).2 _ rfl (by simp [silent])
      exact fair.unique ha (by simp) (id.trans zero.symm) ▸ verdict
    have early := fun u hu => (each u hu).1
    have second : y.verdict = .joined ⟨2, 1, ⟨[(799744, 2)]⟩⟩ :=
      fair.verdict_of_early early (by simp) (by rw [ends, two]; simp)
        (show ∀ limit ∈ _, 1600000000 < limit by decide)
    have third : z.verdict = .joined ⟨3, 1, ⟨[(399872, 3)]⟩⟩ :=
      fair.verdict_of_early early (by simp) (by rw [ends, one]; simp)
        (show ∀ limit ∈ _, 1200000000 < limit by decide)
    have listed : joined [x, y, z] =
        [(2, ⟨2, 1, ⟨[(799744, 2)]⟩⟩), (1, ⟨3, 1, ⟨[(399872, 3)]⟩⟩)] := by
      simp [joined, first, second, third, two, one]
    refine ⟨r, _, returns, fair, ?_, ?_, ?_, ?_⟩
    · rw [listed]
      rfl
    · rw [fair.iterations, listed]
      rfl
    · rw [fair.failures, listed]
      rfl
    · rw [fair.aborted]
      simp [first, second, third]

end SearchLoad.Run
