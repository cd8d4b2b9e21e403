import SearchLoad.Proofs.Run.Record
import SearchLoad.Proofs.Run.VirtualClock

namespace SearchLoad.Run

variable {scene : Scene} {o : Options} {β : Type}

/-- The users that were joined, with their statistics. -/
def joined (awaited : List Awaited) : List (Nat × Stats) :=
  awaited.filterMap fun a =>
    match a.verdict with
    | .joined stats => some (a.user.id, stats)
    | _ => none

def joinedIds (awaited : List Awaited) : List Nat := (joined awaited).map Prod.fst

theorem mem_joined {awaited : List Awaited} {x : Nat × Stats} (h : x ∈ joined awaited) :
    ∃ a ∈ awaited, a.user.id = x.1 ∧ a.verdict = .joined x.2 := by
  obtain ⟨a, ha, e⟩ := List.mem_filterMap.mp h
  split at e
  · rename_i stats verdict
    cases e
    exact ⟨a, ha, rfl, verdict⟩
  · contradiction

theorem joinedIds_sublist (awaited : List Awaited) :
    (joinedIds awaited).Sublist (awaited.map fun a => a.user.id) := by
  induction awaited with
  | nil => exact .slnil
  | cons a awaited ih =>
    cases hv : a.verdict with
    | joined stats => simpa [joinedIds, joined, hv] using ih
    | crashed message => simpa [joinedIds, joined, hv] using ih.cons a.user.id
    | aborted => simpa [joinedIds, joined, hv] using ih.cons a.user.id

theorem joinedIds_eq {awaited : List Awaited}
    (all : ∀ a ∈ awaited, ∃ stats, a.verdict = .joined stats) :
    joinedIds awaited = awaited.map fun a => a.user.id := by
  induction awaited with
  | nil => rfl
  | cons a awaited ih =>
    rw [List.forall_mem_cons] at all
    obtain ⟨⟨stats, verdict⟩, all⟩ := all
    simpa [joinedIds, joined, verdict] using ih all

/-- Only the joined users' statistics are merged. -/
theorem merged_eq (awaited : List Awaited) :
    merged awaited = ((joined awaited).map Prod.snd).foldl Stats.merge .empty := by
  unfold merged
  generalize Stats.empty = total
  induction awaited generalizing total with
  | nil => rfl
  | cons a awaited ih =>
    rw [List.foldl_cons, ih]
    cases hv : a.verdict <;> simp [joined, hv]

/-- What adds up when statistics are merged adds up over the joined users. -/
theorem merged_sum {f : Stats → Nat} (zero : f .empty = 0)
    (both : ∀ s t, f (s.merge t) = f s + f t) (awaited : List Awaited) :
    f (merged awaited) = ((joined awaited).map fun x => f x.2).sum := by
  rw [merged_eq, ← Nat.zero_add (List.sum _), ← zero]
  generalize Stats.empty = total
  generalize joined awaited = users
  induction users generalizing total with
  | nil => rfl
  | cons x users ih =>
    rw [List.map_cons, List.foldl_cons, ih]
    simp [both, Nat.add_assoc]

/-- What holds of a report, the record of what users did and the verdicts on them. Each user that
was spawned has one verdict; it crashed if that says so; and the report counts the aborted users,
the searches that returned to the joined ones, and those of them that returned an error. If no user
crashed or was aborted, the iterations are all the commands that were received. -/
structure Accounts (m : Moment) (report : Report) (awaited : List Awaited) : Prop where
  once : (awaited.map fun a => a.user.id).Perm m.fleet.spawnedIds
  distinct : m.fleet.spawnedIds.Nodup
  crashed : ∀ a ∈ awaited, a.verdict ≠ .aborted → ∀ message,
    a.verdict = .crashed message ↔ .crashed message ∈ eventsOf m.events a.user.id
  answered : ∀ i ∈ joinedIds awaited, (eventsOf m.events i).filterMap UserEvent.query? =
    (eventsOf m.events i).filterMap UserEvent.answer?
  aborted : report.abortedUsers = (awaited.filter fun a => a.verdict = .aborted).length
  iterations : report.stats.iterations =
    ((returned m.events).filter fun x => x.1 ∈ joinedIds awaited).length
  failures : report.stats.failures =
    ((failed m.events).filter fun x => x.1 ∈ joinedIds awaited).length
  undisturbed : (∀ e ∈ m.events, ∀ message, e.2 ≠ .crashed message) → report.abortedUsers = 0 →
    report.stats.iterations = (received m.events).length

namespace User

variable {u : User} {time : Nat}

theorem ended_of_verdict {stats : Stats} (h : u.verdict = some (time, .joined stats)) :
    u.phase = .ended time ∧ u.stats = stats := by
  cases phase : u.phase <;> simp_all [verdict]

theorem crashed_verdict_iff {v : Verdict} (h : u.verdict = some (time, v)) {message : String} :
    v = .crashed message ↔ ∃ time, u.phase = .crashed time message := by
  cases phase : u.phase with
  | idle | searching => simp [verdict, phase] at h
  | ended | crashed =>
    simp only [verdict, phase, Option.some.injEq, Prod.mk.injEq] at h
    simp [← h.2]

end User

/-- What the verdicts and the report of a test have to do with its users. -/
structure Tally (m : Moment) (report : Report) (awaited : List Awaited) : Prop where
  ids : (awaited.map fun a => a.user.id) = m.fleet.awaited.map User.id
  fits : ∀ a ∈ awaited, a.Fits m.fleet
  stats : report.stats = merged awaited
  aborted : report.abortedUsers = abortedCount awaited

namespace Moment

variable {m : Moment} {report : Report} {awaited : List Awaited}

theorem Reached.tally (h : Reached scene o m) (back : m.control = .returned report awaited) :
    Tally m report awaited := by
  have tallied := h.tallied
  simp only [Tallied, back] at tallied
  obtain ⟨ids, fits, stats, aborted⟩ := tallied
  exact ⟨ids, fits, stats, aborted⟩

/-- A joined user's task is over, and its statistics are the ones that were joined. -/
theorem Reached.of_joined (h : Reached scene o m) (back : m.control = .returned report awaited)
    {x : Nat × Stats} (hx : x ∈ joined awaited) :
    ∃ u ∈ m.fleet.users, u.id = x.1 ∧ u.stats = x.2 ∧ ∃ time, u.phase = .ended time := by
  obtain ⟨a, ha, id, verdict⟩ := mem_joined hx
  rcases (h.tally back).fits a ha with aborted | ⟨member, time, finished⟩
  · rw [verdict] at aborted
    contradiction
  · rw [verdict] at finished
    obtain ⟨ended, stats⟩ := User.ended_of_verdict finished
    exact ⟨a.user, member, id, stats, time, ended⟩

theorem Reached.joined_answered (h : Reached scene o m)
    (back : m.control = .returned report awaited) {i : Nat} (hi : i ∈ joinedIds awaited) :
    (eventsOf m.events i).filterMap UserEvent.query? =
      (eventsOf m.events i).filterMap UserEvent.answer? := by
  obtain ⟨x, hx, rfl⟩ := List.mem_map.mp hi
  obtain ⟨u, member, id, -, time, ended⟩ := h.of_joined back hx
  rw [← id, ← h.recorded.histories u member]
  exact (h.recorded.sound u member).ended time ended

/-- A count that statistics keep of some events is, in the report, that of the joined users. -/
theorem Reached.report_counts {count : Stats → Nat} {f : UserEvent → Option β}
    (zero : count .empty = 0) (both : ∀ s t, count (s.merge t) = count s + count t)
    (counts : ∀ u : User, u.Sound → count u.stats = (u.events.filterMap f).length)
    (h : Reached scene o m) (back : m.control = .returned report awaited)
    (distinct : (joinedIds awaited).Nodup) :
    count report.stats = ((tagged f m.events).filter fun x => x.1 ∈ joinedIds awaited).length := by
  rw [(h.tally back).stats, merged_sum zero both, length_filter_mem distinct, joinedIds,
    List.map_map]
  refine congrArg List.sum (List.map_congr_left ?_)
  intro x hx
  obtain ⟨u, member, id, stats, -⟩ := h.of_joined back hx
  rw [← stats, counts u (h.recorded.sound u member), h.recorded.histories u member,
    ← tagged_of_user, List.length_map, id]
  rfl

/-- A user that was waited for to its end crashed if its verdict says so. -/
theorem Reached.crashed_iff (h : Reached scene o m) (back : m.control = .returned report awaited)
    {a : Awaited} (ha : a ∈ awaited) (waited : a.verdict ≠ .aborted) (message : String) :
    a.verdict = .crashed message ↔ .crashed message ∈ eventsOf m.events a.user.id := by
  obtain ⟨member, time, finished⟩ := ((h.tally back).fits a ha).resolve_left waited
  rw [← h.recorded.histories a.user member, (h.recorded.sound a.user member).crashed]
  exact User.crashed_verdict_iff finished

theorem Reached.all_joined (h : Reached scene o m) (back : m.control = .returned report awaited)
    (calm : ∀ e ∈ m.events, ∀ message, e.2 ≠ .crashed message) (joined : report.abortedUsers = 0) :
    joinedIds awaited = awaited.map fun a => a.user.id := by
  refine joinedIds_eq ?_
  intro a ha
  have waited : a.verdict ≠ .aborted := by
    rw [(h.tally back).aborted, abortedCount, List.length_eq_zero_iff] at joined
    intro aborted
    exact List.filter_eq_nil_iff.mp joined a ha (by simp [aborted])
  cases verdict : a.verdict with
  | joined stats => exact ⟨stats, rfl⟩
  | crashed message =>
    have event := (h.crashed_iff back ha waited message).mp verdict
    obtain ⟨e, he, same⟩ := List.mem_map.mp event
    exact absurd same (calm e (List.mem_of_mem_filter he) message)
  | aborted => contradiction

/-- The verdicts of a test are on its users, each of them once. -/
theorem Reached.awaited_ids (h : Reached scene o m) (back : m.control = .returned report awaited) :
    (awaited.map fun a => a.user.id).Perm (List.range m.fleet.spawned) := by
  rw [(h.tally back).ids]
  exact m.fleet.awaited_ids_perm.trans h.numbered.ids

/-- Where all users were joined, the searches that returned to them are all that were received. -/
theorem Reached.received_returned (h : Reached scene o m)
    (back : m.control = .returned report awaited)
    (all : joinedIds awaited = awaited.map fun a => a.user.id) :
    ((returned m.events).filter fun x => x.1 ∈ joinedIds awaited).length =
      (received m.events).length := by
  have ids : (joinedIds awaited).Perm (List.range m.fleet.spawned) :=
    all ▸ h.awaited_ids back
  have distinct : (joinedIds awaited).Nodup := ids.nodup_iff.mpr List.nodup_range
  have known : ∀ e ∈ m.events, e.1 ∈ joinedIds awaited :=
    fun e he => ids.mem_iff.mpr (List.mem_range.mpr (h.recorded.known e he))
  have whole : received m.events = _ :=
    (filter_tagged_eq (fun e => e.query?.map Command.search) known).symm
  rw [whole, length_filter_mem distinct, length_filter_mem distinct]
  refine congrArg List.sum (List.map_congr_left ?_)
  intro i hi
  have answers := tagged_of_user UserEvent.answer? m.events i
  have queries := tagged_of_user (fun e => e.query?.map Command.search) m.events i
  rw [← List.map_filterMap, h.joined_answered back hi, ← answers] at queries
  simpa [returned] using (congrArg List.length queries).symm

theorem Reached.accounts (h : Reached scene o m) (back : m.control = .returned report awaited) :
    Accounts m report awaited := by
  have ids := h.awaited_ids back
  have distinct : (joinedIds awaited).Nodup :=
    (joinedIds_sublist awaited).nodup (ids.nodup_iff.mpr List.nodup_range)
  have iterations := h.report_counts rfl (fun _ _ => rfl) (fun _ sound => sound.iterations) back
    distinct
  have failures := h.report_counts rfl (fun _ _ => rfl) (fun _ sound => sound.failures) back
    distinct
  refine ⟨?_, ?_, ?_, ?_, (h.tally back).aborted, iterations, failures, ?_⟩
  · rw [h.numbered.spawns]
    exact ids.trans (List.reverse_perm _).symm
  · rw [h.numbered.spawns, List.nodup_reverse]
    exact List.nodup_range
  · exact fun a ha waited message => h.crashed_iff back ha waited message
  · exact fun i hi => h.joined_answered back hi
  · intro calm joined
    rw [iterations]
    exact h.received_returned back (h.all_joined back calm joined)

end Moment

/-- A report accounts for every user, under every schedule and on the virtual clock, where the users
that are left behind tell what happened. -/
theorem report_accounts_for_all_users (scene : Scene) (o : Options) :
    (∀ m report awaited, Moment.Reached scene o m → m.control = .returned report awaited →
      Accounts m report awaited) ∧
    ∀ r, simulate scene o = some r → ∃ m awaited, Moment.Reached scene o m ∧
      m.control = .returned r.report awaited ∧ r.users.Perm m.fleet.users ∧
      (∀ u ∈ r.users, u.events = eventsOf m.events u.id) ∧ Accounts m r.report awaited := by
  refine ⟨fun m report awaited h back => h.accounts back, ?_⟩
  intro r returns
  obtain ⟨m, awaited, h, back, users⟩ := simulate_reached returns
  refine ⟨m, awaited, h, back, users, ?_, h.accounts back⟩
  exact fun u hu => h.recorded.histories u (users.mem_iff.mp hu)

/-- Of two users the newer one makes way and is joined; the other one hangs and is aborted, and its
search that returned goes uncounted. -/
theorem brief_report_accounts : ∃ r, simulate briefScene briefOptions = some r ∧
    (r.report.abortedUsers, r.report.stats.iterations, r.report.peakUsers) = (1, 1, 2) ∧
    ∃ m awaited, m.control = .returned r.report awaited ∧ Accounts m r.report awaited := by
  have counts : (simulate briefScene briefOptions).map (fun r =>
      (r.report.abortedUsers, r.report.stats.iterations, r.report.peakUsers)) =
      some (1, 1, 2) := by decide +kernel
  obtain ⟨r, returns, counts⟩ := Option.map_eq_some_iff.mp counts
  obtain ⟨m, awaited, -, back, -, -, accounts⟩ :=
    (report_accounts_for_all_users briefScene briefOptions).2 r returns
  exact ⟨r, returns, counts, m, awaited, back, accounts⟩

end SearchLoad.Run
