import SearchLoad.Proofs.Run.VirtualClock

namespace SearchLoad.Run

variable {scene : Scene} {o : Options}

namespace User

/-- What the clock showed when the user did its last thing. -/
def lastRead (u : User) : Option Nat := u.history.head?.map Prod.fst

/-- A task that is over is never over for being aborted. -/
theorem verdict_ne_aborted {u : User} {time : Nat} : u.verdict ≠ some (time, .aborted) := by
  unfold verdict
  split <;> simp

/-- A move is recorded with its reading, and if it ends the task, the task is over from then on. -/
theorem Move.reads {looked : Prop} {u v : User} {e : UserEvent} (h : u.Move scene looked e v) :
    ∃ now, v.history = (now, e) :: u.history ∧
      ∀ time verdict, v.verdict = some (time, verdict) → time = now := by
  cases h with
  | send => exact ⟨_, rfl, by simp [User.send, User.verdict]⟩
  | take => exact ⟨_, rfl, by simp [User.take, User.verdict]⟩
  | crash => exact ⟨_, rfl, by simp [User.crash, User.verdict]⟩
  | finish => exact ⟨_, rfl, by simp [User.finish, User.verdict]⟩

end User

namespace Moment

/-- What a step reads of the clock lies between two times. -/
structure OneClock (t t' : Nat) (m m' : Moment) : Prop where
  later : t ≤ t'
  controller : m'.clock = m.clock ∨ t ≤ m'.clock ∧ m'.clock ≤ t'
  users : ∀ u ∈ m'.fleet.users,
    (∃ v ∈ m.fleet.users, v.id = u.id ∧ v.history = u.history) ∨
      ∃ time ∈ u.lastRead, t ≤ time ∧ time ≤ t'

/-- The moments that a test can come to by some time if all tasks read one clock. They may still
be as late as they like. -/
inductive Timed (scene : Scene) (o : Options) : Nat → Moment → Prop
  | start : Timed scene o 0 .start
  | step {t t' : Nat} {m m' : Moment} (before : Timed scene o t m) (next : Step scene o m m')
      (clock : OneClock t t' m m') : Timed scene o t' m'

variable {t t' : Nat} {m m' : Moment}

theorem Timed.reached (h : Timed scene o t m) : Reached scene o m := by
  induction h with
  | start => exact .start
  | step _ next _ ih => exact ih.step next

theorem Timed.clock_le (h : Timed scene o t m) : m.clock ≤ t := by
  induction h with
  | start => exact Nat.le_refl 0
  | step _ _ clock ih =>
    rcases clock.controller with same | ⟨-, le⟩
    · exact same ▸ Nat.le_trans ih clock.later
    · exact le

/-- A step that reads no clock and leaves the users alone. -/
theorem Timed.still (h : Timed scene o t m) (next : Step scene o m m') (clock : m'.clock = m.clock)
    (users : m'.fleet.users = m.fleet.users) : Timed scene o t m' :=
  h.step next ⟨Nat.le_refl t, .inl clock, fun u hu => .inl ⟨u, users ▸ hu, rfl, rfl⟩⟩

/-- A step of the controller's that leaves the users alone. -/
theorem Timed.read (h : Timed scene o t m) (next : Step scene o m m') (later : t ≤ m'.clock)
    (users : m'.fleet.users = m.fleet.users) : Timed scene o m'.clock m' :=
  h.step next ⟨later, .inr ⟨later, Nat.le_refl _⟩, fun u hu => .inl ⟨u, users ▸ hu, rfl, rfl⟩⟩

theorem Timed.spawn {time target now : Nat} (h : Timed scene o t m)
    (control : m.control = .resizing time target) (few : m.fleet.active.length < target)
    (later : t ≤ now) :
    Timed scene o now { m with
      clock := now, fleet := m.fleet.spawn scene now,
      events := (m.fleet.spawned, .started) :: m.events } := by
  refine h.step (.spawn control few (Nat.le_trans h.clock_le later))
    ⟨later, .inr ⟨later, Nat.le_refl now⟩, ?_⟩
  intro u hu
  rcases List.mem_cons.mp hu with rfl | hu
  · exact .inr ⟨now, rfl, later, Nat.le_refl now⟩
  · exact .inl ⟨u, hu, rfl, rfl⟩

theorem Timed.move {p : Fleet.Place} {u v : User} {e : UserEvent} {now : Nat}
    (h : Timed scene o t m) (place : m.fleet = p.fill u)
    (moves : u.Move scene (u.id ∈ m.looked) e v) (read : v.lastRead = some now)
    (later : t ≤ now) :
    Timed scene o now { m with
      fleet := p.fill v, looked := m.looked.erase u.id, events := (u.id, e) :: m.events } := by
  refine h.step (.move place moves) ⟨later, .inl rfl, ?_⟩
  intro w hw
  rcases Fleet.Place.mem_users_fill.mp hw with rfl | other
  · exact .inr ⟨now, read, later, Nat.le_refl now⟩
  · exact .inl ⟨w, place ▸ Fleet.Place.mem_users_fill.mpr (.inr other), rfl, rfl⟩

theorem Timed.flag {elapsed peak : Nat} {newer older retired : List User} {u : User}
    {history : List (Nat × FleetEvent)} (h : Timed scene o t m)
    (control : m.control = .stopping elapsed)
    (place : m.fleet = (Fleet.Place.active newer older retired peak history).fill u)
    (raised : ∀ v ∈ older, v.stopping = true) :
    Timed scene o t { m with
      fleet := (Fleet.Place.active newer older retired peak history).fill u.stop } := by
  refine h.step (.flag control place raised) ⟨Nat.le_refl t, .inl rfl, ?_⟩
  intro w hw
  rw [place]
  rcases Fleet.Place.mem_users_fill.mp hw with rfl | other
  · exact .inl ⟨u, Fleet.Place.mem_fill _ u, rfl, rfl⟩
  · exact .inl ⟨w, Fleet.Place.mem_users_fill.mpr (.inr other), rfl, rfl⟩

end Moment

/-- The verdict is what the user had come to when the wait for it ended, or the user was not done
then, the deadline was past, and it was aborted. -/
def Awaited.IsDue (deadline : Option Nat) (a : Awaited) : Prop :=
  (∃ time, a.user.verdict = some (time, a.verdict)) ∨
    a.user.verdict = none ∧ a.verdict = .aborted ∧ ∃ limit ∈ deadline, limit ≤ a.time

theorem Awaited.IsDue.of_aborted {deadline : Option Nat} {a : Awaited} (h : a.IsDue deadline)
    (aborted : a.verdict = .aborted) : ∃ limit ∈ deadline, limit ≤ a.time := by
  rcases h with ⟨time, own⟩ | ⟨-, -, past⟩
  · rw [aborted] at own
    exact absurd own User.verdict_ne_aborted
  · exact past

/-- What a wait came to, which ended at some reading of the controller's. An aborted user was not
done before the deadline, whatever it has come to since. -/
structure Awaited.Fair (deadline : Option Nat) (clock : Nat) (f : Fleet) (a : Awaited) : Prop where
  read : a.time ≤ clock
  due : a.IsDue deadline
  late : a.verdict = .aborted → ∀ u ∈ f.users, u.id = a.user.id →
    ∀ limit ∈ deadline, ∀ time verdict, u.verdict = some (time, verdict) → limit ≤ time

namespace Awaited.Fair

variable {deadline : Option Nat} {clock t t' : Nat} {a : Awaited}

theorem later {f : Fleet} (h : a.Fair deadline clock f) {now : Nat} (le : clock ≤ now) :
    a.Fair deadline now f :=
  ⟨Nat.le_trans h.read le, h.due, h.late⟩

/-- An aborted user may still end its task, but the deadline is past by then. -/
theorem fill {looked : Prop} {p : Fleet.Place} {u v : User} {e : UserEvent}
    (h : a.Fair deadline clock (p.fill u)) (numbered : (p.fill u).Numbered)
    (moves : u.Move scene looked e v) (past : clock ≤ t)
    (read : (∃ w ∈ (p.fill u).users, w.id = v.id ∧ w.history = v.history) ∨
      ∃ time ∈ v.lastRead, t ≤ time ∧ time ≤ t') : a.Fair deadline clock (p.fill v) := by
  refine ⟨h.read, h.due, ?_⟩
  intro aborted w hw same limit hl time verdict ended
  rcases Fleet.Place.mem_users_fill.mp hw with rfl | other
  · obtain ⟨now, history, isOver⟩ := moves.reads
    obtain rfl := isOver time verdict ended
    have recent : t ≤ time := by
      rcases read with ⟨x, hx, id, unchanged⟩ | ⟨reading, last, recent, -⟩
      · -- No user has this history yet: the one with this number lacks the latest event.
        rcases Fleet.Place.mem_users_fill.mp hx with rfl | other
        · rw [history] at unchanged
          exact absurd unchanged.symm (List.cons_ne_self _ _)
        · rw [moves.id_eq] at id
          exact absurd id.symm (numbered.id_ne_of_mem_others other)
      · simp only [User.lastRead, history, List.head?_cons, Option.map_some, Option.mem_def,
          Option.some.injEq] at last
        exact last ▸ recent
    obtain ⟨limit', hl', passed⟩ := h.due.of_aborted aborted
    obtain rfl : limit = limit' := Option.mem_unique hl hl'
    have := h.read
    omega
  · exact h.late aborted w (Fleet.Place.mem_users_fill.mpr (.inr other)) same limit hl time verdict
      ended

end Awaited.Fair

namespace Moment

variable {t t' : Nat} {m m' : Moment}

/-- The deadline is counted from when the profile was over, or later, and the waits so far came to
what they should. -/
def Settling (o : Options) (m : Moment) : Prop :=
  match m.control with
  | .stopping elapsed => elapsed ≤ m.clock
  | .awaiting elapsed deadline _ awaited =>
    (∃ stop, elapsed ≤ stop ∧ deadline = deadline? stop o.gracefulStop) ∧
      ∀ a ∈ awaited, a.Fair deadline m.clock m.fleet
  | .returned report awaited =>
    ∃ stop, report.elapsed ≤ stop ∧
      ∀ a ∈ awaited, a.Fair (deadline? stop o.gracefulStop) m.clock m.fleet
  | _ => True

theorem Step.settling (next : Step scene o m m') (clock : OneClock t t' m m')
    (numbered : m.fleet.Numbered) (past : m.clock ≤ t) (h : m.Settling o) : m'.Settling o := by
  cases next with
  | look => exact h
  | @move p u v e place moves =>
    have read := clock.users v (p.mem_fill v)
    rw [place] at numbered read
    cases hc : m.control with
    | awaiting =>
      simp only [Settling, hc, place] at h ⊢
      exact ⟨h.1, fun a ha => (h.2 a ha).fill numbered moves past read⟩
    | returned =>
      simp only [Settling, hc, place] at h ⊢
      obtain ⟨stop, le, h⟩ := h
      exact ⟨stop, le, fun a ha => (h a ha).fill numbered moves past read⟩
    | stopping => simpa [Settling, hc] using h
    | _ => simp [Settling]
  | wake | settle | rouse => trivial
  | spawn control | retire control => simp [Settling, control]
  | expire => exact Nat.le_refl _
  | flag control =>
    simp only [Settling, control] at h ⊢
    exact h
  | @await elapsed now control raised later =>
    simp only [Settling, control] at h
    exact ⟨⟨now, Nat.le_trans h later, rfl⟩, by simp⟩
  | @join elapsed now time deadline queue awaited u verdict control member done later =>
    simp only [Settling, control] at h ⊢
    refine ⟨h.1, List.forall_mem_append.mpr ⟨fun a ha => (h.2 a ha).later later, ?_⟩⟩
    refine List.forall_mem_singleton.mpr ⟨Nat.le_refl now, .inl ⟨time, done⟩, ?_⟩
    rintro rfl
    exact absurd done User.verdict_ne_aborted
  | @abort elapsed now limit queue awaited u control member undone later late =>
    simp only [Settling, control] at h ⊢
    refine ⟨h.1, List.forall_mem_append.mpr ⟨fun a ha => (h.2 a ha).later later, ?_⟩⟩
    refine List.forall_mem_singleton.mpr
      ⟨Nat.le_refl now, .inr ⟨undone, rfl, limit, rfl, late⟩, ?_⟩
    intro _ w hw same limit _ time verdict ended
    obtain rfl : w = u := List.inj_on_of_nodup_map numbered.nodup hw member same
    rw [undone] at ended
    contradiction
  | report control =>
    simp only [Settling, control] at h ⊢
    obtain ⟨⟨stop, le, rfl⟩, h⟩ := h
    exact ⟨stop, le, h⟩

theorem Timed.settling (h : Timed scene o t m) : m.Settling o := by
  induction h with
  | start => trivial
  | step before next clock ih =>
    exact next.settling clock before.reached.numbered before.clock_le ih

end Moment

end SearchLoad.Run
