import Mathlib.Algebra.Ring.Nat
import SearchLoad.Proofs.Run.Schedule

namespace SearchLoad.Run

variable {scene : Scene} {o : Options} {β : Type}

namespace UserEvent

def query? : UserEvent → Option Query
  | .sent q => some q
  | _ => none

/-- The query of a search that returned. -/
def answer? : UserEvent → Option Query
  | .returned q _ => some q
  | _ => none

def failure? : UserEvent → Option String
  | .returned _ (.failed message) => some message
  | _ => none

end UserEvent

namespace User

/-- What a user did, latest first. -/
def events (u : User) : List UserEvent := u.history.map Prod.snd

/-- The statistics count what returned; what was sent returned once each, in its order, but for a
search that is under way or was crashed with. -/
structure Sound (u : User) : Prop where
  iterations : u.stats.iterations = (u.events.filterMap UserEvent.answer?).length
  failures : u.stats.failures = (u.events.filterMap UserEvent.failure?).length
  searching : ∀ since q response, u.phase = .searching since q response →
    u.events.filterMap UserEvent.query? = q :: u.events.filterMap UserEvent.answer?
  idle : ∀ since, u.phase = .idle since →
    u.events.filterMap UserEvent.query? = u.events.filterMap UserEvent.answer?
  ended : ∀ time, u.phase = .ended time →
    u.events.filterMap UserEvent.query? = u.events.filterMap UserEvent.answer?
  crashed : ∀ message, .crashed message ∈ u.events ↔ ∃ time, u.phase = .crashed time message

theorem Sound.spawn (scene : Scene) (now id : Nat) : (User.spawn scene now id).Sound :=
  ⟨rfl, rfl, by simp [User.spawn], fun _ _ => rfl, by simp [User.spawn],
    by simp [User.spawn, events]⟩

theorem Sound.stop {u : User} (h : u.Sound) : u.stop.Sound :=
  ⟨h.iterations, h.failures, h.searching, h.idle, h.ended, h.crashed⟩

theorem Move.events_eq {looked : Prop} {u v : User} {e : UserEvent}
    (moves : u.Move scene looked e v) : v.events = e :: u.events := by
  cases moves <;> rfl

theorem Sound.move {looked : Prop} {u v : User} {e : UserEvent} (h : u.Sound)
    (moves : u.Move scene looked e v) : v.Sound := by
  have crashed := h.crashed
  cases moves with
  | send idle =>
    refine ⟨h.iterations, h.failures, ?_, by simp [send], by simp [send], ?_⟩
    · intro since q response e
      cases e
      exact congrArg (_ :: ·) (h.idle _ idle)
    · simpa [send, events, idle] using crashed
  | take busy later =>
    rename_i outcome
    refine ⟨congrArg (· + 1) h.iterations, ?_, by simp [take],
      fun _ _ => h.searching _ _ _ busy, by simp [take], ?_⟩
    · have failures := h.failures
      cases outcome with
      | succeeded => exact failures
      | failed message => exact congrArg (· + 1) failures
    · simpa [take, events, busy] using crashed
  | crash busy =>
    refine ⟨h.iterations, h.failures, by simp [crash], by simp [crash], by simp [crash], ?_⟩
    intro message
    have before : .crashed message ∉ u.events := by simp [crashed, busy]
    show .crashed message ∈ _ :: u.events ↔ _
    rw [List.mem_cons, or_iff_left before]
    simp [crash, eq_comm]
  | finish idle =>
    refine ⟨h.iterations, h.failures, by simp [finish], by simp [finish],
      fun _ _ => h.idle _ idle, ?_⟩
    simpa [finish, events, idle] using crashed

end User

/-- What one user did, latest first. -/
def eventsOf (events : List (Nat × UserEvent)) (i : Nat) : List UserEvent :=
  (events.filter fun e => e.1 = i).map Prod.snd

@[simp] theorem eventsOf_cons_self (events : List (Nat × UserEvent)) (i : Nat) (e : UserEvent) :
    eventsOf ((i, e) :: events) i = e :: eventsOf events i := by
  simp [eventsOf]

theorem eventsOf_cons_of_ne {i j : Nat} (h : i ≠ j) (events : List (Nat × UserEvent))
    (e : UserEvent) : eventsOf ((i, e) :: events) j = eventsOf events j := by
  simp [eventsOf, h]

/-- What can be told of some events, each with its user. -/
def tagged (f : UserEvent → Option β) (events : List (Nat × UserEvent)) : List (Nat × β) :=
  events.filterMap fun e => (f e.2).map fun b => (e.1, b)

/-- The commands that the target received, latest first. -/
def received (events : List (Nat × UserEvent)) : List (Nat × Command) :=
  tagged (fun e => e.query?.map .search) events

/-- The searches that returned, latest first. -/
def returned (events : List (Nat × UserEvent)) : List (Nat × Query) :=
  tagged UserEvent.answer? events

/-- The errors that searches returned, latest first. -/
def failed (events : List (Nat × UserEvent)) : List (Nat × String) :=
  tagged UserEvent.failure? events

theorem tagged_of_user (f : UserEvent → Option β) (events : List (Nat × UserEvent)) (i : Nat) :
    ((tagged f events).filter fun x => x.1 = i).map Prod.snd =
      (eventsOf events i).filterMap f := by
  induction events with
  | nil => rfl
  | cons e events ih =>
    obtain ⟨j, e⟩ := e
    by_cases same : j = i
    · subst same
      rw [eventsOf_cons_self, List.filterMap_cons, ← ih]
      cases hf : f e <;> simp [tagged, hf]
    · rw [eventsOf_cons_of_ne same, ← ih]
      cases hf : f e <;> simp [tagged, hf, same]

/-- What happened to several users happened to each of them. -/
theorem length_filter_mem {ids : List Nat} (distinct : ids.Nodup) (xs : List (Nat × β)) :
    (xs.filter fun x => x.1 ∈ ids).length =
      (ids.map fun i => (xs.filter fun x => x.1 = i).length).sum := by
  induction ids with
  | nil => simp
  | cons i ids ih =>
    obtain ⟨fresh, distinct⟩ := List.nodup_cons.mp distinct
    rw [List.map_cons, List.sum_cons, ← ih distinct,
      List.length_eq_length_filter_add fun x => x.1 = i, List.filter_filter, List.filter_filter]
    refine congrArg₂ (fun ys zs => List.length ys + List.length zs) ?_ ?_
    · refine List.filter_congr fun x _ => ?_
      by_cases here : x.1 = i <;> simp [here]
    · refine List.filter_congr fun x _ => ?_
      by_cases here : x.1 = i
      · simp [here, fresh]
      · simp [here]

theorem filter_tagged_eq (f : UserEvent → Option β) {events : List (Nat × UserEvent)}
    {ids : List Nat} (known : ∀ e ∈ events, e.1 ∈ ids) :
    (tagged f events).filter (fun x => x.1 ∈ ids) = tagged f events := by
  refine List.filter_eq_self.mpr ?_
  intro x hx
  obtain ⟨e, he, made⟩ := List.mem_filterMap.mp hx
  obtain ⟨b, -, rfl⟩ := Option.map_eq_some_iff.mp made
  exact decide_eq_true (known e he)

namespace Moment

variable {m m' : Moment}

/-- The record is the users' own histories put together. -/
structure Recorded (m : Moment) : Prop where
  known : ∀ e ∈ m.events, e.1 < m.fleet.spawned
  histories : ∀ u ∈ m.fleet.users, u.events = eventsOf m.events u.id
  sound : ∀ u ∈ m.fleet.users, u.Sound

/-- Who was not spawned yet did nothing. -/
theorem Recorded.eventsOf_eq_nil (h : m.Recorded) {i : Nat} (unknown : m.fleet.spawned ≤ i) :
    eventsOf m.events i = [] := by
  have silent : m.events.filter (fun e => e.1 = i) = [] := by
    refine List.filter_eq_nil_iff.mpr ?_
    intro e he same
    have := h.known e he
    simp only [decide_eq_true_eq] at same
    omega
  rw [eventsOf, silent, List.map_nil]

theorem Step.recorded (next : Step scene o m m') (numbered : m.fleet.Numbered)
    (h : m.Recorded) : m'.Recorded := by
  have fresh := h.eventsOf_eq_nil (Nat.le_refl _)
  have sound : ∀ u ∈ m'.fleet.users, u.Sound :=
    next.forall_users (User.Sound.spawn scene) (fun u hu => hu.stop)
      (fun u _ e v moves hu => hu.move moves) h.sound
  obtain ⟨known, histories, -⟩ := h
  cases next with
  | @move p u v e place moves =>
    rw [place] at known histories numbered
    have member := p.mem_fill u
    refine ⟨?_, ?_, sound⟩
    · show ∀ a ∈ (u.id, e) :: m.events, a.1 < (p.fill v).spawned
      rw [p.spawned_fill v u, List.forall_mem_cons]
      exact ⟨numbered.id_lt member, known⟩
    · intro w hw
      rcases Fleet.Place.mem_users_fill.mp hw with rfl | hw
      · rw [moves.events_eq, histories u member, moves.id_eq, eventsOf_cons_self]
      · rw [histories w (Fleet.Place.mem_users_fill.mpr (.inr hw)),
          eventsOf_cons_of_ne (numbered.id_ne_of_mem_others hw)]
  | spawn control few later =>
    refine ⟨?_, ?_, sound⟩
    · rw [Fleet.spawned_spawn, List.forall_mem_cons]
      exact ⟨Nat.lt_succ_self _, fun e he => Nat.lt_succ_of_lt (known e he)⟩
    · intro w hw
      rcases List.mem_cons.mp hw with rfl | hw
      · simp [User.spawn, User.events, fresh]
      · rw [histories w hw, eventsOf_cons_of_ne (Nat.ne_of_gt (numbered.id_lt hw))]
  | retire control many later =>
    refine ⟨?_, Fleet.forall_users_retire (fun u hu => hu) _ histories, sound⟩
    rw [Fleet.spawned_retire]
    exact known
  | settle control enough later =>
    refine ⟨?_, ?_, sound⟩
    · rw [Fleet.spawned_notePeak]
      exact known
    · rw [Fleet.users_notePeak]
      exact histories
  | flag control place =>
    rw [place] at known histories
    refine ⟨?_, ?_, sound⟩
    · rw [Fleet.Place.spawned_fill]
      exact known
    · refine Fleet.Place.forall_users_fill ?_ histories
      exact fun hu => hu
  | _ => exact ⟨known, histories, sound⟩

theorem Reached.recorded (h : Reached scene o m) : m.Recorded := by
  induction h with
  | start => exact ⟨by simp [Moment.start], by simp [Moment.start, Fleet.empty, Fleet.users],
      by simp [Moment.start, Fleet.empty, Fleet.users]⟩
  | step reached next ih => exact next.recorded reached.numbered ih

end Moment

end SearchLoad.Run
