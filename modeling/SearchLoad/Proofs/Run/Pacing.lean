import Mathlib.Algebra.Ring.Int.Defs
import SearchLoad.Proofs.Run.Draws
import SearchLoad.Proofs.Run.SharedClock
import SearchLoad.Proofs.Stats.Merging

namespace SearchLoad

theorem Stats.ofEvents_concat (events : List (Nat × Bool)) (e : Nat × Bool) :
    ofEvents (events ++ [e]) = (ofEvents events).record e.1 e.2 := by
  rw [ofEvents, List.foldl_append]
  rfl

namespace Run

variable {scene : Scene} {o : Options}

/-- What an event adds to the number of searches under way. -/
def UserEvent.weight : UserEvent → Int
  | .sent _ => 1
  | .returned .. | .crashed _ => -1
  | .started | .stopped => 0

/-- How many searches are under way after these events. -/
def underway (events : List UserEvent) : Int := (events.map UserEvent.weight).sum

@[simp] theorem underway_cons (e : UserEvent) (events : List UserEvent) :
    underway (e :: events) = e.weight + underway events := by
  rw [underway, List.map_cons, List.sum_cons, underway]

/-- The searches that returned, in their order: how long each took, and whether it succeeded. The
history has its latest event first, and a user does nothing between sending a search and its
return. -/
def measured : List (Nat × UserEvent) → List (Nat × Bool)
  | (now, .returned _ outcome) :: (since, .sent _) :: before =>
    measured before ++ [(now - since, outcome.isSuccess)]
  | _ :: before => measured before
  | [] => []

namespace User

/-- Whether a search of the user's is under way. -/
def isSearching (u : User) : Bool :=
  match u.phase with
  | .searching .. => true
  | _ => false

/-- How many of the searches that the user sent have not returned to it. -/
def unanswered (u : User) : Nat :=
  match u.phase with
  | .searching .. | .crashed .. => 1
  | _ => 0

namespace Move

variable {looked : Prop} {u v : User} {e : UserEvent}

/-- A task is started once, and not by what it does. -/
theorem ne_started (moves : u.Move scene looked e v) : e ≠ .started := by
  cases moves <;> simp

/-- A move adds to the searches under way what its event does. -/
theorem searching_eq (moves : u.Move scene looked e v) :
    (if v.isSearching then 1 else 0) = e.weight + if u.isSearching then 1 else 0 := by
  cases moves with
  | send idle => simp [isSearching, idle, User.send, UserEvent.weight]
  | take busy => simp [isSearching, busy, User.take, UserEvent.weight]
  | crash busy => simp [isSearching, busy, User.crash, UserEvent.weight]
  | finish idle => simp [isSearching, idle, User.finish, UserEvent.weight]

/-- A search that is sent is unanswered at first; if it returns it is an iteration. -/
theorem unanswered_eq (moves : u.Move scene looked e v) :
    v.stats.iterations + v.unanswered =
      u.stats.iterations + u.unanswered + if e.query?.isSome then 1 else 0 := by
  cases moves with
  | send idle => simp [unanswered, idle, User.send, UserEvent.query?]
  | take busy => simp [unanswered, busy, User.take, UserEvent.query?, Stats.record]
  | crash busy => simp [unanswered, busy, User.crash, UserEvent.query?]
  | finish idle => simp [unanswered, idle, User.finish, UserEvent.query?]

end Move

/-- One task, with one search under way at most. What returned is counted as it was measured, and
the task ends with that. -/
structure Paced (u : User) : Prop where
  started : u.events.count .started = 1
  underway : underway u.events = if u.isSearching then 1 else 0
  sent : (u.events.filterMap UserEvent.query?).length = u.stats.iterations + u.unanswered
  latest : ∀ since q response, u.phase = .searching since q response →
    ∃ before, u.history = (since, .sent q) :: before
  stats : u.stats = .ofEvents (measured u.history)
  joined : ∀ time, (time, .stopped) ∈ u.history → u.verdict = some (time, .joined u.stats)

namespace Paced

theorem spawn (scene : Scene) (now id : Nat) : (User.spawn scene now id).Paced := by
  refine ⟨rfl, rfl, rfl, ?_, rfl, ?_⟩
  · simp [User.spawn]
  · simp [User.spawn]

theorem stop {u : User} (h : u.Paced) : u.stop.Paced :=
  ⟨h.started, h.underway, h.sent, h.latest, h.stats, h.joined⟩

variable {looked : Prop} {u v : User} {e : UserEvent}

/-- A search is recorded with the time since it was sent. -/
theorem record_eq (h : u.Paced) {since : Nat} {q : Query} {response : Response}
    (busy : u.phase = .searching since q response) (now : Nat) (outcome : Outcome) :
    u.stats.record (now - since) outcome.isSuccess =
      .ofEvents (measured ((now, .returned q outcome) :: u.history)) := by
  obtain ⟨before, last⟩ := h.latest _ _ _ busy
  have waited : measured ((now, .returned q outcome) :: u.history) =
      measured u.history ++ [(now - since, outcome.isSuccess)] := by
    rw [last]
    rfl
  rw [waited, Stats.ofEvents_concat, ← h.stats]

theorem measured_move (h : u.Paced) (moves : u.Move scene looked e v) :
    v.stats = .ofEvents (measured v.history) := by
  cases moves with
  | take busy => exact h.record_eq busy _ _
  | send | crash | finish => exact h.stats

/-- A user that can move did not stop before. -/
theorem joined_move (h : u.Paced) (moves : u.Move scene looked e v) (time : Nat)
    (stopped : (time, .stopped) ∈ v.history) : v.verdict = some (time, .joined v.stats) := by
  have going : (time, .stopped) ∉ u.history := by
    intro stopped
    have isOver := h.joined time stopped
    rw [moves.verdict_eq_none] at isOver
    contradiction
  cases moves with
  | send => simp [send, going] at stopped
  | take => simp [take, going] at stopped
  | crash => simp [crash, going] at stopped
  | finish =>
    rcases List.mem_cons.mp stopped with last | earlier
    · cases last
      rfl
    · exact absurd earlier going

theorem move (h : u.Paced) (moves : u.Move scene looked e v) : v.Paced := by
  refine ⟨?_, ?_, ?_, ?_, h.measured_move moves, h.joined_move moves⟩
  · rw [moves.events_eq, List.count_cons_of_ne moves.ne_started]
    exact h.started
  · rw [moves.events_eq, underway_cons, h.underway, moves.searching_eq]
  · rw [moves.events_eq, List.length_filterMap_eq_countP, List.countP_cons,
      ← List.length_filterMap_eq_countP, h.sent, moves.unanswered_eq]
  · intro since q response searching
    cases moves with
    | send =>
      cases searching
      exact ⟨u.history, rfl⟩
    | take => simp [take] at searching
    | crash => simp [crash] at searching
    | finish => simp [finish] at searching

end Paced

end User

theorem User.unanswered_le (u : User) : u.unanswered ≤ 1 := by
  unfold User.unanswered
  split <;> omega

namespace Moment

variable {m : Moment} {u : User}

theorem Reached.paced (h : Reached scene o m) : ∀ u ∈ m.fleet.users, u.Paced := by
  induction h with
  | start => simp [Moment.start, Fleet.empty, Fleet.users]
  | step _ next ih =>
    apply next.forall_users (User.Paced.spawn scene) (fun u hu => hu.stop) ?_ ih
    exact fun u _ e v moves hu => hu.move moves

theorem Reached.length_sentBy (h : Reached scene o m) (member : u ∈ m.fleet.users) :
    (sentBy m.events u.id).length = u.stats.iterations + u.unanswered := by
  rw [Run.sentBy_eq, ← h.recorded.histories u member, List.length_reverse, List.length_map]
  exact (h.paced u member).sent

/-- What the record of a test says of a user's searches. -/
structure OneByOne (m : Moment) (u : User) : Prop where
  paced : u.Paced
  underway : underway (eventsOf m.events u.id) = 0 ∨ underway (eventsOf m.events u.id) = 1
  sent : (sentBy m.events u.id).length = u.stats.iterations ∨
    (sentBy m.events u.id).length = u.stats.iterations + 1

theorem Reached.oneByOne (h : Reached scene o m) (member : u ∈ m.fleet.users) :
    m.OneByOne u := by
  have paced := h.paced u member
  refine ⟨paced, ?_, ?_⟩
  · rw [← h.recorded.histories u member, paced.underway]
    split
    · exact .inr rfl
    · exact .inl rfl
  · rw [h.length_sentBy member]
    have := u.unanswered_le
    omega

end Moment

end Run

end SearchLoad
