import Mathlib.Logic.Relation
import SearchLoad.Proofs.Run.Pacing

namespace SearchLoad.Run

open Relation

variable {scene : Scene} {o : Options}

/-- What a user with its flag up still does about a search that is under way. -/
def Response.ending (q : Query) : Response → List UserEvent
  | .answered _ outcome => [.returned q outcome, .stopped]
  | .crashed _ message => [.crashed message]
  | .silent => []

namespace User

/-- What a user with its flag up still does. If it looked when the flag was down, it sends one more
search. -/
def remaining (scene : Scene) (looked : Prop) [Decidable looked] (u : User) : List UserEvent :=
  match u.phase with
  | .idle _ =>
    let q := (scene.sampler.sample u.generator).1
    if looked then .sent q :: (scene.target.respond u.id u.sent (.search q)).ending q
    else [.stopped]
  | .searching _ q response => response.ending q
  | .ended _ | .crashed .. => []

theorem stop_eq_self {u : User} (flag : u.stopping = true) : u.stop = u := by
  rw [stop, ← flag]

variable {looked : Prop} [Decidable looked] {u v : User} {e : UserEvent} {es : List UserEvent}

theorem Move.remaining_eq (moves : u.Move scene looked e v) :
    u.remaining scene looked = e :: v.remaining scene False := by
  cases moves with
  | send idle look => simp [remaining, idle, look, User.send]
  | take busy => simp [remaining, busy, Response.ending, User.take]
  | crash busy => simp [remaining, busy, Response.ending, User.crash]
  | finish idle look => simp [remaining, idle, look, User.finish]

/-- What remains can be done. -/
theorem exists_move (flag : u.stopping = true) (h : u.remaining scene looked = e :: es) :
    ∃ v, u.Move scene looked e v := by
  cases hp : u.phase with
  | idle since =>
    by_cases look : looked
    · simp only [remaining, hp, look, if_true, List.cons.injEq] at h
      obtain ⟨rfl, -⟩ := h
      exact ⟨_, .send hp look (Nat.le_refl since)⟩
    · simp only [remaining, hp, look, if_false, List.cons.injEq] at h
      obtain ⟨rfl, -⟩ := h
      exact ⟨_, .finish hp look flag (Nat.le_refl since)⟩
  | searching since q response =>
    cases response with
    | answered after outcome =>
      simp only [remaining, hp, Response.ending, List.cons.injEq] at h
      obtain ⟨rfl, -⟩ := h
      exact ⟨_, .take hp (Nat.le_refl (since + after))⟩
    | crashed after message =>
      simp only [remaining, hp, Response.ending, List.cons.injEq] at h
      obtain ⟨rfl, -⟩ := h
      exact ⟨_, .crash hp (Nat.le_refl (since + after))⟩
    | silent => simp [remaining, hp, Response.ending] at h
  | ended time => simp [remaining, hp] at h
  | crashed time message => simp [remaining, hp] at h

/-- A user with nothing left to do is done, or it waits for a search that never returns. -/
theorem over_of_remaining (h : u.remaining scene looked = []) :
    (∃ ended, u.verdict = some ended) ∨ ∃ since q, u.phase = .searching since q .silent := by
  cases hp : u.phase with
  | idle since => by_cases look : looked <;> simp [remaining, hp, look] at h
  | searching since q response =>
    cases response with
    | silent => exact .inr ⟨since, q, rfl⟩
    | answered | crashed => simp [remaining, hp, Response.ending] at h
  | ended time => exact .inl ⟨_, by rw [verdict, hp]⟩
  | crashed time message => exact .inl ⟨_, by rw [verdict, hp]⟩

/-- What remains has one search to send if the user looked, and none if it did not. -/
theorem sends_remaining (scene : Scene) (looked : Prop) [Decidable looked] (u : User) :
    ((u.remaining scene looked).filterMap UserEvent.query?).length ≤ if looked then 1 else 0 := by
  have ending : ∀ q (response : Response),
      (response.ending q).filterMap UserEvent.query? = [] := by
    intro q response
    cases response <;> rfl
  cases hp : u.phase with
  | idle since => by_cases look : looked <;> simp [remaining, hp, look, UserEvent.query?, ending]
  | searching since q response => simp [remaining, hp, ending]
  | ended time => simp [remaining, hp]
  | crashed time message => simp [remaining, hp]

end User

/-- Who has its flag up stays as it is when the newest user is retired. -/
theorem Fleet.mem_users_retire {f : Fleet} {u : User} (flag : u.stopping = true)
    (member : u ∈ f.users) (now : Nat) : u ∈ (f.retire now).users := by
  cases ha : f.active with
  | nil => simpa [retire, ha] using member
  | cons w ws =>
    simp only [users, retire, ha, List.cons_append, List.mem_cons, List.mem_append] at member ⊢
    rcases member with rfl | older | earlier
    · exact .inr (.inl (User.stop_eq_self flag).symm)
    · exact .inl older
    · exact .inr (.inr earlier)

namespace Fleet.Place

theorem forall_retired_fill {P : User → Prop} (p : Place) {u v : User} (one : P u → P v)
    (h : ∀ w ∈ (p.fill u).retired, P w) : ∀ w ∈ (p.fill v).retired, P w := by
  cases p with
  | active => exact h
  | retired rest later earlier =>
    simp only [fill, List.forall_mem_append, List.forall_mem_cons] at h ⊢
    exact ⟨h.1, one h.2.1, h.2.2⟩

end Fleet.Place

/-- Whether the controller is through with raising flags. -/
def Control.hasStopped : Control → Bool
  | .awaiting .. | .returned .. => true
  | _ => false

namespace Moment

variable {m m' m'' : Moment} {u v w : User}

theorem Reached.later (h : Reached scene o m) (later : ReflTransGen (Step scene o) m m') :
    Reached scene o m' := by
  induction later with
  | refl => exact h
  | tail _ next ih => exact ih.step next

/-- The flags of retired users are up, and in the end all are. -/
structure Raised (m : Moment) : Prop where
  retired : ∀ u ∈ m.fleet.retired, u.stopping = true
  all : m.control.hasStopped → ∀ u ∈ m.fleet.users, u.stopping = true

theorem Step.raised (next : Step scene o m m') (h : m.Raised) : m'.Raised := by
  obtain ⟨retired, all⟩ := h
  cases next with
  | move place moves =>
    rw [place] at retired all
    have kept := moves.stopping_eq
    refine ⟨Fleet.Place.forall_retired_fill _ (kept.trans ·) retired, ?_⟩
    exact fun stopped => Fleet.Place.forall_users_fill (kept.trans ·) (all stopped)
  | retire control =>
    refine ⟨?_, by simp [control, Control.hasStopped]⟩
    intro u hu
    unfold Fleet.retire at hu
    split at hu
    · exact retired u hu
    · rcases List.mem_cons.mp hu with rfl | hu
      · rfl
      · exact retired u hu
  | settle control => exact ⟨by simpa using retired, by simp [Control.hasStopped]⟩
  | flag control place =>
    rw [place] at retired
    exact ⟨Fleet.Place.forall_retired_fill _ (fun _ => rfl) retired,
      by simp [control, Control.hasStopped]⟩
  | await control raised =>
    exact ⟨retired, fun _ => List.forall_mem_append.mpr ⟨raised, retired⟩⟩
  | look => exact ⟨retired, all⟩
  | wake | rouse | expire => exact ⟨retired, by simp [Control.hasStopped]⟩
  | spawn control => exact ⟨retired, by simp [control, Control.hasStopped]⟩
  | join control | abort control | report control =>
    exact ⟨retired, fun _ => all (by rw [control]; rfl)⟩

theorem Reached.raised (h : Reached scene o m) : m.Raised := by
  induction h with
  | start => exact ⟨by simp [Moment.start, Fleet.empty], by simp [Moment.start, Control.hasStopped]⟩
  | step _ next ih => exact next.raised ih

/-- Who was once retired stays so. -/
theorem Step.retired_ids (next : Step scene o m m') :
    m.fleet.retired.map User.id ⊆ m'.fleet.retired.map User.id := by
  cases next with
  | @move p u v e place moves =>
    rw [place, ← p.retired_ids_fill moves.id_eq]
    exact List.Subset.refl _
  | retire =>
    cases ha : m.fleet.active <;> simp [Fleet.retire, ha]
  | settle =>
    rw [Fleet.retired_notePeak]
    exact List.Subset.refl _
  | flag control place =>
    rw [place]
    exact List.Subset.refl _
  | _ => exact List.Subset.refl _

/-- A retired user is never active again. -/
theorem Reached.stays_retired (h : Reached scene o m) (later : ReflTransGen (Step scene o) m m')
    {i : Nat} (retired : i ∈ m.fleet.retired.map User.id) :
    i ∈ m'.fleet.retired.map User.id ∧ i ∉ m'.fleet.active.map User.id := by
  have stays : i ∈ m'.fleet.retired.map User.id := by
    induction later with
    | refl => exact retired
    | tail _ next ih => exact next.retired_ids ih
  exact ⟨stays, fun active => (h.later later).numbered.disjoint active stays⟩

theorem Reached.looked_nodup (h : Reached scene o m) : m.looked.Nodup := by
  induction h with
  | start => exact List.nodup_nil
  | step _ next ih =>
    cases next with
    | look place idle flag fresh => exact ih.cons fresh
    | move => exact ih.erase _
    | _ => exact ih

/-- A user whose flag is up, as it is at one moment and as it is at a later one: the flag stays up,
the user never finds it down, and what it did in between is the first of what remained. -/
structure WindsDown (scene : Scene) (m m' : Moment) (u v : User) : Prop where
  member : v ∈ m'.fleet.users
  id_eq : v.id = u.id
  flag : v.stopping = true
  looked : v.id ∈ m'.looked → u.id ∈ m.looked
  rest : ∃ done : List (Nat × UserEvent), v.history = done.reverse ++ u.history ∧
    u.remaining scene (u.id ∈ m.looked) =
      done.map Prod.snd ++ v.remaining scene (v.id ∈ m'.looked)

namespace WindsDown

/-- Of a step that is not the user's own. -/
theorem still (member : u ∈ m'.fleet.users) (flag : u.stopping = true)
    (looked : u.id ∈ m'.looked ↔ u.id ∈ m.looked) : WindsDown scene m m' u u :=
  ⟨member, rfl, flag, looked.mp, [], rfl, by simp [looked]⟩

theorem trans (h : WindsDown scene m m' u v) (h' : WindsDown scene m' m'' v w) :
    WindsDown scene m m'' u w := by
  obtain ⟨done, history, rest⟩ := h.rest
  obtain ⟨done', history', rest'⟩ := h'.rest
  refine ⟨h'.member, h'.id_eq.trans h.id_eq, h'.flag, fun l => h.looked (h'.looked l),
    done ++ done', ?_, ?_⟩
  · rw [history', history, List.reverse_append, List.append_assoc]
  · rw [rest, rest', List.map_append, List.append_assoc]

theorem of_move (p : Fleet.Place) {e : UserEvent} (distinct : m.looked.Nodup)
    (flag : u.stopping = true) (moves : u.Move scene (u.id ∈ m.looked) e v) :
    WindsDown scene m { m with
      fleet := p.fill v, looked := m.looked.erase u.id, events := (u.id, e) :: m.events } u v := by
  obtain ⟨now, history, -⟩ := moves.reads
  have unlooked : v.id ∉ m.looked.erase u.id := moves.id_eq ▸ distinct.not_mem_erase
  refine ⟨p.mem_fill v, moves.id_eq, moves.stopping_eq.trans flag, ?_, [(now, e)], history, ?_⟩
  · exact fun looked => absurd looked unlooked
  · simpa [unlooked] using moves.remaining_eq

end WindsDown

/-- With its flag up a user goes on by its own steps alone: the other tasks leave it as it is. -/
theorem Step.windsDown (next : Step scene o m m') (numbered : m.fleet.Numbered)
    (distinct : m.looked.Nodup) (member : u ∈ m.fleet.users) (flag : u.stopping = true) :
    ∃ v, WindsDown scene m m' u v := by
  cases next with
  | @look p w since place idle down fresh =>
    rw [place] at member numbered
    rcases Fleet.Place.mem_users_fill.mp member with rfl | other
    · -- Who looks now finds its flag down.
      rw [flag] at down
      contradiction
    · have ne := numbered.id_ne_of_mem_others other
      exact ⟨u, .still (place ▸ member) flag (by simp [ne.symm])⟩
  | @move p w v e place moves =>
    rw [place] at member numbered
    rcases Fleet.Place.mem_users_fill.mp member with rfl | other
    · exact ⟨v, .of_move p distinct flag moves⟩
    · have ne := numbered.id_ne_of_mem_others other
      exact ⟨u, .still (Fleet.Place.mem_users_fill.mpr (.inr other)) flag
        (List.mem_erase_of_ne ne.symm)⟩
  | spawn => exact ⟨u, .still (List.mem_cons_of_mem _ member) flag Iff.rfl⟩
  | retire => exact ⟨u, .still (Fleet.mem_users_retire flag member _) flag Iff.rfl⟩
  | settle => exact ⟨u, .still (by rwa [Fleet.users_notePeak]) flag Iff.rfl⟩
  | flag control place =>
    rw [place] at member
    refine ⟨u, .still ?_ flag Iff.rfl⟩
    rcases Fleet.Place.mem_users_fill.mp member with rfl | other
    · exact Fleet.Place.mem_users_fill.mpr (.inl (User.stop_eq_self flag).symm)
    · exact Fleet.Place.mem_users_fill.mpr (.inr other)
  | _ => exact ⟨u, .still member flag Iff.rfl⟩

theorem Reached.windsDown (h : Reached scene o m) (member : u ∈ m.fleet.users)
    (flag : u.stopping = true) (later : ReflTransGen (Step scene o) m m') :
    ∃ v, WindsDown scene m m' u v := by
  induction later with
  | refl => exact ⟨u, .still member flag Iff.rfl⟩
  | tail before next ih =>
    obtain ⟨v, first⟩ := ih
    have reached := h.later before
    obtain ⟨w, second⟩ :=
      next.windsDown reached.numbered reached.looked_nodup first.member first.flag
    exact ⟨w, first.trans second⟩

/-- By its own steps alone a user comes to do all that remained. -/
theorem Reached.exists_rest (h : Reached scene o m) (member : u ∈ m.fleet.users)
    (flag : u.stopping = true) :
    ∃ m' v, ReflTransGen (Step scene o) m m' ∧ WindsDown scene m m' u v ∧
      v.remaining scene (v.id ∈ m'.looked) = [] := by
  -- Each thing that remains is a step of the user's, after which the others remain.
  generalize left : u.remaining scene (u.id ∈ m.looked) = es
  induction es generalizing m u with
  | nil => exact ⟨m, u, .refl, .still member flag Iff.rfl, left⟩
  | cons e es ih =>
    obtain ⟨p, place⟩ := Fleet.exists_place member
    obtain ⟨v, moves⟩ := User.exists_move flag left
    have next : Step scene o m _ := .move place moves
    have first := WindsDown.of_move p h.looked_nodup flag moves
    have rest : v.remaining scene (v.id ∈ m.looked.erase u.id) = es := by
      have unlooked : v.id ∉ m.looked.erase u.id := moves.id_eq ▸ h.looked_nodup.not_mem_erase
      rw [moves.remaining_eq, List.cons.injEq] at left
      simpa [unlooked] using left.2
    obtain ⟨m', w, later, second, done⟩ := ih (h.step next) first.member first.flag rest
    exact ⟨m', w, .head next later, first.trans second, done⟩

/-- What a user sends with its flag up is a search that it had looked for. -/
theorem WindsDown.sends (h : WindsDown scene m m' u v) (recorded : m.Recorded)
    (recorded' : m'.Recorded) (member : u ∈ m.fleet.users) :
    ∃ more, sentBy m'.events u.id = sentBy m.events u.id ++ more ∧
      more.length ≤ if u.id ∈ m.looked then 1 else 0 := by
  obtain ⟨done, history, rest⟩ := h.rest
  refine ⟨((done.map Prod.snd).filterMap UserEvent.query?).map Command.search, ?_, ?_⟩
  · rw [sentBy_eq, sentBy_eq, ← h.id_eq, ← recorded'.histories v h.member, h.id_eq,
      ← recorded.histories u member, User.events, history]
    simp [User.events]
  · have bound := User.sends_remaining scene (u.id ∈ m.looked) u
    rw [rest, List.filterMap_append, List.length_append] at bound
    rw [List.length_map]
    exact Nat.le_of_add_right_le bound

end Moment

/-- How the answer to the search that was under way when the flag went up comes to a user: it did
not yet, it was recorded, or it was recorded and the task ended with it. -/
inductive User.TakesLast (since : Nat) (q : Query) (outcome : Outcome) (u v : User) : Prop
  | waiting (history : v.history = u.history) (stats : v.stats = u.stats)
  | recorded (now : Nat) (history : v.history = (now, .returned q outcome) :: u.history)
      (stats : v.stats = u.stats.record (now - since) outcome.isSuccess)
  | ended (now time : Nat)
      (history : v.history = (time, .stopped) :: (now, .returned q outcome) :: u.history)
      (stats : v.stats = u.stats.record (now - since) outcome.isSuccess)
      (verdict : v.verdict = some (time, .joined v.stats))

namespace Moment

variable {m m' : Moment} {u v : User}

theorem WindsDown.takesLast {since after : Nat} {q : Query} {outcome : Outcome}
    (h : WindsDown scene m m' u v) (before : u.Paced) (later : v.Paced)
    (busy : u.phase = .searching since q (.answered after outcome)) :
    u.TakesLast since q outcome v := by
  obtain ⟨done, history, rest⟩ := h.rest
  have record (now : Nat) := (before.record_eq busy now outcome).symm
  simp only [User.remaining, busy, Response.ending] at rest
  cases done with
  | nil => exact .waiting history (by rw [later.stats, history, before.stats]; rfl)
  | cons first done =>
    obtain ⟨now, e⟩ := first
    simp only [List.map_cons, List.cons_append, List.cons.injEq] at rest
    obtain ⟨rfl, rest⟩ := rest
    cases done with
    | nil => exact .recorded now history (by rw [later.stats, history]; exact record now)
    | cons second done =>
      obtain ⟨time, e⟩ := second
      simp only [List.map_cons, List.cons_append, List.cons.injEq, List.nil_eq_append_iff,
        List.map_eq_nil_iff] at rest
      obtain ⟨rfl, rfl, -⟩ := rest
      refine .ended now time history (by rw [later.stats, history]; exact record now) ?_
      exact later.joined time (history ▸ List.mem_cons_self)

/-- What becomes of a user whose flag is up, whatever steps anyone takes from then on. -/
structure Stopped (scene : Scene) (o : Options) (m : Moment) (u : User) : Prop where
  winds_down : ∀ m', ReflTransGen (Step scene o) m m' → ∃ v, WindsDown scene m m' u v
  sends : ∀ m', ReflTransGen (Step scene o) m m' →
    ∃ more, sentBy m'.events u.id = sentBy m.events u.id ++ more ∧
      more.length ≤ if u.id ∈ m.looked then 1 else 0
  takes_last : ∀ since after q outcome, u.phase = .searching since q (.answered after outcome) →
    ∀ m', ReflTransGen (Step scene o) m m' →
      ∃ v ∈ m'.fleet.users, v.id = u.id ∧ u.TakesLast since q outcome v
  can_end : ∃ m' v, ReflTransGen (Step scene o) m m' ∧ WindsDown scene m m' u v ∧
    v.events = (u.remaining scene (u.id ∈ m.looked)).reverse ++ u.events ∧
    ((∃ ended, v.verdict = some ended) ∨ ∃ since q, v.phase = .searching since q .silent)

theorem Reached.stopped (h : Reached scene o m) (member : u ∈ m.fleet.users)
    (flag : u.stopping = true) : m.Stopped scene o u := by
  refine ⟨fun m' later => h.windsDown member flag later, ?_, ?_, ?_⟩
  · intro m' later
    obtain ⟨v, down⟩ := h.windsDown member flag later
    exact down.sends h.recorded (h.later later).recorded member
  · intro since after q outcome busy m' later
    obtain ⟨v, down⟩ := h.windsDown member flag later
    have paced := (h.later later).paced v down.member
    exact ⟨v, down.member, down.id_eq, down.takesLast (h.paced u member) paced busy⟩
  · obtain ⟨m', v, later, down, finished⟩ := h.exists_rest member flag
    refine ⟨m', v, later, down, ?_, User.over_of_remaining finished⟩
    obtain ⟨done, history, rest⟩ := down.rest
    rw [rest, finished, List.append_nil, User.events, history, User.events, List.map_append,
      List.map_reverse]

end Moment

end SearchLoad.Run
