import SearchLoad.Proofs.Run.Fleet
import SearchLoad.Run.Controller

namespace SearchLoad.Run

/-- A user's step that something is seen of. A user sends only after it has looked at its stop
flag, which is a step of its own: `looked` tells whether it has. -/
inductive User.Move (scene : Scene) (looked : Prop) : User → UserEvent → User → Prop
  | send {u : User} {since now : Nat} (idle : u.phase = .idle since) (look : looked)
      (later : since ≤ now) :
      User.Move scene looked u (.sent (scene.sampler.sample u.generator).1) (u.send scene now)
  | take {u : User} {since after now : Nat} {q : Query} {outcome : Outcome}
      (busy : u.phase = .searching since q (.answered after outcome))
      (later : since + after ≤ now) :
      User.Move scene looked u (.returned q outcome) (u.take since now q outcome)
  | crash {u : User} {since after now : Nat} {q : Query} {message : String}
      (busy : u.phase = .searching since q (.crashed after message))
      (later : since + after ≤ now) :
      User.Move scene looked u (.crashed message) (u.crash now message)
  | finish {u : User} {since now : Nat} (idle : u.phase = .idle since) (look : ¬ looked)
      (flag : u.stopping = true) (later : since ≤ now) :
      User.Move scene looked u .stopped (u.finish now)

inductive Control
  | looking
  | resizing (time target : Nat)
  | sleeping
  | stopping (elapsed : Nat)
  | awaiting (elapsed : Nat) (deadline : Option Nat) (queue : List Nat) (awaited : List Awaited)
  | returned (report : Report) (awaited : List Awaited)

def Control.isFollowing : Control → Bool
  | .looking | .resizing .. | .sleeping => true
  | _ => false

/-- A moment of a test: the controller's last clock reading and what it is about to do, the users,
those of them that found their flag down and are about to send, what users did so far, and the times
of the wakes with the numbers of active users they left. What is latest stands first. -/
structure Moment where
  clock : Nat
  control : Control
  fleet : Fleet
  looked : List Nat
  events : List (Nat × UserEvent)
  wakes : List (Nat × Nat)

namespace Moment

def start : Moment := ⟨0, .looking, .empty, [], [], []⟩

/-- A step of a user or of the controller; it ends wherever others could see a difference. Each task
reads the clock on its own, and the last reading only bounds the controller's next one, so a task
may be as late as it likes. -/
inductive Step (scene : Scene) (o : Options) : Moment → Moment → Prop
  | look {m : Moment} {p : Fleet.Place} {u : User} {since : Nat} (place : m.fleet = p.fill u)
      (idle : u.phase = .idle since) (flag : u.stopping = false) (fresh : u.id ∉ m.looked) :
      Step scene o m { m with looked := u.id :: m.looked }
  | move {m : Moment} {p : Fleet.Place} {u v : User} {e : UserEvent} (place : m.fleet = p.fill u)
      (moves : u.Move scene (u.id ∈ m.looked) e v) :
      Step scene o m { m with
        fleet := p.fill v, looked := m.looked.erase u.id, events := (u.id, e) :: m.events }
  | wake {m : Moment} {now target : Nat} (control : m.control = .looking)
      (later : m.clock ≤ now) (asked : o.profile.targetAt now = some target) :
      Step scene o m { m with clock := now, control := .resizing now target }
  | spawn {m : Moment} {time target now : Nat} (control : m.control = .resizing time target)
      (few : m.fleet.active.length < target) (later : m.clock ≤ now) :
      Step scene o m { m with
        clock := now, fleet := m.fleet.spawn scene now,
        events := (m.fleet.spawned, .started) :: m.events }
  | retire {m : Moment} {time target now : Nat} (control : m.control = .resizing time target)
      (many : target < m.fleet.active.length) (later : m.clock ≤ now) :
      Step scene o m { m with clock := now, fleet := m.fleet.retire now }
  | settle {m : Moment} {time target now : Nat} (control : m.control = .resizing time target)
      (enough : m.fleet.active.length = target) (later : m.clock ≤ now) :
      Step scene o m { m with
        clock := now, control := .sleeping, fleet := m.fleet.notePeak now,
        wakes := (time, m.fleet.active.length) :: m.wakes }
  | rouse {m : Moment} {now : Nat} (control : m.control = .sleeping)
      (later : wakeTime m.clock o.tick.nanos ≤ now) :
      Step scene o m { m with clock := now, control := .looking }
  | expire {m : Moment} {now elapsed : Nat} (control : m.control = .looking)
      (later : m.clock ≤ now) (finished : o.profile.targetAt now = none) (last : now ≤ elapsed) :
      Step scene o m { m with clock := elapsed, control := .stopping elapsed }
  | flag {m : Moment} {elapsed peak : Nat} {newer older retired : List User} {u : User}
      {history : List (Nat × FleetEvent)} (control : m.control = .stopping elapsed)
      (place : m.fleet = (Fleet.Place.active newer older retired peak history).fill u)
      (raised : ∀ v ∈ older, v.stopping = true) :
      Step scene o m { m with
        fleet := (Fleet.Place.active newer older retired peak history).fill u.stop }
  | await {m : Moment} {elapsed now : Nat} (control : m.control = .stopping elapsed)
      (raised : ∀ u ∈ m.fleet.active, u.stopping = true) (later : m.clock ≤ now) :
      Step scene o m { m with
        clock := now
        control := .awaiting elapsed (deadline? now o.gracefulStop)
          (m.fleet.awaited.map User.id) [] }
  | join {m : Moment} {elapsed now time : Nat} {deadline : Option Nat} {queue : List Nat}
      {awaited : List Awaited} {u : User} {verdict : Verdict}
      (control : m.control = .awaiting elapsed deadline (u.id :: queue) awaited)
      (member : u ∈ m.fleet.users) (done : u.verdict = some (time, verdict))
      (later : m.clock ≤ now) :
      Step scene o m { m with
        clock := now
        control := .awaiting elapsed deadline queue (awaited ++ [⟨u, verdict, now⟩]) }
  | abort {m : Moment} {elapsed now limit : Nat} {queue : List Nat} {awaited : List Awaited}
      {u : User} (control : m.control = .awaiting elapsed (some limit) (u.id :: queue) awaited)
      (member : u ∈ m.fleet.users) (undone : u.verdict = none) (later : m.clock ≤ now)
      (late : limit ≤ now) :
      Step scene o m { m with
        clock := now
        control := .awaiting elapsed (some limit) queue (awaited ++ [⟨u, .aborted, now⟩]) }
  | report {m : Moment} {elapsed : Nat} {deadline : Option Nat} {awaited : List Awaited}
      (control : m.control = .awaiting elapsed deadline [] awaited) :
      Step scene o m { m with
        control := .returned ⟨merged awaited, elapsed, m.fleet.peak, abortedCount awaited⟩ awaited }

/-- The moments that a test can come to. -/
inductive Reached (scene : Scene) (o : Options) : Moment → Prop
  | start : Reached scene o .start
  | step {m m' : Moment} (reached : Reached scene o m) (next : Step scene o m m') :
      Reached scene o m'

end Moment

namespace User.Move

variable {scene : Scene} {looked : Prop} {u v : User} {e : UserEvent}

theorem id_eq (h : u.Move scene looked e v) : v.id = u.id := by
  cases h <;> rfl

theorem stopping_eq (h : u.Move scene looked e v) : v.stopping = u.stopping := by
  cases h <;> rfl

/-- A user whose task is over takes no step. -/
theorem verdict_eq_none (h : u.Move scene looked e v) : u.verdict = none := by
  cases h with
  | send idle | finish idle => simp [User.verdict, idle]
  | take busy | crash busy => simp [User.verdict, busy]

end User.Move

namespace Moment

variable {scene : Scene} {o : Options} {m m' : Moment}

theorem Step.numbered (next : Step scene o m m') (h : m.fleet.Numbered) : m'.fleet.Numbered := by
  cases next with
  | move place moves => exact (place ▸ h).fill moves.id_eq
  | spawn control few later => exact h.spawn scene _
  | retire control many later => exact h.retire _
  | settle control enough later => exact h.notePeak _
  | flag control place raised => exact (place ▸ h).fill rfl
  | _ => exact h

theorem Reached.numbered (h : Reached scene o m) : m.fleet.Numbered := by
  induction h with
  | start => exact .empty
  | step _ next ih => exact next.numbered ih

/-- What holds of fresh users, and goes on to hold when a flag is raised or a user moves, holds of
all users. -/
theorem Step.forall_users {P : User → Prop} (next : Step scene o m m')
    (fresh : ∀ now id, P (.spawn scene now id)) (stopped : ∀ u, P u → P u.stop)
    (moved : ∀ u ∈ m.fleet.users, ∀ e v, u.Move scene (u.id ∈ m.looked) e v → P u → P v)
    (h : ∀ u ∈ m.fleet.users, P u) : ∀ u ∈ m'.fleet.users, P u := by
  cases next with
  | @move p u v e place moves =>
    have kept := moved u (place ▸ p.mem_fill u) e v moves
    rw [place] at h
    exact Fleet.Place.forall_users_fill kept h
  | spawn control few later => exact List.forall_mem_cons.mpr ⟨fresh _ _, h⟩
  | retire control many later => exact Fleet.forall_users_retire stopped _ h
  | settle control enough later =>
    rw [Fleet.users_notePeak]
    exact h
  | flag control place =>
    rw [place] at h
    exact Fleet.Place.forall_users_fill (stopped _) h
  | _ => exact h

theorem Step.flagged (next : Step scene o m m') (h : m.control.isFollowing → m.fleet.Flagged) :
    m'.control.isFollowing → m'.fleet.Flagged := by
  intro following
  cases next with
  | look place | wake control | rouse control => exact h (by simp_all [Control.isFollowing])
  | move place moves => exact (place ▸ h following).fill moves.stopping_eq
  | spawn control few later => exact (h following).spawn scene _
  | retire control many later => exact (h following).retire _
  | settle control enough later => exact (h (by simp [control, Control.isFollowing])).notePeak _
  | flag control => simp [control, Control.isFollowing] at following
  | expire | await | join | abort | report => simp [Control.isFollowing] at following

theorem Reached.flagged (h : Reached scene o m) (following : m.control.isFollowing) :
    m.fleet.Flagged := by
  induction h with
  | start => exact .empty
  | step _ next ih => exact next.flagged ih following

end Moment

/-- A verdict that stands for what the user came to; one that was aborted may come to anything. -/
def Awaited.Fits (f : Fleet) (a : Awaited) : Prop :=
  a.verdict = .aborted ∨ a.user ∈ f.users ∧ ∃ time, a.user.verdict = some (time, a.verdict)

namespace Moment

/-- The users that were awaited and those yet to be are all users, in their order, and the verdicts
are true. -/
def Tallied (m : Moment) : Prop :=
  match m.control with
  | .awaiting _ _ queue awaited =>
    awaited.map (fun a => a.user.id) ++ queue = m.fleet.awaited.map User.id ∧
      ∀ a ∈ awaited, a.Fits m.fleet
  | .returned report awaited =>
    awaited.map (fun a => a.user.id) = m.fleet.awaited.map User.id ∧
      (∀ a ∈ awaited, a.Fits m.fleet) ∧ report.stats = merged awaited ∧
      report.abortedUsers = abortedCount awaited
  | _ => True

/-- A user whose task is over stays as it is while another one takes a step. -/
theorem fits_fill {looked : Prop} {p : Fleet.Place} {u v : User} {e : UserEvent} {a : Awaited}
    (moves : u.Move scene looked e v) (h : a.Fits (p.fill u)) : a.Fits (p.fill v) := by
  rcases h with h | ⟨member, time, finished⟩
  · exact .inl h
  · refine .inr ⟨?_, time, finished⟩
    rcases Fleet.Place.mem_users_fill.mp member with rfl | member
    · rw [moves.verdict_eq_none] at finished
      contradiction
    · exact Fleet.Place.mem_users_fill.mpr (.inr member)

theorem Step.tallied (next : Step scene o m m') (h : m.Tallied) : m'.Tallied := by
  cases next with
  | look place => exact h
  | @move p u v e place moves =>
    have ids := p.awaited_ids_fill moves.id_eq
    cases hc : m.control with
    | awaiting =>
      simp only [Tallied, hc, place] at h ⊢
      exact ⟨h.1.trans ids.symm, fun a ha => fits_fill moves (h.2 a ha)⟩
    | returned =>
      simp only [Tallied, hc, place] at h ⊢
      exact ⟨h.1.trans ids.symm, fun a ha => fits_fill moves (h.2.1 a ha), h.2.2⟩
    | _ => simp [Tallied]
  | wake | settle | rouse | expire => trivial
  | spawn control | retire control | flag control => simp [Tallied, control]
  | await control => exact ⟨rfl, by simp⟩
  | join control member done =>
    simp only [Tallied, control] at h ⊢
    refine ⟨by simpa using h.1, ?_⟩
    intro a ha
    rcases List.mem_append.mp ha with ha | ha
    · exact h.2 a ha
    · obtain rfl := List.mem_singleton.mp ha
      exact .inr ⟨member, _, done⟩
  | abort control =>
    simp only [Tallied, control] at h ⊢
    refine ⟨by simpa using h.1, ?_⟩
    intro a ha
    rcases List.mem_append.mp ha with ha | ha
    · exact h.2 a ha
    · obtain rfl := List.mem_singleton.mp ha
      exact .inl rfl
  | report control =>
    simp only [Tallied, control] at h ⊢
    exact ⟨by simpa using h.1, h.2, trivial, trivial⟩

theorem Reached.tallied (h : Reached scene o m) : m.Tallied := by
  induction h with
  | start => trivial
  | step _ next ih => exact next.tallied ih

end Moment

end SearchLoad.Run
