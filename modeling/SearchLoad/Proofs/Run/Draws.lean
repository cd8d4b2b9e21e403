import SearchLoad.Proofs.Run.Record
import SearchLoad.Proofs.Run.VirtualClock

namespace SearchLoad

open Sampling

namespace Sampler

variable {σ : Type} [WordSource σ]

theorem length_sampleMany (s : Sampler) (n : Nat) (g : σ) : (s.sampleMany n g).1.length = n := by
  induction n generalizing g with
  | zero => rfl
  | succ n ih => exact congrArg (· + 1) (ih (s.sample g).2)

/-- The last draw is made with what the generator has come to before it. -/
theorem sampleMany_succ (s : Sampler) (n : Nat) (g : σ) :
    s.sampleMany (n + 1) g =
      ((s.sampleMany n g).1 ++ [(s.sample (s.sampleMany n g).2).1],
        (s.sample (s.sampleMany n g).2).2) := by
  induction n generalizing g with
  | zero => rfl
  | succ n ih =>
    have unfolded : s.sampleMany (n + 1 + 1) g =
        ((s.sample g).1 :: (s.sampleMany (n + 1) (s.sample g).2).1,
          (s.sampleMany (n + 1) (s.sample g).2).2) := rfl
    rw [unfolded, ih]
    rfl

theorem prefix_sampleMany (s : Sampler) {n m : Nat} (fewer : n ≤ m) (g : σ) :
    (s.sampleMany n g).1 <+: (s.sampleMany m g).1 := by
  induction fewer with
  | refl => exact List.prefix_refl _
  | step _ ih =>
    rw [sampleMany_succ]
    exact ih.trans (List.prefix_append _ _)

end Sampler

namespace Run

variable {scene : Scene} {o : Options}

/-- A user's generator is what is left of its own after the searches that the user sent. Those that
returned are the first of them. -/
structure User.Drawn (scene : Scene) (u : User) : Prop where
  sent : scene.sampler.sampleMany u.sent (scene.generator u.id) =
    ((u.events.filterMap UserEvent.query?).reverse, u.generator)
  returned : u.events.filterMap UserEvent.answer? <:+ u.events.filterMap UserEvent.query?

theorem User.Drawn.spawn (scene : Scene) (now id : Nat) : (User.spawn scene now id).Drawn scene :=
  ⟨rfl, List.suffix_refl _⟩

theorem User.Drawn.stop {u : User} (h : u.Drawn scene) : u.stop.Drawn scene := ⟨h.sent, h.returned⟩

theorem User.Drawn.move {looked : Prop} {u v : User} {e : UserEvent} (h : u.Drawn scene)
    (sound : u.Sound) (moves : u.Move scene looked e v) : v.Drawn scene := by
  obtain ⟨sent, returned⟩ := h
  cases moves with
  | send idle =>
    refine ⟨?_, returned.trans (List.suffix_cons _ _)⟩
    show scene.sampler.sampleMany (u.sent + 1) (scene.generator u.id) = _
    rw [Sampler.sampleMany_succ, sent]
    simp [User.send, User.events, UserEvent.query?]
  | take busy =>
    refine ⟨sent, ?_⟩
    have pending := sound.searching _ _ _ busy
    show _ :: u.events.filterMap UserEvent.answer? <:+ u.events.filterMap UserEvent.query?
    exact pending ▸ List.suffix_refl _
  | crash | finish => exact ⟨sent, returned⟩

namespace Moment

variable {m m' : Moment}

theorem Step.drawn (next : Step scene o m m') (recorded : m.Recorded)
    (h : ∀ u ∈ m.fleet.users, u.Drawn scene) : ∀ u ∈ m'.fleet.users, u.Drawn scene := by
  apply next.forall_users (User.Drawn.spawn scene) (fun u hu => hu.stop) ?_ h
  intro u hu e v moves drawn
  exact drawn.move (recorded.sound u hu) moves

theorem Reached.drawn (h : Reached scene o m) : ∀ u ∈ m.fleet.users, u.Drawn scene := by
  induction h with
  | start => simp [Moment.start, Fleet.empty, Fleet.users]
  | step reached next ih => exact next.drawn reached.recorded ih

end Moment

/-- The commands that the target received from a user, in order. -/
def sentBy (events : List (Nat × UserEvent)) (user : Nat) : List Command :=
  (((received events).filter fun x => x.1 = user).map Prod.snd).reverse

/-- The searches that returned to a user, in order. -/
def answersTo (events : List (Nat × UserEvent)) (user : Nat) : List Command :=
  (((returned events).filter fun x => x.1 = user).map fun x => Command.search x.2).reverse

theorem sentBy_eq (events : List (Nat × UserEvent)) (user : Nat) :
    sentBy events user =
      (((eventsOf events user).filterMap UserEvent.query?).map Command.search).reverse := by
  rw [sentBy, received, tagged_of_user, List.map_filterMap]

theorem answersTo_eq (events : List (Nat × UserEvent)) (user : Nat) :
    answersTo events user =
      (((eventsOf events user).filterMap UserEvent.answer?).map Command.search).reverse := by
  rw [answersTo, returned, ← tagged_of_user, List.map_map]
  rfl

/-- The first commands that a user sends in a test with a seed: its generator is seeded with the sum
of the seed and its number, in 64 bits. -/
def drawnBy (sampler : Sampler) (seed : UInt64) (user n : Nat) : List Command :=
  let generator := Generator.ofSeed (UInt64.ofNat ((seed.toNat + user) % 2 ^ 64))
  (sampler.sampleMany n generator).1.map Command.search

theorem prefix_drawnBy (sampler : Sampler) (seed : UInt64) (user : Nat) {n m : Nat} (h : n ≤ m) :
    drawnBy sampler seed user n <+: drawnBy sampler seed user m :=
  (sampler.prefix_sampleMany h _).map _

@[simp] theorem length_drawnBy (sampler : Sampler) (seed : UInt64) (user n : Nat) :
    (drawnBy sampler seed user n).length = n := by
  rw [drawnBy, List.length_map, Sampler.length_sampleMany]

/-- A test that draws from the sampler by the seed. All else is free. -/
structure Seeded (sampler : Sampler) (seed : UInt64) (scene : Scene) (o : Options) : Prop where
  sampler : scene.sampler = sampler
  seed : o.seed = some seed
  generator : ∃ fresh, scene.generator = o.generator fresh

theorem Seeded.generator_eq {sampler : Sampler} {seed : UInt64} (h : Seeded sampler seed scene o)
    (user : Nat) :
    scene.generator user = .ofSeed (UInt64.ofNat ((seed.toNat + user) % 2 ^ 64)) := by
  obtain ⟨fresh, own⟩ := h.generator
  have sum : seed + user.toUInt64 = UInt64.ofNat ((seed.toNat + user) % 2 ^ 64) := by
    refine UInt64.toNat_inj.mp ?_
    simp
  rw [own, Options.generator, h.seed]
  exact congrArg Generator.ofSeed sum

namespace Moment

variable {m : Moment} {sampler : Sampler} {seed : UInt64}

/-- Who has a number is a user, and who has none yet did nothing. -/
theorem Reached.sentBy_eq (seeded : Seeded sampler seed scene o) (h : Reached scene o m)
    (user : Nat) :
    sentBy m.events user = drawnBy sampler seed user (sentBy m.events user).length ∧
      answersTo m.events user <+: sentBy m.events user := by
  rw [answersTo_eq, Run.sentBy_eq]
  rcases Nat.lt_or_ge user m.fleet.spawned with known | unknown
  · obtain ⟨u, member, rfl⟩ :=
      List.mem_map.mp (h.numbered.ids.mem_iff.mpr (List.mem_range.mpr known))
    obtain ⟨sent, returned⟩ := h.drawn u member
    rw [h.recorded.histories u member] at sent returned
    refine ⟨?_, List.reverse_prefix.mpr (returned.map _)⟩
    rw [seeded.sampler, seeded.generator_eq] at sent
    have drawn : drawnBy sampler seed u.id u.sent =
        (((eventsOf m.events u.id).filterMap UserEvent.query?).map Command.search).reverse := by
      rw [drawnBy, sent, List.map_reverse]
    rw [← drawn, length_drawnBy]
  · rw [h.recorded.eventsOf_eq_nil unknown]
    exact ⟨rfl, List.prefix_refl _⟩

/-- Two sequences of first draws are one the beginning of the other. -/
theorem Reached.prefix_sentBy {scene' : Scene} {o' : Options} {m' : Moment}
    (seeded : Seeded sampler seed scene o) (seeded' : Seeded sampler seed scene' o')
    (h : Reached scene o m) (h' : Reached scene' o' m') (user : Nat) :
    sentBy m.events user <+: sentBy m'.events user ∨
      sentBy m'.events user <+: sentBy m.events user := by
  rw [(h.sentBy_eq seeded user).1, (h'.sentBy_eq seeded' user).1]
  rcases Nat.le_total (sentBy m.events user).length (sentBy m'.events user).length with le | le
  · exact .inl (prefix_drawnBy sampler seed user le)
  · exact .inr (prefix_drawnBy sampler seed user le)

end Moment

/-- What a user's history says of its searches is what the record says. -/
theorem searches_eq_sentBy {events : List (Nat × UserEvent)} {u : User}
    (history : u.events = eventsOf events u.id) :
    u.searches.map (fun s => Command.search s.2) = sentBy events u.id := by
  rw [sentBy_eq, ← history, User.searches, User.events]
  simp only [List.map_filterMap, List.filterMap_map, List.filterMap_reverse, List.map_reverse]
  refine congrArg List.reverse (List.filterMap_congr ?_)
  rintro ⟨time, e⟩ -
  cases e <;> rfl

/-- With a seed, what a user sends are the first draws of its own generator, and what returns to it
the first of these, under every schedule and on the virtual clock. So in two tests with the same
corpus and seed, whatever else they have in common, what a user sends in one is the beginning of
what it sends in the other. -/
theorem users_send_their_draws (sampler : Sampler) (seed : UInt64) (scene : Scene) (o : Options)
    (seeded : Seeded sampler seed scene o) :
    (∀ m, Moment.Reached scene o m → ∀ user,
      sentBy m.events user = drawnBy sampler seed user (sentBy m.events user).length ∧
      answersTo m.events user <+: sentBy m.events user) ∧
    (∀ r, simulate scene o = some r → ∀ u ∈ r.users,
      u.searches.map (fun s => Command.search s.2) =
        drawnBy sampler seed u.id u.searches.length) ∧
    ∀ scene' o', Seeded sampler seed scene' o' → ∀ m m', Moment.Reached scene o m →
      Moment.Reached scene' o' m' → ∀ user,
      sentBy m.events user <+: sentBy m'.events user ∨
        sentBy m'.events user <+: sentBy m.events user := by
  refine ⟨fun m h user => h.sentBy_eq seeded user, ?_, ?_⟩
  · intro r returns u hu
    obtain ⟨m, awaited, h, back, users⟩ := simulate_reached returns
    have history := h.recorded.histories u (users.mem_iff.mp hu)
    have drawn := (h.sentBy_eq seeded u.id).1
    rw [← searches_eq_sentBy history, List.length_map] at drawn
    exact drawn
  · exact fun scene' o' seeded' m m' h h' user => h.prefix_sentBy seeded seeded' h' user

/-- Whatever it draws from and sends to, the brief test can come to send a search. -/
theorem exists_brief_search (scene : Scene) :
    ∃ m, Moment.Reached scene briefOptions m ∧ (sentBy m.events 0).length = 1 := by
  have asked : briefOptions.profile.targetAt 0 = some 2 := by decide +kernel
  have woken : Moment.Reached scene briefOptions _ := .step .start (.wake rfl (Nat.le_refl 0) asked)
  have spawned := woken.step (.spawn rfl (by decide) (Nat.le_refl 0))
  have looked := spawned.step
    (.look (p := .active [] [] [] 0 [(0, .spawned 0)]) rfl rfl rfl (by simp [Moment.start]))
  have sent := looked.step (.move (p := .active [] [] [] 0 [(0, .spawned 0)]) rfl
    (.send rfl (by simp) (Nat.le_refl 0)))
  exact ⟨_, sent, rfl⟩

/-- The first search of the brief test is the first draw, whether or not any search returns. -/
theorem brief_users_send_their_draws :
    (∃ m m', Moment.Reached briefScene briefOptions m ∧ Moment.Reached mutedScene briefOptions m' ∧
      sentBy m.events 0 = drawnBy briefScene.sampler 0 0 1 ∧ (sentBy m'.events 0).length = 1 ∧
      (sentBy m.events 0 <+: sentBy m'.events 0 ∨ sentBy m'.events 0 <+: sentBy m.events 0)) ∧
    ∃ r, simulate briefScene briefOptions = some r ∧ r.report.peakUsers = 2 ∧
      ∀ u ∈ r.users, u.searches.map (fun s => Command.search s.2) =
        drawnBy briefScene.sampler 0 u.id u.searches.length := by
  have own : briefScene.generator = briefOptions.generator fun _ => .ofSeed 0 := by
    funext user
    exact congrArg Generator.ofSeed (UInt64.zero_add _).symm
  have seeded : Seeded briefScene.sampler 0 briefScene briefOptions := ⟨rfl, rfl, _, own⟩
  have muted : Seeded briefScene.sampler 0 mutedScene briefOptions := ⟨rfl, rfl, _, own⟩
  have peak : (simulate briefScene briefOptions).map (fun r => r.report.peakUsers) = some 2 := by
    decide +kernel
  obtain ⟨r, returns, peak⟩ := Option.map_eq_some_iff.mp peak
  obtain ⟨m, h, one⟩ := exists_brief_search briefScene
  obtain ⟨m', h', one'⟩ := exists_brief_search mutedScene
  obtain ⟨sends, drawn, alike⟩ := users_send_their_draws _ 0 briefScene briefOptions seeded
  have first := (sends m h 0).1
  rw [one] at first
  exact ⟨⟨m, m', h, h', first, one', alike mutedScene briefOptions muted m m' h h' 0⟩,
    r, returns, peak, drawn r returns⟩

end Run

end SearchLoad
