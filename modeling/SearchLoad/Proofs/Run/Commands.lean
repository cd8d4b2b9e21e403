import SearchLoad.Proofs.Run.Record
import SearchLoad.Proofs.Run.VirtualClock
import SearchLoad.Proofs.Sampling.Queries

namespace SearchLoad.Run

variable {scene : Scene} {o : Options}

/-- A user sends what it draws and nothing else. -/
theorem User.Move.query?_eq {looked : Prop} {u v : User} {e : UserEvent} {q : Query}
    (moves : u.Move scene looked e v) (h : e.query? = some q) :
    q = (scene.sampler.sample u.generator).1 := by
  cases moves with
  | send => exact (Option.some.inj h).symm
  | take | crash | finish => contradiction

theorem mem_received {events : List (Nat × UserEvent)} {x : Nat × Command} :
    x ∈ received events ↔ ∃ e ∈ events, ∃ q, e.2.query? = some q ∧ x = (e.1, .search q) := by
  simp only [received, tagged, List.mem_filterMap, Option.map_map, Option.map_eq_some_iff,
    Function.comp_apply, @eq_comm _ _ x]

namespace Moment

variable {m m' : Moment}

/-- Whatever queries were sent were drawn by someone. -/
def SendsDrawn (scene : Scene) (m : Moment) : Prop :=
  ∀ e ∈ m.events, ∀ q, e.2.query? = some q →
    ∃ g : Sampling.Generator, q = (scene.sampler.sample g).1

theorem Step.sendsDrawn (next : Step scene o m m') (h : m.SendsDrawn scene) :
    m'.SendsDrawn scene := by
  cases next with
  | move place moves =>
    refine List.forall_mem_cons.mpr ⟨?_, h⟩
    exact fun q sent => ⟨_, moves.query?_eq sent⟩
  | spawn control few later =>
    refine List.forall_mem_cons.mpr ⟨?_, h⟩
    intro q sent
    contradiction
  | _ => exact h

theorem Reached.sendsDrawn (h : Reached scene o m) : m.SendsDrawn scene := by
  induction h with
  | start => simp [SendsDrawn, Moment.start]
  | step _ next ih => exact next.sendsDrawn ih

theorem Reached.isSearchIn {contents : String} {corpus : Corpus}
    (built : Corpus.ofNdjson contents = .ok corpus)
    (drawn : Sampler.ofCorpus? corpus = some scene.sampler) (h : Reached scene o m) :
    ∀ x ∈ received m.events, x.2.IsSearchIn contents corpus := by
  intro x hx
  obtain ⟨e, he, q, sent, rfl⟩ := mem_received.mp hx
  obtain ⟨g, rfl⟩ := h.sendsDrawn e he q sent
  exact Sampler.sample_isSearchIn built drawn g

end Moment

theorem mem_received_of_searches {events : List (Nat × UserEvent)} {u : User}
    (history : u.events = eventsOf events u.id) {s : Nat × Query} (hs : s ∈ u.searches) :
    (u.id, Command.search s.2) ∈ received events := by
  obtain ⟨⟨time, e⟩, he, found⟩ := List.mem_filterMap.mp hs
  have own : e ∈ eventsOf events u.id := by
    rw [← history]
    exact List.mem_map_of_mem (List.mem_reverse.mp he)
  obtain ⟨⟨i, e⟩, there, rfl⟩ := List.mem_map.mp own
  obtain ⟨there, same⟩ := List.mem_filter.mp there
  obtain rfl : i = u.id := of_decide_eq_true same
  cases e with
  | sent q =>
    obtain rfl : (time, q) = s := Option.some.inj found
    exact mem_received.mpr ⟨_, there, q, rfl, rfl⟩
  | started | returned | stopped | crashed => contradiction

/-- With the corpus of a dataset a test sends nothing but searches for two words of it, under every
schedule and on the virtual clock, and no draw leads out of the corpus. -/
theorem sends_only_searches (contents : String) (corpus : Corpus) (scene : Scene) (o : Options)
    (built : Corpus.ofNdjson contents = .ok corpus)
    (drawn : Sampler.ofCorpus? corpus = some scene.sampler) :
    (∀ m, Moment.Reached scene o m →
      ∀ x ∈ received m.events, x.2.IsSearchIn contents corpus) ∧
    (∀ r, simulate scene o = some r → ∀ u ∈ r.users, ∀ s ∈ u.searches,
      (Command.search s.2).IsSearchIn contents corpus) ∧
    ∀ (σ : Type) [Sampling.WordSource σ] (g : σ),
      corpus.word (Sampling.draw corpus.words.size g).1 = .ok (scene.sampler.word g).1 := by
  refine ⟨fun m h => h.isSearchIn built drawn, ?_, ?_⟩
  · intro r returns u hu s hs
    obtain ⟨m, awaited, h, back, users⟩ := simulate_reached returns
    have history := h.recorded.histories u (users.mem_iff.mp hu)
    exact h.isSearchIn built drawn _ (mem_received_of_searches history hs)
  · intro σ source g
    have inside := scene.sampler.word_of_draw g
    rwa [Sampler.corpus_of_ofCorpus? drawn] at inside

/-- One record, with three words. -/
def briefDataset : String :=
  "\x7b\"link\": \"a\", \"headline\": \"Oil up\", \"short_description\": \"10% today\"\x7d\n"

/-- A test with the brief dataset's corpus can come to send a search, which is one in it. -/
theorem brief_sends_only_searches : ∃ corpus s m, Corpus.ofNdjson briefDataset = .ok corpus ∧
    Sampler.ofCorpus? corpus = some s ∧
    Moment.Reached { briefScene with sampler := s } briefOptions m ∧
    ∃ q, received m.events = [(0, .search q)] ∧
      (Command.search q).IsSearchIn briefDataset corpus := by
  have found : Corpus.records briefDataset = .ok [⟨"a", "Oil up", "10% today"⟩] := by
    decide +kernel
  obtain ⟨corpus, built⟩ : ∃ corpus, Corpus.ofNdjson briefDataset = .ok corpus := by
    rw [Corpus.ofNdjson, found]
    exact ⟨_, rfl⟩
  have member : "Oil" ∈ corpus.words := by
    refine (Corpus.holds_iff_mem built).mpr ⟨_, found, _, List.mem_singleton.mpr rfl, .inl ?_⟩
    refine ⟨[], " up".toList, by decide, by decide, List.all_eq_true.mp (by decide), by simp, ?_⟩
    intro c hc
    obtain rfl : ' ' = c := Option.some.inj hc
    decide
  have size_pos : 0 < corpus.words.size := Array.size_pos_of_mem member
  have drawn : Sampler.ofCorpus? corpus = some ⟨corpus, size_pos⟩ := dif_pos size_pos
  have asked : briefOptions.profile.targetAt 0 = some 2 := by decide +kernel
  have woken : Moment.Reached { briefScene with sampler := ⟨corpus, size_pos⟩ } briefOptions _ :=
    .step .start (.wake rfl (Nat.le_refl 0) asked)
  have spawned := woken.step (.spawn rfl (by decide) (Nat.le_refl 0))
  have looked := spawned.step
    (.look (p := .active [] [] [] 0 [(0, .spawned 0)]) rfl rfl rfl (by simp [Moment.start]))
  have sent := looked.step (.move (p := .active [] [] [] 0 [(0, .spawned 0)]) rfl
    (.send rfl (by simp) (Nat.le_refl 0)))
  have searches := (sends_only_searches briefDataset corpus _ briefOptions built drawn).1 _ sent
  exact ⟨corpus, _, _, built, drawn, sent, _, rfl, searches _ (List.mem_singleton.mpr rfl)⟩

end SearchLoad.Run
