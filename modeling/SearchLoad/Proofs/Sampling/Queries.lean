import SearchLoad.Proofs.Corpus.Words
import SearchLoad.Sampling.Sampler

namespace SearchLoad

open Sampling

theorem Query.words_ofWords {first second : String} (left : ' ' ∉ first.toList)
    (right : ' ' ∉ second.toList) : (Query.ofWords first second).words = [first, second] := by
  have space : " ".toList = [' '] := rfl
  have chars : (Query.ofWords first second).text.toList =
      first.toList ++ ' ' :: second.toList := by
    rw [Query.ofWords, String.toList_append, String.toList_append, space, List.append_assoc,
      List.singleton_append]
  rw [Query.words, chars, List.splitOn_append_cons_self_of_not_mem left,
    List.splitOn_eq_singleton right]
  simp

theorem Corpus.IsLetterRun.space_not_mem {text word : String} (h : IsLetterRun text word) :
    ' ' ∉ word.toList := by
  obtain ⟨before, after, split, full, letters, left, right⟩ := h
  intro space
  exact absurd (letters ' ' space) (by decide)

theorem Corpus.Holds.space_not_mem {contents word : String} (h : Holds contents word) :
    ' ' ∉ word.toList := by
  obtain ⟨rs, found, r, hr, run | run⟩ := h
  · exact run.space_not_mem
  · exact run.space_not_mem

namespace Sampler

variable {σ : Type} [WordSource σ]

/-- The index that is drawn is one of the corpus, and the word is the one that it has. -/
theorem word_of_draw (s : Sampler) (g : σ) :
    s.corpus.word (draw s.corpus.words.size g).1 = .ok (s.word g).1 := by
  have inside := draw_lt s.size_pos g
  simp [Corpus.word, Corpus.get?, word, inside]

theorem word_mem (s : Sampler) (g : σ) : (s.word g).1 ∈ s.corpus.words :=
  Array.getElem_mem (draw_lt s.size_pos g)

theorem sample_eq (s : Sampler) (g : σ) :
    ∃ first ∈ s.corpus.words, ∃ second ∈ s.corpus.words,
      (s.sample g).1 = Query.ofWords first second :=
  ⟨_, s.word_mem g, _, s.word_mem (s.word g).2, rfl⟩

theorem corpus_of_ofCorpus? {corpus : Corpus} {s : Sampler} (h : ofCorpus? corpus = some s) :
    s.corpus = corpus := by
  unfold ofCorpus? at h
  split at h
  · cases h
    rfl
  · contradiction

end Sampler

/-- A search for two words of a dataset's corpus, for any first twenty results. -/
def Command.IsSearchIn (contents : String) (corpus : Corpus) (c : Command) : Prop :=
  ∃ q : Query, ∃ first ∈ corpus.words, ∃ second ∈ corpus.words,
    c.args = ["FT.SEARCH", "idx", q.text, "LIMIT", "0", "20"] ∧
    q.text = first ++ " " ++ second ∧ q.words = [first, second] ∧
    Corpus.Holds contents first ∧ Corpus.Holds contents second

/-- A query that is sampled from the corpus of a dataset makes a search for two of its words. -/
theorem Sampler.sample_isSearchIn {σ : Type} [WordSource σ] {contents : String} {corpus : Corpus}
    {s : Sampler} (built : Corpus.ofNdjson contents = .ok corpus)
    (from_corpus : ofCorpus? corpus = some s) (g : σ) :
    (Command.search (s.sample g).1).IsSearchIn contents corpus := by
  obtain ⟨first, hf, second, hs, sampled⟩ := s.sample_eq g
  rw [corpus_of_ofCorpus? from_corpus] at hf hs
  have first_held := (Corpus.holds_iff_mem built).mp hf
  have second_held := (Corpus.holds_iff_mem built).mp hs
  rw [sampled]
  refine ⟨Query.ofWords first second, first, hf, second, hs, rfl, rfl, ?_, first_held,
    second_held⟩
  exact Query.words_ofWords first_held.space_not_mem second_held.space_not_mem

end SearchLoad
