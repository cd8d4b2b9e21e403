import SearchLoad.Command
import SearchLoad.Corpus.Basic
import SearchLoad.Sampling.Draw

namespace SearchLoad

structure Sampler where
  corpus : Corpus
  size_pos : 0 < corpus.words.size

namespace Sampler

def emptyMessage : String := "The corpus is empty, there is nothing to sample queries from"

def ofCorpus? (corpus : Corpus) : Option Sampler :=
  if h : 0 < corpus.words.size then some ⟨corpus, h⟩ else none

def word {σ : Type} [Sampling.WordSource σ] (s : Sampler) (g : σ) : String × σ :=
  let drawn := Sampling.draw s.corpus.words.size g
  have := Sampling.draw_lt s.size_pos g
  (s.corpus.words[drawn.1], drawn.2)

/-- Draws a query: the first word, then the second. -/
def sample {σ : Type} [Sampling.WordSource σ] (s : Sampler) (g : σ) : Query × σ :=
  let (first, g) := s.word g
  let (second, g) := s.word g
  (.ofWords first second, g)

def sampleMany {σ : Type} [Sampling.WordSource σ] (s : Sampler) : Nat → σ → List Query × σ
  | 0, g => ([], g)
  | n + 1, g =>
    let (q, g) := s.sample g
    let (qs, g) := s.sampleMany n g
    (q :: qs, g)

end Sampler

end SearchLoad
