import Mathlib.Order.Bounds.Basic
import SearchLoad.Proofs.Corpus.Composition

namespace SearchLoad.Corpus

section Index

variable {P Q W V : Type} [LinearOrder P] [LinearOrder Q]

/-- A list of words with their places in increasing order, and nothing but what stands there. -/
structure IsIndex (entries : List (P × W)) (words : List W) (stands : W → P → Prop) : Prop where
  words : entries.map Prod.snd = words
  sorted : entries.Pairwise fun (e f : P × W) => e.1 < f.1
  complete : ∀ p w, (p, w) ∈ entries ↔ stands w p

/-- A word is in a list before another one. -/
def Precedes (words : List W) (w v : W) : Prop :=
  ∃ i j : Nat, i < j ∧ words[i]? = some w ∧ words[j]? = some v

namespace IsIndex

variable {entries more : List (P × W)} {words words' : List W} {stands stands' : W → P → Prop}

theorem congr (h : IsIndex entries words stands) (same : ∀ w p, stands w p ↔ stands' w p) :
    IsIndex entries words stands' :=
  ⟨h.words, h.sorted, fun p w => (h.complete p w).trans (same w p)⟩

theorem append (h : IsIndex entries words stands) (h' : IsIndex more words' stands')
    (behind : ∀ w p v q, stands w p → stands' v q → p < q) :
    IsIndex (entries ++ more) (words ++ words') fun w p => stands w p ∨ stands' w p := by
  refine ⟨?_, ?_, ?_⟩
  · rw [List.map_append, h.words, h'.words]
  · refine List.pairwise_append.mpr ⟨h.sorted, h'.sorted, ?_⟩
    rintro ⟨p, w⟩ first ⟨q, v⟩ second
    exact behind w p v q ((h.complete p w).mp first) ((h'.complete q v).mp second)
  · intro p w
    rw [List.mem_append, h.complete, h'.complete]

/-- Other words at other places, in the same order. -/
theorem map (h : IsIndex entries words stands) (f : W → V) (place : P → Q)
    (mono : StrictMono place) :
    IsIndex (entries.map fun e => (place e.1, f e.2)) (words.map f)
      fun v q => ∃ w p, stands w p ∧ f w = v ∧ place p = q := by
  refine ⟨?_, ?_, ?_⟩
  · rw [← h.words, List.map_map, List.map_map, Function.comp_def, Function.comp_def]
  · exact List.pairwise_map.mpr (h.sorted.imp fun before => mono before)
  · intro q v
    simp only [List.mem_map, Prod.mk.injEq, Prod.exists, h.complete]
    constructor
    · rintro ⟨p, w, found, there, same⟩
      exact ⟨w, p, found, same, there⟩
    · rintro ⟨w, p, found, same, there⟩
      exact ⟨p, w, found, there, same⟩

theorem getElem?_iff (h : IsIndex entries words stands) {i : Nat} {w : W} :
    words[i]? = some w ↔ ∃ p, entries[i]? = some (p, w) := by
  rw [← h.words, List.getElem?_map, Option.map_eq_some_iff]
  simp

theorem stands_iff (h : IsIndex entries words stands) {w : W} {p : P} :
    stands w p ↔ ∃ i : Nat, entries[i]? = some (p, w) := by
  rw [← h.complete, List.mem_iff_getElem?]

theorem lt_iff (h : IsIndex entries words stands) {i j : Nat} {e f : P × W}
    (first : entries[i]? = some e) (second : entries[j]? = some f) : i < j ↔ e.1 < f.1 := by
  obtain ⟨within, rfl⟩ := List.getElem?_eq_some_iff.mp first
  obtain ⟨within', rfl⟩ := List.getElem?_eq_some_iff.mp second
  have sorted := List.pairwise_iff_getElem.mp h.sorted
  rcases Nat.lt_trichotomy i j with before | rfl | behind
  · exact iff_of_true before (sorted i j within within' before)
  · exact iff_of_false (Nat.lt_irrefl i) (lt_irrefl _)
  · exact iff_of_false behind.not_gt (sorted j i within' within behind).not_gt

/-- In an index the order of the words is that of their places. -/
theorem precedes_iff (h : IsIndex entries words stands) {w v : W} :
    Precedes words w v ↔ ∃ p q, stands w p ∧ stands v q ∧ p < q := by
  constructor
  · rintro ⟨i, j, before, first, second⟩
    obtain ⟨p, at_i⟩ := h.getElem?_iff.mp first
    obtain ⟨q, at_j⟩ := h.getElem?_iff.mp second
    exact ⟨p, q, h.stands_iff.mpr ⟨i, at_i⟩, h.stands_iff.mpr ⟨j, at_j⟩,
      (h.lt_iff at_i at_j).mp before⟩
  · rintro ⟨p, q, first, second, before⟩
    obtain ⟨i, at_i⟩ := h.stands_iff.mp first
    obtain ⟨j, at_j⟩ := h.stands_iff.mp second
    exact ⟨i, j, (h.lt_iff at_i at_j).mpr before, h.getElem?_iff.mpr ⟨p, at_i⟩,
      h.getElem?_iff.mpr ⟨q, at_j⟩⟩

end IsIndex

end Index

section Distinct

variable {P : Type} [LinearOrder P]

/-- The entries of words that did not stand before. -/
def firsts (entries : List (P × String)) : List (P × String) :=
  entries.filter fun e => ∀ f ∈ entries, f.2 = e.2 → e.1 ≤ f.1

theorem firsts_concat {entries : List (P × String)} {p : P} {w : String}
    (last : ∀ e ∈ entries, e.1 < p) :
    firsts (entries ++ [(p, w)]) =
      if w ∈ entries.map Prod.snd then firsts entries else firsts entries ++ [(p, w)] := by
  have earlier : (entries.filter fun e => ∀ f ∈ entries ++ [(p, w)], f.2 = e.2 → e.1 ≤ f.1) =
      firsts entries := by
    refine List.filter_congr fun e member => ?_
    have le : e.1 ≤ p := (last e member).le
    simp [or_imp, forall_and, le]
  have new : (∀ f ∈ entries ++ [(p, w)], f.2 = w → p ≤ f.1) ↔ w ∉ entries.map Prod.snd := by
    constructor
    · intro least member
      obtain ⟨e, there, rfl⟩ := List.mem_map.mp member
      exact absurd (least e (List.mem_append_left _ there) rfl) (last e there).not_ge
    · intro absent f member same
      rcases List.mem_append.mp member with there | here
      · exact absurd (List.mem_map.mpr ⟨f, there, same⟩) absent
      · rw [List.mem_singleton.mp here]
  rw [firsts, List.filter_append, earlier, List.filter_singleton]
  simp only [new]
  by_cases again : w ∈ entries.map Prod.snd
  · simp [again]
  · simp [again]

theorem map_firsts {entries : List (P × String)} (sorted : entries.Pairwise fun e f => e.1 < f.1) :
    (firsts entries).map Prod.snd = distinct (entries.map Prod.snd) := by
  induction entries using List.reverseRecOn with
  | nil => rfl
  | append_singleton entries e ih =>
    obtain ⟨p, w⟩ := e
    obtain ⟨sorted, -, last⟩ := List.pairwise_append.mp sorted
    rw [firsts_concat fun e member => last e member _ (List.mem_singleton.mpr rfl),
      List.map_append, List.map_singleton, distinct_concat, ← ih sorted]
    split
    · rfl
    · rw [List.map_append, List.map_singleton]

/-- Distinct words are at the places where they stand first. -/
theorem IsIndex.distinct {entries : List (P × String)} {words : List String}
    {stands : String → P → Prop} (h : IsIndex entries words stands) :
    IsIndex (firsts entries) (distinct words) fun w p => IsLeast {q | stands w q} p := by
  refine ⟨?_, h.sorted.filter _, ?_⟩
  · rw [map_firsts h.sorted, h.words]
  · intro p w
    simp only [firsts, List.mem_filter, decide_eq_true_eq, Prod.forall, h.complete]
    constructor
    · rintro ⟨there, least⟩
      exact ⟨there, fun q also => least q w also rfl⟩
    · rintro ⟨there, least⟩
      exact ⟨there, fun q v also same => least (same ▸ also)⟩

end Distinct

end SearchLoad.Corpus
