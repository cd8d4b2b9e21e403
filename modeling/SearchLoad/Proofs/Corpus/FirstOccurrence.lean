import Mathlib.Data.List.TakeWhile
import Mathlib.Data.Prod.Lex
import SearchLoad.Proofs.Corpus.Index

namespace SearchLoad.Corpus

/-- A run of letters stands in a text behind so many characters, with no letter before or behind
it. -/
def RunAt (s run : List Char) (k : Nat) : Prop :=
  ∃ before after, s = before ++ (run ++ after) ∧ before.length = k ∧ run ≠ [] ∧
    (∀ c ∈ run, isLetter c = true) ∧ (∀ c ∈ before.getLast?, isLetter c = false) ∧
    ∀ c ∈ after.head?, isLetter c = false

section Runs

variable {s t run : List Char} {c : Char} {k : Nat}

theorem RunAt.lt_length (h : RunAt s run k) : k < s.length := by
  obtain ⟨before, after, rfl, rfl, full, -⟩ := h
  have := List.length_pos_iff.mpr full
  simp only [List.length_append]
  omega

theorem runAt_of_letters (full : s ≠ []) (letters : ∀ c ∈ s, isLetter c = true) :
    RunAt s run k ↔ run = s ∧ k = 0 := by
  constructor
  · rintro ⟨before, after, rfl, rfl, -, -, left, right⟩
    have first : before = [] := by
      by_contra nonempty
      have letter := letters (before.getLast nonempty) (by simp)
      simp [left _ (List.getLast?_eq_some_getLast nonempty)] at letter
    have last : after = [] := by
      cases after with
      | nil => rfl
      | cons d after =>
        have letter := letters d (by simp)
        simp [right d rfl] at letter
    simp [first, last]
  · rintro ⟨rfl, rfl⟩
    exact ⟨[], [], by simp, rfl, full, letters, by simp, by simp⟩

theorem RunAt.before (h : RunAt s run k) (hc : isLetter c = false) (t : List Char) :
    RunAt (s ++ c :: t) run k := by
  obtain ⟨before, after, rfl, rfl, full, letters, left, right⟩ := h
  refine ⟨before, after ++ c :: t, by simp, rfl, full, letters, left, ?_⟩
  cases after with
  | nil => simpa using hc
  | cons d after => simpa using right

theorem RunAt.behind (h : RunAt t run k) (hc : isLetter c = false) (s : List Char) :
    RunAt (s ++ c :: t) run (s.length + 1 + k) := by
  obtain ⟨before, after, rfl, rfl, full, letters, left, right⟩ := h
  refine ⟨s ++ c :: before, after, by simp, ?_, full, letters, ?_, right⟩
  · simp only [List.length_append, List.length_cons]
    omega
  · rw [List.getLast?_append_of_ne_nil _ (by simp), List.getLast?_cons]
    cases last : before.getLast? with
    | none => simpa using hc
    | some d => simpa using left d last

/-- No run reaches across what is no letter. -/
theorem runAt_append_cons (hc : isLetter c = false) :
    RunAt (s ++ c :: t) run k ↔
      RunAt s run k ∨ ∃ j, RunAt t run j ∧ s.length + 1 + j = k := by
  constructor
  · rintro ⟨before, after, split, rfl, full, letters, left, right⟩
    have apart : c ∉ run := fun inside => by simp [letters c inside] at hc
    rcases List.append_eq_append_iff.mp split with ⟨lead, rfl, rest⟩ | ⟨lead, rfl, rest⟩
    · -- The run begins behind the first text: not at the separator, so behind it.
      cases lead with
      | nil =>
        obtain ⟨d, ds, rfl⟩ := List.exists_cons_of_ne_nil full
        obtain ⟨rfl, -⟩ := List.cons.inj rest
        simp at apart
      | cons d lead =>
        obtain ⟨rfl, rfl⟩ := List.cons.inj rest
        refine .inr ⟨lead.length, ⟨lead, after, rfl, rfl, full, letters, ?_, right⟩, ?_⟩
        · intro d last
          refine left d ?_
          rw [List.getLast?_append_of_ne_nil _ (by simp), List.getLast?_cons]
          simp [Option.mem_def.mp last]
        · simp only [List.length_append, List.length_cons]
          omega
    · -- It begins in the first text, so it ends there.
      rcases List.append_eq_append_iff.mp rest with ⟨tail, rfl, rfl⟩ | ⟨tail, rfl, behind⟩
      · refine .inl ⟨before, tail, rfl, rfl, full, letters, left, ?_⟩
        intro d first
        refine right d ?_
        rw [List.head?_append, Option.mem_def.mp first]
        rfl
      · cases tail with
        | nil =>
          refine .inl ⟨before, [], by simp, rfl, full, letters, left, by simp⟩
        | cons d tail =>
          obtain ⟨rfl, -⟩ := List.cons.inj behind
          simp at apart
  · rintro (first | ⟨j, second, rfl⟩)
    · exact first.before hc t
    · exact second.behind hc s

/-- The runs of letters of a text have an index. -/
theorem exists_index_letterRuns (s : List Char) :
    ∃ entries : List (Nat × List Char), IsIndex entries (letterRuns s) (RunAt s) := by
  -- What is behind the first separator is shorter, and no separator is before it.
  induction length : s.length using Nat.strong_induction_on generalizing s with
  | _ n ih =>
    subst length
    have front : ∀ c ∈ s.takeWhile isLetter, isLetter c = true :=
      fun c member => List.mem_takeWhile_imp member
    have parts : s.takeWhile isLetter ++ s.dropWhile isLetter = s :=
      List.takeWhile_append_dropWhile
    have stop := List.head?_dropWhile_not isLetter s
    generalize s.takeWhile isLetter = run at *
    have single : ∃ entries : List (Nat × List Char),
        IsIndex entries (letterRuns run) (RunAt run) := by
      by_cases empty : run = []
      · subst empty
        refine ⟨[], rfl, .nil, fun p w => iff_of_false List.not_mem_nil ?_⟩
        exact fun found => absurd found.lt_length (Nat.not_lt_zero p)
      · have whole := (letterRuns_of_letters empty front).symm
        refine ⟨[(0, run)], whole, List.pairwise_singleton _ _, ?_⟩
        intro p w
        rw [runAt_of_letters empty front, List.mem_singleton, Prod.mk.injEq, and_comm]
    cases rest : s.dropWhile isLetter with
    | nil =>
      rw [rest, List.append_nil] at parts
      rwa [← parts]
    | cons c t =>
      rw [rest] at parts stop
      obtain ⟨entries, first⟩ := single
      obtain ⟨more, second⟩ := ih t.length (by simp [← parts]; omega) t rfl
      have hc : isLetter c = false := by simpa using stop
      have shifted := second.map id (fun j => run.length + 1 + j)
        fun i j before => Nat.add_lt_add_left before _
      rw [← parts, letterRuns_append_cons hc]
      refine ⟨_, (first.append (by simpa using shifted) ?_).congr ?_⟩
      · rintro w p v q found ⟨j, -, rfl⟩
        have := found.lt_length
        omega
      · intro w p
        rw [runAt_append_cons hc]

end Runs

/-- A place in texts: the number of the text, and that of the characters before it in the text. -/
abbrev Place := Nat ×ₗ Nat

/-- A word stands at a place as a run of letters, with no letter before or behind it. -/
def StandsAt (texts : List String) (word : String) (p : Place) : Prop :=
  ∃ text, texts[(ofLex p).1]? = some text ∧ RunAt text.toList word.toList (ofLex p).2

/-- The first place where a word stands: in the first text that has it, as far ahead as it is. -/
def IsFirst (texts : List String) (word : String) (p : Place) : Prop :=
  IsLeast {q | StandsAt texts word q} p

theorem standsAt_concat {texts : List String} {text word : String} {p : Place} :
    StandsAt (texts ++ [text]) word p ↔ StandsAt texts word p ∨
      ∃ run k, RunAt text.toList run k ∧ String.ofList run = word ∧
        toLex (texts.length, k) = p := by
  obtain ⟨⟨i, k⟩, rfl⟩ := toLex.surjective p
  constructor
  · rintro ⟨found, there, run⟩
    obtain ⟨within, -⟩ := List.getElem?_eq_some_iff.mp there
    rcases Nat.lt_succ_iff_lt_or_eq.mp (List.length_append ▸ within) with before | last
    · rw [List.getElem?_append_left before] at there
      exact .inl ⟨found, there, run⟩
    · simp only [ofLex_toLex] at there run last
      subst last
      rw [List.getElem?_concat_length, Option.some.injEq] at there
      subst there
      exact .inr ⟨word.toList, k, run, String.ofList_toList, rfl⟩
  · rintro (⟨found, there, run⟩ | ⟨run, j, there, rfl, same⟩)
    · obtain ⟨before, -⟩ := List.getElem?_eq_some_iff.mp there
      exact ⟨found, by rwa [List.getElem?_append_left before], run⟩
    · obtain ⟨rfl, rfl⟩ := Prod.mk.inj (toLex.injective same)
      refine ⟨text, List.getElem?_concat_length, ?_⟩
      rwa [String.toList_ofList]

/-- The words of texts have an index. -/
theorem exists_index_tokens (texts : List String) :
    ∃ entries : List (Place × String), IsIndex entries (tokens texts) (StandsAt texts) := by
  induction texts using List.reverseRecOn with
  | nil =>
    refine ⟨[], rfl, .nil, fun p w => iff_of_false List.not_mem_nil ?_⟩
    rintro ⟨text, found, -⟩
    simp at found
  | append_singleton texts text ih =>
    obtain ⟨entries, index⟩ := ih
    obtain ⟨more, runs⟩ := exists_index_letterRuns text.toList
    have placed := runs.map String.ofList (fun k => (toLex (texts.length, k) : Place))
      fun i j before => Prod.Lex.toLex_lt_toLex.mpr (.inr ⟨rfl, before⟩)
    have words : tokens (texts ++ [text]) =
        tokens texts ++ (letterRuns text.toList).map String.ofList := by
      rw [tokens, List.flatMap_append, List.flatMap_singleton]
      rfl
    rw [words]
    refine ⟨_, (index.append placed ?_).congr fun w p => standsAt_concat.symm⟩
    rintro w p v q ⟨found, there, -⟩ ⟨run, k, -, -, rfl⟩
    exact Prod.Lex.lt_iff.mpr (.inl (List.getElem?_eq_some_iff.mp there).1)

/-- The words of a corpus of texts are distinct, they are the runs of letters that stand in some
text, and one word is before another one if and only if the first place where it stands is before
that of the other. -/
theorem words_in_order_of_first_runs (texts : List String) :
    (ofTexts texts).words.toList.Nodup ∧
    (∀ word, word ∈ (ofTexts texts).words ↔ ∃ text ∈ texts, IsLetterRun text word) ∧
    ∀ word other, Precedes (ofTexts texts).words.toList word other ↔
      ∃ p q, IsFirst texts word p ∧ IsFirst texts other q ∧ p < q := by
  refine ⟨nodup_words_ofTexts texts, ?_, ?_⟩
  · intro word
    simp only [ofTexts, List.mem_toArray, mem_distinct, tokens, List.mem_flatMap, mem_wordsOf_iff]
  · intro word other
    obtain ⟨entries, index⟩ := exists_index_tokens texts
    exact index.distinct.precedes_iff

end SearchLoad.Corpus
