import Mathlib.Data.List.Nodup
import SearchLoad.Corpus.Dataset

namespace SearchLoad.Corpus

/-- A word that stands in a text as a run of letters, with no letter before or behind it. -/
def IsLetterRun (text word : String) : Prop :=
  ∃ before after : List Char, text.toList = before ++ (word.toList ++ after) ∧
    word.toList ≠ [] ∧ (∀ c ∈ word.toList, isLetter c = true) ∧
    (∀ c ∈ before.getLast?, isLetter c = false) ∧ ∀ c ∈ after.head?, isLetter c = false

theorem letterRuns_append_cons {c : Char} (hc : isLetter c = false) (s t : List Char) :
    letterRuns (s ++ c :: t) = letterRuns s ++ letterRuns t := by
  have separator : (!isLetter c) = true := by simp [hc]
  rw [letterRuns, List.splitOnP_append_cons s t separator, List.filter_append]
  rfl

theorem letterRuns_of_letters {s : List Char} (full : s ≠ [])
    (letters : ∀ c ∈ s, isLetter c = true) : letterRuns s = [s] := by
  have whole : s.splitOnP (fun c => !isLetter c) = [s] :=
    List.splitOnP_eq_singleton fun c hc => by simp [letters c hc]
  rw [letterRuns, whole]
  simp [full]

/-- Where a piece that letters were split into stands. -/
theorem mem_splitOnP_append {s piece : List Char} (run : List Char)
    (letters : ∀ c ∈ run, isLetter c = true)
    (h : piece ∈ (run ++ s).splitOnP fun c => !isLetter c) :
    ∃ before after, run ++ s = before ++ (piece ++ after) ∧ (∀ c ∈ piece, isLetter c = true) ∧
      (∀ c ∈ before.getLast?, isLetter c = false) ∧ ∀ c ∈ after.head?, isLetter c = false := by
  -- The run is what was read since the last separator.
  induction s generalizing run with
  | nil =>
    rw [List.append_nil] at h ⊢
    have whole : run.splitOnP (fun c => !isLetter c) = [run] :=
      List.splitOnP_eq_singleton fun c hc => by simp [letters c hc]
    rw [whole, List.mem_singleton] at h
    subst h
    exact ⟨[], [], by simp, letters, by simp, by simp⟩
  | cons c s ih =>
    cases hc : isLetter c with
    | true =>
      have longer : run ++ c :: s = run ++ [c] ++ s := by simp
      rw [longer] at h ⊢
      refine ih (run ++ [c]) ?_ h
      intro d hd
      rcases List.mem_append.mp hd with hd | hd
      · exact letters d hd
      · obtain rfl := List.mem_singleton.mp hd
        exact hc
    | false =>
      have separated : (run ++ c :: s).splitOnP (fun c => !isLetter c) =
          run :: s.splitOnP (fun c => !isLetter c) := by
        apply List.splitOnP_append_cons_of_forall_mem
        · intro d hd
          simp [letters d hd]
        · simp [hc]
      rw [separated] at h
      rcases List.mem_cons.mp h with rfl | h
      · exact ⟨[], c :: s, by simp, letters, by simp, by simpa using hc⟩
      · obtain ⟨before, after, split, inside, left, right⟩ := ih [] (by simp) h
        rw [List.nil_append] at split
        refine ⟨run ++ c :: before, after, by simp [split], inside, ?_, right⟩
        intro d hd
        cases before with
        | nil =>
          simp only [List.getLast?_append, List.getLast?_singleton, Option.some_or,
            Option.mem_def, Option.some.injEq] at hd
          exact hd ▸ hc
        | cons b bs => exact left d (by simpa using hd)

/-- The words of a text are its longest runs of letters. -/
theorem mem_wordsOf_iff {text word : String} :
    word ∈ wordsOf text ↔ IsLetterRun text word := by
  constructor
  · intro h
    obtain ⟨run, found, rfl⟩ := List.mem_map.mp h
    obtain ⟨piece, full⟩ := List.mem_filter.mp found
    obtain ⟨before, after, split, inside, left, right⟩ :=
      mem_splitOnP_append [] (by simp) piece
    refine ⟨before, after, ?_, ?_, ?_, left, right⟩
    · rw [String.toList_ofList]
      exact split
    · simpa using full
    · simpa using inside
  · rintro ⟨before, after, split, full, inside, left, right⟩
    have behind : word.toList ∈ letterRuns (word.toList ++ after) := by
      cases after with
      | nil => simp [letterRuns_of_letters full inside]
      | cons c after =>
        rw [letterRuns_append_cons (right c (by simp)), letterRuns_of_letters full inside]
        exact List.mem_append_left _ (List.mem_singleton.mpr rfl)
    have found : word.toList ∈ letterRuns text.toList := by
      rw [split]
      rcases List.eq_nil_or_concat before with rfl | ⟨before, c, rfl⟩
      · exact behind
      · rw [List.concat_eq_append, List.append_assoc, List.singleton_append,
          letterRuns_append_cons (left c (by simp))]
        exact List.mem_append_right _ behind
    exact List.mem_map.mpr ⟨word.toList, found, String.ofList_toList⟩

/-- No word reaches across anything that is no letter. -/
theorem wordsOf_append_separator {c : Char} (separator : isLetter c = false) (a b : String) :
    wordsOf (a ++ String.singleton c ++ b) = wordsOf a ++ wordsOf b := by
  have chars : (a ++ String.singleton c ++ b).toList = a.toList ++ c :: b.toList := by simp
  rw [wordsOf, chars, letterRuns_append_cons separator, List.map_append]
  rfl

theorem wordsOf_text (r : Record) :
    wordsOf r.text = wordsOf r.headline ++ wordsOf r.shortDescription := by
  have space : isLetter ' ' = false := by decide
  exact wordsOf_append_separator space r.headline r.shortDescription

theorem mem_wordsOf_text_iff {r : Record} {word : String} :
    word ∈ wordsOf r.text ↔
      IsLetterRun r.headline word ∨ IsLetterRun r.shortDescription word := by
  rw [wordsOf_text, List.mem_append, mem_wordsOf_iff, mem_wordsOf_iff]

/-- The set holds what was kept. -/
def Seen.Agrees (seen : Seen) : Prop := ∀ w, w ∈ seen.index ↔ w ∈ seen.kept

theorem Seen.Agrees.add {seen : Seen} (h : seen.Agrees) (word : String) :
    (seen.add word).Agrees := by
  intro w
  unfold Seen.add
  split
  · exact h w
  · rw [Std.HashSet.mem_insert, beq_iff_eq, List.mem_cons, h w, eq_comm]

theorem Seen.mem_kept_add {seen : Seen} (h : seen.Agrees) {word w : String} :
    w ∈ (seen.add word).kept ↔ w ∈ seen.kept ∨ w = word := by
  unfold Seen.add
  split
  · rename_i present
    have kept : word ∈ seen.kept := (h word).mp (Std.HashSet.contains_iff_mem.mp present)
    constructor
    · exact .inl
    · rintro (there | rfl)
      · exact there
      · exact kept
  · rw [List.mem_cons, or_comm]

theorem Seen.nodup_add {seen : Seen} (h : seen.Agrees) (distinct : seen.kept.Nodup)
    (word : String) : (seen.add word).kept.Nodup := by
  unfold Seen.add
  split
  · exact distinct
  · rename_i absent
    refine List.nodup_cons.mpr ⟨?_, distinct⟩
    rwa [← h word, ← Std.HashSet.contains_iff_mem]

theorem Seen.foldl_add {seen : Seen} (h : seen.Agrees) (distinct : seen.kept.Nodup)
    (words : List String) :
    (words.foldl Seen.add seen).kept.Nodup ∧
      ∀ w, w ∈ (words.foldl Seen.add seen).kept ↔ w ∈ seen.kept ∨ w ∈ words := by
  induction words generalizing seen with
  | nil => exact ⟨distinct, by simp⟩
  | cons word words ih =>
    obtain ⟨nodup, members⟩ := ih (h.add word) (Seen.nodup_add h distinct word)
    refine ⟨nodup, ?_⟩
    intro w
    rw [List.foldl_cons, members, Seen.mem_kept_add h, List.mem_cons, or_assoc]

theorem empty_agrees : Seen.Agrees ⟨[], ∅⟩ := by simp [Seen.Agrees]

theorem nodup_distinct (words : List String) : (distinct words).Nodup := by
  rw [distinct, List.nodup_reverse]
  exact (Seen.foldl_add empty_agrees .nil words).1

theorem mem_distinct {words : List String} {word : String} :
    word ∈ distinct words ↔ word ∈ words := by
  rw [distinct, List.mem_reverse, (Seen.foldl_add empty_agrees .nil words).2 word]
  simp

/-- The words of records are the runs of letters in what they are headed and described with. -/
theorem mem_words_ofRecords_iff {records : List Record} {word : String} :
    word ∈ (ofRecords records).words ↔
      ∃ r ∈ records, IsLetterRun r.headline word ∨ IsLetterRun r.shortDescription word := by
  simp only [ofRecords, ofTexts, List.mem_toArray, mem_distinct, tokens, List.mem_flatMap,
    List.mem_map, exists_exists_and_eq_and, mem_wordsOf_text_iff]

theorem nodup_words_ofTexts (texts : List String) : (ofTexts texts).words.toList.Nodup :=
  nodup_distinct _

theorem ofNdjson_eq_ok_iff {contents : String} {corpus : Corpus} :
    ofNdjson contents = .ok corpus ↔ ∃ rs, records contents = .ok rs ∧ ofRecords rs = corpus := by
  unfold ofNdjson
  cases records contents <;> simp [Except.map]

/-- A word stands in the headline or the short description of some record of a dataset. -/
def Holds (contents word : String) : Prop :=
  ∃ rs, records contents = .ok rs ∧
    ∃ r ∈ rs, IsLetterRun r.headline word ∨ IsLetterRun r.shortDescription word

theorem holds_iff_mem {contents : String} {corpus : Corpus}
    (built : ofNdjson contents = .ok corpus) {word : String} :
    word ∈ corpus.words ↔ Holds contents word := by
  obtain ⟨rs, found, rfl⟩ := ofNdjson_eq_ok_iff.mp built
  rw [mem_words_ofRecords_iff]
  simp [Holds, found]

end SearchLoad.Corpus
