import Mathlib.Data.List.Induction
import SearchLoad.Proofs.Fallible
import SearchLoad.Proofs.Corpus.Words

namespace SearchLoad.Corpus

theorem length_splitOn {α : Type} [DecidableEq α] (x : α) (s : List α) :
    (s.splitOn x).length = s.count x + 1 := by
  induction s with
  | nil => rfl
  | cons y s ih =>
    rw [List.splitOn_cons_eq_if_modifyHead, List.count_cons]
    split
    · rw [List.length_cons, ih]
    · rw [List.length_modifyHead, ih, Nat.add_zero]

/-- The number of line feeds in a text. -/
def feeds (s : String) : Nat := s.toList.count '\n'

theorem numberedLines_append (a b : String) :
    numberedLines (a ++ "\n" ++ b) =
      numberedLines a ++ (numberedLines b).map fun line => (line.1, line.2 + 1 + feeds a) := by
  have chars : (a ++ "\n" ++ b).toList = a.toList ++ '\n' :: b.toList := by
    simp only [String.toList_append, List.append_assoc]
    rfl
  have counted : 1 + ((a.toList.splitOn '\n').map String.ofList).length = 1 + feeds a + 1 := by
    rw [List.length_map, length_splitOn]
    rfl
  rw [numberedLines, chars, List.splitOn_append_cons_self, List.map_append, List.zipIdx_append,
    counted]
  refine congrArg (numberedLines a ++ ·) ?_
  rw [numberedLines, List.zipIdx_eq_map_add, List.zipIdx_eq_map_add (i := 1), List.map_map]
  refine List.map_congr_left ?_
  intro line _
  simp only [Function.comp_apply, Prod.mk.injEq, true_and]
  omega

/-- The same fault, so many lines further on. -/
def Fault.further (lines : Nat) : Fault → Fault
  | .badLine line fault => .badLine (line + lines) fault
  | fault => fault

theorem parseLine_further (line : String × Nat) (lines : Nat) :
    parseLine (line.1, line.2 + lines) = (parseLine line).mapError (.further lines) := by
  unfold parseLine
  cases Record.parse line.1 <;> rfl

theorem records_append (a b : String) :
    records (a ++ "\n" ++ b) =
      records a >>= fun rs =>
        (records b).mapError (.further (1 + feeds a)) >>= fun ss => pure (rs ++ ss) := by
  have later : ∀ lines : List (String × Nat),
      (lines.map fun line => (line.1, line.2 + 1 + feeds a)).mapM parseLine =
        (lines.mapM parseLine).mapError (.further (1 + feeds a)) := by
    intro lines
    rw [List.mapM_map, ← mapM_mapError]
    simp only [Function.comp_def, Nat.add_assoc, parseLine_further]
  rw [records, numberedLines_append, List.filter_append, List.filter_map, List.mapM_append,
    Function.comp_def, later]
  rfl

/-- Of a text that is there, only a line can be at fault. -/
theorem exists_badLine {contents : String} {fault : Fault} (h : records contents = .error fault) :
    ∃ line cause, fault = .badLine line cause := by
  obtain ⟨-, line, -, -, -, failed⟩ := mapM_eq_error_iff.mp h
  unfold parseLine at failed
  cases parsed : Record.parse line.1 with
  | error cause =>
    rw [parsed] at failed
    cases failed
    exact ⟨line.2, cause, rfl⟩
  | ok r =>
    rw [parsed] at failed
    contradiction

theorem Seen.Agrees.foldl {seen : Seen} (h : seen.Agrees) (words : List String) :
    (words.foldl Seen.add seen).Agrees := by
  induction words generalizing seen with
  | nil => exact h
  | cons word words ih => exact ih (h.add word)

theorem distinct_concat (words : List String) (word : String) :
    distinct (words ++ [word]) =
      if word ∈ words then distinct words else distinct words ++ [word] := by
  have known : word ∈ (words.foldl Seen.add ⟨[], ∅⟩).index ↔ word ∈ words := by
    rw [empty_agrees.foldl words word, ← List.mem_reverse]
    exact mem_distinct
  rw [distinct, List.foldl_append, List.foldl_cons, List.foldl_nil, Seen.add]
  by_cases present : word ∈ words
  · rw [if_pos present, if_pos (Std.HashSet.contains_iff_mem.mpr (known.mpr present))]
    rfl
  · have absent := mt (fun there => known.mp (Std.HashSet.contains_iff_mem.mp there)) present
    rw [if_neg present, if_neg absent, List.reverse_cons]
    rfl

/-- Words that occurred in the first list are left out of the second one. -/
theorem distinct_append (words more : List String) :
    distinct (words ++ more) =
      distinct words ++ (distinct more).filter fun word => word ∉ words := by
  -- From the end: whether a word is kept depends on those before it.
  induction more using List.reverseRecOn with
  | nil =>
    rw [List.append_nil]
    exact (List.append_nil _).symm
  | append_singleton more word ih =>
    rw [← List.append_assoc, distinct_concat, distinct_concat, ih]
    by_cases again : word ∈ more
    · simp [again]
    · by_cases before : word ∈ words <;> simp [again, before, List.filter_append]

/-- A corpus and the words that another one adds to it. -/
def union (c d : Corpus) : Corpus :=
  ⟨(c.words.toList ++ d.words.toList.filter fun word => word ∉ c.words).toArray⟩

theorem ofRecords_append (rs ss : List Record) :
    ofRecords (rs ++ ss) = (ofRecords rs).union (ofRecords ss) := by
  simp only [ofRecords, ofTexts, union, tokens, List.map_append, List.flatMap_append,
    distinct_append, List.mem_toArray, mem_distinct]

theorem ofNdjson_eq_error_iff {contents : String} {fault : Fault} :
    ofNdjson contents = .error fault ↔ records contents = .error fault := by
  unfold ofNdjson
  cases records contents <;> simp [Except.map]

/-- A faulty first text decides for both. If only the second is faulty, its fault is found behind
the lines of the first, and if neither is, its words follow those of the first. -/
theorem ofNdjson_append (a b : String) :
    (∀ fault, ofNdjson a = .error fault → ofNdjson (a ++ "\n" ++ b) = .error fault) ∧
    (∀ c fault, ofNdjson a = .ok c → ofNdjson b = .error fault →
      ∃ line cause, fault = .badLine line cause ∧
        ofNdjson (a ++ "\n" ++ b) = .error (.badLine (line + 1 + feeds a) cause)) ∧
    ∀ c d, ofNdjson a = .ok c → ofNdjson b = .ok d →
      ofNdjson (a ++ "\n" ++ b) = .ok (c.union d) := by
  refine ⟨?_, ?_, ?_⟩
  · intro fault failed
    rw [ofNdjson_eq_error_iff] at failed ⊢
    rw [records_append, failed]
    rfl
  · intro c fault built failed
    obtain ⟨rs, read, -⟩ := ofNdjson_eq_ok_iff.mp built
    rw [ofNdjson_eq_error_iff] at failed
    obtain ⟨line, cause, rfl⟩ := exists_badLine failed
    refine ⟨line, cause, rfl, ?_⟩
    rw [ofNdjson_eq_error_iff, records_append, read, failed, Nat.add_assoc]
    rfl
  · intro c d built more
    obtain ⟨rs, read, rfl⟩ := ofNdjson_eq_ok_iff.mp built
    obtain ⟨ss, next, rfl⟩ := ofNdjson_eq_ok_iff.mp more
    refine ofNdjson_eq_ok_iff.mpr ⟨rs ++ ss, ?_, ofRecords_append rs ss⟩
    rw [records_append, read, next]
    rfl

def upLine : String :=
  "\x7b\"link\":\"a\",\"headline\":\"Oil\",\"short_description\":\"up\"\x7d"

def downLine : String :=
  "\x7b\"link\":\"b\",\"headline\":\"Oil\",\"short_description\":\"down\"\x7d"

/-- Each of the three cases: a line that is no object comes first, last behind an empty line, or
not at all. -/
theorem ofNdjson_append_lines :
    (∃ cause, ofNdjson ("[]" ++ "\n" ++ upLine) = .error (.badLine 1 cause)) ∧
    (∃ cause, ofNdjson (upLine ++ "\n" ++ "\n[]") = .error (.badLine 3 cause)) ∧
    ofNdjson (upLine ++ "\n" ++ downLine) =
      .ok ((ofRecords [⟨"a", "Oil", "up"⟩]).union (ofRecords [⟨"b", "Oil", "down"⟩])) := by
  have up : ofNdjson upLine = .ok (ofRecords [⟨"a", "Oil", "up"⟩]) :=
    ofNdjson_eq_ok_iff.mpr ⟨_, by decide +kernel, rfl⟩
  have down : ofNdjson downLine = .ok (ofRecords [⟨"b", "Oil", "down"⟩]) :=
    ofNdjson_eq_ok_iff.mpr ⟨_, by decide +kernel, rfl⟩
  have first : ofNdjson "[]" = .error (.badLine 1 (.malformed ⟨.mismatch .sequence .map, 1, 0⟩)) :=
    ofNdjson_eq_error_iff.mpr (by decide +kernel)
  have second : ofNdjson "\n[]" =
      .error (.badLine 2 (.malformed ⟨.mismatch .sequence .map, 1, 0⟩)) :=
    ofNdjson_eq_error_iff.mpr (by decide +kernel)
  obtain ⟨line, cause, same, found⟩ := (ofNdjson_append upLine "\n[]").2.1 _ _ up second
  cases same
  exact ⟨⟨_, (ofNdjson_append "[]" upLine).1 _ first⟩, ⟨_, found⟩,
    (ofNdjson_append upLine downLine).2.2 _ _ up down⟩

end SearchLoad.Corpus
