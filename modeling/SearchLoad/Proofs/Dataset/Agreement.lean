import SearchLoad.Proofs.Corpus.Records
import SearchLoad.Proofs.Dataset.Load

namespace SearchLoad.Dataset

open Text.Utf8

/-- Each line is empty, or both a document and a record. -/
def Readable (contents : String) : Prop :=
  ∀ raw ∈ rawLines (encode contents.toList), ∀ line, lineText raw = .ok line →
    line = "" ∨ (∃ d, Document.parse line = .ok d) ∧ ∃ r, Record.parse line = .ok r

theorem exists_ok_iff {ε α : Type} {x : Except ε α} : (∃ a, x = .ok a) ↔ x.isOk = true := by
  cases x <;> simp [Except.isOk, Except.toBool]

instance (contents : String) : Decidable (Readable contents) :=
  decidable_of_iff (∀ raw ∈ rawLines (encode contents.toList), ∀ line ∈ (lineText raw).toOption,
      line = "" ∨ (Document.parse line).isOk = true ∧ (Record.parse line).isOk = true) <| by
    have text : ∀ raw line, line ∈ (lineText raw).toOption ↔ lineText raw = .ok line := by
      intro raw line
      cases lineText raw <;> simp [Except.toOption]
    simp only [Readable, text, exists_ok_iff]

/-- Some empty line ends with a carriage return and a line feed. -/
def HasReturnLine (contents : String) : Prop :=
  [carriageReturn, lineFeed] ∈ rawLines (encode contents.toList)

instance (contents : String) : Decidable (HasReturnLine contents) :=
  inferInstanceAs (Decidable (_ ∈ rawLines (encode contents.toList)))

/-- A carriage return behind a line that is a document does not change the record. -/
theorem parse_append_return {line : String} {d : Document} {r : Record}
    (document : Document.parse line = .ok d) (record : Record.parse line = .ok r) :
    Record.parse (line ++ "\r") = .ok r := by
  -- A record may have values of any kind; those of a document are strings.
  obtain ⟨ms, found, -⟩ := bind_eq_ok_iff.mp document
  rw [mapError_eq_ok_iff, Json.parseStrings_eq_ok_iff] at found
  have blank : Json.Blanks Json.isSpace ['\r'] := by simp [Json.Blanks, Json.isSpace]
  have longer : Json.ObjectSpelling Json.isSpace Json.Quoted ms (line ++ "\r").toList := by
    rw [String.toList_append]
    exact found.append blank
  rw [Record.parse_of_spelling longer, ← Record.parse_of_spelling found, record]

theorem not_parse_return (r : Record) : Record.parse "\r" ≠ .ok r := by
  obtain ⟨f, nothing⟩ : ∃ f, Record.parse "\r" = .error f := ⟨_, rfl⟩
  rw [nothing]
  simp

theorem exists_forall₂ {α β : Type} {R : α → β → Prop} {xs : List α}
    (h : ∀ x ∈ xs, ∃ y, R x y) : ∃ ys, List.Forall₂ R xs ys := by
  induction xs with
  | nil => exact ⟨[], .nil⟩
  | cons x xs ih =>
    obtain ⟨first, more⟩ := List.forall_mem_cons.mp h
    obtain ⟨y, related⟩ := first
    obtain ⟨ys, further⟩ := ih more
    exact ⟨y :: ys, .cons related further⟩

theorem lineText_ended (line : List Char) :
    lineText (encode line ++ [lineFeed]) = .ok (String.ofList (dropReturn line)) := by
  rw [← encode_feed, ← encode_append, lineText_encode, stripEnd_concat]

theorem isEmptyLine_ended {line : List Char} :
    isEmptyLine (encode line ++ [lineFeed]) = true ↔ line = [] ∨ line = ['\r'] := by
  rw [← lineText_eq_empty_iff (by simp), lineText_ended, Except.ok.injEq, ← dropReturn_eq_nil_iff,
    String.ofList_eq_empty_iff]

theorem eq_dropReturn (line : List Char) :
    line = dropReturn line ∨ line = dropReturn line ++ ['\r'] := by
  rcases List.eq_nil_or_concat line with rfl | ⟨line, c, rfl⟩
  · exact .inl rfl
  · by_cases h : c = '\r'
    · simp [dropReturn, h]
    · simp [dropReturn, h]

section Lined

variable {contents : String} {ended : List (List Char)} {tail : List Char}

theorem rawLines_encode (h : IsLined '\n' contents.toList ended tail) :
    rawLines (encode contents.toList) = ended.map (fun line => encode line ++ [lineFeed]) ++
      if tail.isEmpty then [] else [encode tail] := by
  have full : (encode tail).isEmpty = tail.isEmpty := by
    have nothing : encode tail = [] ↔ tail = [] := encode_injective.eq_iff (b := [])
    rw [Bool.eq_iff_iff, List.isEmpty_iff, List.isEmpty_iff, nothing]
  rw [h.encode.rawLines_eq, List.map_map, full]
  rfl

theorem fullLines_eq (h : IsLined '\n' contents.toList ended tail) :
    Corpus.fullLines contents = (ended.filter fun line => !line.isEmpty).map String.ofList ++
      if tail.isEmpty then [] else [String.ofList tail] := by
  have empty : ∀ line : List Char, (String.ofList line).isEmpty = line.isEmpty := by
    intro line
    rw [Bool.eq_iff_iff, String.isEmpty_iff, String.ofList_eq_empty_iff, List.isEmpty_iff]
  rw [Corpus.fullLines, h.splitOn_eq, List.map_append, List.filter_append, List.filter_map]
  simp only [Function.comp_def, empty, List.map_singleton, List.filter_singleton]
  cases tail.isEmpty <;> rfl

theorem lineText_tail (h : IsLined '\n' contents.toList ended tail) :
    lineText (encode tail) = .ok (String.ofList tail) := by
  rw [lineText_encode, stripEnd_of_not_mem h.tail_free]

theorem exists_lineText {raw : List UInt8} (h : raw ∈ rawLines (encode contents.toList)) :
    ∃ line, lineText raw = .ok line := by
  obtain ⟨ended, tail, lined⟩ := exists_isLined '\n' contents.toList
  rw [rawLines_encode lined] at h
  rcases List.mem_append.mp h with ended | last
  · obtain ⟨line, -, rfl⟩ := List.mem_map.mp ended
    exact ⟨_, lineText_ended line⟩
  · split at last
    · contradiction
    · rw [List.mem_singleton.mp last]
      exact ⟨_, lineText_tail lined⟩

theorem exists_hold (readable : Readable contents) :
    ∃ ds, Hold (rawLines (encode contents.toList)) ds := by
  refine exists_forall₂ ?_
  intro raw found
  obtain ⟨member, full⟩ := List.mem_filter.mp found
  obtain ⟨line, text⟩ := exists_lineText member
  rcases readable raw member line text with rfl | ⟨⟨d, parsed⟩, -⟩
  · rw [lineText_eq_empty_iff (ne_nil_of_mem_rawLines member)] at text
    simp [text] at full
  · exact ⟨d, line, text, parsed⟩

theorem ne_return_of_mem (h : IsLined '\n' contents.toList ended tail)
    (free : ¬ HasReturnLine contents) {line : List Char} (member : line ∈ ended) :
    line ≠ ['\r'] := by
  rintro rfl
  apply free
  rw [HasReturnLine, rawLines_encode h]
  exact List.mem_append_left _ (List.mem_map.mpr ⟨['\r'], member, by decide⟩)

theorem return_mem_fullLines (ret : HasReturnLine contents) :
    "\r" ∈ Corpus.fullLines contents := by
  obtain ⟨ended, tail, lined⟩ := exists_isLined '\n' contents.toList
  rw [HasReturnLine, rawLines_encode lined] at ret
  rcases List.mem_append.mp ret with inner | last
  · obtain ⟨line, member, same⟩ := List.mem_map.mp inner
    have skipped : isEmptyLine (encode line ++ [lineFeed]) = true := by rw [same]; decide
    rcases isEmptyLine_ended.mp skipped with rfl | rfl
    · exact absurd same (by decide)
    · rw [fullLines_eq lined]
      have full : ['\r'] ∈ ended.filter fun line => !line.isEmpty :=
        List.mem_filter.mpr ⟨member, rfl⟩
      exact List.mem_append_left _ (List.mem_map.mpr ⟨_, full, rfl⟩)
  · split at last
    · contradiction
    · rw [List.mem_singleton, ← encode_return_feed] at last
      have feed : '\n' ∈ tail := by simp [← encode_injective last]
      exact absurd feed lined.tail_free

/-- A line of the corpus is a record if it is one for the load. -/
theorem exists_parse (readable : Readable contents) (free : ¬ HasReturnLine contents)
    {line : String} (h : line ∈ Corpus.fullLines contents) : ∃ r, Record.parse line = .ok r := by
  obtain ⟨ended, tail, lined⟩ := exists_isLined '\n' contents.toList
  rw [fullLines_eq lined] at h
  have raws := rawLines_encode lined
  rcases List.mem_append.mp h with inner | last
  · obtain ⟨piece, found, rfl⟩ := List.mem_map.mp inner
    obtain ⟨member, full⟩ := List.mem_filter.mp found
    have there : encode piece ++ [lineFeed] ∈ rawLines (encode contents.toList) := by
      rw [raws]
      exact List.mem_append_left _ (List.mem_map.mpr ⟨piece, member, rfl⟩)
    rcases readable _ there _ (lineText_ended piece) with nothing | ⟨⟨d, document⟩, r, record⟩
    · rw [String.ofList_eq_empty_iff, dropReturn_eq_nil_iff] at nothing
      rcases nothing with rfl | ret
      · contradiction
      · exact absurd ret (ne_return_of_mem lined free member)
    · -- The corpus keeps the carriage return that the load has dropped.
      rcases eq_dropReturn piece with same | longer
      · exact ⟨r, same ▸ record⟩
      · refine ⟨r, ?_⟩
        rw [longer, String.ofList_append]
        exact parse_append_return document record
  · split at last
    · contradiction
    · rename_i full
      rw [List.mem_singleton.mp last]
      have there : encode tail ∈ rawLines (encode contents.toList) := by
        rw [raws, if_neg full]
        exact List.mem_append_right _ (List.mem_singleton.mpr rfl)
      rcases readable _ there _ (lineText_tail lined) with nothing | ⟨-, r, record⟩
      · rw [String.ofList_eq_empty_iff] at nothing
        simp [nothing] at full
      · exact ⟨r, record⟩

/-- The load and the corpus skip the same lines. -/
theorem length_fullLines (free : ¬ HasReturnLine contents) :
    (Corpus.fullLines contents).length =
      ((rawLines (encode contents.toList)).filter fun raw => !isEmptyLine raw).length := by
  obtain ⟨ended, tail, lined⟩ := exists_isLined '\n' contents.toList
  have same : ∀ line ∈ ended,
      (!line.isEmpty) = !isEmptyLine (encode line ++ [lineFeed]) := by
    intro line member
    congr 1
    rw [Bool.eq_iff_iff, isEmptyLine_ended, List.isEmpty_iff]
    have other := ne_return_of_mem lined free member
    simp [other]
  have last : ((if tail.isEmpty then [] else [encode tail]).filter fun raw =>
      !isEmptyLine raw).length = (if tail.isEmpty then [] else [String.ofList tail]).length := by
    cases empty : tail.isEmpty with
    | true => rfl
    | false =>
      have full : isEmptyLine (encode tail) ≠ true := by
        intro nothing
        have text := lineText_of_isEmptyLine nothing
        rw [lineText_tail lined, Except.ok.injEq, String.ofList_eq_empty_iff] at text
        simp [text] at empty
      simp [full]
  rw [fullLines_eq lined, rawLines_encode lined, List.filter_append, List.length_append,
    List.length_append, last, List.filter_map, List.length_map, List.length_map,
    List.filter_congr same]
  rfl

end Lined

/-- A dataset of which each line is empty or both a document and a record is loaded. A corpus is
made of as many records as documents are loaded, unless an empty line ends with a carriage return:
then no corpus is made. -/
theorem load_agrees_with_corpus (path contents : String)
    (readable : Readable contents) :
    ∃ n executed,
      transcript obliging path (.file (encode contents.toList)) = (.ok n, executed) ∧
        (¬ HasReturnLine contents → ∃ rs, Corpus.records contents = .ok rs ∧
          Corpus.ofNdjson contents = .ok (Corpus.ofRecords rs) ∧ rs.length = n) ∧
        (HasReturnLine contents → ¬ ∃ corpus, Corpus.ofNdjson contents = .ok corpus) := by
  obtain ⟨ds, held⟩ := exists_hold readable
  have accepted : Accepts obliging (commandsOf ds) := fun _ _ _ _ => rfl
  refine ⟨ds.length, commandsOf ds, transcript_of_hold held accepted, ?_, ?_⟩
  · intro free
    have parses : ∀ line ∈ Corpus.fullLines contents, ∃ r, Record.parse line = .ok r :=
      fun _ member => exists_parse readable free member
    obtain ⟨rs, parsed⟩ := exists_forall₂ parses
    have read : Corpus.records contents = .ok rs := Corpus.records_eq_ok_iff.mpr parsed
    refine ⟨rs, read, Corpus.ofNdjson_eq_ok_iff.mpr ⟨rs, read, rfl⟩, ?_⟩
    rw [← parsed.length_eq, length_fullLines free, held.length_eq]
  · rintro ret ⟨corpus, built⟩
    obtain ⟨rs, read, -⟩ := Corpus.ofNdjson_eq_ok_iff.mp built
    have parsed : List.Forall₂
        (fun line r => (∃ r, Record.parse line = .ok r) ∧ Record.parse line = .ok r)
        (Corpus.fullLines contents) rs :=
      (Corpus.records_eq_ok_iff.mp read).imp fun _ r h => ⟨⟨r, h⟩, h⟩
    obtain ⟨each, -⟩ := (List.forall₂_and_left _ _).mp parsed
    obtain ⟨r, bare⟩ := each _ (return_mem_fullLines ret)
    exact not_parse_return r bare

/-- A line may end with a carriage return where empty lines do not. -/
theorem load_agrees_on_mixed_ends :
    ∃ n executed, transcript obliging "news"
        (.file (encode ("\n" ++ Record.line ⟨"a", "b", "c"⟩ ++ "\r\n\n").toList)) =
          (.ok n, executed) ∧
      ∃ rs, Corpus.records ("\n" ++ Record.line ⟨"a", "b", "c"⟩ ++ "\r\n\n") = .ok rs ∧
        rs.length = n := by
  obtain ⟨n, executed, loaded, agrees, -⟩ := load_agrees_with_corpus "news"
    ("\n" ++ Record.line ⟨"a", "b", "c"⟩ ++ "\r\n\n") (by decide +kernel)
  obtain ⟨rs, read, -, length⟩ := agrees (by decide +kernel)
  exact ⟨n, executed, loaded, rs, read, length⟩

/-- An empty line that ends with a carriage return is skipped by the load and fails the corpus. -/
theorem empty_return_line_disagrees :
    Readable (Record.line ⟨"a", "b", "c"⟩ ++ "\r\n\r\n") ∧
      (transcript obliging "news"
        (.file (encode (Record.line ⟨"a", "b", "c"⟩ ++ "\r\n\r\n").toList))).1 = .ok 1 ∧
      ¬ ∃ corpus, Corpus.ofNdjson (Record.line ⟨"a", "b", "c"⟩ ++ "\r\n\r\n") = .ok corpus := by
  have failed : (Corpus.records (Record.line ⟨"a", "b", "c"⟩ ++ "\r\n\r\n")).isOk = false := by
    decide +kernel
  refine ⟨by decide +kernel, by decide +kernel, ?_⟩
  rintro ⟨corpus, built⟩
  obtain ⟨rs, read, -⟩ := Corpus.ofNdjson_eq_ok_iff.mp built
  rw [read] at failed
  contradiction

end SearchLoad.Dataset
