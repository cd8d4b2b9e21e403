import SearchLoad.Corpus.Dataset
import SearchLoad.Proofs.Corpus.Words
import SearchLoad.Proofs.Json.Objects

namespace SearchLoad

namespace Record

def members (r : Record) : List (String × String) :=
  [("link", r.link), ("headline", r.headline), ("short_description", r.shortDescription)]

/-- A record written as an object on a line: its members in any order, with any blanks between the
tokens and any escapes in the strings. -/
def IsLine (r : Record) (line : String) : Prop :=
  ∃ ms, ms.Perm r.members ∧ Json.ObjectSpelling Json.isInlineSpace Json.Quoted ms line.toList

/-- A record written without blanks. -/
def line (r : Record) : String := String.ofList (Json.writeObject r.members)

theorem isLine_line (r : Record) : r.IsLine r.line := by
  refine ⟨r.members, .refl _, ?_⟩
  rw [line, String.toList_ofList]
  exact Json.objectSpelling_writeObject _ _

theorem IsLine.feed_not_mem {r : Record} {line : String} (h : r.IsLine line) :
    '\n' ∉ line.toList := by
  obtain ⟨ms, -, spelled⟩ := h
  intro member
  rcases spelled.printable _ member with blank | printable
  · exact absurd blank (by decide)
  · exact absurd printable (by decide)

/-- An object of strings is a record by its members alone. -/
theorem parse_of_spelling {ms : List (String × String)} {line : String}
    (h : Json.ObjectSpelling Json.isSpace Json.Quoted ms line.toList) :
    Record.parse line = ofMembers (ms.map fun m => (m.1, .string m.2)) := by
  rw [Record.parse, Json.parseObject_of_spelling h]
  rfl

theorem field_of_mem {ms : List (String × String)} (distinct : (ms.map Prod.fst).Nodup)
    {key x : String} (h : (key, x) ∈ ms) :
    field (ms.map fun m => (m.1, .string m.2)) key = .ok (some x) := by
  rw [field, Json.lookupLast_map, Json.lookupLast_of_mem distinct h]
  rfl

theorem ofMembers_of_perm {r : Record} {ms : List (String × String)} (h : ms.Perm r.members) :
    ofMembers (ms.map fun m => (m.1, .string m.2)) = .ok r := by
  have keys : (r.members.map Prod.fst).Nodup := by
    simp [members]
  have distinct : (ms.map Prod.fst).Nodup := (h.map Prod.fst).nodup_iff.mpr keys
  have link : ("link", r.link) ∈ ms := h.mem_iff.mpr (by simp [members])
  have headline : ("headline", r.headline) ∈ ms := h.mem_iff.mpr (by simp [members])
  have description : ("short_description", r.shortDescription) ∈ ms :=
    h.mem_iff.mpr (by simp [members])
  rw [ofMembers, field_of_mem distinct link, field_of_mem distinct headline,
    field_of_mem distinct description]
  rfl

/-- A record is read from the lines it is written as. -/
theorem IsLine.parse_eq {r : Record} {line : String} (h : r.IsLine line) :
    Record.parse line = .ok r := by
  obtain ⟨ms, perm, spelled⟩ := h
  have more : ∀ c, Json.isInlineSpace c = true → Json.isSpace c = true :=
    fun c inline => (Bool.and_eq_true_iff.mp inline).1
  rw [parse_of_spelling (spelled.mono more), ofMembers_of_perm perm]

end Record

namespace Corpus

/-- The lines of a dataset that are not skipped. -/
def fullLines (contents : String) : List String :=
  ((contents.toList.splitOn '\n').map String.ofList).filter fun line => !line.isEmpty

/-- The records of a dataset are those of its lines that are not empty. -/
theorem records_eq_ok_iff {contents : String} {rs : List Record} :
    records contents = .ok rs ↔
      List.Forall₂ (fun line r => Record.parse line = .ok r) (fullLines contents) rs := by
  have numbers : fullLines contents =
      ((numberedLines contents).filter fun line => !line.1.isEmpty).map Prod.fst := by
    have lines : (numberedLines contents).map Prod.fst =
        (contents.toList.splitOn '\n').map String.ofList := List.zipIdx_map_fst 1 _
    rw [fullLines, ← lines, List.filter_map]
    rfl
  rw [records, mapM_eq_ok_iff, numbers, List.forall₂_map_left_iff]
  simp only [parseLine, mapError_eq_ok_iff]

theorem fullLines_intercalate {lines : List String}
    (free : ∀ line ∈ lines, '\n' ∉ line.toList) :
    fullLines ("\n".intercalate lines) = lines.filter fun line => !line.isEmpty := by
  cases lines with
  | nil => rfl
  | cons first more =>
    have feed : "\n".toList = ['\n'] := rfl
    have pieces : ("\n".intercalate (first :: more)).toList.splitOn '\n' =
        (first :: more).map String.toList := by
      rw [String.toList_intercalate, feed]
      refine List.splitOn_intercalate '\n' ?_ (by simp)
      simpa using free
    rw [fullLines, pieces, List.map_map]
    simp [Function.comp_def]

theorem ofRecords_eq (rs : List Record) :
    ofRecords rs = ofTexts (rs.flatMap fun r => [r.headline, r.shortDescription]) := by
  have same : tokens (rs.map Record.text) =
      tokens (rs.flatMap fun r => [r.headline, r.shortDescription]) := by
    simp only [tokens, List.flatMap_map, List.flatMap_assoc, wordsOf_text, List.flatMap_cons,
      List.flatMap_nil, List.append_nil]
  rw [ofRecords, ofTexts, ofTexts, same]

/-- Every record can be written on a line. A dataset of records, one on a line and in their order,
with empty lines anywhere, gives the corpus of their headlines and short descriptions. -/
theorem ofNdjson_of_lines :
    (∀ r : Record, r.IsLine r.line) ∧
      ∀ (rs : List Record) (lines : List String),
        List.Forall₂ Record.IsLine rs (lines.filter fun line => !line.isEmpty) →
          ofNdjson ("\n".intercalate lines) =
            .ok (ofTexts (rs.flatMap fun r => [r.headline, r.shortDescription])) := by
  refine ⟨Record.isLine_line, ?_⟩
  intro rs lines written
  have each : List.Forall₂ (fun line r => '\n' ∉ line.toList ∧ Record.parse line = .ok r)
      (lines.filter fun line => !line.isEmpty) rs :=
    written.flip.imp fun _ _ h => ⟨Record.IsLine.feed_not_mem h, Record.IsLine.parse_eq h⟩
  obtain ⟨full, parsed⟩ := (List.forall₂_and_left _ _).mp each
  have free : ∀ line ∈ lines, '\n' ∉ line.toList := by
    intro line member
    cases empty : line.isEmpty with
    | true => simp [String.isEmpty_iff.mp empty]
    | false => exact full line (List.mem_filter.mpr ⟨member, by simp [empty]⟩)
  have read : records ("\n".intercalate lines) = .ok rs := by
    rw [records_eq_ok_iff, fullLines_intercalate free]
    exact parsed
  exact ofNdjson_eq_ok_iff.mpr ⟨rs, read, ofRecords_eq rs⟩

/-- A record with quotes, a line feed and a backslash in its strings, between empty lines. -/
theorem ofNdjson_between_empty_lines :
    ofNdjson ("\n\x7b\"link\":\"a\",\"headline\":\"Say \\\"hi\\\"\\u000anow\"," ++
        "\"short_description\":\"C:\\\\dir\"\x7d\n\n") =
      .ok (ofTexts ["Say \"hi\"\nnow", "C:\\dir"]) := by
  have written : ["", Record.line ⟨"a", "Say \"hi\"\nnow", "C:\\dir"⟩, "", ""].filter
      (fun line => !line.isEmpty) = [Record.line ⟨"a", "Say \"hi\"\nnow", "C:\\dir"⟩] := by
    decide +kernel
  have lines : List.Forall₂ Record.IsLine [⟨"a", "Say \"hi\"\nnow", "C:\\dir"⟩]
      [Record.line ⟨"a", "Say \"hi\"\nnow", "C:\\dir"⟩] := .cons (Record.isLine_line _) .nil
  exact ofNdjson_of_lines.2 [⟨"a", "Say \"hi\"\nnow", "C:\\dir"⟩]
    ["", Record.line ⟨"a", "Say \"hi\"\nnow", "C:\\dir"⟩, "", ""] (written ▸ lines)

end Corpus

end SearchLoad
