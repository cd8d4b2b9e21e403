import SearchLoad.Proofs.Corpus.LastValues
import SearchLoad.Proofs.Corpus.Records
import SearchLoad.Proofs.Dataset.Documents
import SearchLoad.Proofs.Json.Reading

namespace SearchLoad

open Json

variable {line : String}

/-- A document is read from what is written as an object of strings with a link, and from nothing
else. -/
theorem Document.parse_eq_ok_iff {d : Document} : Document.parse line = .ok d ↔
    ∃ ms, ObjectSpelling isSpace Quoted ms line.toList ∧ lookupLast "link" ms = some d.link ∧
      d.link ≠ "" ∧ d.fields = fieldsOf ms := by
  simp only [Document.parse, bind_eq_ok_iff, mapError_eq_ok_iff, parseStrings_eq_ok_iff]
  constructor
  · rintro ⟨ms, spelled, made⟩
    unfold ofMembers at made
    split at made
    · rename_i link last
      split at made
      · contradiction
      · rename_i full
        obtain rfl := Except.ok.inj made
        exact ⟨ms, spelled, last, by simpa [String.isEmpty_iff] using full, rfl⟩
    · contradiction
  · rintro ⟨ms, spelled, last, full, fields⟩
    exact ⟨ms, spelled, by rw [ofMembers_of_link last full, ← fields]⟩

/-- A record is read from what is written as an object whose last values of the fields are strings,
and from nothing else. -/
theorem Record.parse_eq_ok_iff {r : Record} : Record.parse line = .ok r ↔
    ∃ ms, IsObject ms line ∧ (∀ m ∈ ms, m.2.Readable (maxDepth - 1)) ∧
      IsLast "link" (.string r.link) ms ∧ IsLast "headline" (.string r.headline) ms ∧
      IsLast "short_description" (.string r.shortDescription) ms := by
  simp only [Record.parse, bind_eq_ok_iff, mapError_eq_ok_iff, parseObject_eq_ok_iff]
  constructor
  · rintro ⟨_, ⟨ms, object, readable, rfl⟩, made⟩
    simp only [ofMembers_eq_ok_iff, lookupLast_value_eq_iff] at made
    exact ⟨ms, object, readable, made⟩
  · rintro ⟨ms, object, readable, last⟩
    refine ⟨_, ⟨ms, object, readable, rfl⟩, ?_⟩
    simpa only [ofMembers_eq_ok_iff, lookupLast_value_eq_iff] using last

theorem Record.parse_of_document {d : Document} {headline description : String}
    (h : Document.parse line = .ok d) (has : ("headline", headline) ∈ d.fields)
    (has' : ("short_description", description) ∈ d.fields) :
    Record.parse line = .ok ⟨d.link, headline, description⟩ := by
  obtain ⟨ms, spelled, link, -, fields⟩ := Document.parse_eq_ok_iff.mp h
  rw [fields, Document.mem_fieldsOf_iff] at has has'
  rw [parse_of_spelling spelled, ofMembers_eq_ok_iff]
  simp [lookupLast_map, link, has, has']

/-- A document has a field of this name with this value, and with no other. -/
def Document.Holds (d : Document) (name value : String) : Prop :=
  ∀ x, (name, x) ∈ d.fields ↔ x = value

theorem Document.parse_of_record {r : Record} {ms : List (String × Tree)}
    (h : Record.parse line = .ok r) (object : IsObject ms line)
    (strings : ∀ m ∈ ms, ∃ x, m.2 = .string x) (full : r.link ≠ "") :
    ∃ d, Document.parse line = .ok d ∧ d.link = r.link ∧ d.Holds "link" r.link ∧
      d.Holds "headline" r.headline ∧ d.Holds "short_description" r.shortDescription := by
  have readable : ∀ m ∈ ms, m.2.Readable (maxDepth - 1) := by
    intro m member
    obtain ⟨x, text⟩ := strings m member
    simp only [text, Tree.Readable]
  rw [Record.parse_of_isObject object readable, Record.ofMembers_eq_ok_iff] at h
  simp only [Record.lookupLast_value_eq_iff, ← lookupLast_text_eq_iff strings] at h
  obtain ⟨link, headline, description⟩ := h
  refine ⟨_, (parse_of_isObject object strings).trans (ofMembers_of_link link full), rfl, ?_⟩
  simp only [Document.Holds, mem_fieldsOf_iff, link, headline, description, Option.some.injEq,
    eq_comm, implies_true, and_self]

/-- A line that is a document with the fields of a record is that record. A line that is a record is
an object; if all values that are written there are strings, those that do not count included, and
the record has a link, it is a document that has the fields of the record. -/
theorem documents_and_records_agree (line : String) :
    (∀ d headline description, Document.parse line = .ok d →
        ("headline", headline) ∈ d.fields → ("short_description", description) ∈ d.fields →
          Record.parse line = .ok ⟨d.link, headline, description⟩) ∧
      ∀ r, Record.parse line = .ok r → (∃ ms, IsObject ms line) ∧
        ∀ ms, IsObject ms line → (∀ m ∈ ms, ∃ x, m.2 = .string x) → r.link ≠ "" →
          ∃ d, Document.parse line = .ok d ∧ d.link = r.link ∧ d.Holds "link" r.link ∧
            d.Holds "headline" r.headline ∧ d.Holds "short_description" r.shortDescription := by
  refine ⟨fun d headline description => Record.parse_of_document, fun r parsed => ⟨?_, ?_⟩⟩
  · obtain ⟨ms, object, -⟩ := Record.parse_eq_ok_iff.mp parsed
    exact ⟨ms, object⟩
  · exact fun ms object strings full => Document.parse_of_record parsed object strings full

/-- A line on which a headline is overridden, with a carriage return behind the object. -/
def overriddenLine : String :=
  "\x7b\"headline\":\"x\",\"link\":\"a\",\"headline\":\"\\\"\",\"short_description\":\"c\"\x7d\r"

theorem overridden_headline_agrees :
    Record.parse overriddenLine = .ok ⟨"a", "\"", "c"⟩ ∧
      ∃ d, Document.parse overriddenLine = .ok d ∧ d.link = "a" ∧ d.Holds "link" "a" ∧
        d.Holds "headline" "\"" ∧ d.Holds "short_description" "c" := by
  have bare := blanks_nil isSpace
  have text : ∀ x, (Tree.string x).Spelling 0 (writeString x) := quoted_writeString
  have object : IsObject _ overriddenLine :=
    ⟨0, [], _, ['\r'], bare,
      .unspaced true "headline" (text "x") <| .unspaced false "link" (text "a") <|
        .unspaced false "headline" (text "\"") <| .unspaced false "short_description" (text "c") <|
        .close bare,
      by simp [Blanks, isSpace], by decide +kernel⟩
  have document : Document.parse overriddenLine =
      .ok ⟨"a", [("headline", "\""), ("link", "a"), ("short_description", "c")]⟩ := by
    decide +kernel
  have record := (documents_and_records_agree _).1 _ "\"" "c" document (by simp) (by simp)
  exact ⟨record, ((documents_and_records_agree _).2 _ record).2 _ object (by simp) (by decide)⟩

end SearchLoad
