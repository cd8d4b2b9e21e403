import SearchLoad.Dataset.Document
import SearchLoad.Proofs.Json.Trees
import SearchLoad.Proofs.Text.ByteOrder

namespace SearchLoad.Document

open Json

/-- Fields in the order of their names, no name twice. -/
def Sorted (fs : List (String × String)) : Prop := fs.Pairwise fun f g => f.1 < g.1

variable {fs : List (String × String)} {name value : String}

theorem Sorted.lt_of_mem {g : String × String} (sorted : Sorted (g :: fs)) (before : name < g.1) :
    ∀ f ∈ g :: fs, name < f.1 := by
  intro f member
  rcases List.mem_cons.mp member with rfl | behind
  · exact before
  · exact String.lt_trans before ((List.pairwise_cons.mp sorted).1 f behind)

/-- A field is put in the place of one of its name. -/
theorem mem_insertField {f : String × String} (sorted : Sorted fs) :
    f ∈ insertField name value fs ↔ f = (name, value) ∨ f ∈ fs ∧ f.1 ≠ name := by
  induction fs with
  | nil => simp [insertField]
  | cons g fs ih =>
    obtain ⟨least, behind⟩ := List.pairwise_cons.mp sorted
    rw [insertField]
    split
    · rename_i before
      have apart : f ∈ g :: fs → f.1 ≠ name := fun member =>
        (String.ne_of_lt (sorted.lt_of_mem before f member)).symm
      rw [List.mem_cons, and_iff_left_of_imp apart]
    · split
      · rename_i same
        have apart : f ∈ fs → f.1 ≠ name := fun member =>
          same ▸ (String.ne_of_lt (least f member)).symm
        have gone : f = g → ¬ f.1 ≠ name := by
          rintro rfl
          simp [same]
        simp only [List.mem_cons, or_and_right]
        tauto
      · rename_i other
        have stays : f = g → f.1 ≠ name := by
          rintro rfl
          exact Ne.symm other
        simp only [List.mem_cons, ih behind, or_and_right]
        tauto

theorem Sorted.insertField (sorted : Sorted fs) : Sorted (insertField name value fs) := by
  induction fs with
  | nil => simp [Document.insertField, Sorted]
  | cons g fs ih =>
    obtain ⟨least, behind⟩ := List.pairwise_cons.mp sorted
    rw [Document.insertField]
    split
    · rename_i before
      exact List.pairwise_cons.mpr ⟨sorted.lt_of_mem before, sorted⟩
    · rename_i not_before
      split
      · rename_i same
        exact List.pairwise_cons.mpr ⟨fun f member => same ▸ least f member, behind⟩
      · rename_i other
        refine List.pairwise_cons.mpr ⟨?_, ih behind⟩
        intro f member
        rcases (mem_insertField behind).mp member with rfl | ⟨member, -⟩
        · exact Std.lt_of_le_of_ne (String.not_lt.mp not_before) (Ne.symm other)
        · exact least f member

theorem fieldsOf_concat (ms : List (String × String)) (m : String × String) :
    fieldsOf (ms ++ [m]) = insertField m.1 m.2 (fieldsOf ms) := by
  simp [fieldsOf]

theorem sorted_fieldsOf (ms : List (String × String)) : Sorted (fieldsOf ms) := by
  induction ms using List.reverseRecOn with
  | nil => exact .nil
  | append_singleton ms m ih =>
    rw [fieldsOf_concat]
    exact ih.insertField

/-- The fields are the keys with their last values. -/
theorem mem_fieldsOf_iff {ms : List (String × String)} {key x : String} :
    (key, x) ∈ fieldsOf ms ↔ lookupLast key ms = some x := by
  induction ms using List.reverseRecOn with
  | nil => simp [fieldsOf, lookupLast]
  | append_singleton ms m ih =>
    rw [fieldsOf_concat, mem_insertField (sorted_fieldsOf ms), lookupLast_concat, ih]
    obtain ⟨name, value⟩ := m
    by_cases same : name = key
    · simp [same, eq_comm]
    · simp [same, Ne.symm same]

/-- The names of the fields are in the order of their bytes. -/
theorem Sorted.bytes (sorted : Sorted fs) :
    fs.Pairwise fun f g => Wire.bytesOf f.1 < Wire.bytesOf g.1 :=
  sorted.imp fun before => Text.Utf8.encode_lt (String.lt_iff.mp before)

variable {ms : List (String × Tree)} {line : String}

theorem lookupLast_text_eq_iff {key x : String} (strings : ∀ m ∈ ms, ∃ x, m.2 = .string x) :
    lookupLast key (ms.map fun m => (m.1, m.2.text)) = some x ↔ IsLast key (.string x) ms := by
  rw [lookupLast_map, Option.map_eq_some_iff, ← lookupLast_eq_some_iff]
  constructor
  · rintro ⟨t, last, rfl⟩
    obtain ⟨before, after, rfl, -⟩ := lookupLast_eq_some_iff.mp last
    obtain ⟨x, rfl⟩ : ∃ x, t = .string x := strings (key, t) (by simp)
    exact last
  · intro last
    exact ⟨_, last, rfl⟩

theorem parse_of_isObject (h : IsObject ms line) (strings : ∀ m ∈ ms, ∃ x, m.2 = .string x) :
    Document.parse line = ofMembers (ms.map fun m => (m.1, m.2.text)) := by
  rw [Document.parse, h.parseStrings_eq strings]
  rfl

theorem ofMembers_of_link {members : List (String × String)} {link : String}
    (last : lookupLast "link" members = some link) (full : link ≠ "") :
    ofMembers members = .ok ⟨link, fieldsOf members⟩ := by
  rw [ofMembers, last]
  exact if_neg (by simpa [String.isEmpty_iff] using full)

/-- A line that is an object is a document exactly if all its values are strings, those that do not
count included, and it has a link. The document is stored under the last link, with each key once
and its last value, in the order of the bytes of the keys. -/
theorem objects_of_strings_are_stored (h : IsObject ms line) :
    ((∃ m ∈ ms, ∀ x, m.2 ≠ .string x) →
        ∃ fault, Document.parse line = .error (.malformed fault)) ∧
      ((∀ m ∈ ms, ∃ x, m.2 = .string x) →
        ((∀ m ∈ ms, m.1 ≠ "link") ∨ IsLast "link" (.string "") ms →
            Document.parse line = .error .missingLink) ∧
          ∀ link, link ≠ "" → IsLast "link" (.string link) ms →
            ∃ (d : Document) (fields : List (String × String)),
              Document.parse line = .ok d ∧ d.link = link ∧
              d.command.args = "HSET" :: link :: fields.flatMap (fun f => [f.1, f.2]) ∧
              fields.Pairwise (fun f g => Wire.bytesOf f.1 < Wire.bytesOf g.1) ∧
              ∀ key x, (key, x) ∈ fields ↔ IsLast key (.string x) ms) := by
  refine ⟨?_, fun strings => ⟨?_, ?_⟩⟩
  · intro other
    cases parsed : parseStrings line with
    | ok members => exact absurd parsed (h.parseStrings_ne_ok other members)
    | error fault => exact ⟨fault, by rw [Document.parse, parsed]; rfl⟩
  · rw [parse_of_isObject h strings]
    rintro (no | empty)
    · have nothing : lookupLast "link" (ms.map fun m => (m.1, m.2.text)) = none := by
        rw [lookupLast_map, lookupLast_eq_none_iff.mpr no]
        rfl
      rw [ofMembers, nothing]
    · have nothing := (lookupLast_text_eq_iff strings).mpr empty
      rw [ofMembers, nothing]
      rfl
  · intro link full last
    have last := (lookupLast_text_eq_iff strings).mpr last
    refine ⟨⟨link, fieldsOf (ms.map fun m => (m.1, m.2.text))⟩, _, ?_, rfl, rfl, ?_, ?_⟩
    · rw [parse_of_isObject h strings, ofMembers_of_link last full]
    · exact (sorted_fieldsOf _).bytes
    · intro key x
      rw [mem_fieldsOf_iff, lookupLast_text_eq_iff strings]

/-- A value that does not count has to be a string as well, and a link that does not count is not
stored. -/
theorem last_link_is_stored :
    (∃ (d : Document) (fields : List (String × String)),
        Document.parse "\x7b\"link\":\"a\",\"b\":\"1\",\"link\":\"c\",\"b\":\"2\"\x7d" = .ok d ∧
          d.link = "c" ∧ d.command.args = "HSET" :: "c" :: fields.flatMap (fun f => [f.1, f.2]) ∧
          ("b", "2") ∈ fields ∧ ("b", "1") ∉ fields) ∧
      (∃ fault, Document.parse "\x7b\"link\":null,\"link\":\"c\"\x7d" = .error (.malformed fault)) ∧
      Document.parse "\x7b\"link\":\"c\",\"link\":\"\"\x7d" = .error .missingLink := by
  have bare := blanks_nil isSpace
  have text : ∀ x, (Tree.string x).Spelling 0 (writeString x) := quoted_writeString
  have stored : IsObject _ "\x7b\"link\":\"a\",\"b\":\"1\",\"link\":\"c\",\"b\":\"2\"\x7d" :=
    ⟨0, [], _, [], bare,
      .unspaced true "link" (text "a") <| .unspaced false "b" (text "1") <|
        .unspaced false "link" (text "c") <| .unspaced false "b" (text "2") <| .close bare,
      bare, by decide +kernel⟩
  have null : IsObject [("link", .null), ("link", .string "c")]
      "\x7b\"link\":null,\"link\":\"c\"\x7d" :=
    ⟨0, [], _, [], bare,
      .unspaced true "link" rfl <| .unspaced false "link" (text "c") <| .close bare,
      bare, by decide +kernel⟩
  have empty : IsObject _ "\x7b\"link\":\"c\",\"link\":\"\"\x7d" :=
    ⟨0, [], _, [], bare,
      .unspaced true "link" (text "c") <| .unspaced false "link" (text "") <| .close bare,
      bare, by decide +kernel⟩
  refine ⟨?_, (objects_of_strings_are_stored null).1 ⟨_, List.mem_cons_self, by simp⟩,
    ((objects_of_strings_are_stored empty).2 (by simp)).1 (.inr ?_)⟩
  · obtain ⟨d, fields, parsed, link, args, -, held⟩ :=
      ((objects_of_strings_are_stored stored).2 (by simp)).2 "c" (by decide)
        (lookupLast_eq_some_iff.mp rfl)
    have told : ∀ key x, (key, x) ∈ fields ↔ _ := fun key x =>
      (held key x).trans lookupLast_eq_some_iff.symm
    exact ⟨d, fields, parsed, link, args, (told _ _).mpr rfl, by simp [told, lookupLast]⟩
  · exact lookupLast_eq_some_iff.mp rfl

end SearchLoad.Document
