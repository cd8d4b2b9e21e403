import SearchLoad.Corpus.Record
import SearchLoad.Proofs.Json.Trees

namespace SearchLoad.Record

variable {members members' : List (String × Json.Value)}

theorem field_eq_ok_some_iff {key x : String} :
    field members key = .ok (some x) ↔ Json.lookupLast key members = some (.string x) := by
  unfold field
  split <;> simp_all

theorem require_eq_ok_iff {key x : String} {found : Option String} :
    require key found = .ok x ↔ found = some x := by
  cases found <;> simp [require]

theorem ofMembers_eq_ok_iff {r : Record} : ofMembers members = .ok r ↔
    Json.lookupLast "link" members = some (.string r.link) ∧
      Json.lookupLast "headline" members = some (.string r.headline) ∧
      Json.lookupLast "short_description" members = some (.string r.shortDescription) := by
  simp only [ofMembers, bind_eq_ok_iff, require_eq_ok_iff, ← field_eq_ok_some_iff]
  constructor
  · rintro ⟨_, headline, _, link, _, description, _, rfl, _, rfl, _, rfl, same⟩
    obtain rfl := Except.ok.inj same
    exact ⟨link, headline, description⟩
  · rintro ⟨link, headline, description⟩
    exact ⟨_, headline, _, link, _, description, _, rfl, _, rfl, _, rfl, rfl⟩

/-- What members are read as depends on the last values of the keys alone. -/
theorem ofMembers_congr
    (same : ∀ key, Json.lookupLast key members = Json.lookupLast key members') :
    ofMembers members = ofMembers members' := by
  simp only [ofMembers, field, same]

section Trees

open Json

variable {ms : List (String × Tree)} {line : String}

theorem parse_of_isObject (h : IsObject ms line)
    (readable : ∀ m ∈ ms, m.2.Readable (maxDepth - 1)) :
    Record.parse line = ofMembers (ms.map fun m => (m.1, m.2.value (maxDepth - 1))) := by
  rw [Record.parse, h.parseObject_eq readable]
  rfl

theorem lookupLast_value_eq_iff {key x : String} {depth : Nat} :
    lookupLast key (ms.map fun m => (m.1, m.2.value depth)) = some (.string x) ↔
      IsLast key (.string x) ms := by
  rw [lookupLast_map, Option.map_eq_some_iff, ← lookupLast_eq_some_iff]
  simp only [Tree.value_eq_string_iff, exists_eq_right]

/-- A record is read from the object that its line is, exactly if the last values of its fields are
strings, and it is made of these. Members in another order are read as the same record, or are no
record for the same fault. -/
theorem last_values_are_read (h : IsObject ms line)
    (readable : ∀ m ∈ ms, m.2.Readable (maxDepth - 1)) :
    ((∃ r, Record.parse line = .ok r) ↔
        ∀ key ∈ ["link", "headline", "short_description"], ∃ x, IsLast key (.string x) ms) ∧
      (∀ r, Record.parse line = .ok r → IsLast "link" (.string r.link) ms ∧
        IsLast "headline" (.string r.headline) ms ∧
        IsLast "short_description" (.string r.shortDescription) ms) ∧
      ∀ ms' line', Rearranged ms ms' → IsObject ms' line' →
        Record.parse line' = Record.parse line := by
  have parsed : ∀ r, Record.parse line = .ok r ↔ IsLast "link" (.string r.link) ms ∧
      IsLast "headline" (.string r.headline) ms ∧
      IsLast "short_description" (.string r.shortDescription) ms := by
    intro r
    rw [parse_of_isObject h readable, ofMembers_eq_ok_iff]
    simp only [lookupLast_value_eq_iff]
  refine ⟨?_, fun r => (parsed r).mp, ?_⟩
  · simp only [parsed, List.forall_mem_cons, List.not_mem_nil, false_implies, implies_true,
      and_true]
    constructor
    · rintro ⟨r, link, headline, description⟩
      exact ⟨⟨_, link⟩, ⟨_, headline⟩, ⟨_, description⟩⟩
    · rintro ⟨⟨link, last⟩, ⟨headline, last'⟩, ⟨description, last''⟩⟩
      exact ⟨⟨link, headline, description⟩, last, last', last''⟩
  · intro ms' line' moved h'
    have readable' : ∀ m ∈ ms', m.2.Readable (maxDepth - 1) :=
      fun m member => readable m ((moved.mem_iff m).mpr member)
    rw [parse_of_isObject h readable, parse_of_isObject h' readable']
    refine ofMembers_congr fun key => ?_
    rw [lookupLast_map, lookupLast_map, moved.lookupLast_eq]

/-- A link that is an array of a number does not count before one that is a string, wherever the
other members stand. -/
theorem overridden_link_is_not_read :
    Record.parse
      "\x7b\"link\":[-1e3],\"headline\":\"\\\"\",\"link\":\"a\",\"short_description\":\"\"\x7d\n" =
        .ok ⟨"a", "\"", ""⟩ ∧
    Record.parse
      "\x7b\"short_description\":\"\",\"link\":[-1e3],\"link\":\"a\",\"headline\":\"\\\"\"\x7d" =
        .ok ⟨"a", "\"", ""⟩ := by
  have bare := blanks_nil isSpace
  have digits : ∀ d ∈ ['1', '3'], Digits [d] := by simp [Digits, Number.isDigit]
  have number : Literal.Spelling ⟨true, ['1'], none, some ⟨false, ['3']⟩⟩ "-1e3".toList :=
    ⟨_, ⟨digits _ (by decide), fun zero => absurd zero (by decide), _, _, .none,
      .some (.inl rfl) (by decide : ([], false) ∈ exponentSigns) (digits _ (by decide)), rfl⟩, rfl⟩
  have array : (Tree.array [.number ⟨true, ['1'], none, some ⟨false, ['3']⟩⟩]).Spelling 1
      "[-1e3]".toList := ⟨_, .element (.first bare) number (.close bare), rfl⟩
  have text : ∀ x, (Tree.string x).Spelling 1 (writeString x) := quoted_writeString
  have written : IsObject _
      "\x7b\"link\":[-1e3],\"headline\":\"\\\"\",\"link\":\"a\",\"short_description\":\"\"\x7d\n" :=
    ⟨1, [], _, ['\n'], bare,
      .unspaced true "link" array <| .unspaced false "headline" (text "\"") <|
        .unspaced false "link" (text "a") <| .unspaced false "short_description" (text "") <|
        .close bare,
      by simp [Blanks, isSpace], by decide +kernel⟩
  have moved : IsObject _
      "\x7b\"short_description\":\"\",\"link\":[-1e3],\"link\":\"a\",\"headline\":\"\\\"\"\x7d" :=
    ⟨1, [], _, [], bare,
      .unspaced true "short_description" (text "") <| .unspaced false "link" array <|
        .unspaced false "link" (text "a") <| .unspaced false "headline" (text "\"") <|
        .close bare,
      bare, by decide +kernel⟩
  have small : (Literal.mk true ['1'] none (some ⟨false, ['3']⟩)).number?.isSome = true := by
    decide +kernel
  have nested : maxDepth - 1 = 125 + 1 := rfl
  obtain ⟨reads, last, moves⟩ :=
    last_values_are_read written (by simp [nested, Tree.Readable, small])
  obtain ⟨r, parsed⟩ := reads.mpr (by simp [← lookupLast_eq_some_iff, lookupLast])
  have record : r = ⟨"a", "\"", ""⟩ := by
    obtain ⟨link, headline, description⟩ := last r parsed
    rw [← lookupLast_eq_some_iff] at link headline description
    cases r
    simp_all [lookupLast]
  subst record
  have same := moves _ _ ?_ moved
  · exact ⟨parsed, same.trans parsed⟩
  · intro key
    by_cases link : "link" = key
    · subst link
      rfl
    by_cases headline : "headline" = key
    · subst headline
      rfl
    · simp [List.filter_cons, link, headline]

end Trees

end SearchLoad.Record
