import Mathlib.Data.List.Basic
import SearchLoad.Proofs.Span.Parts
import SearchLoad.Span.Text

namespace SearchLoad.Span

/-- A part that takes an `s` when there are several. -/
def pluralParts (n : Nat) (u : TimeUnit) (name : String) : List Part :=
  if n = 0 then [] else if n = 1 then [⟨1, u, name⟩] else [⟨n, u, name ++ "s"⟩]

def countedParts (n : Nat) (u : TimeUnit) (name : String) : List Part :=
  if n = 0 then [] else [⟨n, u, name⟩]

/-- The parts of a span that are written, from years down to nanoseconds. -/
def parts (s : Span) : List Part :=
  pluralParts (s.seconds / 31557600) .year "year" ++
    pluralParts (s.seconds % 31557600 / 2630016) .month "month" ++
    pluralParts (s.seconds % 31557600 % 2630016 / 86400) .day "day" ++
    countedParts (s.seconds % 31557600 % 2630016 % 86400 / 3600) .hour "h" ++
    countedParts (s.seconds % 31557600 % 2630016 % 86400 % 3600 / 60) .minute "m" ++
    countedParts (s.seconds % 31557600 % 2630016 % 86400 % 60) .second "s" ++
    countedParts (s.subNanos / 1000000) .millisecond "ms" ++
    countedParts (s.subNanos / 1000 % 1000) .microsecond "us" ++
    countedParts (s.subNanos % 1000) .nanosecond "ns"

theorem plural_eq (n : Nat) (u : TimeUnit) (name : String) :
    (plural n name).map String.toList = (pluralParts n u name).map Part.text := by
  unfold plural pluralParts
  split
  · rfl
  · split
    · have one : (toString 1).toList = ['1'] := by decide
      simp only [List.map_cons, List.map_nil, Part.text, one, String.toList_append]
      rfl
    · simp [Part.text]

theorem counted_eq (n : Nat) (u : TimeUnit) (name : String) :
    (counted n name).map String.toList = (countedParts n u name).map Part.text := by
  unfold counted countedParts
  split
  · rfl
  · simp [Part.text]

theorem items_eq (s : Span) : s.items.map String.toList = s.parts.map Part.text := by
  simp only [items, parts, List.map_append, ← plural_eq, ← counted_eq]

theorem lengthOf_append (ps qs : List Part) :
    lengthOf (ps ++ qs) = lengthOf ps + lengthOf qs := by
  simp [lengthOf]

theorem nanos_zero (u : TimeUnit) (name : String) : (Part.mk 0 u name).nanos = 0 := by
  cases h : u.length <;> simp [Part.nanos, h]

theorem lengthOf_singleton (n : Nat) (u : TimeUnit) (name other : String) :
    lengthOf [⟨n, u, name⟩] = (Part.mk n u other).nanos := by
  simp [lengthOf, Part.nanos]

/-- Zeros that are left out make no difference, nor does an `s`. -/
theorem lengthOf_pluralParts (n : Nat) (u : TimeUnit) (name : String) :
    lengthOf (pluralParts n u name) = (Part.mk n u name).nanos := by
  unfold pluralParts
  split
  · rename_i zero
    rw [zero, nanos_zero]
    rfl
  · split
    · rename_i one
      rw [one]
      exact lengthOf_singleton 1 u name name
    · exact lengthOf_singleton n u (name ++ "s") name

theorem lengthOf_countedParts (n : Nat) (u : TimeUnit) (name : String) :
    lengthOf (countedParts n u name) = (Part.mk n u name).nanos := by
  unfold countedParts
  split
  · rename_i zero
    rw [zero, nanos_zero]
    rfl
  · exact lengthOf_singleton n u name name

theorem lengthOf_parts (s : Span) : lengthOf s.parts = s.nanos := by
  have seconds : nanosPerSecond * s.seconds + s.subNanos = s.nanos := Nat.div_add_mod _ _
  simp only [parts, lengthOf_append, lengthOf_pluralParts, lengthOf_countedParts, Part.nanos,
    TimeUnit.length]
  unfold nanosPerSecond at *
  omega

theorem proper_pluralParts {n : Nat} {u : TimeUnit} {name : String}
    (one : TimeUnit.ofName? name = some u) (several : TimeUnit.ofName? (name ++ "s") = some u)
    (long : ∃ k, u.length = .seconds k) : ∀ p ∈ pluralParts n u name, p.Proper := by
  obtain ⟨k, long⟩ := long
  intro p hp
  unfold pluralParts at hp
  split at hp
  · contradiction
  · split at hp
    · obtain rfl := List.mem_singleton.mp hp
      exact ⟨one, by simp [long]⟩
    · obtain rfl := List.mem_singleton.mp hp
      exact ⟨several, by simp [long]⟩

theorem proper_countedParts {n : Nat} {u : TimeUnit} {name : String}
    (named : TimeUnit.ofName? name = some u)
    (short : ∀ k, u.length = .nanos k → n * k < nanosPerSecond) :
    ∀ p ∈ countedParts n u name, p.Proper := by
  intro p hp
  unfold countedParts at hp
  split at hp
  · contradiction
  · obtain rfl := List.mem_singleton.mp hp
    exact ⟨named, short⟩

theorem proper_parts (s : Span) : ∀ p ∈ s.parts, p.Proper := by
  have below : s.subNanos < nanosPerSecond := Nat.mod_lt _ (by decide)
  unfold nanosPerSecond at below
  simp only [parts, List.forall_mem_append]
  refine ⟨⟨⟨⟨⟨⟨⟨⟨?_, ?_⟩, ?_⟩, ?_⟩, ?_⟩, ?_⟩, ?_⟩, ?_⟩, ?_⟩
  · exact proper_pluralParts (by decide) (by decide) ⟨_, rfl⟩
  · exact proper_pluralParts (by decide) (by decide) ⟨_, rfl⟩
  · exact proper_pluralParts (by decide) (by decide) ⟨_, rfl⟩
  · exact proper_countedParts (by decide) (by simp [TimeUnit.length])
  · exact proper_countedParts (by decide) (by simp [TimeUnit.length])
  · exact proper_countedParts (by decide) (by simp [TimeUnit.length])
  all_goals
    refine proper_countedParts (by decide) ?_
    intro k hk
    cases hk
    unfold nanosPerSecond
    omega

theorem intercalate_text (p : Part) (ps : List Part) :
    [' '].intercalate ((p :: ps).map Part.text) = p.text ++ following ps := by
  induction ps generalizing p with
  | nil => simp [following]
  | cons q ps ih =>
    rw [List.map_cons, List.map_cons, List.intercalate_cons_cons, ← List.map_cons, ih]
    simp [following]

/-- The full form of a span is made of parts: of one, if it is zero. -/
theorem display_eq (s : Span) : ∃ p ps, (∀ q ∈ p :: ps, q.Proper) ∧
    s.nanos = lengthOf (p :: ps) ∧ s.display.toList = p.text ++ following ps := by
  unfold display
  split
  · rename_i zero
    exact ⟨⟨0, .second, "s"⟩, [], by simpa using ⟨by decide, by simp [TimeUnit.length]⟩, zero, rfl⟩
  · rename_i nonzero
    have length := lengthOf_parts s
    have proper := proper_parts s
    cases hp : s.parts with
    | nil =>
      rw [hp] at length
      exact absurd length.symm nonzero
    | cons p ps =>
      rw [hp] at length proper
      refine ⟨p, ps, proper, length.symm, ?_⟩
      have space : " ".toList = [' '] := rfl
      rw [String.toList_intercalate, items_eq, hp, space, intercalate_text]

/-- A span is what its full form reads as. -/
theorem parse_display (s : Span) : parse s.display = .ok s := by
  obtain ⟨p, ps, proper, length, text⟩ := s.display_eq
  rw [parse, text]
  exact read_parts proper length

theorem Part.Proper.mem_text {p : Part} (proper : p.Proper) {c : Char} (h : c ∈ p.text) :
    Number.isDigit c = true ∨ isUnitLetter c = true := by
  rcases List.mem_append.mp h with h | h
  · exact .inl (Number.isDigit_of_mem_toString h)
  · exact .inr ((TimeUnit.letters_of_ofName? proper.named).2 c h)

theorem mem_display {s : Span} {c : Char} (h : c ∈ s.display.toList) :
    Number.isDigit c = true ∨ isUnitLetter c = true ∨ c = ' ' := by
  obtain ⟨p, ps, proper, -, text⟩ := s.display_eq
  rw [text] at h
  obtain ⟨q, hq, inside⟩ : ∃ q ∈ p :: ps, c ∈ q.text ∨ c = ' ' := by
    rcases List.mem_append.mp h with h | h
    · exact ⟨p, List.mem_cons_self, .inl h⟩
    · obtain ⟨q, hq, h⟩ := List.mem_flatMap.mp h
      exact ⟨q, List.mem_cons_of_mem _ hq, (List.mem_cons.mp h).symm⟩
  rcases inside with inside | space
  · exact ((proper q hq).mem_text inside).imp_right .inl
  · exact .inr (.inr space)

theorem display_eq_cons (s : Span) :
    ∃ c cs, s.display.toList = c :: cs ∧ Number.isDigit c = true := by
  obtain ⟨p, ps, -, -, text⟩ := s.display_eq
  obtain ⟨c, ds, written, digits, -⟩ := Number.toString_eq_cons p.count
  rw [text, Part.text, written]
  exact ⟨c, _, rfl, digits c List.mem_cons_self⟩

theorem Part.Proper.getLast?_append {p : Part} (proper : p.Proper) (s : List Char) {c : Char}
    (h : c ∈ (s ++ p.text).getLast?) : isUnitLetter c = true := by
  obtain ⟨full, letters⟩ := TimeUnit.letters_of_ofName? proper.named
  rw [Part.text, ← List.append_assoc, List.getLast?_append_of_ne_nil _ full] at h
  exact letters c (List.mem_of_getLast? h)

theorem getLast?_display {s : Span} {c : Char} (h : c ∈ s.display.toList.getLast?) :
    isUnitLetter c = true := by
  obtain ⟨p, ps, proper, -, text⟩ := s.display_eq
  rw [text] at h
  rcases List.eq_nil_or_concat ps with rfl | ⟨before, q, rfl⟩
  · exact (proper p List.mem_cons_self).getLast?_append [] (by simpa [following] using h)
  · have split : p.text ++ following (before.concat q) =
        p.text ++ following before ++ [' '] ++ q.text := by
      simp [following]
    rw [split] at h
    exact (proper q (by simp)).getLast?_append _ h

theorem trim_display (s : Span) : Text.trim s.display.toList = s.display.toList := by
  obtain ⟨c, cs, text, digit⟩ := s.display_eq_cons
  refine Text.trim_eq_self ?_ ?_
  · intro d hd
    rw [text] at hd
    obtain rfl : c = d := Option.some.inj hd
    exact Number.isBlank_eq_false_of_isDigit digit
  · exact fun d hd => isBlank_eq_false_of_isUnitLetter (getLast?_display hd)

end SearchLoad.Span
