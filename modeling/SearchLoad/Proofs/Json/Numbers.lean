import SearchLoad.Proofs.Json.Objects

namespace SearchLoad.Json

/-- A number as it is written: the digits of its parts, whatever they come to. -/
structure Literal where
  negative : Bool
  whole : List Char
  fraction : Option (List Char)
  exponent : Option Exponent

def Digits (ds : List Char) : Prop := ds ≠ [] ∧ ∀ d ∈ ds, Number.isDigit d = true

/-- What stands for the digits behind the point, if there are any. -/
inductive FractionSpelling : Option (List Char) → List Char → Prop
  | none : FractionSpelling .none []
  | some {ds : List Char} (digits : Digits ds) : FractionSpelling (.some ds) ('.' :: ds)

/-- The signs of an exponent, and whether they make it negative. -/
def exponentSigns : List (List Char × Bool) := [(['-'], true), (['+'], false), ([], false)]

/-- What stands for an exponent, if there is one: a letter, a sign or none, and digits. -/
inductive ExponentSpelling : Option Exponent → List Char → Prop
  | none : ExponentSpelling .none []
  | some {letter : Char} {sign ds : List Char} {negative : Bool}
      (known : letter = 'e' ∨ letter = 'E') (signed : (sign, negative) ∈ exponentSigns)
      (digits : Digits ds) : ExponentSpelling (.some ⟨negative, ds⟩) (letter :: (sign ++ ds))

namespace Literal

/-- What stands for a number behind its sign. No zero stands before another digit. -/
def Unsigned (l : Literal) (s : List Char) : Prop :=
  Digits l.whole ∧ (l.whole.head? = some '0' → l.whole = ['0']) ∧
    ∃ f e, FractionSpelling l.fraction f ∧ ExponentSpelling l.exponent e ∧ s = l.whole ++ (f ++ e)

def Spelling (l : Literal) (s : List Char) : Prop :=
  ∃ t, l.Unsigned t ∧ s = if l.negative then '-' :: t else t

/-- The number that a literal comes to; nothing if it is too large. -/
def number? (l : Literal) : Option Number :=
  match l.fraction, l.exponent with
  | none, none => Number.ofWhole? l.negative l.whole
  | some ds, none => Number.ofParts? l.negative l.whole ds 0
  | fraction, some e =>
    let fraction := fraction.getD []
    match beyond31Bits 0 e.digits with
    | none => Number.ofParts? l.negative l.whole fraction e.value
    | some _ =>
      if e.negative || isZero l.whole fraction then some (.float l.negative 0) else none

end Literal

/-- No digit stands in front. -/
def Stops (s : List Char) : Prop := ∀ c ∈ s.head?, Number.isDigit c = false

variable {ds s rest : List Char}

/-- What ends a value is no part of a number. -/
theorem Ends.foreign (h : Ends rest) {c : Char} (hc : c ∈ rest.head?) :
    Number.isDigit c = false ∧ c ≠ '.' ∧ c ≠ 'e' ∧ c ≠ 'E' := by
  have ends := h c hc
  simp only [isSpace, Bool.or_eq_true, decide_eq_true_eq, or_assoc] at ends
  rcases ends with rfl | rfl | rfl | rfl | rfl | rfl | rfl <;> decide

theorem Ends.stops (h : Ends rest) : Stops rest := fun _ hc => (h.foreign hc).1

theorem Digits.ne_sign (digits : Digits ds) (rest : List Char) :
    ∀ c ∈ (ds ++ rest).head?, c ≠ '-' ∧ c ≠ '+' := by
  obtain ⟨d, more, rfl⟩ := List.exists_cons_of_ne_nil digits.1
  have digit : Number.isDigit d = true := digits.2 d List.mem_cons_self
  intro c hc
  obtain rfl := Option.some.inj hc
  constructor
  · rintro rfl
    exact absurd digit (by decide)
  · rintro rfl
    exact absurd digit (by decide)

theorem readDigits_of_digits (digits : Digits ds) (stops : Stops rest) :
    readDigits (ds ++ rest) = .ok (ds, rest) := by
  obtain ⟨nonempty, digits⟩ := digits
  have stop : rest.takeWhile Number.isDigit = [] ∧ rest.dropWhile Number.isDigit = rest := by
    cases rest with
    | nil => exact ⟨rfl, rfl⟩
    | cons c rest =>
      have other : Number.isDigit c = false := stops c rfl
      simp [other]
  have taken : (ds ++ rest).takeWhile Number.isDigit = ds := by
    rw [List.takeWhile_append_of_pos digits, stop.1, List.append_nil]
  have left : (ds ++ rest).dropWhile Number.isDigit = rest := by
    rw [List.dropWhile_append_of_pos digits, stop.2]
  obtain ⟨d, more, rfl⟩ := List.exists_cons_of_ne_nil nonempty
  have first : Number.isDigit d = true := digits d List.mem_cons_self
  rw [List.cons_append] at taken left ⊢
  rw [readDigits]
  simp only [first, taken, left]
  rfl

theorem readWhole_of_digits (digits : Digits ds) (zero : ds.head? = some '0' → ds = ['0'])
    (stops : Stops rest) : readWhole (ds ++ rest) = .ok (ds, rest) := by
  rw [readWhole, readDigits_of_digits digits stops]
  simp only [bind, Except.bind]
  split
  · rename_i same
    obtain ⟨rfl, -⟩ := Prod.mk.inj same
    have short := zero rfl
    simp at short
  · rfl

theorem readFraction_of_spelling {fraction : Option (List Char)}
    (h : FractionSpelling fraction s) (stops : Stops rest) (point : rest.head? ≠ some '.') :
    readFraction (s ++ rest) = .ok (fraction, rest) := by
  cases h with
  | none =>
    rw [List.nil_append]
    unfold readFraction
    split
    · exact absurd rfl point
    · rfl
  | some digits =>
    rw [List.cons_append, readFraction, readDigits_of_digits digits stops]
    rfl

theorem readExponent_unsigned {letter : Char} (known : letter = 'e' ∨ letter = 'E')
    (unsigned : ∀ c ∈ s.head?, c ≠ '-' ∧ c ≠ '+') (read : readDigits s = .ok (ds, rest)) :
    readExponent (letter :: s) = .ok (some ⟨false, ds⟩, rest) := by
  have minus : ∀ t, s ≠ '-' :: t := by
    rintro t rfl
    exact (unsigned '-' rfl).1 rfl
  have plus : ∀ t, s ≠ '+' :: t := by
    rintro t rfl
    exact (unsigned '+' rfl).2 rfl
  rcases known with rfl | rfl
  · unfold readExponent
    split <;> simp_all [bind, Except.bind]
  · unfold readExponent
    split <;> simp_all [bind, Except.bind]

theorem readExponent_of_spelling {exponent : Option Exponent} (h : ExponentSpelling exponent s)
    (ends : Ends rest) : readExponent (s ++ rest) = .ok (exponent, rest) := by
  cases h with
  | none =>
    have other : ∀ c ∈ rest.head?, c ≠ 'e' ∧ c ≠ 'E' := fun c hc => (ends.foreign hc).2.2
    rw [List.nil_append]
    unfold readExponent
    split
    all_goals first | rfl | exact absurd rfl (other _ rfl).1 | exact absurd rfl (other _ rfl).2
  | @some letter sign ds negative known signed digits =>
    have read : readDigits (ds ++ rest) = .ok (ds, rest) := readDigits_of_digits digits ends.stops
    simp only [exponentSigns, List.mem_cons, Prod.mk.injEq, List.not_mem_nil, or_false] at signed
    rcases signed with ⟨rfl, rfl⟩ | ⟨rfl, rfl⟩ | ⟨rfl, rfl⟩
    · rcases known with rfl | rfl <;> simp [readExponent, read, bind, Except.bind]
    · rcases known with rfl | rfl <;> simp [readExponent, read, bind, Except.bind]
    · exact readExponent_unsigned known (digits.ne_sign rest) read

/-- What stands behind the digits of a number begins with none. -/
theorem FractionSpelling.stops {fraction : Option (List Char)} (h : FractionSpelling fraction s)
    (stops : Stops rest) : Stops (s ++ rest) := by
  cases h with
  | none => exact stops
  | some digits =>
    intro c hc
    obtain rfl := Option.some.inj hc
    decide

theorem ExponentSpelling.head_ne {exponent : Option Exponent} (h : ExponentSpelling exponent s)
    (ends : Ends rest) : Stops (s ++ rest) ∧ (s ++ rest).head? ≠ Option.some '.' := by
  cases h with
  | none =>
    exact ⟨ends.stops, fun point => (ends.foreign point).2.1 rfl⟩
  | some known signed digits =>
    rcases known with rfl | rfl
    · exact ⟨fun c hc => Option.some.inj hc ▸ rfl, by simp⟩
    · exact ⟨fun c hc => Option.some.inj hc ▸ rfl, by simp⟩

/-- A number is read behind its sign as what it comes to. -/
theorem readUnsigned_of_spelling {l : Literal} {n : Number} (h : l.Unsigned s)
    (value : l.number? = some n) (ends : Ends rest) :
    readUnsigned l.negative (s ++ rest) = .ok (n, rest) := by
  obtain ⟨digits, zero, f, e, spelled, spelled', rfl⟩ := h
  obtain ⟨stops, point⟩ := spelled'.head_ne ends
  have whole := readWhole_of_digits digits zero (spelled.stops stops)
  have fraction := readFraction_of_spelling spelled stops point
  have exponent := readExponent_of_spelling spelled' ends
  rw [List.append_assoc, List.append_assoc, readUnsigned]
  simp only [bind, Except.bind, whole, fraction, exponent]
  obtain ⟨negative, ds, fs, _ | ⟨sign, es⟩⟩ := l
  · cases fs with
    | none =>
      have value : Number.ofWhole? negative ds = some n := value
      simp only [value]
    | some fs =>
      have value : Number.ofParts? negative ds fs 0 = some n := value
      simp only [Option.getD_some, value]
  · have value : (match beyond31Bits 0 es with
        | none => Number.ofParts? negative ds (fs.getD []) (Exponent.mk sign es).value
        | some _ => if sign || isZero ds (fs.getD []) then some (.float negative 0) else none) =
          some n := by
      cases fs <;> exact value
    cases found : beyond31Bits 0 es with
    | none =>
      rw [found] at value
      cases fs <;> simp_all
    | some left =>
      rw [found] at value
      obtain ⟨small, same⟩ := Option.ite_none_right_eq_some.mp value
      cases fs <;> simp_all

theorem digits_of_readDigits (h : readDigits s = .ok (ds, rest)) : Digits ds ∧ s = ds ++ rest := by
  unfold readDigits at h
  split at h
  · contradiction
  · rename_i c t
    split at h
    · rename_i digit
      obtain ⟨rfl, rfl⟩ := Prod.mk.inj (Except.ok.inj h)
      refine ⟨⟨?_, fun d => List.mem_takeWhile_imp⟩, List.takeWhile_append_dropWhile.symm⟩
      simp [digit]
    · contradiction

theorem digits_of_readWhole (h : readWhole s = .ok (ds, rest)) :
    Digits ds ∧ (ds.head? = some '0' → ds = ['0']) ∧ s = ds ++ rest := by
  simp only [readWhole, bind_eq_ok_iff] at h
  obtain ⟨found, read, step⟩ := h
  split at step
  · contradiction
  · rename_i r short
    obtain rfl := Except.ok.inj step
    obtain ⟨digits, whole⟩ := digits_of_readDigits read
    refine ⟨digits, ?_, whole⟩
    intro zero
    obtain ⟨more, rfl⟩ := List.head?_eq_some_iff.mp zero
    cases more with
    | nil => rfl
    | cons d more => exact absurd rfl (short d more rest)

theorem spelling_of_readFraction {fraction : Option (List Char)}
    (h : readFraction s = .ok (fraction, rest)) :
    ∃ t, FractionSpelling fraction t ∧ s = t ++ rest := by
  unfold readFraction at h
  split at h
  · simp only [bind_eq_ok_iff, Prod.exists] at h
    obtain ⟨ds, _, read, step⟩ := h
    obtain ⟨rfl, rfl⟩ := Prod.mk.inj (Except.ok.inj step)
    obtain ⟨digits, rfl⟩ := digits_of_readDigits read
    exact ⟨_, .some digits, rfl⟩
  · obtain ⟨rfl, rfl⟩ := Prod.mk.inj (Except.ok.inj h)
    exact ⟨[], .none, rfl⟩

theorem spelling_of_readExponent {exponent : Option Exponent}
    (h : readExponent s = .ok (exponent, rest)) :
    ∃ t, ExponentSpelling exponent t ∧ s = t ++ rest := by
  have behind : ∀ {negative : Bool} {s : List Char},
      (readDigits s >>= fun r => .ok (some (Exponent.mk negative r.1), r.2)) =
        .ok (exponent, rest) →
      ∃ ds, Digits ds ∧ some ⟨negative, ds⟩ = exponent ∧ s = ds ++ rest := by
    intro negative s h
    simp only [bind_eq_ok_iff, Prod.exists] at h
    obtain ⟨ds, _, read, step⟩ := h
    obtain ⟨rfl, rfl⟩ := Prod.mk.inj (Except.ok.inj step)
    obtain ⟨digits, rfl⟩ := digits_of_readDigits read
    exact ⟨ds, digits, rfl, rfl⟩
  unfold readExponent at h
  dsimp only at h
  split at h
  · obtain ⟨ds, digits, rfl, rfl⟩ := behind h
    exact ⟨_, .some (.inl rfl) (by decide : (['-'], true) ∈ exponentSigns) digits, rfl⟩
  · obtain ⟨ds, digits, rfl, rfl⟩ := behind h
    exact ⟨_, .some (.inr rfl) (by decide : (['-'], true) ∈ exponentSigns) digits, rfl⟩
  · obtain ⟨ds, digits, rfl, rfl⟩ := behind h
    exact ⟨_, .some (.inl rfl) (by decide : (['+'], false) ∈ exponentSigns) digits, rfl⟩
  · obtain ⟨ds, digits, rfl, rfl⟩ := behind h
    exact ⟨_, .some (.inr rfl) (by decide : (['+'], false) ∈ exponentSigns) digits, rfl⟩
  · obtain ⟨ds, digits, rfl, rfl⟩ := behind h
    exact ⟨_, .some (.inl rfl) (by decide : ([], false) ∈ exponentSigns) digits, rfl⟩
  · obtain ⟨ds, digits, rfl, rfl⟩ := behind h
    exact ⟨_, .some (.inr rfl) (by decide : ([], false) ∈ exponentSigns) digits, rfl⟩
  · obtain ⟨rfl, rfl⟩ := Prod.mk.inj (Except.ok.inj h)
    exact ⟨[], .none, rfl⟩

/-- What is read as a number is written as one. -/
theorem spelling_of_readUnsigned {negative : Bool} {n : Number}
    (h : readUnsigned negative s = .ok (n, rest)) :
    ∃ l t, l.negative = negative ∧ Literal.Unsigned l t ∧ l.number? = some n ∧ s = t ++ rest := by
  simp only [readUnsigned, bind_eq_ok_iff, Prod.exists] at h
  obtain ⟨whole, _, read, fraction, _, read', exponent, left, read'', step⟩ := h
  obtain ⟨digits, zero, rfl⟩ := digits_of_readWhole read
  obtain ⟨f, spelled, rfl⟩ := spelling_of_readFraction read'
  obtain ⟨e, spelled', rfl⟩ := spelling_of_readExponent read''
  split at step
  · rename_i m left' found
    obtain ⟨rfl, rfl⟩ := Prod.mk.inj (Except.ok.inj step)
    have value : (Literal.mk negative whole fraction exponent).number? = some m ∧ left = left' := by
      unfold Literal.number?
      rcases exponent with _ | ⟨sign, es⟩
      · cases fraction with
        | none => exact Prod.mk.inj found
        | some ds => exact Prod.mk.inj found
      · cases beyond : beyond31Bits 0 es with
        | none => cases fraction <;> simp_all
        | some more =>
          by_cases small : sign = true ∨ isZero whole (fraction.getD []) = true
          · cases fraction <;> simp_all
          · cases fraction <;> simp_all
    obtain ⟨value, rfl⟩ := value
    exact ⟨⟨negative, whole, fraction, exponent⟩, _, rfl,
      ⟨digits, zero, f, e, spelled, spelled', rfl⟩, value, by simp⟩
  · contradiction

end SearchLoad.Json
