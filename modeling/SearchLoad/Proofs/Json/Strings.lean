import Mathlib.Tactic.IntervalCases
import SearchLoad.Json.Scan
import SearchLoad.Proofs.Fallible
import SearchLoad.Proofs.Text.Utf8

namespace SearchLoad.Json

/-- A hexadecimal digit, in either case. -/
def HexDigit (v : Nat) (c : Char) : Prop :=
  v < 16 ∧ (c = Nat.digitChar v ∨ c = (Nat.digitChar v).toUpper)

/-- Four hexadecimal digits. -/
def Hex (n : Nat) (ds : List Char) : Prop :=
  List.Forall₂ HexDigit [n / 4096, n / 256 % 16, n / 16 % 16, n % 16] ds

/-- The letters that stand for a character behind a backslash. -/
def shortEscapes : List (Char × Char) :=
  [('"', '"'), ('\\', '\\'), ('/', '/'), ('b', '\x08'), ('f', '\x0c'), ('n', '\n'), ('r', '\r'),
    ('t', '\t')]

/-- What stands for a character behind a backslash and a u: its number, or the two halves of a
number beyond sixteen bits. -/
inductive NumberEscape : Char → List Char → Prop
  | whole {c : Char} {ds : List Char} (hex : Hex c.toNat ds) : NumberEscape c ds
  | halves {c : Char} {ds es : List Char} (beyond : 0x10000 ≤ c.toNat)
      (leading : Hex (0xD800 + (c.toNat - 0x10000) / 0x400) ds)
      (trailing : Hex (0xDC00 + (c.toNat - 0x10000) % 0x400) es) :
      NumberEscape c (ds ++ '\\' :: 'u' :: es)

/-- What stands for a character in a string. -/
inductive CharSpelling : Char → List Char → Prop
  | plain {c : Char} (printable : ' ' ≤ c) (not_quote : c ≠ '"') (not_backslash : c ≠ '\\') :
      CharSpelling c [c]
  | short {c letter : Char} (known : (letter, c) ∈ shortEscapes) : CharSpelling c ['\\', letter]
  | number {c : Char} {s : List Char} (escape : NumberEscape c s) :
      CharSpelling c ('\\' :: 'u' :: s)

/-- What stands for characters in a string. -/
inductive Spelling : List Char → List Char → Prop
  | nil : Spelling [] []
  | cons {c : Char} {cs s t : List Char} (head : CharSpelling c s) (tail : Spelling cs t) :
      Spelling (c :: cs) (s ++ t)

/-- What stands for a string, in its quotes. -/
def Quoted (x : String) (s : List Char) : Prop :=
  ∃ t, Spelling x.toList t ∧ s = '"' :: (t ++ ['"'])

theorem hexValue?_eq_some_iff {c : Char} {v : Nat} : hexValue? c = some v ↔ HexDigit v c := by
  constructor
  · intro h
    simp only [hexValue?, Bool.and_eq_true, decide_eq_true_eq, Char.le_def,
      UInt32.le_iff_toNat_le] at h
    change (if 48 ≤ c.toNat ∧ c.toNat ≤ 57 then some (c.toNat - 48)
      else if 97 ≤ c.toNat ∧ c.toNat ≤ 102 then some (c.toNat - 97 + 10)
      else if 65 ≤ c.toNat ∧ c.toNat ≤ 70 then some (c.toNat - 65 + 10) else none) = some v at h
    rw [← Char.ofNat_toNat c]
    generalize c.toNat = n at h
    have ranges : (48 ≤ n ∧ n ≤ 57 ∧ v = n - 48) ∨ (97 ≤ n ∧ n ≤ 102 ∧ v = n - 97 + 10) ∨
        (65 ≤ n ∧ n ≤ 70 ∧ v = n - 65 + 10) := by grind
    rcases ranges with ⟨low, high, rfl⟩ | ⟨low, high, rfl⟩ | ⟨low, high, rfl⟩
    · interval_cases n <;> exact ⟨by decide, .inl rfl⟩
    · interval_cases n <;> exact ⟨by decide, .inl rfl⟩
    · interval_cases n <;> exact ⟨by decide, .inr rfl⟩
  · rintro ⟨small, rfl | rfl⟩
    · interval_cases v <;> rfl
    · interval_cases v <;> rfl

theorem hexNumber?_eq_some_iff {a b c d : Char} {n : Nat} :
    hexNumber? [a, b, c, d] = some n ↔ Hex n [a, b, c, d] := by
  have read : hexNumber? [a, b, c, d] = some n ↔ ∃ v w x y, HexDigit v a ∧ HexDigit w b ∧
      HexDigit x c ∧ HexDigit y d ∧ ((v * 16 + w) * 16 + x) * 16 + y = n := by
    simp [hexNumber?, Option.bind_eq_some_iff, hexValue?_eq_some_iff]
  rw [read, Hex]
  constructor
  · rintro ⟨v, w, x, y, hv, hw, hx, hy, rfl⟩
    have bounds : v < 16 ∧ w < 16 ∧ x < 16 ∧ y < 16 := ⟨hv.1, hw.1, hx.1, hy.1⟩
    have digits : [(((v * 16 + w) * 16 + x) * 16 + y) / 4096,
        (((v * 16 + w) * 16 + x) * 16 + y) / 256 % 16, (((v * 16 + w) * 16 + x) * 16 + y) / 16 % 16,
        (((v * 16 + w) * 16 + x) * 16 + y) % 16] = [v, w, x, y] := by
      simp only [List.cons.injEq, and_true]
      omega
    rw [digits]
    exact .cons hv (.cons hw (.cons hx (.cons hy .nil)))
  · rintro (_ | ⟨ha, _ | ⟨hb, _ | ⟨hc, _ | ⟨hd, -⟩⟩⟩⟩)
    exact ⟨_, _, _, _, ha, hb, hc, hd, by omega⟩

theorem readHex_eq_ok_iff {s rest : List Char} {n : Nat} :
    readHex s = .ok (n, rest) ↔ ∃ ds, Hex n ds ∧ s = ds ++ rest := by
  constructor
  · intro h
    unfold readHex at h
    split at h
    · rename_i a b c d tail
      split at h
      · rename_i m number
        obtain ⟨rfl, rfl⟩ : m = n ∧ tail = rest := by simpa using h
        exact ⟨[a, b, c, d], hexNumber?_eq_some_iff.mp number, rfl⟩
      · contradiction
    · split at h <;> contradiction
  · rintro ⟨ds, hex, rfl⟩
    obtain ⟨a, b, c, d, rfl⟩ : ∃ a b c d, ds = [a, b, c, d] := by
      rcases hex with _ | ⟨-, _ | ⟨-, _ | ⟨-, _ | ⟨-, _ | _⟩⟩⟩⟩
      exact ⟨_, _, _, _, rfl⟩
    simp only [List.cons_append, List.nil_append, readHex, hexNumber?_eq_some_iff.mpr hex]

theorem Hex.lt {n : Nat} {ds : List Char} (h : Hex n ds) : n < 0x10000 := by
  cases h with
  | cons first more =>
    have small := first.1
    omega

theorem isLeading_iff {n : Nat} : isLeading n = true ↔ 0xD800 ≤ n ∧ n ≤ 0xDBFF := by
  simp [isLeading]

theorem isTrailing_iff {n : Nat} : isTrailing n = true ↔ 0xDC00 ≤ n ∧ n ≤ 0xDFFF := by
  simp [isTrailing]

theorem readTrailing_eq_ok_iff {leading : Nat} {s rest : List Char} {c : Char} :
    readTrailing leading s = .ok (c, rest) ↔ ∃ n ds, Hex n ds ∧ isTrailing n = true ∧
      Char.ofNat ((leading - 0xD800) * 0x400 + (n - 0xDC00) + 0x10000) = c ∧
      s = '\\' :: 'u' :: (ds ++ rest) := by
  constructor
  · intro h
    unfold readTrailing at h
    split at h
    · simp only [bind_eq_ok_iff, Prod.exists, readHex_eq_ok_iff] at h
      obtain ⟨n, tail, ⟨ds, hex, rfl⟩, step⟩ := h
      split at step
      · rename_i trailing
        obtain ⟨value, rfl⟩ := Prod.mk.inj (Except.ok.inj step)
        exact ⟨n, ds, hex, trailing, value, rfl⟩
      · contradiction
    all_goals contradiction
  · rintro ⟨n, ds, hex, trailing, value, rfl⟩
    simp only [readTrailing, bind_eq_ok_iff, Prod.exists, readHex_eq_ok_iff]
    refine ⟨n, rest, ⟨ds, hex, rfl⟩, ?_⟩
    rw [if_pos trailing, value]

theorem readCodePoint_eq_ok_iff {s rest : List Char} {c : Char} :
    readCodePoint s = .ok (c, rest) ↔ ∃ t, NumberEscape c t ∧ s = t ++ rest := by
  simp only [readCodePoint, bind_eq_ok_iff, Prod.exists, readHex_eq_ok_iff]
  constructor
  · rintro ⟨n, tail, ⟨ds, hex, rfl⟩, step⟩
    have small := hex.lt
    split at step
    · contradiction
    rename_i not_trailing
    rw [isTrailing_iff] at not_trailing
    split at step
    · rename_i leading
      rw [isLeading_iff] at leading
      obtain ⟨m, es, hex', trailing, rfl, rfl⟩ := readTrailing_eq_ok_iff.mp step
      rw [isTrailing_iff] at trailing
      refine ⟨ds ++ '\\' :: 'u' :: es, ?_, by simp⟩
      -- The two halves are those of the number that they make up together.
      generalize code : (n - 0xD800) * 0x400 + (m - 0xDC00) + 0x10000 = k
      have value : (Char.ofNat k).toNat = k := Text.Utf8.toNat_char (.inr (by omega))
      have first : 0xD800 + (k - 0x10000) / 0x400 = n := by omega
      have second : 0xDC00 + (k - 0x10000) % 0x400 = m := by omega
      have beyond : 0x10000 ≤ (Char.ofNat k).toNat := by omega
      exact .halves beyond (by rwa [value, first]) (by rwa [value, second])
    · rename_i not_leading
      rw [isLeading_iff] at not_leading
      obtain ⟨rfl, rfl⟩ := Prod.mk.inj (Except.ok.inj step)
      have value : (Char.ofNat n).toNat = n :=
        Text.Utf8.toNat_char (by simp only [Nat.isValidChar]; omega)
      rw [← value] at hex
      exact ⟨ds, .whole hex, rfl⟩
  · rintro ⟨t, escape, rfl⟩
    have valid : c.toNat < 0xD800 ∨ 0xDFFF < c.toNat ∧ c.toNat < 0x110000 := c.valid
    cases escape with
    | whole hex =>
      refine ⟨c.toNat, rest, ⟨t, hex, rfl⟩, ?_⟩
      rw [if_neg (by rw [isTrailing_iff]; omega), if_neg (by rw [isLeading_iff]; omega),
        Char.ofNat_toNat]
    | @halves ds es beyond leading trailing =>
      refine ⟨_, '\\' :: 'u' :: (es ++ rest), ⟨ds, leading, by simp⟩, ?_⟩
      rw [if_neg (by rw [isTrailing_iff]; omega), if_pos (by rw [isLeading_iff]; omega)]
      refine readTrailing_eq_ok_iff.mpr ⟨_, es, trailing, ?_, ?_, rfl⟩
      · rw [isTrailing_iff]
        omega
      · have value : (0xD800 + (c.toNat - 0x10000) / 0x400 - 0xD800) * 0x400 +
            (0xDC00 + (c.toNat - 0x10000) % 0x400 - 0xDC00) + 0x10000 = c.toNat := by omega
        rw [value, Char.ofNat_toNat]

theorem plainEscape?_eq_some_iff {letter c : Char} :
    plainEscape? letter = some c ↔ (letter, c) ∈ shortEscapes := by
  constructor
  · intro h
    unfold plainEscape? at h
    split at h
    all_goals first | contradiction | (obtain rfl := Option.some.inj h; decide)
  · intro h
    simp only [shortEscapes, List.mem_cons, Prod.mk.injEq, List.not_mem_nil, or_false] at h
    rcases h with ⟨rfl, rfl⟩ | ⟨rfl, rfl⟩ | ⟨rfl, rfl⟩ | ⟨rfl, rfl⟩ | ⟨rfl, rfl⟩ | ⟨rfl, rfl⟩ |
      ⟨rfl, rfl⟩ | ⟨rfl, rfl⟩ <;> rfl

theorem readCharacter_eq_ok_none_iff {s rest : List Char} :
    readCharacter s = .ok (none, rest) ↔ s = '"' :: rest := by
  constructor
  · intro h
    unfold readCharacter at h
    split at h
    · contradiction
    · rw [(Prod.mk.inj (Except.ok.inj h)).2]
    · simp [bind_eq_ok_iff] at h
    · split at h <;> simp at h
  · rintro rfl
    rfl

theorem readEscape_eq_ok_iff {s rest : List Char} {c : Char} :
    readEscape s = .ok (c, rest) ↔
      (∃ t, NumberEscape c t ∧ s = 'u' :: (t ++ rest)) ∨
        ∃ letter, (letter, c) ∈ shortEscapes ∧ s = letter :: rest := by
  constructor
  · intro h
    unfold readEscape at h
    split at h
    · contradiction
    · obtain ⟨t, escape, rfl⟩ := readCodePoint_eq_ok_iff.mp h
      exact .inl ⟨t, escape, rfl⟩
    · rename_i letter tail _
      split at h
      · rename_i d known
        obtain ⟨rfl, rfl⟩ := Prod.mk.inj (Except.ok.inj h)
        exact .inr ⟨letter, plainEscape?_eq_some_iff.mp known, rfl⟩
      · contradiction
  · rintro (⟨t, escape, rfl⟩ | ⟨letter, known, rfl⟩)
    · exact readCodePoint_eq_ok_iff.mpr ⟨t, escape, rfl⟩
    · rw [← plainEscape?_eq_some_iff] at known
      have other : letter ≠ 'u' := by
        rintro rfl
        contradiction
      unfold readEscape
      split
      · contradiction
      · simp_all
      · rename_i e _ _ same
        obtain ⟨rfl, rfl⟩ := List.cons.inj same
        rw [known]

/-- A character is read as what stands for it. -/
theorem readCharacter_eq_ok_some_iff {s rest : List Char} {c : Char} :
    readCharacter s = .ok (some c, rest) ↔ ∃ t, CharSpelling c t ∧ s = t ++ rest := by
  constructor
  · intro h
    unfold readCharacter at h
    split at h
    · contradiction
    · simp at h
    · simp only [bind_eq_ok_iff, Prod.exists, readEscape_eq_ok_iff] at h
      obtain ⟨d, tail, found, same⟩ := h
      obtain ⟨rfl, rfl⟩ : d = c ∧ tail = rest := by simpa using same
      rcases found with ⟨t, escape, rfl⟩ | ⟨letter, known, rfl⟩
      · exact ⟨_, .number escape, rfl⟩
      · exact ⟨_, .short known, rfl⟩
    · rename_i d tail not_quote not_backslash
      split at h
      · contradiction
      · rename_i printable
        obtain ⟨rfl, rfl⟩ : d = c ∧ tail = rest := by simpa using h
        exact ⟨[d], .plain (Char.not_lt.mp printable) not_quote not_backslash, rfl⟩
  · rintro ⟨t, spelled, rfl⟩
    cases spelled with
    | plain printable not_quote not_backslash => simp [readCharacter, printable]
    | @short letter known =>
      have read : readEscape (letter :: rest) = .ok (c, rest) :=
        readEscape_eq_ok_iff.mpr (.inr ⟨letter, known, rfl⟩)
      exact bind_eq_ok_iff.mpr ⟨(c, rest), read, rfl⟩
    | @number t escape =>
      have read : readEscape ('u' :: (t ++ rest)) = .ok (c, rest) :=
        readEscape_eq_ok_iff.mpr (.inl ⟨t, escape, rfl⟩)
      exact bind_eq_ok_iff.mpr ⟨(c, rest), read, rfl⟩

theorem CharSpelling.ne_nil {c : Char} {s : List Char} (h : CharSpelling c s) : s ≠ [] := by
  cases h <;> simp

theorem Spelling.length_le {cs s : List Char} (h : Spelling cs s) : cs.length ≤ s.length := by
  induction h with
  | nil => exact Nat.le_refl _
  | cons head tail ih =>
    have positive := List.length_pos_of_ne_nil head.ne_nil
    rw [List.length_cons, List.length_append]
    omega

/-- Characters are read up to the quote behind what stands for them. -/
theorem readCharacters_of_spelling {cs s : List Char} (h : Spelling cs s) (read rest : List Char)
    {fuel : Nat} (enough : cs.length < fuel) :
    readCharacters read fuel (s ++ '"' :: rest) = .ok (read.reverse ++ cs, rest) := by
  induction h generalizing read fuel with
  | nil =>
    obtain ⟨fuel, rfl⟩ := Nat.exists_eq_add_one.mpr enough
    have turn : readCharacter ('"' :: rest) = .ok (none, rest) := rfl
    rw [List.nil_append, readCharacters, turn]
    simp [bind, Except.bind]
  | @cons c cs s t head tail ih =>
    obtain ⟨fuel, rfl⟩ := Nat.exists_eq_add_one.mpr (Nat.zero_lt_of_lt enough)
    have turn : readCharacter (s ++ (t ++ '"' :: rest)) = .ok (some c, t ++ '"' :: rest) :=
      readCharacter_eq_ok_some_iff.mpr ⟨s, head, rfl⟩
    have further := ih (c :: read) (Nat.lt_of_succ_lt_succ enough)
    rw [List.append_assoc, readCharacters, turn]
    simpa [bind, Except.bind] using further

theorem spelling_of_readCharacters {read s cs rest : List Char} {fuel : Nat}
    (h : readCharacters read fuel s = .ok (cs, rest)) :
    ∃ more t, cs = read.reverse ++ more ∧ Spelling more t ∧ s = t ++ '"' :: rest := by
  induction fuel generalizing read s with
  | zero => contradiction
  | succ fuel ih =>
    rw [readCharacters] at h
    simp only [bind_eq_ok_iff, Prod.exists] at h
    obtain ⟨found, tail, turn, step⟩ := h
    cases found with
    | none =>
      rw [readCharacter_eq_ok_none_iff] at turn
      obtain ⟨rfl, rfl⟩ := Prod.mk.inj (Except.ok.inj step)
      exact ⟨[], [], by simp, .nil, turn⟩
    | some c =>
      obtain ⟨u, head, rfl⟩ := readCharacter_eq_ok_some_iff.mp turn
      obtain ⟨more, t, rfl, spelled, rfl⟩ := ih step
      exact ⟨c :: more, u ++ t, by simp, .cons head spelled, by simp⟩

/-- A string is read as what stands for it, up to the quote behind. -/
theorem readString_eq_ok_iff {s rest : List Char} {x : String} :
    readString s = .ok (x, rest) ↔ ∃ t, Spelling x.toList t ∧ s = t ++ '"' :: rest := by
  simp only [readString, bind_eq_ok_iff, Prod.exists]
  constructor
  · rintro ⟨cs, tail, read, step⟩
    obtain ⟨rfl, rfl⟩ := Prod.mk.inj (Except.ok.inj step)
    obtain ⟨more, t, rfl, spelled, rfl⟩ := spelling_of_readCharacters read
    exact ⟨t, by simpa using spelled, rfl⟩
  · rintro ⟨t, spelled, rfl⟩
    refine ⟨x.toList, rest, ?_, by rw [String.ofList_toList]⟩
    have short := spelled.length_le
    exact readCharacters_of_spelling spelled [] rest (by rw [List.length_append]; omega)

theorem HexDigit.printable {v : Nat} {c : Char} (h : HexDigit v c) : ' ' ≤ c := by
  obtain ⟨small, rfl | rfl⟩ := h
  · interval_cases v <;> decide
  · interval_cases v <;> decide

theorem Hex.printable {n : Nat} {ds : List Char} (h : Hex n ds) : ∀ d ∈ ds, ' ' ≤ d := by
  unfold Hex at h
  generalize [n / 4096, n / 256 % 16, n / 16 % 16, n % 16] = values at h
  induction h with
  | nil => simp
  | cons first more ih => exact List.forall_mem_cons.mpr ⟨first.printable, ih⟩

theorem NumberEscape.printable {c : Char} {s : List Char} (h : NumberEscape c s) :
    ∀ d ∈ s, ' ' ≤ d := by
  cases h with
  | whole hex => exact hex.printable
  | halves beyond leading trailing =>
    simp only [List.forall_mem_append, List.forall_mem_cons]
    exact ⟨leading.printable, by decide, by decide, trailing.printable⟩

/-- Control characters are never written as they are. -/
theorem CharSpelling.printable {c : Char} {s : List Char} (h : CharSpelling c s) :
    ∀ d ∈ s, ' ' ≤ d := by
  cases h with
  | plain printable => simpa using printable
  | short known =>
    have letters : ∀ p ∈ shortEscapes, ' ' ≤ p.1 := by decide
    simp only [List.forall_mem_cons]
    exact ⟨by decide, letters _ known, by simp⟩
  | number escape =>
    simp only [List.forall_mem_cons]
    exact ⟨by decide, by decide, escape.printable⟩

theorem Spelling.printable {cs s : List Char} (h : Spelling cs s) : ∀ d ∈ s, ' ' ≤ d := by
  induction h with
  | nil => simp
  | cons head tail ih => exact List.forall_mem_append.mpr ⟨head.printable, ih⟩

/-- A character as it is written in a string, escaped where it has to be. -/
def writeChar (c : Char) : List Char :=
  if c = '"' ∨ c = '\\' then ['\\', c]
  else if ' ' ≤ c then [c]
  else ['\\', 'u', '0', '0', Nat.digitChar (c.toNat / 16), Nat.digitChar (c.toNat % 16)]

def writeString (x : String) : List Char := '"' :: (x.toList.flatMap writeChar ++ ['"'])

theorem charSpelling_writeChar (c : Char) : CharSpelling c (writeChar c) := by
  unfold writeChar
  split
  · rename_i escaped
    rcases escaped with rfl | rfl
    · exact .short (by decide)
    · exact .short (by decide)
  · rename_i unescaped
    obtain ⟨not_quote, not_backslash⟩ := not_or.mp unescaped
    split
    · rename_i printable
      exact .plain printable not_quote not_backslash
    · rename_i control
      have small : c.toNat < 32 := by
        rw [Char.not_le, Char.lt_def, UInt32.lt_iff_toNat_lt] at control
        exact control
      have zeros : [c.toNat / 4096, c.toNat / 256 % 16, c.toNat / 16 % 16, c.toNat % 16] =
          [0, 0, c.toNat / 16, c.toNat % 16] := by
        simp only [List.cons.injEq, and_true]
        omega
      refine .number (.whole ?_)
      rw [Hex, zeros]
      exact .cons ⟨by decide, .inl rfl⟩ (.cons ⟨by decide, .inl rfl⟩
        (.cons ⟨by omega, .inl rfl⟩ (.cons ⟨by omega, .inl rfl⟩ .nil)))

theorem quoted_writeString (x : String) : Quoted x (writeString x) := by
  refine ⟨x.toList.flatMap writeChar, ?_, rfl⟩
  induction x.toList with
  | nil => exact .nil
  | cons c cs ih => exact .cons (charSpelling_writeChar c) ih

end SearchLoad.Json
