import Mathlib.Data.List.Basic
import SearchLoad.Text.Utf8

namespace SearchLoad.Text.Utf8

theorem toNat_byte {n : Nat} (h : n < 256) : (UInt8.ofNat n).toNat = n := by
  simp [Nat.mod_eq_of_lt h]

theorem byte_of_toNat {b : UInt8} {n : Nat} (h : n = b.toNat) : UInt8.ofNat n = b := by
  rw [h, UInt8.ofNat_toNat]

theorem toNat_char {n : Nat} (valid : n.isValidChar) : (Char.ofNat n).toNat = n := by
  rw [Char.ofNat, dif_pos valid]
  rfl

theorem encode_append (s t : List Char) : encode (s ++ t) = encode s ++ encode t :=
  List.flatMap_append

theorem encode_flatten (pieces : List (List Char)) :
    encode pieces.flatten = (pieces.map encode).flatten := by
  induction pieces with
  | nil => rfl
  | cons piece pieces ih =>
    rw [List.flatten_cons, encode_append, ih, List.map_cons, List.flatten_cons]

theorem encode_singleton (c : Char) : encode [c] = String.utf8EncodeChar c :=
  List.flatMap_singleton ..

/-- What a character is written as, said of its number. -/
theorem encodeChar_eq (c : Char) : String.utf8EncodeChar c =
    let n := c.toNat
    if n ≤ 0x7F then [UInt8.ofNat n]
    else if n ≤ 0x7FF then [UInt8.ofNat (n / 64 % 32 + 192), UInt8.ofNat (n % 64 + 128)]
    else if n ≤ 0xFFFF then
      [UInt8.ofNat (n / 4096 % 16 + 224), UInt8.ofNat (n / 64 % 64 + 128),
        UInt8.ofNat (n % 64 + 128)]
    else
      [UInt8.ofNat (n / 262144 % 8 + 240), UInt8.ofNat (n / 4096 % 64 + 128),
        UInt8.ofNat (n / 64 % 64 + 128), UInt8.ofNat (n % 64 + 128)] :=
  String.utf8EncodeChar.eq_1 c

theorem encodeChar_ascii {c : Char} (h : c.toNat < 0x80) :
    String.utf8EncodeChar c = [UInt8.ofNat c.toNat] := by
  rw [encodeChar_eq]
  exact if_pos (Nat.le_of_lt_succ h)

/-- An ASCII byte stands for nothing but its own character. -/
theorem toNat_of_mem_encodeChar {c : Char} {b : UInt8} (ascii : b.toNat < 0x80)
    (h : b ∈ String.utf8EncodeChar c) : c.toNat = b.toNat := by
  have outside : ∀ n, 0x80 ≤ n → n < 256 → b ≠ UInt8.ofNat n := by
    rintro n large fits rfl
    rw [toNat_byte fits] at ascii
    omega
  rw [encodeChar_eq] at h
  dsimp only at h
  split at h
  · rename_i small
    rw [List.mem_singleton.mp h, toNat_byte (by omega)]
  · exfalso
    repeat' split at h
    all_goals simp only [List.mem_cons, List.not_mem_nil, or_false] at h
    · rcases h with h | h <;> exact outside _ (by omega) (by omega) h
    · rcases h with h | h | h <;> exact outside _ (by omega) (by omega) h
    · rcases h with h | h | h | h <;> exact outside _ (by omega) (by omega) h

namespace Pending

theorem accepts_iff {p : Pending} {b : UInt8} :
    p.accepts b = true ↔ p.low.toNat ≤ b.toNat ∧ b.toNat ≤ p.high.toNat := by
  simp [accepts, UInt8.le_iff_toNat_le]

theorem code_push (p : Pending) (b : UInt8) :
    (p.push b).code = p.code * 64 + (b.toNat - 0x80) := rfl

/-- What a byte begins, said of its number. -/
theorem start_eq (b : UInt8) : start b =
    if b.toNat < 0xC2 then none
    else if b.toNat < 0xE0 then some ⟨1, 0x80, 0xBF, b.toNat - 0xC0, 1⟩
    else if b.toNat = 0xE0 then some ⟨2, 0xA0, 0xBF, 0, 1⟩
    else if b.toNat = 0xED then some ⟨2, 0x80, 0x9F, 0xD, 1⟩
    else if b.toNat < 0xF0 then some ⟨2, 0x80, 0xBF, b.toNat - 0xE0, 1⟩
    else if b.toNat = 0xF0 then some ⟨3, 0x90, 0xBF, 0, 1⟩
    else if b.toNat < 0xF4 then some ⟨3, 0x80, 0xBF, b.toNat - 0xF0, 1⟩
    else if b.toNat = 0xF4 then some ⟨3, 0x80, 0x8F, 4, 1⟩
    else none := by
  have eq_iff : ∀ c : UInt8, b = c ↔ b.toNat = c.toNat := fun c => UInt8.toNat_inj.symm
  simp only [start, UInt8.lt_iff_toNat_lt, eq_iff, UInt8.reduceToNat]

theorem start_bounds {b : UInt8} {p : Pending} (h : start b = some p) :
    0xC2 ≤ b.toNat ∧ b.toNat < 0xF5 := by
  rw [start_eq] at h
  by_contra outside
  by_cases low : b.toNat < 0xC2
  · rw [if_pos low] at h
    contradiction
  · iterate 8 rw [if_neg (by omega)] at h
    contradiction

theorem start_two {b : UInt8} (low : 0xC2 ≤ b.toNat) (high : b.toNat < 0xE0) :
    start b = some ⟨1, 0x80, 0xBF, b.toNat - 0xC0, 1⟩ := by
  rw [start_eq, if_neg (by omega), if_pos high]

/-- The second of three bytes leaves out what two bytes can write, and the surrogates. -/
theorem start_three {b : UInt8} (low : 0xE0 ≤ b.toNat) (high : b.toNat < 0xF0) :
    ∃ first last, start b = some ⟨2, first, last, b.toNat - 0xE0, 1⟩ ∧
      ∀ n, first.toNat ≤ n ∧ n ≤ last.toNat ↔ (0x80 ≤ n ∧ n ≤ 0xBF) ∧
        0x20 ≤ (b.toNat - 0xE0) * 64 + (n - 0x80) ∧
        ((b.toNat - 0xE0) * 64 + (n - 0x80) < 0x360 ∨
          0x380 ≤ (b.toNat - 0xE0) * 64 + (n - 0x80)) := by
  rw [start_eq, if_neg (by omega), if_neg (by omega), if_pos high]
  split
  · rename_i first
    exact ⟨_, _, by simp only [first]; rfl, fun n => by simp only [UInt8.reduceToNat]; omega⟩
  · split
    · rename_i last
      exact ⟨_, _, by simp only [last]; rfl, fun n => by simp only [UInt8.reduceToNat]; omega⟩
    · exact ⟨_, _, rfl, fun n => by simp only [UInt8.reduceToNat]; omega⟩

/-- The second of four bytes leaves out what three bytes can write, and what lies beyond the last
code point. -/
theorem start_four {b : UInt8} (low : 0xF0 ≤ b.toNat) (high : b.toNat < 0xF5) :
    ∃ first last, start b = some ⟨3, first, last, b.toNat - 0xF0, 1⟩ ∧
      ∀ n, first.toNat ≤ n ∧ n ≤ last.toNat ↔ (0x80 ≤ n ∧ n ≤ 0xBF) ∧
        0x10 ≤ (b.toNat - 0xF0) * 64 + (n - 0x80) ∧
        (b.toNat - 0xF0) * 64 + (n - 0x80) < 0x110 := by
  rw [start_eq, if_neg (by omega), if_neg (by omega), if_neg (by omega), if_neg (by omega),
    if_neg (by omega)]
  split
  · rename_i first
    exact ⟨_, _, by simp only [first]; rfl, fun n => by simp only [UInt8.reduceToNat]; omega⟩
  · split
    · exact ⟨_, _, rfl, fun n => by simp only [UInt8.reduceToNat]; omega⟩
    · have last : b.toNat = 0xF4 := by omega
      rw [if_pos last]
      exact ⟨_, _, by simp only [last]; rfl, fun n => by simp only [UInt8.reduceToNat]; omega⟩

/-- The bytes that a sequence still lacks, and the code point that it has with them. -/
inductive Completed : Pending → List UInt8 → Nat → Prop
  | last {p : Pending} {b : UInt8} (accepted : p.accepts b = true) (one : p.missing ≤ 1) :
      Completed p [b] (p.push b).code
  | more {p : Pending} {b : UInt8} {tail : List UInt8} {n : Nat} (accepted : p.accepts b = true)
      (many : 1 < p.missing) (rest : Completed (p.push b) tail n) : Completed p (b :: tail) n

theorem completed_one {low high : UInt8} {code taken : Nat} {tail : List UInt8} {n : Nat} :
    Completed ⟨1, low, high, code, taken⟩ tail n ↔ ∃ b, tail = [b] ∧
      (low.toNat ≤ b.toNat ∧ b.toNat ≤ high.toNat) ∧ n = code * 64 + (b.toNat - 0x80) := by
  constructor
  · intro h
    cases h with
    | last accepted one => exact ⟨_, rfl, accepts_iff.mp accepted, code_push _ _⟩
    | more accepted many rest => exact absurd many (Nat.lt_irrefl 1)
  · rintro ⟨b, rfl, inside, value⟩
    rw [value, ← code_push ⟨1, low, high, code, taken⟩ b]
    exact .last (accepts_iff.mpr inside) (Nat.le_refl 1)

theorem completed_succ {missing : Nat} {low high : UInt8} {code taken : Nat} {tail : List UInt8}
    {n : Nat} : Completed ⟨missing + 2, low, high, code, taken⟩ tail n ↔
      ∃ b rest, tail = b :: rest ∧ (low.toNat ≤ b.toNat ∧ b.toNat ≤ high.toNat) ∧
        Completed ⟨missing + 1, 0x80, 0xBF, code * 64 + (b.toNat - 0x80), taken + 1⟩ rest n := by
  constructor
  · intro h
    cases h with
    | last accepted one => simp at one
    | more accepted many rest => exact ⟨_, _, rfl, accepts_iff.mp accepted, rest⟩
  · rintro ⟨b, rest, rfl, inside, completed⟩
    exact .more (accepts_iff.mpr inside) (Nat.le_add_left 2 missing) completed

/-- A character beyond ASCII is written as a byte that begins a sequence, and those it lacks. -/
theorem exists_completed {c : Char} (large : 0x80 ≤ c.toNat) :
    ∃ b p tail, String.utf8EncodeChar c = b :: tail ∧
      start b = some p ∧ p.Completed tail c.toNat := by
  have valid : c.toNat < 0xD800 ∨ 0xDFFF < c.toNat ∧ c.toNat < 0x110000 := c.valid
  have written := encodeChar_eq c
  generalize c.toNat = v at *
  have last : (UInt8.ofNat (v % 64 + 128)).toNat = v % 64 + 128 := toNat_byte (by omega)
  have middle : (UInt8.ofNat (v / 64 % 64 + 128)).toNat = v / 64 % 64 + 128 :=
    toNat_byte (by omega)
  simp only [if_neg (show ¬ v ≤ 0x7F by omega)] at written
  by_cases two : v ≤ 0x7FF
  · rw [if_pos two] at written
    have first : (UInt8.ofNat (v / 64 % 32 + 192)).toNat = v / 64 % 32 + 192 :=
      toNat_byte (by omega)
    refine ⟨_, _, _, written, start_two (by omega) (by omega), completed_one.mpr ?_⟩
    refine ⟨_, rfl, ?_, ?_⟩
    · simp only [last, UInt8.reduceToNat]
      omega
    · omega
  by_cases three : v ≤ 0xFFFF
  · rw [if_neg two, if_pos three] at written
    have first : (UInt8.ofNat (v / 4096 % 16 + 224)).toNat = v / 4096 % 16 + 224 :=
      toNat_byte (by omega)
    obtain ⟨low, high, started, second⟩ :=
      start_three (b := UInt8.ofNat (v / 4096 % 16 + 224)) (by omega) (by omega)
    refine ⟨_, _, _, written, started, completed_succ.mpr ⟨_, _, rfl, ?_, completed_one.mpr ?_⟩⟩
    · rw [second]
      omega
    refine ⟨_, rfl, ?_, ?_⟩
    · simp only [last, UInt8.reduceToNat]
      omega
    · omega
  · rw [if_neg two, if_neg three] at written
    have first : (UInt8.ofNat (v / 262144 % 8 + 240)).toNat = v / 262144 % 8 + 240 :=
      toNat_byte (by omega)
    have next : (UInt8.ofNat (v / 4096 % 64 + 128)).toNat = v / 4096 % 64 + 128 :=
      toNat_byte (by omega)
    obtain ⟨low, high, started, second⟩ :=
      start_four (b := UInt8.ofNat (v / 262144 % 8 + 240)) (by omega) (by omega)
    refine ⟨_, _, _, written, started, completed_succ.mpr ⟨_, _, rfl, ?_,
      completed_succ.mpr ⟨_, _, rfl, ?_, completed_one.mpr ?_⟩⟩⟩
    · rw [second]
      omega
    · simp only [middle, UInt8.reduceToNat]
      omega
    refine ⟨_, rfl, ?_, ?_⟩
    · simp only [last, UInt8.reduceToNat]
      omega
    · omega

/-- A byte that begins a sequence, with those that it lacks, is what a character is written as. -/
theorem Completed.encodeChar {b : UInt8} {p : Pending} {tail : List UInt8} {n : Nat}
    (h : p.Completed tail n) (started : start b = some p) :
    String.utf8EncodeChar (Char.ofNat n) = b :: tail := by
  have code : n < 0xD800 ∨ 0xDFFF < n ∧ n < 0x110000 → (Char.ofNat n).toNat = n := toNat_char
  obtain ⟨low, high⟩ := start_bounds started
  rw [encodeChar_eq]
  by_cases two : b.toNat < 0xE0
  · obtain rfl := Option.some.inj (start_two low two ▸ started)
    obtain ⟨c, rfl, inside, value⟩ := completed_one.mp h
    simp only [UInt8.reduceToNat] at inside
    simp only [code (by omega)]
    rw [if_neg (by omega), if_pos (by omega), byte_of_toNat (b := b) (by omega),
      byte_of_toNat (b := c) (by omega)]
  by_cases three : b.toNat < 0xF0
  · obtain ⟨first, last, begun, second⟩ := start_three (Nat.le_of_not_lt two) three
    obtain rfl := Option.some.inj (begun ▸ started)
    obtain ⟨c, rest, rfl, inside, h⟩ := completed_succ.mp h
    obtain ⟨d, rfl, final, value⟩ := completed_one.mp h
    rw [second] at inside
    simp only [UInt8.reduceToNat] at final
    simp only [code (by omega)]
    rw [if_neg (by omega), if_neg (by omega), if_pos (by omega),
      byte_of_toNat (b := b) (by omega), byte_of_toNat (b := c) (by omega),
      byte_of_toNat (b := d) (by omega)]
  · obtain ⟨first, last, begun, second⟩ := start_four (Nat.le_of_not_lt three) high
    obtain rfl := Option.some.inj (begun ▸ started)
    obtain ⟨c, rest, rfl, inside, h⟩ := completed_succ.mp h
    obtain ⟨d, rest, rfl, middle, h⟩ := completed_succ.mp h
    obtain ⟨e, rfl, final, value⟩ := completed_one.mp h
    rw [second] at inside
    simp only [UInt8.reduceToNat] at middle final
    simp only [code (by omega)]
    rw [if_neg (by omega), if_neg (by omega), if_neg (by omega),
      byte_of_toNat (b := b) (by omega), byte_of_toNat (b := c) (by omega),
      byte_of_toNat (b := d) (by omega), byte_of_toNat (b := e) (by omega)]

end Pending

namespace Decoder

theorem foldlM_completed {p : Pending} {tail : List UInt8} {n : Nat} (h : p.Completed tail n)
    (read : List Char) (i : Nat) :
    tail.foldlM push ⟨read, some p, i⟩ = .ok ⟨Char.ofNat n :: read, none, i + tail.length⟩ := by
  induction h generalizing i with
  | @last p b accepted one =>
    have step : push ⟨read, some p, i⟩ b =
        .ok ⟨Char.ofNat (p.push b).code :: read, none, i + 1⟩ := by
      simp only [push, accepted, if_true, Decoder.continue, one]
    rw [List.foldlM_cons, step]
    rfl
  | @more p b tail n accepted many rest ih =>
    have step : push ⟨read, some p, i⟩ b = .ok ⟨read, some (p.push b), i + 1⟩ := by
      simp only [push, accepted, if_true, Decoder.continue, if_neg (Nat.not_le_of_lt many)]
    rw [List.foldlM_cons, step, List.length_cons, Nat.add_comm tail.length, ← Nat.add_assoc]
    exact ih (i + 1)

theorem foldlM_encodeChar (c : Char) (read : List Char) (i : Nat) :
    (String.utf8EncodeChar c).foldlM push ⟨read, none, i⟩ =
      .ok ⟨c :: read, none, i + (String.utf8EncodeChar c).length⟩ := by
  by_cases ascii : c.toNat < 0x80
  · have number : (UInt8.ofNat c.toNat).toNat = c.toNat := toNat_byte (by omega)
    have small : UInt8.ofNat c.toNat < 0x80 := by
      rw [UInt8.lt_iff_toNat_lt, number]
      exact ascii
    rw [encodeChar_ascii ascii]
    simp only [List.foldlM_cons, List.foldlM_nil, push, begin?, if_pos small, number,
      Char.ofNat_toNat]
    rfl
  · obtain ⟨b, p, tail, written, started, completed⟩ :=
      Pending.exists_completed (Nat.le_of_not_lt ascii)
    have large : ¬ b < 0x80 := by
      have low := (Pending.start_bounds started).1
      simp only [UInt8.lt_iff_toNat_lt, UInt8.reduceToNat]
      omega
    have begun : push ⟨read, none, i⟩ b = .ok ⟨read, some p, i + 1⟩ := by
      simp only [push, begin?, if_neg large, started, Option.map_some]
    have finished := foldlM_completed completed read (i + 1)
    rw [Char.ofNat_toNat] at finished
    rw [written, List.foldlM_cons, begun, List.length_cons, Nat.add_comm tail.length,
      ← Nat.add_assoc]
    exact finished

theorem foldlM_encode (s read : List Char) (i : Nat) :
    (encode s).foldlM push ⟨read, none, i⟩ =
      .ok ⟨s.reverse ++ read, none, i + (encode s).length⟩ := by
  induction s generalizing read i with
  | nil => rfl
  | cons c s ih =>
    have bytes : encode (c :: s) = String.utf8EncodeChar c ++ encode s := List.flatMap_cons
    have rest := ih (c :: read) (i + (String.utf8EncodeChar c).length)
    rw [bytes, List.foldlM_append, foldlM_encodeChar, List.length_append, ← Nat.add_assoc,
      List.reverse_cons, List.append_assoc]
    exact rest

/-- The bytes are those of the characters read, and those of the sequence that has begun. -/
def Holds (d : Decoder) (bytes : List UInt8) : Prop :=
  match d.pending with
  | none => bytes = encode d.read.reverse
  | some p => ∃ begun, bytes = encode d.read.reverse ++ begun ∧
      ∀ tail n, p.Completed tail n → String.utf8EncodeChar (Char.ofNat n) = begun ++ tail

theorem Holds.push {d e : Decoder} {bytes : List UInt8} {b : UInt8} (h : d.Holds bytes)
    (next : d.push b = .ok e) : e.Holds (bytes ++ [b]) := by
  obtain ⟨read, pending, index⟩ := d
  cases pending with
  | none =>
    change bytes = encode read.reverse at h
    subst h
    simp only [Decoder.push, begin?] at next
    by_cases small : b < 0x80
    · simp only [if_pos small, Except.ok.injEq] at next
      subst next
      have ascii : b.toNat < 0x80 := UInt8.lt_iff_toNat_lt.mp small
      have number : (Char.ofNat b.toNat).toNat = b.toNat := toNat_char (.inl (by omega))
      have single : encode [Char.ofNat b.toNat] = [b] := by
        rw [encode_singleton, encodeChar_ascii (by omega), number, UInt8.ofNat_toNat]
      simp only [Holds, List.reverse_cons, encode_append, single]
    · simp only [if_neg small] at next
      cases started : Pending.start b with
      | none => simp [started] at next
      | some p =>
        simp only [started, Option.map_some, Except.ok.injEq] at next
        subst next
        exact ⟨[b], rfl, fun tail n completed => completed.encodeChar started⟩
  | some p =>
    obtain ⟨begun, rfl, written⟩ := h
    simp only [Decoder.push] at next
    cases accepted : p.accepts b with
    | false => simp [accepted] at next
    | true =>
      simp only [accepted, if_true, Except.ok.injEq, Decoder.continue] at next
      by_cases one : p.missing ≤ 1
      · rw [if_pos one] at next
        subst next
        have last : encode [Char.ofNat (p.push b).code] = begun ++ [b] := by
          rw [encode_singleton]
          exact written [b] _ (.last accepted one)
        simp only [Holds, List.reverse_cons, encode_append, last, List.append_assoc]
      · rw [if_neg one] at next
        subst next
        refine ⟨begun ++ [b], by simp, ?_⟩
        intro tail n completed
        rw [List.append_assoc, List.singleton_append]
        exact written (b :: tail) n (.more accepted (Nat.lt_of_not_le one) completed)

theorem Holds.foldlM {d e : Decoder} {bytes more : List UInt8} (h : d.Holds bytes)
    (next : more.foldlM Decoder.push d = .ok e) : e.Holds (bytes ++ more) := by
  induction more generalizing d bytes with
  | nil =>
    obtain rfl : d = e := Except.ok.inj next
    rwa [List.append_nil]
  | cons b more ih =>
    rw [List.foldlM_cons] at next
    cases pushed : d.push b with
    | error fault => simp [pushed, bind, Except.bind] at next
    | ok f =>
      rw [pushed] at next
      have read := ih (h.push pushed) next
      rwa [List.append_assoc, List.singleton_append] at read

end Decoder

theorem decode_encode (s : List Char) : decode (encode s) = .ok s := by
  rw [decode, Decoder.empty, Decoder.foldlM_encode]
  simp [bind, Except.bind, Decoder.finish]

theorem encode_injective : Function.Injective encode := by
  intro s t same
  have read := decode_encode s
  rw [same, decode_encode] at read
  exact (Except.ok.inj read).symm

/-- Bytes are read exactly if they are what characters are written as. -/
theorem decode_eq_ok_iff {bytes : List UInt8} {s : List Char} :
    decode bytes = .ok s ↔ bytes = encode s := by
  constructor
  · intro h
    unfold decode at h
    cases read : bytes.foldlM Decoder.push Decoder.empty with
    | error fault => simp [read, bind, Except.bind] at h
    | ok d =>
      have start : Decoder.empty.Holds [] := rfl
      have held : d.Holds bytes := start.foldlM read
      rw [read] at h
      change d.finish = .ok s at h
      obtain ⟨reversed, pending, index⟩ := d
      cases pending with
      | none =>
        obtain rfl : reversed.reverse = s := Except.ok.inj h
        exact held
      | some p => contradiction
  · rintro rfl
    exact decode_encode s

end SearchLoad.Text.Utf8
