import SearchLoad.Proofs.Text.Utf8

namespace SearchLoad.Text.Utf8

theorem byte_lt_iff {m n : Nat} (hm : m < 256) (hn : n < 256) :
    UInt8.ofNat m < UInt8.ofNat n ↔ m < n := by
  rw [UInt8.lt_iff_toNat_lt, toNat_byte hm, toNat_byte hn]

theorem byte_eq_iff {m n : Nat} (hm : m < 256) (hn : n < 256) :
    UInt8.ofNat m = UInt8.ofNat n ↔ m = n := by
  rw [← UInt8.toNat_inj, toNat_byte hm, toNat_byte hn]

/-- Two numbers are told apart by the first of four digits in which they differ. -/
theorem digits_lt {m n : Nat} (h : m < n) (high : n < 0x110000) :
    m / 262144 % 8 < n / 262144 % 8 ∨ m / 262144 % 8 = n / 262144 % 8 ∧
      (m / 4096 % 64 < n / 4096 % 64 ∨ m / 4096 % 64 = n / 4096 % 64 ∧
        (m / 64 % 64 < n / 64 % 64 ∨ m / 64 % 64 = n / 64 % 64 ∧ m % 64 < n % 64)) := by
  have digits : ∀ k, k < 0x110000 → k = ((k / 262144 % 8 * 64 + k / 4096 % 64) * 64 +
      k / 64 % 64) * 64 + k % 64 := by
    omega
  have hm := digits m (Nat.lt_trans h high)
  have hn := digits n high
  have bm : m / 4096 % 64 < 64 ∧ m / 64 % 64 < 64 ∧ m % 64 < 64 := by omega
  have bn : n / 4096 % 64 < 64 ∧ n / 64 % 64 < 64 ∧ n % 64 < 64 := by omega
  generalize m / 262144 % 8 = m3, m / 4096 % 64 = m2, m / 64 % 64 = m1, m % 64 = m0 at *
  generalize n / 262144 % 8 = n3, n / 4096 % 64 = n2, n / 64 % 64 = n1, n % 64 = n0 at *
  omega

/-- A character is told from a later one by the first byte in which they differ. -/
theorem encodeChar_append_lt {c d : Char} (h : c < d) (s t : List UInt8) :
    String.utf8EncodeChar c ++ s < String.utf8EncodeChar d ++ t := by
  have small : c.toNat < d.toNat := h
  have high : d.toNat < 0x110000 := by
    have valid : d.toNat < 0xD800 ∨ 0xDFFF < d.toNat ∧ d.toNat < 0x110000 := d.valid
    omega
  have told := digits_lt small high
  rw [encodeChar_eq, encodeChar_eq]
  generalize c.toNat = m at *
  generalize d.toNat = n at *
  dsimp only
  -- One goal for each pair of lengths: a longer sequence begins with a greater byte, and of equal
  -- lengths the digits tell.
  split_ifs
  all_goals
    simp (disch := omega) only [List.cons_append, List.nil_append, List.cons_lt_cons_iff,
      byte_lt_iff, byte_eq_iff]
    omega

/-- A text before another one has its bytes before the other's. -/
theorem encode_lt {s t : List Char} (h : s < t) : encode s < encode t := by
  induction s generalizing t with
  | nil =>
    cases t with
    | nil => exact absurd h (List.lt_irrefl [])
    | cons d t =>
      obtain ⟨b, more, first⟩ := List.exists_cons_of_ne_nil (String.utf8EncodeChar_ne_nil (c := d))
      rw [encode, encode, List.flatMap_cons, first]
      exact List.nil_lt_cons _ _
  | cons c s ih =>
    cases t with
    | nil => exact absurd h (List.not_lt_nil _)
    | cons d t =>
      rw [encode, encode, List.flatMap_cons, List.flatMap_cons]
      rcases List.cons_lt_cons_iff.mp h with first | ⟨rfl, rest⟩
      · exact encodeChar_append_lt first _ _
      · exact List.append_left_lt (ih rest)

end SearchLoad.Text.Utf8
