import SearchLoad.Endpoint.Basic
import SearchLoad.Proofs.Number.Decimal
import SearchLoad.Proofs.Text.Entries
import SearchLoad.Proofs.Text.Utf8

namespace SearchLoad.Endpoint

open Text Number

namespace Percent

theorem decodeFrom_eq_self {bytes : List UInt8} (plain : 0x25 ∉ bytes) :
    decodeFrom 0 bytes = bytes := by
  induction bytes with
  | nil => rfl
  | cons b bytes ih =>
    rw [List.mem_cons, not_or] at plain
    rw [decodeFrom, if_neg (Ne.symm plain.1), ih plain.2]

/-- A text without percent signs stands for its own bytes. -/
theorem decode_of_not_mem {s : List Char} (plain : '%' ∉ s) : decode s = Utf8.encode s := by
  apply decodeFrom_eq_self
  intro member
  obtain ⟨c, inside, byte⟩ := List.mem_flatMap.mp member
  have code : c.toNat = '%'.toNat := Utf8.toNat_of_mem_encodeChar (by decide) byte
  exact plain (Char.toNat_inj.mp code ▸ inside)

theorem encodeControls_eq_self {s : List Char}
    (visible : ∀ c ∈ s, (' ' ≤ c && c ≤ '~') = true) : encodeControls s = s := by
  induction s with
  | nil => rfl
  | cons c s ih =>
    obtain ⟨first, visible⟩ := List.forall_mem_cons.mp visible
    rw [encodeControls, List.flatMap_cons, if_pos first, ← encodeControls, ih visible,
      List.singleton_append]

end Percent

/-- A user or a password without percent signs is taken as written. -/
theorem readSecret_of_not_mem {fault : Fault} {s : List Char} (full : s ≠ []) (plain : '%' ∉ s) :
    readSecret fault s = .ok (some (String.ofList s)) := by
  rw [readSecret, if_neg (by simpa using full), Percent.decode_of_not_mem plain,
    Utf8.decode_encode]

namespace Locator

theorem clean_eq_self {s : List Char} (solid : ∀ c ∈ s, isControlOrSpace c = false) :
    clean s = s := by
  have kept : s.reverse.dropWhile isControlOrSpace = s.reverse := by
    apply List.dropWhile_eq_self_iff.mpr
    intro full
    have last := solid _ (List.mem_reverse.mp (List.getElem_mem full))
    exact Bool.eq_false_iff.mp last
  rw [clean, kept, List.reverse_reverse, List.filter_eq_self]
  intro c member
  have clear := solid c member
  rw [Bool.not_eq_true']
  by_contra broken
  rw [Bool.not_eq_false, isBreak] at broken
  simp only [Bool.or_eq_true, decide_eq_true_eq] at broken
  rcases broken with (rfl | rfl) | rfl <;> contradiction

theorem splitLastAt_append {front back : List Char} (free : '@' ∉ back) :
    splitLastAt (front ++ '@' :: back) = some (front, back) := by
  have free : '@' ∉ back.reverse := fun member => free (List.mem_reverse.mp member)
  have reversed : (front ++ '@' :: back).reverse = back.reverse ++ '@' :: front.reverse := by simp
  rw [splitLastAt, reversed, takeWhile_append_mark free, dropWhile_append_mark free]
  simp

theorem splitLastAt_of_not_mem {s : List Char} (free : '@' ∉ s) : splitLastAt s = none := by
  have free : '@' ∉ s.reverse := fun member => free (List.mem_reverse.mp member)
  rw [splitLastAt, List.dropWhile_eq_nil_iff.mpr (forall_bne_of_not_mem free)]

theorem splitUser_append {user : List Char} (free : ':' ∉ user) (secret : List Char) :
    splitUser (user ++ ':' :: secret) = (user, secret) := by
  rw [splitUser, takeWhile_append_mark free, dropWhile_append_mark free]
  rfl

/-- An address of nothing but its authority. -/
theorem read?_of_authority {s user place username password : List Char}
    (solid : ∀ c ∈ s, isControlOrSpace c = false) (whole : ∀ c ∈ s, endsAuthority c = false)
    (divided : (splitLastAt s).getD ([], s) = (user, place))
    (named : splitUser user = (username, password)) :
    read? s = (readHostAndPort? (!username.isEmpty || !password.isEmpty) place).map
      fun (host, port, tail) => ⟨username, password, host, port, readPath tail, []⟩ := by
  have taken : s.takeWhile (fun c => !endsAuthority c) = s :=
    List.takeWhile_eq_self_iff.mpr fun c member => by simp [whole c member]
  have rest : s.dropWhile (fun c => !endsAuthority c) = [] :=
    List.dropWhile_eq_nil_iff.mpr fun c member => by simp [whole c member]
  rw [read?, clean_eq_self solid, Option.map_eq_bind]
  simp only [taken, rest, divided, named, List.isEmpty_nil, Bool.not_true, Bool.and_false,
    Bool.false_eq_true, if_false, List.takeWhile_nil, List.dropWhile_nil, List.drop_nil,
    List.append_nil]
  rfl

/-- A host with neither colons nor brackets ends at the first colon. -/
theorem splitHost_append {host : List Char} (plain : ∀ c ∈ host, c ≠ ':' ∧ c ≠ '[' ∧ c ≠ ']')
    (rest : List Char) : splitHost false (host ++ ':' :: rest) = (host, ':' :: rest) := by
  induction host with
  | nil => rfl
  | cons c host ih =>
    obtain ⟨⟨colon, opening, closing⟩, plain⟩ := List.forall_mem_cons.mp plain
    rw [List.cons_append, splitHost]
    simp [colon, opening, closing, ih plain]

/-- A host and a port that both have something. -/
theorem readHostAndPort?_append {named : Bool} {host : List Char} {name : String} (full : host ≠ [])
    (plain : ∀ c ∈ host, c ≠ ':' ∧ c ≠ '[' ∧ c ≠ ']') (read : readHost? host = some name)
    (port : List Char) : readHostAndPort? named (host ++ ':' :: port) =
      (readPort? port).map fun (number, tail) => (name, number, tail) := by
  have nonempty : host.isEmpty = false := by simpa using full
  rw [readHostAndPort?, splitHost_append plain, Option.map_eq_bind]
  simp only [read, nonempty, Bool.false_eq_true, if_false]
  rfl

theorem readPort?_of_isDecimal {n : Nat} {s : List Char} (decimal : IsDecimal n s)
    (unsigned : '+' ∉ s) : readPort? s = if 65535 < n then none else some (some n, []) := by
  obtain ⟨ds, full, digits, value, rfl | rfl⟩ := decimal
  · have taken : s.takeWhile isDigit = s := List.takeWhile_eq_self_iff.mpr digits
    have rest : s.dropWhile isDigit = [] := List.dropWhile_eq_nil_iff.mpr digits
    rw [readPort?, taken, rest, ofDigits_eq, value]
    simp [full]
  · exact absurd List.mem_cons_self unsigned

/-- A port ends with its digits or at a backslash. -/
theorem readPort?_eq_none {s : List Char} (plain : '\\' ∉ s) {c : Char} (member : c ∈ s)
    (other : isDigit c = false) : readPort? s = none := by
  have rest : s.dropWhile isDigit ≠ [] := by
    intro gone
    exact absurd (List.dropWhile_eq_nil_iff.mp gone c member) (by simp [other])
  have apart : (s.dropWhile isDigit).head? ≠ some '\\' := by
    intro first
    exact plain ((List.dropWhile_sublist isDigit).mem (List.mem_of_head? first))
  rw [readPort?]
  simp [rest, apart]

end Locator

end SearchLoad.Endpoint
