import SearchLoad.Dataset.Document
import SearchLoad.Proofs.Number.Decimal
import SearchLoad.Proofs.Text.Utf8
import SearchLoad.Wire.Reader

namespace SearchLoad

namespace Number

/-- The number that a text of digits writes; nothing for any other text. -/
def readCount? (s : List Char) : Option Nat :=
  if s.isEmpty || !s.all isDigit then none else some (ofDigits s)

theorem readCount?_toDigits (n : Nat) : readCount? (Nat.toDigits 10 n) = some n := by
  have written : (toString n).toList = Nat.toDigits 10 n := Nat.toList_repr
  have digits : (Nat.toDigits 10 n).all isDigit = true :=
    List.all_eq_true.mpr fun c hc => isDigit_of_mem_toString (written ▸ hc)
  have full : (Nat.toDigits 10 n).isEmpty = false := by simp
  have value : ofDigits (Nat.toDigits 10 n) = n := by
    rw [ofDigits_eq, Nat.ofDigitChars_ten_toDigits]
  rw [readCount?, digits, full, value]
  rfl

end Number

namespace Wire

open Text.Utf8

namespace Reader

/-- Takes a mark and the number on the line behind it. -/
def count (mark : Char) : Reader Nat
  | [] => .error (.incomplete [])
  | b :: s =>
    if Char.ofNat b.toNat = mark then wanted line .integer Number.readCount? s
    else refuse (.unexpected b) s

/-- Takes an argument: its length, so many bytes, and the end of the line. -/
def argument : Reader Bytes := fun s => do
  let (n, s) ← count '$' s
  chunk n s

/-- Takes an array of arguments. -/
def frame : Reader (List Bytes) := fun s => do
  let (n, s) ← count '*' s
  items argument n s

/-- Takes a command, whose arguments have to be text. -/
def command : Reader Command :=
  checked frame fun args => (args.mapM textOf).map fun texts => ⟨texts.map String.ofList⟩

/-- Takes commands up to the end of the bytes, so many at most. -/
def commandsTo : Nat → Bytes → Except ReplyStop (List Command)
  | _, [] => .ok []
  | 0, s => .error (.incomplete s)
  | n + 1, s => do
    let (c, s) ← command s
    (commandsTo n s).map (c :: ·)

/-- Takes commands up to the end of the bytes. Each of them has a byte or more. -/
def commands (s : Bytes) : Except ReplyStop (List Command) := commandsTo s.length s

/-- What was taken has passed its check. -/
theorem checked_eq_ok {α β : Type} {reader : Reader α} {check : α → Except Complaint β} {x : α}
    {y : β} {s rest : Bytes} (taken : reader s = .ok (x, rest)) (passed : check x = .ok y) :
    checked reader check s = .ok (y, rest) := by
  simp only [checked, taken, passed]

theorem splitLine_append {text : Bytes} (free : 13 ∉ text) (rest : Bytes) :
    splitLine (text ++ (Wire.lineEnd ++ rest)) = some (text, rest) := by
  induction text with
  | nil => rfl
  | cons b text ih =>
    obtain ⟨other, free⟩ := List.ne_and_not_mem_of_not_mem_cons free
    obtain ⟨c, s, split⟩ : ∃ c s, text ++ (Wire.lineEnd ++ rest) = c :: s := by
      cases text with
      | nil => exact ⟨_, _, rfl⟩
      | cons c text => exact ⟨_, _, rfl⟩
    rw [List.cons_append, split, splitLine, ← split, ih free]
    simp [Ne.symm other]

theorem line_encode {s : List Char} (free : '\r' ∉ s) (rest : Bytes) :
    line (encode s ++ (Wire.lineEnd ++ rest)) = .ok (s, rest) := by
  have plain : 13 ∉ encode s := by
    intro inside
    obtain ⟨c, member, there⟩ := List.mem_flatMap.mp inside
    have code : c.toNat = 13 := toNat_of_mem_encodeChar (by decide) there
    have carriage : c = '\r' := by rw [← Char.ofNat_toNat c, code]
    exact free (carriage ▸ member)
  refine checked_eq_ok (x := encode s) ?_ ?_
  · rw [bytesOfLine, splitLine_append plain]
  · rw [textOf, decode_encode]
    rfl

theorem count_header {mark : Char} (ascii : mark.toNat < 0x80) (n : Nat) (rest : Bytes) :
    count mark (header mark n ++ rest) = .ok (n, rest) := by
  have free : '\r' ∉ Nat.toDigits 10 n := by
    intro member
    have written : (toString n).toList = Nat.toDigits 10 n := Nat.toList_repr
    exact absurd (Number.isDigit_of_mem_toString (written ▸ member)) (by decide)
  have bytes : header mark n ++ rest =
      UInt8.ofNat mark.toNat :: (encode (Nat.toDigits 10 n) ++ (Wire.lineEnd ++ rest)) := by
    have first : encode (mark :: Nat.toDigits 10 n) =
        encode [mark] ++ encode (Nat.toDigits 10 n) := encode_append [mark] _
    rw [header, first, encode_singleton, encodeChar_ascii ascii, List.append_assoc,
      List.append_assoc]
    rfl
  have same : Char.ofNat (UInt8.ofNat mark.toNat).toNat = mark := by
    rw [toNat_byte (by omega), Char.ofNat_toNat]
  rw [bytes, count, if_pos same]
  refine checked_eq_ok (line_encode free rest) ?_
  rw [Number.readCount?_toDigits]

theorem chunk_append (arg rest : Bytes) :
    chunk arg.length (arg ++ (Wire.lineEnd ++ rest)) = .ok (arg, rest) := by
  have enough : ((arg.length : Int) < 0 ||
      (arg ++ (Wire.lineEnd ++ rest)).length < (arg.length : Int).toNat) = false := by
    simp
  rw [chunk, enough]
  simp [Wire.lineEnd, lineEnd, Except.map]

theorem argument_packArg (arg rest : Bytes) : argument (packArg arg ++ rest) = .ok (arg, rest) := by
  have parts : packArg arg ++ rest =
      header '$' arg.length ++ (arg ++ (Wire.lineEnd ++ rest)) := by
    simp only [packArg, List.append_assoc]
  rw [argument, parts, count_header (by decide)]
  exact chunk_append arg rest

/-- What takes each item takes all of them. -/
theorem items_flatMap {α : Type} {item : Reader α} {write : α → Bytes}
    (one : ∀ x rest, item (write x ++ rest) = .ok (x, rest)) (xs : List α) (rest : Bytes) :
    items item xs.length (xs.flatMap write ++ rest) = .ok (xs, rest) := by
  induction xs with
  | nil => rfl
  | cons x xs ih =>
    rw [List.length_cons, List.flatMap_cons, List.append_assoc, items, one]
    simp only [ih]
    rfl

theorem frame_pack (args : List Bytes) (rest : Bytes) :
    frame (pack args ++ rest) = .ok (args, rest) := by
  rw [frame, pack, List.append_assoc, count_header (by decide)]
  exact items_flatMap argument_packArg args rest

theorem textOf_bytesOf (s : String) : textOf (bytesOf s) = .ok s.toList := by
  rw [textOf, bytesOf, decode_encode]
  rfl

/-- A command ends where its frame does, whatever is sent behind it. -/
theorem command_packed (c : Command) (rest : Bytes) :
    command (c.packed ++ rest) = .ok (c, rest) := by
  refine checked_eq_ok (frame_pack _ rest) ?_
  have texts : ∀ args : List String,
      (args.map bytesOf).mapM textOf = .ok (args.map String.toList) := by
    intro args
    induction args with
    | nil => rfl
    | cons arg args ih =>
      rw [List.map_cons, List.mapM_cons, textOf_bytesOf, ih]
      rfl
  rw [texts]
  simp [Except.map, Function.comp_def]

theorem packed_ne_nil (c : Command) : c.packed ≠ [] := by
  simp [Command.packed, pack, header, Wire.lineEnd]

theorem commandsTo_succ {s : Bytes} (more : s ≠ []) (n : Nat) :
    commandsTo (n + 1) s = command s >>= fun (c, s) => (commandsTo n s).map (c :: ·) := by
  cases s with
  | nil => contradiction
  | cons b s => rfl

theorem commandsTo_flatMap (cs : List Command) {n : Nat} (enough : cs.length ≤ n) :
    commandsTo n (cs.flatMap Command.packed) = .ok cs := by
  induction cs generalizing n with
  | nil => cases n <;> rfl
  | cons c cs ih =>
    cases n with
    | zero => simp at enough
    | succ n =>
      have more : c.packed ++ cs.flatMap Command.packed ≠ [] := by simp [packed_ne_nil]
      have rest := ih (Nat.le_of_succ_le_succ enough)
      rw [List.flatMap_cons, commandsTo_succ more, command_packed]
      show (commandsTo n (cs.flatMap Command.packed)).map (c :: ·) = .ok (c :: cs)
      rw [rest]
      rfl

theorem length_le_length_flatMap (cs : List Command) :
    cs.length ≤ (cs.flatMap Command.packed).length := by
  induction cs with
  | nil => exact Nat.le_refl 0
  | cons c cs ih =>
    have positive : 0 < c.packed.length := List.length_pos_of_ne_nil (packed_ne_nil c)
    rw [List.flatMap_cons, List.length_append, List.length_cons]
    omega

theorem commands_flatMap (cs : List Command) : commands (cs.flatMap Command.packed) = .ok cs :=
  commandsTo_flatMap cs (length_le_length_flatMap cs)

end Reader

/-- What a client sends: a search, or a document to store. -/
inductive Request
  | search (query : Query)
  | store (document : Document)

def Request.command : Request → Command
  | .search q => .search q
  | .store d => d.command

/-- Requests that are sent one after the other are read as they were sent. A search has six
arguments; a document has its link behind the name of the command, and then two for each field. -/
theorem requests_read_back (rs : List Request) :
    Reader.commands (rs.flatMap fun r => r.command.packed) = .ok (rs.map Request.command) ∧
    (∀ q, (Request.search q).command.args = ["FT.SEARCH", "idx", q.text, "LIMIT", "0", "20"]) ∧
    ∀ d, ∃ fields, (Request.store d).command.args = "HSET" :: d.link :: fields ∧
      fields.length = 2 * d.fields.length := by
  refine ⟨?_, fun q => rfl, ?_⟩
  · rw [← List.flatMap_map]
    exact Reader.commands_flatMap _
  · intro d
    refine ⟨d.fields.flatMap fun f => [f.1, f.2], rfl, ?_⟩
    simp [Nat.mul_comm]

end Wire

end SearchLoad
