import SearchLoad.Proofs.Json.Numbers

namespace SearchLoad.Json

variable {α β : Type}

/-- A value as it is written: its numbers may be too large to be read, and it may be nested too
deeply. -/
inductive Tree
  | null
  | boolean (b : Bool)
  | number (l : Literal)
  | string (x : String)
  | array (items : List Tree)
  | object (members : List (String × Tree))

/-- What stands for the elements of an array, up to the bracket behind them. -/
inductive ElementsSpelling (blank : Char → Bool) (Item : α → List Char → Prop) :
    Bool → List α → List Char → Prop
  | close {first : Bool} {gap : List Char} (free : Blanks blank gap) :
      ElementsSpelling blank Item first [] (gap ++ [']'])
  | element {first : Bool} {x : α} {xs : List α} {sep s t : List Char}
      (separator : Separator blank first sep) (head : Item x s)
      (tail : ElementsSpelling blank Item false xs t) :
      ElementsSpelling blank Item first (x :: xs) (sep ++ (s ++ t))

namespace Tree

/-- What stands for a value in which so many brackets are open at a time, at most. -/
def Spelling : Nat → Tree → List Char → Prop
  | _, null, s => s = ['n', 'u', 'l', 'l']
  | _, boolean true, s => s = ['t', 'r', 'u', 'e']
  | _, boolean false, s => s = ['f', 'a', 'l', 's', 'e']
  | _, number l, s => l.Spelling s
  | _, string x, s => Quoted x s
  | depth + 1, array items, s =>
    ∃ t, ElementsSpelling isSpace (Spelling depth) true items t ∧ s = '[' :: t
  | depth + 1, object members, s =>
    ∃ t, MembersSpelling isSpace (Spelling depth) true members t ∧ s = '\x7b' :: t
  | 0, array _, _ | 0, object _, _ => False

/-- Whether a value can be read with so many brackets open at a time. -/
def Readable : Nat → Tree → Prop
  | _, null | _, boolean _ | _, string _ => True
  | _, number l => l.number?.isSome
  | depth + 1, array items => ∀ t ∈ items, Readable depth t
  | depth + 1, object members => ∀ m ∈ members, Readable depth m.2
  | 0, array _ | 0, object _ => False

/-- What a value is read as, if it can be read. -/
def value : Nat → Tree → Value
  | _, null => .null
  | _, boolean b => .boolean b
  | _, number l => .number (l.number?.getD (.integer 0))
  | _, string x => .string x
  | depth + 1, array items => .array (items.map (value depth))
  | depth + 1, object members => .object (members.map fun m => (m.1, value depth m.2))
  | 0, array _ | 0, object _ => .null

theorem value_eq_string_iff {depth : Nat} {t : Tree} {x : String} :
    t.value depth = .string x ↔ t = .string x := by
  cases depth <;> cases t <;> simp [value]

end Tree

theorem Literal.Unsigned.head {l : Literal} {s : List Char} (h : l.Unsigned s) :
    ∃ c u, s = c :: u ∧ Number.isDigit c = true := by
  obtain ⟨⟨nonempty, digits⟩, -, f, e, -, -, rfl⟩ := h
  obtain ⟨d, more, whole⟩ := List.exists_cons_of_ne_nil nonempty
  rw [whole] at digits ⊢
  exact ⟨d, _, rfl, digits d List.mem_cons_self⟩

theorem solid_of_isDigit {c : Char} (digit : Number.isDigit c = true) :
    isSpace c = false ∧ c ≠ ']' ∧ c ≠ '"' := by
  refine ⟨?_, ?_, ?_⟩
  · rw [Bool.eq_false_iff]
    intro blank
    simp only [isSpace, Bool.or_eq_true, decide_eq_true_eq, or_assoc] at blank
    rcases blank with rfl | rfl | rfl | rfl <;> exact absurd digit (by decide)
  · rintro rfl
    exact absurd digit (by decide)
  · rintro rfl
    exact absurd digit (by decide)

/-- What a value that is no string begins with is no blank, no quote and closes nothing. -/
theorem Tree.Spelling.head_of_ne_string {depth : Nat} {t : Tree} {s : List Char}
    (h : t.Spelling depth s) (other : ∀ x, t ≠ .string x) :
    ∃ c u, s = c :: u ∧ isSpace c = false ∧ c ≠ ']' ∧ c ≠ '"' := by
  cases t with
  | null =>
    simp only [Spelling] at h
    exact ⟨_, _, h, by decide⟩
  | boolean b =>
    cases b with
    | false =>
      simp only [Spelling] at h
      exact ⟨_, _, h, by decide⟩
    | true =>
      simp only [Spelling] at h
      exact ⟨_, _, h, by decide⟩
  | number l =>
    simp only [Spelling] at h
    obtain ⟨u, unsigned, rfl⟩ := h
    split
    · exact ⟨_, _, rfl, by decide⟩
    · obtain ⟨c, u, rfl, digit⟩ := unsigned.head
      exact ⟨c, u, rfl, solid_of_isDigit digit⟩
  | string x => exact absurd rfl (other x)
  | array items =>
    cases depth with
    | zero => simp only [Spelling] at h
    | succ depth =>
      simp only [Spelling] at h
      obtain ⟨u, -, rfl⟩ := h
      exact ⟨_, _, rfl, by decide⟩
  | object members =>
    cases depth with
    | zero => simp only [Spelling] at h
    | succ depth =>
      simp only [Spelling] at h
      obtain ⟨u, -, rfl⟩ := h
      exact ⟨_, _, rfl, by decide⟩

/-- Something begins, with no blank, and no array is closed. -/
def Begins (s : List Char) : Prop := ∃ c u, s = c :: u ∧ isSpace c = false ∧ c ≠ ']'

theorem Tree.Spelling.begins {depth : Nat} {t : Tree} {s : List Char} (h : t.Spelling depth s) :
    Begins s := by
  by_cases text : ∃ x, t = .string x
  · obtain ⟨x, rfl⟩ := text
    simp only [Spelling] at h
    obtain ⟨u, -, rfl⟩ := h
    exact ⟨_, _, rfl, by decide⟩
  · obtain ⟨c, u, rfl, solid, opens, -⟩ := h.head_of_ne_string (not_exists.mp text)
    exact ⟨c, u, rfl, solid, opens⟩

section Elements

variable {Item : α → List Char → Prop} {first : Bool} {xs : List α} {s : List Char}

theorem readElementTurn_close {gap : List Char} (free : Blanks isSpace gap) (rest : List Char) :
    readElementTurn first (gap ++ ']' :: rest) = .ok (.close, rest) := by
  rw [readElementTurn, skipSpace_append_cons free (by decide)]
  rfl

/-- What stands before an element is taken, but for blanks right before it. -/
theorem readElementTurn_item {sep : List Char} (h : Separator isSpace first sep) {c : Char}
    (solid : isSpace c = false) (opens : c ≠ ']') (rest : List Char) :
    readElementTurn first (sep ++ c :: rest) = .ok (.item, c :: rest) := by
  cases h with
  | first free =>
    rw [readElementTurn, skipSpace_append_cons free solid]
    split <;> simp_all
  | @next gap more free free' =>
    have behind : skipSpace (more ++ c :: rest) = c :: rest :=
      skipSpace_append_cons free' solid rest
    rw [List.append_assoc, List.cons_append, readElementTurn,
      skipSpace_append_cons free (by decide)]
    simp [behind, opens]

theorem ElementsSpelling.ends (h : ElementsSpelling isSpace Item false xs s) (rest : List Char) :
    Ends (s ++ rest) := by
  cases h with
  | close free =>
    rw [List.append_assoc]
    exact ends_append free (.inr (.inl rfl)) _
  | element separator head tail =>
    rw [List.append_assoc]
    exact separator.ends _

theorem ElementsSpelling.length_le {blank : Char → Bool}
    (begins : ∀ x t, Item x t → Begins t)
    (h : ElementsSpelling blank Item first xs s) : xs.length ≤ s.length := by
  induction h with
  | close => exact Nat.zero_le _
  | element separator head tail ih =>
    obtain ⟨c, u, rfl, -⟩ := begins _ _ head
    simp only [List.length_cons, List.length_append]
    omega

/-- Elements are read from what stands for them by a reader that takes them. -/
theorem readElements_of_spelling {item : Reader β} {f : α → β} (takes : TakesEnded item Item f)
    (begins : ∀ x t, Item x t → Begins t)
    (h : ElementsSpelling isSpace Item first xs s) (rest : List Char) {fuel : Nat}
    (enough : xs.length < fuel) :
    readElements item fuel first (s ++ rest) = .ok (xs.map f, rest) := by
  induction h generalizing fuel with
  | @close first gap free =>
    obtain ⟨fuel, rfl⟩ := Nat.exists_eq_add_one.mpr enough
    have turn : readElementTurn first (gap ++ [']'] ++ rest) = .ok (.close, rest) := by
      rw [List.append_assoc]
      exact readElementTurn_close free rest
    rw [readElements, turn]
    rfl
  | @element first x xs sep s t separator head tail ih =>
    obtain ⟨fuel, rfl⟩ := Nat.exists_eq_add_one.mpr (Nat.zero_lt_of_lt enough)
    have further := ih (Nat.lt_of_succ_lt_succ enough)
    have taken := takes x [] s (t ++ rest) (blanks_nil isSpace) head (tail.ends rest)
    obtain ⟨c, u, rfl, solid, opens⟩ := begins x s head
    have turn := readElementTurn_item separator solid opens (u ++ (t ++ rest))
    simp only [List.append_assoc, List.cons_append, List.nil_append, readElements, bind_eq_ok_iff,
      Prod.exists] at taken ⊢
    refine ⟨.item, _, turn, ?_⟩
    simp only [bind_eq_ok_iff, Prod.exists]
    exact ⟨f x, _, taken, _, _, further, rfl⟩

/-- The elements of a whole array are read from what stands for them. -/
theorem ElementsSpelling.read {item : Reader β} {f : α → β} (takes : TakesEnded item Item f)
    (begins : ∀ x t, Item x t → Begins t) (h : ElementsSpelling isSpace Item true xs s)
    (rest : List Char) :
    readElements item ((s ++ rest).length + 1) true (s ++ rest) = .ok (xs.map f, rest) := by
  have enough : xs.length < (s ++ rest).length + 1 := by
    have short := h.length_le begins
    rw [List.length_append]
    omega
  exact readElements_of_spelling takes begins h rest enough

theorem ElementsSpelling.and_forall {blank : Char → Bool} {P : α → Prop}
    (h : ElementsSpelling blank Item first xs s) (each : ∀ x ∈ xs, P x) :
    ElementsSpelling blank (fun x t => Item x t ∧ P x) first xs s := by
  induction h with
  | close free => exact .close free
  | element separator head tail ih =>
    obtain ⟨this, others⟩ := List.forall_mem_cons.mp each
    exact .element separator ⟨head, this⟩ (ih others)

end Elements

theorem MembersSpelling.and_forall {blank : Char → Bool} {Item : α → List Char → Prop}
    {P : α → Prop} {first : Bool} {ms : List (String × α)} {s : List Char}
    (h : MembersSpelling blank Item first ms s) (each : ∀ m ∈ ms, P m.2) :
    MembersSpelling blank (fun x t => Item x t ∧ P x) first ms s := by
  induction h with
  | close free => exact .close free
  | member separator head tail ih =>
    obtain ⟨this, others⟩ := List.forall_mem_cons.mp each
    obtain ⟨key, gap, more, value, quoted, free, free', stands, rfl⟩ := head
    have head : MemberSpelling blank (fun x t => Item x t ∧ P x) _ _ :=
      ⟨key, gap, more, value, quoted, free, free', ⟨stands, this⟩, rfl⟩
    exact .member separator head (ih others)

theorem readWord_self (word rest : List Char) : readWord word (word ++ rest) = .ok rest := by
  induction word with
  | nil => rfl
  | cons c word ih => simpa [readWord] using ih

theorem readValue_digit {depth : Nat} {gap : List Char} (free : Blanks isSpace gap) {c : Char}
    (digit : Number.isDigit c = true) (s : List Char) : readValue depth (gap ++ c :: s) =
      (readUnsigned false (c :: s)).map fun r => (.number r.1, r.2) := by
  rw [readValue.eq_def, skipSpace_append_cons free (solid_of_isDigit digit).1]
  split
  case h_1 => contradiction
  case h_9 same =>
    obtain ⟨rfl, rfl⟩ := List.cons.inj same
    rw [if_pos digit]
  all_goals
    rename_i same
    obtain ⟨rfl, -⟩ := List.cons.inj same
    exact absurd digit (by decide)

theorem Literal.Spelling.readValue {l : Literal} {n : Number} {s : List Char} (h : l.Spelling s)
    (value : l.number? = some n) {depth : Nat} {gap rest : List Char} (free : Blanks isSpace gap)
    (ends : Ends rest) : readValue depth (gap ++ (s ++ rest)) = .ok (.number n, rest) := by
  obtain ⟨t, unsigned, rfl⟩ := h
  have read := readUnsigned_of_spelling unsigned value ends
  obtain ⟨negative, whole, fraction, exponent⟩ := l
  cases negative with
  | true =>
    rw [if_pos rfl, List.cons_append, readValue.eq_def, skipSpace_append_cons free (by decide)]
    exact congrArg (Except.map _) read
  | false =>
    obtain ⟨c, u, rfl, digit⟩ := unsigned.head
    rw [if_neg Bool.false_ne_true, List.cons_append, readValue_digit free digit]
    exact congrArg (Except.map _) read

/-- A value is read from what stands for it, if it is not too deep and its numbers not too large. -/
theorem takesEnded_readValue (depth nested : Nat) :
    TakesEnded (readValue depth) (fun t s => t.Spelling nested s ∧ t.Readable depth)
      (Tree.value depth) := by
  -- Words, numbers and strings are read alike at any depth; a bracket takes one off.
  induction depth using Nat.strong_induction_on generalizing nested with
  | _ depth ih
  rintro t gap s rest free ⟨spelled, readable⟩ ends
  cases t with
  | null =>
    simp only [Tree.Spelling] at spelled
    rw [spelled, Tree.value, List.cons_append, readValue.eq_def,
      skipSpace_append_cons free (by decide)]
    exact congrArg (Except.map (Value.null, ·)) (readWord_self ['u', 'l', 'l'] rest)
  | boolean b =>
    cases b with
    | true =>
      simp only [Tree.Spelling] at spelled
      rw [spelled, Tree.value, List.cons_append, readValue.eq_def,
        skipSpace_append_cons free (by decide)]
      exact congrArg (Except.map (Value.boolean true, ·)) (readWord_self ['r', 'u', 'e'] rest)
    | false =>
      simp only [Tree.Spelling] at spelled
      rw [spelled, Tree.value, List.cons_append, readValue.eq_def,
        skipSpace_append_cons free (by decide)]
      exact congrArg (Except.map (Value.boolean false, ·))
        (readWord_self ['a', 'l', 's', 'e'] rest)
  | number l =>
    simp only [Tree.Spelling, Tree.Readable] at spelled readable
    obtain ⟨n, value⟩ := Option.isSome_iff_exists.mp readable
    rw [Tree.value, value]
    exact spelled.readValue value free ends
  | string x =>
    simp only [Tree.Spelling, Tree.value] at spelled ⊢
    exact takes_readValue depth x gap s rest free spelled
  | array items =>
    obtain - | depth := depth
    · simp only [Tree.Readable] at readable
    obtain - | nested := nested
    · simp only [Tree.Spelling] at spelled
    simp only [Tree.Spelling, Tree.Readable, Tree.value] at spelled readable ⊢
    obtain ⟨u, elements, rfl⟩ := spelled
    have begins : ∀ (t : Tree) s, t.Spelling nested s ∧ t.Readable depth → Begins s :=
      fun t s h => h.1.begins
    have takes := ih depth (Nat.lt_succ_self depth) nested
    have read := (elements.and_forall readable).read takes begins rest
    rw [List.cons_append, readValue.eq_def, skipSpace_append_cons free (by decide)]
    exact congrArg (Except.map _) read
  | object members =>
    obtain - | depth := depth
    · simp only [Tree.Readable] at readable
    obtain - | nested := nested
    · simp only [Tree.Spelling] at spelled
    simp only [Tree.Spelling, Tree.Readable, Tree.value] at spelled readable ⊢
    obtain ⟨u, spelled, rfl⟩ := spelled
    have takes := ih depth (Nat.lt_succ_self depth) nested
    have read := (spelled.and_forall readable).read takes rest
    rw [List.cons_append, readValue.eq_def, skipSpace_append_cons free (by decide)]
    exact congrArg (Except.map _) read

/-- A text is written as an object of these members, in their order. -/
def IsObject (ms : List (String × Tree)) (text : String) : Prop :=
  ∃ depth, ObjectSpelling isSpace (Tree.Spelling depth) ms text.toList

/-- An object is read from what is written as one, if its values can be read. -/
theorem IsObject.parseObject_eq {ms : List (String × Tree)} {text : String} (h : IsObject ms text)
    (readable : ∀ m ∈ ms, m.2.Readable (maxDepth - 1)) :
    parseObject text = .ok (ms.map fun m => (m.1, m.2.value (maxDepth - 1))) := by
  obtain ⟨depth, lead, t, trail, free, members, free', whole⟩ := h
  exact parse_of_spelling (takesEnded_readValue _ depth)
    ⟨lead, t, trail, free, members.and_forall readable, free', whole⟩

/-- The text of a string; nothing for a value of another kind. -/
def Tree.text : Tree → String
  | .string x => x
  | _ => ""

theorem takesEnded_readStringValue (nested : Nat) : TakesEnded readStringValue
    (fun t s => t.Spelling nested s ∧ ∃ x, t = .string x) Tree.text := by
  rintro _ gap s rest free ⟨spelled, x, rfl⟩ -
  simp only [Tree.Spelling] at spelled
  exact readStringValue_eq_ok_iff.mpr ⟨gap, s, free, spelled, rfl⟩

theorem Tree.Spelling.readStringValue_ne_ok {nested : Nat} {t : Tree} {gap s : List Char}
    (h : t.Spelling nested s) (other : ∀ x, t ≠ .string x) (free : Blanks isSpace gap)
    (rest : List Char) (r : String × List Char) : readStringValue (gap ++ (s ++ rest)) ≠ .ok r := by
  obtain ⟨c, u, rfl, solid, -, unquoted⟩ := h.head_of_ne_string other
  rw [readStringValue, List.cons_append, skipSpace_append_cons free solid]
  split
  · rename_i same
    exact absurd (List.cons.inj same).1 unquoted
  · exact mismatch_ne_ok

theorem IsObject.parseStrings_eq {ms : List (String × Tree)} {text : String}
    (h : IsObject ms text) (strings : ∀ m ∈ ms, ∃ x, m.2 = .string x) :
    parseStrings text = .ok (ms.map fun m => (m.1, m.2.text)) := by
  obtain ⟨depth, lead, t, trail, free, members, free', whole⟩ := h
  exact parse_of_spelling (takesEnded_readStringValue depth)
    ⟨lead, t, trail, free, members.and_forall strings, free', whole⟩

/-- An object with a value that is no string is no object of strings, whatever its key has later. -/
theorem IsObject.parseStrings_ne_ok {ms : List (String × Tree)} {text : String}
    (h : IsObject ms text) (other : ∃ m ∈ ms, ∀ x, m.2 ≠ .string x) (r : List (String × String)) :
    parseStrings text ≠ .ok r := by
  obtain ⟨depth, lead, t, trail, free, members, -, whole⟩ := h
  intro parsed
  obtain ⟨rest, read, -⟩ := parse_eq_ok_iff.mp parsed
  rw [whole, readObject, skipSpace_append_cons free (by decide)] at read
  have refuses : ∀ (t : Tree) gap s rest r, Blanks isSpace gap → t.Spelling depth s →
      (¬ ∃ x, t = .string x) → readStringValue (gap ++ (s ++ rest)) ≠ .ok r :=
    fun t gap s rest r free spelled other =>
      spelled.readStringValue_ne_ok (not_exists.mp other) free rest r
  have bad : ∃ m ∈ ms, ¬ ∃ x, m.2 = .string x := by
    simpa only [not_exists] using other
  exact readMembers_ne_ok (takesEnded_readStringValue depth) refuses members bad trail _ _ read

end SearchLoad.Json
