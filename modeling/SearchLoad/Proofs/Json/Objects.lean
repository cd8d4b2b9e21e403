import Mathlib.Data.List.Induction
import Mathlib.Data.List.TakeWhile
import SearchLoad.Json.Value
import SearchLoad.Proofs.Json.Strings

namespace SearchLoad.Json

variable {α β : Type}

/-- Characters that may stand between tokens. -/
def Blanks (blank : Char → Bool) (s : List Char) : Prop := ∀ c ∈ s, blank c = true

theorem blanks_nil (blank : Char → Bool) : Blanks blank [] := by simp [Blanks]

/-- Blanks that do not end a line. -/
def isInlineSpace (c : Char) : Bool := isSpace c && c != '\n'

/-- What stands before a member: a comma before all but the first. -/
inductive Separator (blank : Char → Bool) : Bool → List Char → Prop
  | first {gap : List Char} (free : Blanks blank gap) : Separator blank true gap
  | next {gap more : List Char} (free : Blanks blank gap) (free' : Blanks blank more) :
      Separator blank false (gap ++ ',' :: more)

/-- What stands for a member, from the quote before its key to the end of its value. -/
def MemberSpelling (blank : Char → Bool) (Item : α → List Char → Prop) (m : String × α)
    (s : List Char) : Prop :=
  ∃ key gap more value, Quoted m.1 key ∧ Blanks blank gap ∧ Blanks blank more ∧ Item m.2 value ∧
    s = key ++ (gap ++ ':' :: (more ++ value))

/-- What stands for members, up to the brace behind them. -/
inductive MembersSpelling (blank : Char → Bool) (Item : α → List Char → Prop) :
    Bool → List (String × α) → List Char → Prop
  | close {first : Bool} {gap : List Char} (free : Blanks blank gap) :
      MembersSpelling blank Item first [] (gap ++ ['\x7d'])
  | member {first : Bool} {m : String × α} {ms : List (String × α)} {sep s t : List Char}
      (separator : Separator blank first sep) (head : MemberSpelling blank Item m s)
      (tail : MembersSpelling blank Item false ms t) :
      MembersSpelling blank Item first (m :: ms) (sep ++ (s ++ t))

/-- What stands for an object, with blanks around it. -/
def ObjectSpelling (blank : Char → Bool) (Item : α → List Char → Prop) (ms : List (String × α))
    (s : List Char) : Prop :=
  ∃ lead t trail, Blanks blank lead ∧ MembersSpelling blank Item true ms t ∧ Blanks blank trail ∧
    s = lead ++ '\x7b' :: (t ++ trail)

/-- A reader takes what stands for an item, with blanks before it, and makes something of it. -/
def Takes (item : Reader β) (Item : α → List Char → Prop) (f : α → β) : Prop :=
  ∀ x gap t rest, Blanks isSpace gap → Item x t → item (gap ++ (t ++ rest)) = .ok (f x, rest)

/-- What stands behind a value: nothing more, a blank, or what separates or closes items. -/
def Ends (s : List Char) : Prop :=
  ∀ c ∈ s.head?, isSpace c = true ∨ c = ',' ∨ c = ']' ∨ c = '\x7d'

/-- A reader takes what stands for an item as long as the item ends there. -/
def TakesEnded (item : Reader β) (Item : α → List Char → Prop) (f : α → β) : Prop :=
  ∀ x gap t rest, Blanks isSpace gap → Item x t → Ends rest →
    item (gap ++ (t ++ rest)) = .ok (f x, rest)

theorem Takes.ended {item : Reader β} {Item : α → List Char → Prop} {f : α → β}
    (takes : Takes item Item f) : TakesEnded item Item f :=
  fun x gap t rest free stands _ => takes x gap t rest free stands

/-- What a reader takes stands for an item, with blanks before it, and what it returns is made of
that item. -/
def Taken (item : Reader β) (Item : α → List Char → Prop) (f : α → β) : Prop :=
  ∀ s r rest, item s = .ok (r, rest) →
    ∃ x gap t, Blanks isSpace gap ∧ Item x t ∧ f x = r ∧ s = gap ++ (t ++ rest)

theorem ends_append {gap : List Char} (free : Blanks isSpace gap) {c : Char}
    (mark : c = ',' ∨ c = ']' ∨ c = '\x7d') (s : List Char) : Ends (gap ++ c :: s) := by
  intro d hd
  cases gap with
  | nil =>
    obtain rfl := Option.some.inj hd
    exact .inr mark
  | cons b gap =>
    obtain rfl := Option.some.inj hd
    exact .inl (free b List.mem_cons_self)

theorem Separator.ends {sep : List Char} (h : Separator isSpace false sep) (s : List Char) :
    Ends (sep ++ s) := by
  cases h with
  | next free free' =>
    rw [List.append_assoc, List.cons_append]
    exact ends_append free (.inl rfl) _

theorem MembersSpelling.ends {Item : α → List Char → Prop} {ms : List (String × α)} {s : List Char}
    (h : MembersSpelling isSpace Item false ms s) (rest : List Char) : Ends (s ++ rest) := by
  cases h with
  | close free =>
    rw [List.append_assoc]
    exact ends_append free (.inr (.inr rfl)) _
  | member separator head tail =>
    rw [List.append_assoc]
    exact separator.ends _

theorem skipSpace_eq_nil_iff {s : List Char} : skipSpace s = [] ↔ Blanks isSpace s :=
  List.dropWhile_eq_nil_iff

theorem skipSpace_append_cons {gap : List Char} (free : Blanks isSpace gap) {c : Char}
    (solid : isSpace c = false) (s : List Char) : skipSpace (gap ++ c :: s) = c :: s := by
  rw [skipSpace, List.dropWhile_append_of_pos free, List.dropWhile_cons_of_neg (by simp [solid])]

theorem exists_of_skipSpace {s t : List Char} (h : skipSpace s = t) :
    ∃ gap, Blanks isSpace gap ∧ s = gap ++ t := by
  refine ⟨s.takeWhile isSpace, fun c => List.mem_takeWhile_imp, ?_⟩
  rw [← h, skipSpace, List.takeWhile_append_dropWhile]

theorem readMemberTurn_eq_ok_close_iff {first : Bool} {s rest : List Char} :
    readMemberTurn first s = .ok (.close, rest) ↔
      ∃ gap, Blanks isSpace gap ∧ s = gap ++ '\x7d' :: rest := by
  constructor
  · intro h
    unfold readMemberTurn at h
    split at h
    · contradiction
    · rename_i found
      obtain ⟨-, rfl⟩ := Prod.mk.inj (Except.ok.inj h)
      exact exists_of_skipSpace found
    · repeat' split at h
      all_goals simp at h
  · rintro ⟨gap, free, rfl⟩
    rw [readMemberTurn, skipSpace_append_cons free (by decide)]
    rfl

theorem readMemberTurn_eq_ok_item_iff {first : Bool} {s rest : List Char} :
    readMemberTurn first s = .ok (.item, rest) ↔
      ∃ sep, Separator isSpace first sep ∧ s = sep ++ '"' :: rest := by
  constructor
  · intro h
    unfold readMemberTurn at h
    split at h
    · contradiction
    · simp at h
    · rename_i c t _ found
      obtain ⟨gap, free, rfl⟩ := exists_of_skipSpace found
      cases first with
      | true =>
        rw [if_pos rfl] at h
        split at h
        · rename_i quote
          obtain ⟨-, rfl⟩ := Prod.mk.inj (Except.ok.inj h)
          exact ⟨gap, .first free, by rw [quote]⟩
        · contradiction
      | false =>
        rw [if_neg (by decide)] at h
        split at h
        · rename_i comma
          split at h
          · contradiction
          · rename_i found'
            obtain ⟨more, free', rfl⟩ := exists_of_skipSpace found'
            obtain ⟨-, rfl⟩ := Prod.mk.inj (Except.ok.inj h)
            exact ⟨gap ++ ',' :: more, .next free free', by simp [comma]⟩
          · contradiction
          · contradiction
        · contradiction
  · rintro ⟨sep, separator, rfl⟩
    cases separator with
    | first free =>
      rw [readMemberTurn, skipSpace_append_cons free (by decide)]
      rfl
    | @next gap more free free' =>
      have behind : skipSpace (more ++ '"' :: rest) = '"' :: rest :=
        skipSpace_append_cons free' (by decide) rest
      rw [List.append_assoc, List.cons_append, readMemberTurn,
        skipSpace_append_cons free (by decide)]
      simp [behind]

theorem readColon_eq_ok_iff {s rest : List Char} :
    readColon s = .ok rest ↔ ∃ gap, Blanks isSpace gap ∧ s = gap ++ ':' :: rest := by
  constructor
  · intro h
    unfold readColon at h
    split at h
    · contradiction
    · rename_i found
      obtain rfl := Except.ok.inj h
      exact exists_of_skipSpace found
    · contradiction
  · rintro ⟨gap, free, rfl⟩
    rw [readColon, skipSpace_append_cons free (by decide)]
    rfl

theorem MembersSpelling.length_le {blank : Char → Bool} {Item : α → List Char → Prop}
    {first : Bool} {ms : List (String × α)} {s : List Char}
    (h : MembersSpelling blank Item first ms s) : ms.length ≤ s.length := by
  induction h with
  | close => exact Nat.zero_le _
  | member separator head tail ih =>
    obtain ⟨key, gap, more, value, -, -, -, -, rfl⟩ := head
    simp only [List.length_cons, List.length_append]
    omega

/-- Up to the value of a member, all is taken as what it stands for. -/
theorem readMembers_member (item : Reader β) (fuel : Nat) {first : Bool} {name : String}
    {sep key gap : List Char} (separator : Separator isSpace first sep) (quoted : Quoted name key)
    (free : Blanks isSpace gap) (s : List Char) :
    readMembers item (fuel + 1) first (sep ++ (key ++ (gap ++ ':' :: s))) =
      item s >>= fun r => readMembers item fuel false r.2 >>= fun rs =>
        .ok ((name, r.1) :: rs.1, rs.2) := by
  obtain ⟨u, spelled, rfl⟩ := quoted
  have text : '"' :: (u ++ ['"']) ++ (gap ++ ':' :: s) =
      '"' :: (u ++ '"' :: (gap ++ ':' :: s)) := by simp
  have turn : readMemberTurn first (sep ++ '"' :: (u ++ '"' :: (gap ++ ':' :: s))) =
      .ok (.item, u ++ '"' :: (gap ++ ':' :: s)) :=
    readMemberTurn_eq_ok_item_iff.mpr ⟨sep, separator, rfl⟩
  have read : readString (u ++ '"' :: (gap ++ ':' :: s)) = .ok (name, gap ++ ':' :: s) :=
    readString_eq_ok_iff.mpr ⟨u, spelled, rfl⟩
  have colon : readColon (gap ++ ':' :: s) = .ok s := readColon_eq_ok_iff.mpr ⟨gap, free, rfl⟩
  rw [text, readMembers, turn]
  simp only [bind, Except.bind, read, colon]

/-- Members are read from what stands for them by a reader that takes their values. -/
theorem readMembers_of_spelling {Item : α → List Char → Prop} {item : Reader β} {f : α → β}
    (takes : TakesEnded item Item f) {first : Bool} {ms : List (String × α)} {s : List Char}
    (h : MembersSpelling isSpace Item first ms s) (rest : List Char) {fuel : Nat}
    (enough : ms.length < fuel) :
    readMembers item fuel first (s ++ rest) = .ok (ms.map fun m => (m.1, f m.2), rest) := by
  induction h generalizing fuel with
  | @close first gap free =>
    obtain ⟨fuel, rfl⟩ := Nat.exists_eq_add_one.mpr enough
    have turn : readMemberTurn first (gap ++ ['\x7d'] ++ rest) = .ok (.close, rest) :=
      readMemberTurn_eq_ok_close_iff.mpr ⟨gap, free, by simp⟩
    rw [readMembers, turn]
    rfl
  | @member first m ms sep s t separator head tail ih =>
    obtain ⟨fuel, rfl⟩ := Nat.exists_eq_add_one.mpr (Nat.zero_lt_of_lt enough)
    obtain ⟨key, gap, more, value, quoted, free, free', stands, rfl⟩ := head
    have taken := takes m.2 more value (t ++ rest) free' stands (tail.ends rest)
    have further := ih (Nat.lt_of_succ_lt_succ enough)
    simp only [List.append_assoc, List.cons_append]
    rw [readMembers_member item fuel separator quoted free, taken]
    simp only [bind, Except.bind, further, List.map_cons]

/-- The members of a whole object are read from what stands for them. -/
theorem MembersSpelling.read {Item : α → List Char → Prop} {item : Reader β} {f : α → β}
    (takes : TakesEnded item Item f) {ms : List (String × α)} {s : List Char}
    (h : MembersSpelling isSpace Item true ms s) (rest : List Char) :
    readMembers item ((s ++ rest).length + 1) true (s ++ rest) =
      .ok (ms.map fun m => (m.1, f m.2), rest) := by
  have enough : ms.length < (s ++ rest).length + 1 := by
    have short := h.length_le
    rw [List.length_append]
    omega
  exact readMembers_of_spelling takes h rest enough

/-- Members are not read by a reader that does not take the value of each. -/
theorem readMembers_ne_ok {Item : α → List Char → Prop} {Good : α → Prop} {item : Reader β}
    {f : α → β} (takes : TakesEnded item (fun x t => Item x t ∧ Good x) f)
    (refuses : ∀ x gap t rest r, Blanks isSpace gap → Item x t → ¬ Good x →
      item (gap ++ (t ++ rest)) ≠ .ok r)
    {first : Bool} {ms : List (String × α)} {s : List Char}
    (h : MembersSpelling isSpace Item first ms s) (bad : ∃ m ∈ ms, ¬ Good m.2) (rest : List Char)
    (fuel : Nat) (r : List (String × β) × List Char) :
    readMembers item fuel first (s ++ rest) ≠ .ok r := by
  induction h generalizing fuel r with
  | close free => simp at bad
  | @member first m ms sep s t separator head tail ih =>
    obtain ⟨key, gap, more, value, quoted, free, free', stands, rfl⟩ := head
    simp only [List.append_assoc, List.cons_append]
    cases fuel with
    | zero => simp [readMembers]
    | succ fuel =>
      rw [readMembers_member item fuel separator quoted free, Ne, bind_eq_ok_iff]
      rintro ⟨x, read, last⟩
      -- Either the reader stops at this value, or it goes on to one of the others.
      by_cases good : Good m.2
      · have taken := takes m.2 more value (t ++ rest) free' ⟨stands, good⟩ (tail.ends rest)
        obtain rfl := Except.ok.inj (taken.symm.trans read)
        obtain ⟨xs, read', -⟩ := bind_eq_ok_iff.mp last
        have others : ∃ m ∈ ms, ¬ Good m.2 := by
          simpa [good] using bad
        exact ih others fuel xs read'
      · exact refuses m.2 more value (t ++ rest) x free' stands good read

theorem spelling_of_readMembers {Item : α → List Char → Prop} {item : Reader β} {f : α → β}
    (taken : Taken item Item f) {fuel : Nat} {first : Bool} {s rest : List Char}
    {ms : List (String × β)} (h : readMembers item fuel first s = .ok (ms, rest)) :
    ∃ ns t, MembersSpelling isSpace Item first ns t ∧ ns.map (fun n => (n.1, f n.2)) = ms ∧
      s = t ++ rest := by
  induction fuel generalizing first s ms with
  | zero => contradiction
  | succ fuel ih =>
    rw [readMembers] at h
    simp only [bind_eq_ok_iff, Prod.exists] at h
    obtain ⟨found, s', turn, step⟩ := h
    cases found with
    | close =>
      obtain ⟨gap, free, rfl⟩ := readMemberTurn_eq_ok_close_iff.mp turn
      obtain ⟨rfl, rfl⟩ := Prod.mk.inj (Except.ok.inj step)
      exact ⟨[], _, .close free, rfl, by simp⟩
    | item =>
      obtain ⟨sep, separator, rfl⟩ := readMemberTurn_eq_ok_item_iff.mp turn
      simp only [bind_eq_ok_iff, Prod.exists, readString_eq_ok_iff, readColon_eq_ok_iff] at step
      obtain ⟨key, _, ⟨u, spelled, rfl⟩, _, ⟨gap, free, rfl⟩, _, _, value, ms', _, further, last⟩ :=
        step
      obtain ⟨rfl, rfl⟩ := Prod.mk.inj (Except.ok.inj last)
      obtain ⟨x, gap', t, free', stands, rfl, rfl⟩ := taken _ _ _ value
      obtain ⟨ns, t', tail, rfl, rfl⟩ := ih further
      have head : MemberSpelling isSpace Item (key, x) _ :=
        ⟨_, gap, gap', t, ⟨u, spelled, rfl⟩, free, free', stands, rfl⟩
      exact ⟨(key, x) :: ns, _, .member separator head tail, rfl, by simp⟩

theorem mismatch_ne_ok {expected : Expected} {s : List Char} {r : α × List Char} :
    mismatch expected s ≠ .ok r := by
  intro h
  unfold mismatch at h
  split at h
  · contradiction
  · contradiction
  · simp only [bind_eq_ok_iff, Prod.exists] at h
    obtain ⟨_, _, _, step⟩ := h
    contradiction

theorem readStringValue_eq_ok_iff {s rest : List Char} {x : String} :
    readStringValue s = .ok (x, rest) ↔
      ∃ gap t, Blanks isSpace gap ∧ Quoted x t ∧ s = gap ++ (t ++ rest) := by
  constructor
  · intro h
    unfold readStringValue at h
    split at h
    · rename_i found
      obtain ⟨gap, free, rfl⟩ := exists_of_skipSpace found
      obtain ⟨t, spelled, rfl⟩ := readString_eq_ok_iff.mp h
      exact ⟨gap, _, free, ⟨t, spelled, rfl⟩, by simp⟩
    · exact absurd h mismatch_ne_ok
  · rintro ⟨gap, _, free, ⟨t, spelled, rfl⟩, rfl⟩
    rw [readStringValue, List.cons_append, skipSpace_append_cons free (by decide)]
    exact readString_eq_ok_iff.mpr ⟨t, spelled, by simp⟩

/-- A value that is a string is read as one at any depth. -/
theorem takes_readValue (depth : Nat) : Takes (readValue depth) Quoted .string := by
  rintro x gap _ rest free ⟨u, spelled, rfl⟩
  have read : readString (u ++ '"' :: rest) = .ok (x, rest) :=
    readString_eq_ok_iff.mpr ⟨u, spelled, rfl⟩
  have text : gap ++ ('"' :: (u ++ ['"']) ++ rest) = gap ++ '"' :: (u ++ '"' :: rest) := by simp
  rw [text, readValue.eq_def, skipSpace_append_cons free (by decide)]
  simp only [read]
  rfl

theorem readObject_eq_ok_iff {item : Reader α} {s rest : List Char} {ms : List (String × α)} :
    readObject item s = .ok (ms, rest) ↔ ∃ gap t, Blanks isSpace gap ∧ s = gap ++ '\x7b' :: t ∧
      readMembers item (t.length + 1) true t = .ok (ms, rest) := by
  constructor
  · intro h
    unfold readObject at h
    split at h
    · rename_i found
      obtain ⟨gap, free, rfl⟩ := exists_of_skipSpace found
      exact ⟨gap, _, free, rfl, h⟩
    · exact absurd h mismatch_ne_ok
  · rintro ⟨gap, t, free, rfl, read⟩
    rw [readObject, skipSpace_append_cons free (by decide)]
    exact read

theorem parse_eq_ok_iff {read : Reader α} {text : String} {x : α} :
    parse read text = .ok x ↔ ∃ rest, read text.toList = .ok (x, rest) ∧ Blanks isSpace rest := by
  simp only [parse, mapError_eq_ok_iff, bind_eq_ok_iff, Prod.exists]
  constructor
  · rintro ⟨y, rest, found, step⟩
    split at step
    · rename_i blank
      obtain rfl := Except.ok.inj step
      exact ⟨rest, found, skipSpace_eq_nil_iff.mp blank⟩
    · contradiction
  · rintro ⟨rest, found, blank⟩
    refine ⟨x, rest, found, ?_⟩
    rw [skipSpace_eq_nil_iff.mpr blank]

/-- What is written as an object is one for any reader that takes its values. -/
theorem parse_of_spelling {Item : α → List Char → Prop} {item : Reader β} {f : α → β}
    (takes : TakesEnded item Item f) {ms : List (String × α)} {text : String}
    (h : ObjectSpelling isSpace Item ms text.toList) :
    parse (readObject item) text = .ok (ms.map fun m => (m.1, f m.2)) := by
  obtain ⟨lead, t, trail, free, members, free', whole⟩ := h
  have read := readObject_eq_ok_iff.mpr ⟨lead, _, free, whole, members.read takes trail⟩
  exact parse_eq_ok_iff.mpr ⟨trail, read, free'⟩

/-- What is read as an object is written as one of what its reader takes. -/
theorem spelling_of_parse {Item : α → List Char → Prop} {item : Reader β} {f : α → β}
    (taken : Taken item Item f) {ms : List (String × β)} {text : String}
    (h : parse (readObject item) text = .ok ms) :
    ∃ ns, ObjectSpelling isSpace Item ns text.toList ∧ ns.map (fun n => (n.1, f n.2)) = ms := by
  obtain ⟨trail, read, free'⟩ := parse_eq_ok_iff.mp h
  obtain ⟨lead, _, free, whole, members⟩ := readObject_eq_ok_iff.mp read
  obtain ⟨ns, t, spelled, made, rfl⟩ := spelling_of_readMembers taken members
  exact ⟨ns, ⟨lead, t, trail, free, spelled, free', whole⟩, made⟩

/-- An object of strings is read from what is written as one and from nothing else. -/
theorem parseStrings_eq_ok_iff {text : String} {ms : List (String × String)} :
    parseStrings text = .ok ms ↔ ObjectSpelling isSpace Quoted ms text.toList := by
  constructor
  · intro h
    have taken : Taken readStringValue Quoted id := fun s x rest read => by
      obtain ⟨gap, t, free, quoted, rfl⟩ := readStringValue_eq_ok_iff.mp read
      exact ⟨x, gap, t, free, quoted, rfl, rfl⟩
    obtain ⟨ns, spelled, rfl⟩ := spelling_of_parse taken h
    simpa using spelled
  · intro h
    have takes : Takes readStringValue Quoted id := fun x gap t rest free quoted =>
      readStringValue_eq_ok_iff.mpr ⟨gap, t, free, quoted, rfl⟩
    rw [parseStrings, parse_of_spelling takes.ended h]
    simp

/-- An object of strings has the same members as an object of any values. -/
theorem parseObject_of_spelling {text : String} {ms : List (String × String)}
    (h : ObjectSpelling isSpace Quoted ms text.toList) :
    parseObject text = .ok (ms.map fun m => (m.1, .string m.2)) :=
  parse_of_spelling (takes_readValue _).ended h

section Blanks

variable {blank : Char → Bool} {Item : α → List Char → Prop}

theorem Blanks.mono {blank' : Char → Bool} (fewer : ∀ c, blank c = true → blank' c = true)
    {s : List Char} (h : Blanks blank s) : Blanks blank' s := fun c member => fewer c (h c member)

theorem MembersSpelling.mono {blank' : Char → Bool}
    (fewer : ∀ c, blank c = true → blank' c = true) {first : Bool} {ms : List (String × α)}
    {s : List Char} (h : MembersSpelling blank Item first ms s) :
    MembersSpelling blank' Item first ms s := by
  induction h with
  | close free => exact .close (free.mono fewer)
  | member separator head tail ih =>
    obtain ⟨key, gap, more, value, quoted, free, free', stands, rfl⟩ := head
    have head : MemberSpelling blank' Item _ _ :=
      ⟨key, gap, more, value, quoted, free.mono fewer, free'.mono fewer, stands, rfl⟩
    refine .member ?_ head ih
    cases separator with
    | first free => exact .first (free.mono fewer)
    | next free free' => exact .next (free.mono fewer) (free'.mono fewer)

theorem ObjectSpelling.mono {blank' : Char → Bool} (fewer : ∀ c, blank c = true → blank' c = true)
    {ms : List (String × α)} {s : List Char} (h : ObjectSpelling blank Item ms s) :
    ObjectSpelling blank' Item ms s := by
  obtain ⟨lead, t, trail, free, members, free', rfl⟩ := h
  exact ⟨lead, t, trail, free.mono fewer, members.mono fewer, free'.mono fewer, rfl⟩

/-- Blanks behind an object belong to what stands for it. -/
theorem ObjectSpelling.append {ms : List (String × α)} {s more : List Char}
    (h : ObjectSpelling blank Item ms s) (free : Blanks blank more) :
    ObjectSpelling blank Item ms (s ++ more) := by
  obtain ⟨lead, t, trail, free', members, free'', rfl⟩ := h
  have longer : Blanks blank (trail ++ more) := List.forall_mem_append.mpr ⟨free'', free⟩
  exact ⟨lead, t, trail ++ more, free', members, longer, by simp⟩

end Blanks

theorem Quoted.printable {x : String} {s : List Char} (h : Quoted x s) : ∀ d ∈ s, ' ' ≤ d := by
  obtain ⟨t, spelled, rfl⟩ := h
  simp only [List.forall_mem_append, List.forall_mem_cons]
  exact ⟨by decide, spelled.printable, by decide, by simp⟩

theorem MembersSpelling.printable {blank : Char → Bool} {first : Bool}
    {ms : List (String × String)} {s : List Char}
    (h : MembersSpelling blank Quoted first ms s) : ∀ d ∈ s, blank d = true ∨ ' ' ≤ d := by
  have printable : ∀ {t : List Char}, (∀ d ∈ t, ' ' ≤ d) → ∀ d ∈ t, blank d = true ∨ ' ' ≤ d :=
    fun h d member => .inr (h d member)
  have free : ∀ {gap : List Char}, Blanks blank gap → ∀ d ∈ gap, blank d = true ∨ ' ' ≤ d :=
    fun h d member => .inl (h d member)
  induction h with
  | close gap =>
    simp only [List.forall_mem_append, List.forall_mem_cons]
    exact ⟨free gap, .inr (by decide), by simp⟩
  | member separator head tail ih =>
    obtain ⟨key, gap, more, value, quoted, before, behind, stands, rfl⟩ := head
    simp only [List.forall_mem_append, List.forall_mem_cons]
    refine ⟨?_, ⟨printable quoted.printable, free before, .inr (by decide), free behind,
      printable stands.printable⟩, ih⟩
    cases separator with
    | first gap => exact free gap
    | next gap more =>
      simp only [List.forall_mem_append, List.forall_mem_cons]
      exact ⟨free gap, .inr (by decide), free more⟩

/-- An object of strings is written with blanks and printable characters only. -/
theorem ObjectSpelling.printable {blank : Char → Bool} {ms : List (String × String)}
    {s : List Char} (h : ObjectSpelling blank Quoted ms s) :
    ∀ d ∈ s, blank d = true ∨ ' ' ≤ d := by
  obtain ⟨lead, t, trail, free, members, free', rfl⟩ := h
  simp only [List.forall_mem_append, List.forall_mem_cons]
  exact ⟨fun d member => .inl (free d member), .inr (by decide), members.printable,
    fun d member => .inl (free' d member)⟩

theorem lookupLast_concat (key : String) (ms : List (String × α)) (m : String × α) :
    lookupLast key (ms ++ [m]) = if m.1 = key then some m.2 else lookupLast key ms := by
  simp [lookupLast]

theorem lookupLast_map (key : String) (f : α → β) (ms : List (String × α)) :
    lookupLast key (ms.map fun m => (m.1, f m.2)) = (lookupLast key ms).map f := by
  induction ms using List.reverseRecOn with
  | nil => rfl
  | append_singleton ms m ih =>
    rw [List.map_append, List.map_singleton, lookupLast_concat, lookupLast_concat, ih]
    split <;> rfl

theorem lookupLast_append (key : String) (ms more : List (String × α)) :
    lookupLast key (ms ++ more) = (lookupLast key more).or (lookupLast key ms) := by
  induction more using List.reverseRecOn with
  | nil => simp [lookupLast]
  | append_singleton more m ih =>
    rw [← List.append_assoc, lookupLast_concat, lookupLast_concat, ih]
    split <;> rfl

theorem lookupLast_eq_none_iff {key : String} {ms : List (String × α)} :
    lookupLast key ms = none ↔ ∀ m ∈ ms, m.1 ≠ key := by
  induction ms using List.reverseRecOn with
  | nil => simp [lookupLast]
  | append_singleton ms m ih =>
    rw [lookupLast_concat, List.forall_mem_append, List.forall_mem_singleton]
    split <;> simp_all

/-- A key has a value, and no member behind has the key. -/
def IsLast (key : String) (x : α) (ms : List (String × α)) : Prop :=
  ∃ before after, ms = before ++ (key, x) :: after ∧ ∀ m ∈ after, m.1 ≠ key

theorem lookupLast_eq_some_iff {key : String} {x : α} {ms : List (String × α)} :
    lookupLast key ms = some x ↔ IsLast key x ms := by
  constructor
  · intro h
    induction ms using List.reverseRecOn with
    | nil => contradiction
    | append_singleton ms m ih =>
      rw [lookupLast_concat] at h
      split at h
      · rename_i same
        obtain rfl := Option.some.inj h
        exact ⟨ms, [], by rw [← same], by simp⟩
      · rename_i other
        obtain ⟨before, after, rfl, later⟩ := ih h
        refine ⟨before, after ++ [m], by simp, ?_⟩
        exact List.forall_mem_append.mpr ⟨later, by simpa using other⟩
  · rintro ⟨before, after, rfl, later⟩
    have last : lookupLast key after = none := lookupLast_eq_none_iff.mpr later
    rw [List.append_cons, lookupLast_append, last, lookupLast_concat, if_pos rfl]
    rfl

/-- Members in another order, in which those of one key keep theirs. -/
def Rearranged (ms ms' : List (String × α)) : Prop :=
  ∀ key, ms.filter (fun m => m.1 = key) = ms'.filter fun m => m.1 = key

theorem lookupLast_filter (key : String) (ms : List (String × α)) :
    lookupLast key (ms.filter fun m => m.1 = key) = lookupLast key ms := by
  induction ms using List.reverseRecOn with
  | nil => rfl
  | append_singleton ms m ih =>
    rw [List.filter_append, lookupLast_append, ih, lookupLast_concat]
    by_cases same : m.1 = key <;> simp [lookupLast, same]

theorem Rearranged.lookupLast_eq {ms ms' : List (String × α)} (h : Rearranged ms ms')
    (key : String) : lookupLast key ms = lookupLast key ms' := by
  rw [← lookupLast_filter, h key, lookupLast_filter]

theorem Rearranged.mem_iff {ms ms' : List (String × α)} (h : Rearranged ms ms')
    (m : String × α) : m ∈ ms ↔ m ∈ ms' := by
  have inside := congrArg (m ∈ ·) (h m.1)
  simpa using inside

/-- A key that occurs once has the value it occurs with. -/
theorem lookupLast_of_mem {key : String} {x : α} {ms : List (String × α)}
    (distinct : (ms.map Prod.fst).Nodup) (h : (key, x) ∈ ms) : lookupLast key ms = some x := by
  induction ms using List.reverseRecOn with
  | nil => contradiction
  | append_singleton ms m ih =>
    rw [List.map_append, List.map_singleton, List.nodup_append] at distinct
    obtain ⟨distinct, -, other⟩ := distinct
    rw [lookupLast_concat]
    rcases List.mem_append.mp h with member | last
    · have differs : key ≠ m.1 := other key (List.mem_map.mpr ⟨_, member, rfl⟩) m.1 (by simp)
      rw [if_neg differs.symm, ih distinct member]
    · rw [← List.mem_singleton.mp last, if_pos rfl]

/-- Members without blanks, and the brace behind them. -/
def writeMembers : Bool → List (String × String) → List Char
  | _, [] => ['\x7d']
  | first, m :: ms =>
    (if first then [] else [',']) ++
      (writeString m.1 ++ ':' :: writeString m.2 ++ writeMembers false ms)

def writeObject (ms : List (String × String)) : List Char := '\x7b' :: writeMembers true ms

/-- A member without blanks. -/
theorem MembersSpelling.unspaced {blank : Char → Bool} {Item : α → List Char → Prop} (first : Bool)
    (key : String) {x : α} {ms : List (String × α)} {value t : List Char} (stands : Item x value)
    (tail : MembersSpelling blank Item false ms t) :
    MembersSpelling blank Item first ((key, x) :: ms)
      ((if first then [] else [',']) ++ (writeString key ++ ':' :: value ++ t)) := by
  have gap := blanks_nil blank
  have separator : Separator blank first (if first then [] else [',']) := by
    cases first with
    | true => exact .first gap
    | false => exact .next gap gap
  exact .member separator ⟨_, [], [], _, quoted_writeString key, gap, gap, stands, rfl⟩ tail

theorem membersSpelling_writeMembers (blank : Char → Bool) (first : Bool)
    (ms : List (String × String)) :
    MembersSpelling blank Quoted first ms (writeMembers first ms) := by
  induction ms generalizing first with
  | nil => exact .close (blanks_nil blank)
  | cons m ms ih => exact .unspaced first m.1 (quoted_writeString m.2) (ih false)

/-- An object of strings can be written without blanks. -/
theorem objectSpelling_writeObject (blank : Char → Bool) (ms : List (String × String)) :
    ObjectSpelling blank Quoted ms (writeObject ms) :=
  ⟨[], writeMembers true ms, [], blanks_nil blank, membersSpelling_writeMembers blank true ms,
    blanks_nil blank, by simp [writeObject]⟩

end SearchLoad.Json
