import SearchLoad.Proofs.Json.Trees

namespace SearchLoad.Json

variable {α β : Type} {blank : Char → Bool} {Item : α → List Char → Prop} {P : α → Prop}
  {first : Bool} {s : List Char}

theorem Separator.append {sep gap : List Char} (h : Separator blank first sep)
    (free : Blanks blank gap) : Separator blank first (sep ++ gap) := by
  cases h with
  | first free' => exact .first (List.forall_mem_append.mpr ⟨free', free⟩)
  | next free' more =>
    rw [List.append_assoc, List.cons_append]
    exact .next free' (List.forall_mem_append.mpr ⟨more, free⟩)

theorem MembersSpelling.of_and {ms : List (String × α)}
    (h : MembersSpelling blank (fun x t => Item x t ∧ P x) first ms s) :
    MembersSpelling blank Item first ms s ∧ ∀ m ∈ ms, P m.2 := by
  induction h with
  | close free => exact ⟨.close free, by simp⟩
  | member separator head tail ih =>
    obtain ⟨key, gap, more, value, quoted, free, free', ⟨stands, this⟩, rfl⟩ := head
    have head : MemberSpelling blank Item _ _ :=
      ⟨key, gap, more, value, quoted, free, free', stands, rfl⟩
    exact ⟨.member separator head ih.1, List.forall_mem_cons.mpr ⟨this, ih.2⟩⟩

theorem ElementsSpelling.of_and {xs : List α}
    (h : ElementsSpelling blank (fun x t => Item x t ∧ P x) first xs s) :
    ElementsSpelling blank Item first xs s ∧ ∀ x ∈ xs, P x := by
  induction h with
  | close free => exact ⟨.close free, by simp⟩
  | element separator head tail ih =>
    exact ⟨.element separator head.1 ih.1, List.forall_mem_cons.mpr ⟨head.2, ih.2⟩⟩

section Elements

variable {rest : List Char}

theorem close_of_readElementTurn (h : readElementTurn first s = .ok (.close, rest)) :
    ∃ gap, Blanks isSpace gap ∧ s = gap ++ ']' :: rest := by
  unfold readElementTurn at h
  split at h
  · contradiction
  · rename_i found
    obtain ⟨-, rfl⟩ := Prod.mk.inj (Except.ok.inj h)
    exact exists_of_skipSpace found
  · repeat' split at h
    all_goals simp at h

theorem item_of_readElementTurn (h : readElementTurn first s = .ok (.item, rest)) :
    ∃ sep, Separator isSpace first sep ∧ s = sep ++ rest := by
  unfold readElementTurn at h
  split at h
  · contradiction
  · simp at h
  · rename_i c t _ found
    obtain ⟨gap, free, rfl⟩ := exists_of_skipSpace found
    cases first with
    | true =>
      obtain ⟨-, rfl⟩ := Prod.mk.inj (Except.ok.inj (if_pos rfl ▸ h))
      exact ⟨gap, .first free, rfl⟩
    | false =>
      rw [if_neg (by decide)] at h
      split at h
      · rename_i comma
        split at h
        · contradiction
        · contradiction
        · obtain ⟨-, found'⟩ := Prod.mk.inj (Except.ok.inj h)
          obtain ⟨more, free', rfl⟩ := exists_of_skipSpace found'
          exact ⟨gap ++ ',' :: more, .next free free', by simp [comma]⟩
      · contradiction

theorem spelling_of_readElements {item : Reader β} {f : α → β} (taken : Taken item Item f)
    {fuel : Nat} {xs : List β} (h : readElements item fuel first s = .ok (xs, rest)) :
    ∃ ys t, ElementsSpelling isSpace Item first ys t ∧ ys.map f = xs ∧ s = t ++ rest := by
  induction fuel generalizing first s xs with
  | zero => contradiction
  | succ fuel ih =>
    rw [readElements] at h
    simp only [bind_eq_ok_iff, Prod.exists] at h
    obtain ⟨found, s', turn, step⟩ := h
    cases found with
    | close =>
      obtain ⟨gap, free, rfl⟩ := close_of_readElementTurn turn
      obtain ⟨rfl, rfl⟩ := Prod.mk.inj (Except.ok.inj step)
      exact ⟨[], _, .close free, rfl, by simp⟩
    | item =>
      obtain ⟨sep, separator, rfl⟩ := item_of_readElementTurn turn
      simp only [bind_eq_ok_iff, Prod.exists] at step
      obtain ⟨_, _, value, xs', _, further, last⟩ := step
      obtain ⟨rfl, rfl⟩ := Prod.mk.inj (Except.ok.inj last)
      obtain ⟨y, gap, t, free, stands, rfl, rfl⟩ := taken _ _ _ value
      obtain ⟨ys, t', tail, rfl, rfl⟩ := ih further
      exact ⟨y :: ys, _, .element (separator.append free) stands tail, rfl, by simp⟩

end Elements

theorem eq_append_of_readWord {word rest : List Char} (h : readWord word s = .ok rest) :
    s = word ++ rest := by
  induction word generalizing s with
  | nil => exact Except.ok.inj h
  | cons e word ih =>
    cases s with
    | nil => contradiction
    | cons c s =>
      rw [readWord] at h
      split at h
      · rename_i same
        rw [same, ih h, List.cons_append]
      · contradiction

theorem word_of_map {word rest : List Char} {v w : Value}
    (h : (readWord word s).map (v, ·) = .ok (w, rest)) : v = w ∧ s = word ++ rest := by
  obtain ⟨_, read, same⟩ := map_eq_ok_iff.mp h
  obtain ⟨rfl, rfl⟩ := Prod.mk.inj same
  exact ⟨rfl, eq_append_of_readWord read⟩

theorem item_of_map {x : Except Stop (α × List Char)} {f : α → Value} {v : Value}
    {rest : List Char} (h : x.map (fun r => (f r.1, r.2)) = .ok (v, rest)) :
    ∃ a, x = .ok (a, rest) ∧ f a = v := by
  obtain ⟨⟨a, _⟩, read, same⟩ := map_eq_ok_iff.mp h
  obtain ⟨rfl, rfl⟩ := Prod.mk.inj same
  exact ⟨a, read, rfl⟩

/-- A value is read from what stands for one, and from nothing else. -/
theorem taken_readValue (depth : Nat) : Taken (readValue depth)
    (fun t s => t.Spelling depth s ∧ t.Readable depth) (Tree.value depth) := by
  -- Words, numbers and strings are read alike at any depth; a bracket takes one off.
  induction depth using Nat.strong_induction_on with
  | _ depth ih
  intro s v rest h
  obtain ⟨gap, free, whole⟩ := exists_of_skipSpace (Eq.refl (skipSpace s))
  suffices found : ∃ (x : Tree) (u : List Char), x.Spelling depth u ∧ x.Readable depth ∧
      x.value depth = v ∧ skipSpace s = u ++ rest by
    obtain ⟨x, u, spelled, readable, made, behind⟩ := found
    exact ⟨x, gap, u, free, ⟨spelled, readable⟩, made, behind ▸ whole⟩
  rw [readValue.eq_def] at h
  generalize skipSpace s = t at h ⊢
  split at h
  · contradiction
  · obtain ⟨rfl, rfl⟩ := word_of_map h
    exact ⟨.null, ['n', 'u', 'l', 'l'], by simp [Tree.Spelling, Tree.Readable, Tree.value]⟩
  · obtain ⟨rfl, rfl⟩ := word_of_map h
    exact ⟨.boolean true, ['t', 'r', 'u', 'e'],
      by simp [Tree.Spelling, Tree.Readable, Tree.value]⟩
  · obtain ⟨rfl, rfl⟩ := word_of_map h
    exact ⟨.boolean false, ['f', 'a', 'l', 's', 'e'],
      by simp [Tree.Spelling, Tree.Readable, Tree.value]⟩
  · obtain ⟨x, read, rfl⟩ := item_of_map h
    obtain ⟨u, spelled, rfl⟩ := readString_eq_ok_iff.mp read
    have quoted : Quoted x ('"' :: (u ++ ['"'])) := ⟨u, spelled, rfl⟩
    exact ⟨.string x, _, by simpa [Tree.Spelling] using quoted,
      by simp [Tree.Readable], by simp [Tree.value], by simp⟩
  · obtain ⟨n, read, rfl⟩ := item_of_map h
    obtain ⟨l, u, sign, unsigned, value, rfl⟩ := spelling_of_readUnsigned read
    have spelled : l.Spelling ('-' :: u) := ⟨u, unsigned, by rw [if_pos sign]⟩
    exact ⟨.number l, _, by simpa only [Tree.Spelling] using spelled,
      by simp [Tree.Readable, value], by simp [Tree.value, value], by simp⟩
  · split at h
    · contradiction
    · rename_i depth
      obtain ⟨items, read, rfl⟩ := item_of_map h
      obtain ⟨ts, u, spelled, rfl, rfl⟩ :=
        spelling_of_readElements (ih depth (Nat.lt_succ_self depth)) read
      obtain ⟨elements, readable⟩ := spelled.of_and
      refine ⟨.array ts, '[' :: u, ?_, ?_, ?_, List.cons_append.symm⟩
      · simp only [Tree.Spelling]
        exact ⟨u, elements, rfl⟩
      · simpa only [Tree.Readable] using readable
      · simp only [Tree.value]
  · split at h
    · contradiction
    · rename_i depth
      obtain ⟨members, read, rfl⟩ := item_of_map h
      obtain ⟨ms, u, spelled, rfl, rfl⟩ :=
        spelling_of_readMembers (ih depth (Nat.lt_succ_self depth)) read
      obtain ⟨spelled, readable⟩ := spelled.of_and
      refine ⟨.object ms, '\x7b' :: u, ?_, ?_, ?_, List.cons_append.symm⟩
      · simp only [Tree.Spelling]
        exact ⟨u, spelled, rfl⟩
      · simpa only [Tree.Readable] using readable
      · simp only [Tree.value]
  · split at h
    · obtain ⟨n, read, rfl⟩ := item_of_map h
      obtain ⟨l, u, sign, unsigned, value, behind⟩ := spelling_of_readUnsigned read
      have spelled : l.Spelling u := ⟨u, unsigned, by simp [sign]⟩
      exact ⟨.number l, u, by simpa only [Tree.Spelling] using spelled,
        by simp [Tree.Readable, value], by simp [Tree.value, value], behind⟩
    · contradiction

/-- An object is read from what is written as one, if its values can be read, and from nothing
else. -/
theorem parseObject_eq_ok_iff {text : String} {members : List (String × Value)} :
    parseObject text = .ok members ↔ ∃ ms, IsObject ms text ∧
      (∀ m ∈ ms, m.2.Readable (maxDepth - 1)) ∧
      ms.map (fun m => (m.1, m.2.value (maxDepth - 1))) = members := by
  constructor
  · intro h
    obtain ⟨ms, ⟨lead, t, trail, free, spelled, free', whole⟩, made⟩ :=
      spelling_of_parse (taken_readValue _) h
    obtain ⟨spelled, readable⟩ := spelled.of_and
    exact ⟨ms, ⟨_, lead, t, trail, free, spelled, free', whole⟩, readable, made⟩
  · rintro ⟨ms, object, readable, rfl⟩
    exact object.parseObject_eq readable

end SearchLoad.Json
