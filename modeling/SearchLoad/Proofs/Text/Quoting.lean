import Mathlib.Logic.Function.Basic
import SearchLoad.Text.Quoted

namespace SearchLoad.Text

variable {α β : Type} {f : α → List Char} {g : β → List Char}

/-- What is written, and where it ends, can be told whatever stands behind it. -/
def SelfDelimiting (f : α → List Char) : Prop :=
  ∀ a b s t, f a ++ s = f b ++ t → a = b ∧ s = t

/-- Something is written, and it does not begin with this character. -/
def Spares (f : α → List Char) (c : Char) : Prop := ∀ a s t, f a ++ s ≠ c :: t

namespace SelfDelimiting

theorem injective (h : SelfDelimiting f) : Function.Injective f :=
  fun a b same => (h a b [] [] (by rw [same])).1

theorem comp (h : SelfDelimiting f) {k : β → α} (inj : Function.Injective k) :
    SelfDelimiting fun b => f (k b) := by
  intro a b s t same
  obtain ⟨told, rest⟩ := h _ _ s t same
  exact ⟨inj told, rest⟩

theorem behind (h : SelfDelimiting f) (lead : List Char) : SelfDelimiting fun a => lead ++ f a := by
  intro a b s t same
  rw [List.append_assoc, List.append_assoc, List.append_cancel_left_eq] at same
  exact h a b s t same

theorem before (h : SelfDelimiting f) (trail : List Char) :
    SelfDelimiting fun a => f a ++ trail := by
  intro a b s t same
  rw [List.append_assoc, List.append_assoc] at same
  obtain ⟨told, rest⟩ := h _ _ _ _ same
  exact ⟨told, List.append_cancel_left rest⟩

theorem append (h : SelfDelimiting f) (h' : SelfDelimiting g) :
    SelfDelimiting fun p : α × β => f p.1 ++ g p.2 := by
  rintro ⟨a, b⟩ ⟨c, d⟩ s t same
  rw [List.append_assoc, List.append_assoc] at same
  obtain ⟨rfl, more⟩ := h _ _ _ _ same
  obtain ⟨rfl, rest⟩ := h' _ _ _ _ more
  exact ⟨rfl, rest⟩

/-- Items up to a character that none of them begins with. -/
theorem flatMap (h : SelfDelimiting f) {stop : Char} (spares : Spares f stop) :
    SelfDelimiting fun as : List α => as.flatMap f ++ [stop] := by
  intro as bs s t same
  induction as generalizing bs with
  | nil =>
    cases bs with
    | nil => simpa using same
    | cons b bs =>
      simp only [List.flatMap_cons, List.append_assoc] at same
      exact absurd same.symm (spares _ _ _)
  | cons a as ih =>
    cases bs with
    | nil =>
      simp only [List.flatMap_cons, List.append_assoc] at same
      exact absurd same (spares _ _ _)
    | cons b bs =>
      simp only [List.flatMap_cons, List.append_assoc] at same
      obtain ⟨rfl, more⟩ := h _ _ _ _ same
      obtain ⟨rfl, rest⟩ := ih bs (by simpa using more)
      exact ⟨rfl, rest⟩

theorem intercalate_cons (sep first : List Char) (more : List (List Char)) :
    sep.intercalate (first :: more) = first ++ more.flatMap (sep ++ ·) := by
  induction more generalizing first with
  | nil => simp
  | cons next more ih => rw [List.intercalate_cons_cons, ih, List.flatMap_cons, List.append_assoc,
      List.append_assoc]

/-- Items with something between them, up to a character that neither begins with. -/
theorem intercalate (h : SelfDelimiting f) {sep : List Char} {stop : Char}
    (spares : Spares f stop) (between : Spares (fun a => sep ++ f a) stop) :
    SelfDelimiting fun as : List α => sep.intercalate (as.map f) ++ [stop] := by
  intro as bs s t same
  cases as with
  | nil =>
    cases bs with
    | nil => simpa using same
    | cons b bs =>
      simp only [List.map_cons, intercalate_cons, List.append_assoc] at same
      exact absurd same.symm (spares _ _ _)
  | cons a as =>
    cases bs with
    | nil =>
      simp only [List.map_cons, intercalate_cons, List.append_assoc] at same
      exact absurd same (spares _ _ _)
    | cons b bs =>
      simp only [List.map_cons, intercalate_cons, List.append_assoc, List.flatMap_map] at same
      obtain ⟨rfl, more⟩ := h _ _ _ _ same
      obtain ⟨rfl, rest⟩ := (h.behind sep).flatMap between as bs s t (by simpa using more)
      exact ⟨rfl, rest⟩

end SelfDelimiting

section Hexadecimal

theorem digitChar_injective {m n : Nat} (hm : m < 16) (hn : n < 16)
    (same : m.digitChar = n.digitChar) : m = n := by
  have all : ∀ i < 16, ∀ j < 16, i.digitChar = j.digitChar → i = j := by decide
  exact all m hm n hn same

theorem toDigits_injective : Function.Injective (Nat.toDigits 16) := by
  intro m n same
  induction m using Nat.strongRecOn generalizing n with
  | ind m ih =>
    have base : 1 < 16 := by decide
    rcases Nat.lt_or_ge m 16 with small | large
    · rw [Nat.toDigits_of_lt_base small] at same
      rcases Nat.lt_or_ge n 16 with small' | large'
      · rw [Nat.toDigits_of_lt_base small', List.singleton_inj] at same
        exact digitChar_injective small small' same
      · rw [Nat.toDigits_of_base_le base large', List.singleton_eq_append_iff] at same
        simp at same
    · rw [Nat.toDigits_of_base_le base large] at same
      rcases Nat.lt_or_ge n 16 with small' | large'
      · rw [Nat.toDigits_of_lt_base small', List.append_eq_singleton_iff] at same
        simp at same
      · rw [Nat.toDigits_of_base_le base large'] at same
        obtain ⟨front, last⟩ := List.append_inj' same rfl
        have quotient := ih (m / 16) (by omega) front
        have remainder := digitChar_injective (Nat.mod_lt m (by decide)) (Nat.mod_lt n (by decide))
          (List.singleton_inj.mp last)
        omega

theorem brace_not_mem_toDigits (n : Nat) : '\x7d' ∉ Nat.toDigits 16 n := by
  have digit : ∀ k, '\x7d' ≠ Nat.digitChar k := fun k => (Nat.digitChar_ne _ (by decide)).symm
  induction n using Nat.strongRecOn with
  | ind n ih =>
    rw [Nat.toDigits_eq_if (by decide)]
    split
    · simp [digit]
    · simp [digit, ih (n / 16) (by omega)]

/-- Digits up to a brace. -/
theorem selfDelimiting_toDigits : SelfDelimiting fun n => Nat.toDigits 16 n ++ ['\x7d'] := by
  intro m n s t same
  simp only [List.append_assoc, List.singleton_append] at same
  have split := congrArg (List.splitOn '\x7d') same
  rw [List.splitOn_append_cons_self_of_not_mem (brace_not_mem_toDigits m),
    List.splitOn_append_cons_self_of_not_mem (brace_not_mem_toDigits n)] at split
  obtain rfl := toDigits_injective (List.cons.inj split).1
  exact ⟨rfl, by simpa using same⟩

end Hexadecimal

/-- The characters that are escaped as a backslash and one more character. -/
def shortEscapes : List (Char × Char) :=
  [('"', '"'), ('\\', '\\'), ('\t', 't'), ('\r', 'r'), ('\n', 'n'), ('\x00', '0')]

/-- How a character stands between quotes: as it is, behind a backslash, or as a number. -/
inductive Escaped : Char → List Char → Prop
  | plain {c : Char} (quote : c ≠ '"') (slash : c ≠ '\\') : Escaped c [c]
  | short {c e : Char} (known : (c, e) ∈ shortEscapes) : Escaped c ['\\', e]
  | number (c : Char) :
      Escaped c (['\\', 'u', '\x7b'] ++ (Nat.toDigits 16 c.toNat ++ ['\x7d']))

theorem escaped_escape (c : Char) : Escaped c (escape c) := by
  unfold escape
  iterate 6
    split
    · rename_i here
      exact .short (by simp [here, shortEscapes])
  split
  · exact .plain (by assumption) (by assumption)
  · rw [List.append_assoc]
    exact .number c

theorem Escaped.unique {c d : Char} {x y s t : List Char} (h : Escaped c x) (h' : Escaped d y)
    (same : x ++ s = y ++ t) : c = d ∧ s = t := by
  have shorts : ∀ p ∈ shortEscapes, ∀ q ∈ shortEscapes, p.2 = q.2 → p.1 = q.1 := by decide
  have numbers : ∀ p ∈ shortEscapes, p.2 ≠ 'u' := by decide
  cases h with
  | plain quote slash =>
    cases h' with
    | plain quote' slash' => simpa using same
    | short known => simp [slash] at same
    | number => simp [slash] at same
  | short known =>
    cases h' with
    | plain quote slash => simp [slash.symm] at same
    | short known' =>
      obtain ⟨-, more⟩ := List.cons.inj same
      obtain ⟨second, rest⟩ := List.cons.inj more
      exact ⟨shorts _ known _ known' second, rest⟩
    | number =>
      obtain ⟨-, more⟩ := List.cons.inj same
      exact absurd (List.cons.inj more).1 (numbers _ known)
  | number =>
    cases h' with
    | plain quote slash => simp [slash.symm] at same
    | short known =>
      obtain ⟨-, more⟩ := List.cons.inj same
      exact absurd (List.cons.inj more).1.symm (numbers _ known)
    | number =>
      have told := selfDelimiting_toDigits.comp (k := Char.toNat) fun c d => Char.toNat_inj.mp
      exact told.behind _ _ _ _ _ same

theorem selfDelimiting_escape : SelfDelimiting escape :=
  fun c d _ _ same => (escaped_escape c).unique (escaped_escape d) same

/-- A quote is always escaped. -/
theorem spares_escape : Spares escape '"' := by
  intro c s t
  have written := escaped_escape c
  generalize escape c = x at written
  cases written with
  | plain quote slash => simp [quote]
  | short known => simp
  | number => simp

theorem selfDelimiting_quoteChars : SelfDelimiting quoteChars :=
  (selfDelimiting_escape.flatMap spares_escape).behind ['"']

theorem selfDelimiting_quote : SelfDelimiting fun s : String => (quote s).toList := by
  simpa only [quote, String.toList_ofList] using
    selfDelimiting_quoteChars.comp (k := String.toList) fun s t => String.toList_inj.mp

theorem spares_quote {c : Char} (other : c ≠ '"') :
    Spares (fun s : String => (quote s).toList) c := by
  intro s t u
  simp [quote, quoteChars, other.symm]

theorem selfDelimiting_quoteAll : SelfDelimiting fun ss => (quoteAll ss).toList := by
  have chars : ∀ ss, (quoteAll ss).toList =
      "[".toList ++ (", ".toList.intercalate (ss.map fun s => (quote s).toList) ++ "]".toList) := by
    intro ss
    rw [quoteAll, String.toList_append, String.toList_append, String.toList_intercalate,
      List.map_map, List.append_assoc]
    rfl
  simp only [chars]
  have between : Spares (fun s : String => ", ".toList ++ (quote s).toList) ']' := by
    intro s t u
    simp
  exact (selfDelimiting_quote.intercalate (spares_quote (by decide)) between).behind _

end SearchLoad.Text
