import Mathlib.Data.List.TakeWhile
import SearchLoad.Text.Blank

namespace SearchLoad.Text

section Mark

variable {x : Char} {front : List Char}

theorem forall_bne_of_not_mem (free : x ∉ front) : ∀ c ∈ front, (c != x) = true := by
  intro c member
  exact bne_iff_ne.mpr (ne_of_mem_of_not_mem member free)

/-- What stands before the first mark. -/
theorem takeWhile_append_mark (free : x ∉ front) (back : List Char) :
    (front ++ x :: back).takeWhile (· != x) = front := by
  rw [List.takeWhile_append_of_pos (forall_bne_of_not_mem free),
    List.takeWhile_cons_of_neg (by simp), List.append_nil]

theorem dropWhile_append_mark (free : x ∉ front) (back : List Char) :
    (front ++ x :: back).dropWhile (· != x) = x :: back := by
  rw [List.dropWhile_append_of_pos (forall_bne_of_not_mem free),
    List.dropWhile_cons_of_neg (by simp)]

end Mark

theorem isAllBlank_iff {s : List Char} : isAllBlank s = true ↔ ∀ c ∈ s, isBlank c = true :=
  List.all_eq_true

theorem mem_of_mem_trim {s : List Char} {c : Char} (h : c ∈ trim s) : c ∈ s :=
  (List.dropWhile_sublist isBlank).mem ((trimEnd_isPrefix _).mem h)

/-- Nothing is left of blanks, and something of anything else. -/
theorem isEmpty_trim (s : List Char) : (trim s).isEmpty = isAllBlank s := by
  rw [Bool.eq_iff_iff, List.isEmpty_iff, isAllBlank_iff, trim, trimEnd, List.reverse_eq_nil_iff,
    List.dropWhile_eq_nil_iff]
  simp only [List.mem_reverse]
  constructor
  · intro blank c member
    rw [← List.takeWhile_append_dropWhile (p := isBlank) (l := s), List.mem_append] at member
    rcases member with front | back
    · exact List.mem_takeWhile_imp front
    · exact blank c back
  · exact fun blank c member => blank c ((List.dropWhile_sublist isBlank).mem member)

/-- A text is what is left of it between the blanks at its ends. -/
theorem exists_blanks_trim (s : List Char) : ∃ lead trail,
    isAllBlank lead = true ∧ isAllBlank trail = true ∧ lead ++ (trim s ++ trail) = s := by
  refine ⟨s.takeWhile isBlank, ((s.dropWhile isBlank).reverse.takeWhile isBlank).reverse,
    ?_, ?_, ?_⟩
  · exact isAllBlank_iff.mpr fun c member => List.mem_takeWhile_imp member
  · exact isAllBlank_iff.mpr fun c member => List.mem_takeWhile_imp (List.mem_reverse.mp member)
  · rw [trim, trimEnd, ← List.reverse_append, List.takeWhile_append_dropWhile,
      List.reverse_reverse, List.takeWhile_append_dropWhile]

theorem not_mem_of_isAllBlank {s : List Char} (blank : isAllBlank s = true) : ',' ∉ s := by
  intro member
  have comma := isAllBlank_iff.mp blank ',' member
  contradiction

/-- A piece is part of the text and holds nothing that the text is split at. -/
theorem of_mem_splitOn {x : Char} {s piece : List Char} (h : piece ∈ s.splitOn x) :
    x ∉ piece ∧ ∀ c ∈ piece, c ∈ s := by
  induction s generalizing piece with
  | nil =>
    obtain rfl : piece = [] := by simpa using h
    simp
  | cons c s ih =>
    rw [List.splitOn_cons_eq_if_modifyHead] at h
    split at h
    · rcases List.mem_cons.mp h with rfl | later
      · simp
      · exact ⟨(ih later).1, fun d hd => List.mem_cons_of_mem _ ((ih later).2 d hd)⟩
    · rename_i other
      obtain ⟨first, more, pieces⟩ := List.exists_cons_of_ne_nil (List.splitOn_ne_nil x s)
      rw [pieces, List.modifyHead_cons] at h
      rw [pieces] at ih
      rcases List.mem_cons.mp h with rfl | later
      · obtain ⟨free, inside⟩ := ih List.mem_cons_self
        refine ⟨?_, List.forall_mem_cons.mpr ⟨List.mem_cons_self, ?_⟩⟩
        · have apart : x ≠ c := fun same => other (by simp [same])
          simp [apart, free]
        · exact fun d hd => List.mem_cons_of_mem _ (inside d hd)
      · obtain ⟨free, inside⟩ := ih (List.mem_cons_of_mem _ later)
        exact ⟨free, fun d hd => List.mem_cons_of_mem _ (inside d hd)⟩

/-- The pieces between commas that are not blank. -/
def entries (s : List Char) : List (List Char) :=
  (s.splitOn ',').filter fun piece => !isAllBlank piece

theorem entries_append (s t : List Char) : entries (s ++ ',' :: t) = entries s ++ entries t := by
  rw [entries, List.splitOn_append_cons_self, List.filter_append]
  rfl

theorem entries_eq_nil {s : List Char} (h : ∀ c ∈ s, c = ',' ∨ isBlank c = true) :
    entries s = [] := by
  refine List.filter_eq_nil_iff.mpr ?_
  intro piece member
  obtain ⟨free, inside⟩ := of_mem_splitOn member
  have blank : isAllBlank piece = true := by
    refine isAllBlank_iff.mpr fun c hc => (h c (inside c hc)).resolve_left ?_
    rintro rfl
    exact free hc
  simp [blank]

/-- Pieces without commas, put together with commas, are split again. -/
theorem entries_intercalate {pieces : List (List Char)} (free : ∀ p ∈ pieces, ',' ∉ p) :
    entries ([','].intercalate pieces) = pieces.filter fun piece => !isAllBlank piece := by
  by_cases empty : pieces = []
  · subst empty
    rfl
  · rw [entries, List.splitOn_intercalate ',' free empty]

end SearchLoad.Text
