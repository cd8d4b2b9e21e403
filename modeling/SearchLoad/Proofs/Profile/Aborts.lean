import SearchLoad.Proofs.Profile.Admission
import SearchLoad.Proofs.Profile.StageText
import SearchLoad.Proofs.Span.Carries

namespace SearchLoad

namespace Stage

variable {s : List Char}

/-- The text of a stage whose duration is overfilled. -/
def Overfilled (s : List Char) : Prop :=
  ∃ front back, Text.trim s = front ++ ':' :: back ∧ (∀ c ∈ front, c ≠ ':') ∧
    Span.Overfilled (Text.trim front)

theorem readDuration_eq_aborted_iff :
    readDuration s = .error .aborted ↔ Span.Overfilled (Text.trim s) := by
  rw [← Span.read_eq_carry_iff]
  unfold readDuration
  split <;> simp_all

theorem readTarget_ne_aborted : readTarget s ≠ .error .aborted := by
  intro aborted
  obtain ⟨_, -, same⟩ := mapError_eq_error_iff.mp aborted
  contradiction

theorem read_eq_aborted_iff : read s = .error .aborted ↔ Overfilled s := by
  constructor
  · intro aborted
    unfold read at aborted
    split at aborted
    · simp at aborted
    · rename_i front back split
      obtain ⟨whole, plain⟩ := splitColon_eq_some_iff.mp split
      rcases bind_eq_error_iff.mp aborted with timed | ⟨_, -, step⟩
      · exact ⟨front, back, whole, plain, readDuration_eq_aborted_iff.mp timed⟩
      rcases bind_eq_error_iff.mp step with aimed | ⟨_, -, last⟩
      · exact absurd aimed readTarget_ne_aborted
      · contradiction
  · rintro ⟨front, back, whole, plain, timed⟩
    rw [read, whole, splitColon_append plain back]
    exact bind_eq_error_iff.mpr (.inl (readDuration_eq_aborted_iff.mpr timed))

end Stage

namespace Profile

/-- The texts of the stages of a profile. -/
def pieces (s : List Char) : List (List Char) :=
  (s.splitOn ',').filter fun piece => !Text.isAllBlank piece

/-- The first stage that is not read has an overfilled duration. -/
def Overfilled (s : List Char) : Prop :=
  ∃ before piece after, pieces s = before ++ piece :: after ∧
    (∀ p ∈ before, ∃ stage, Stage.read p = .ok stage) ∧ Stage.Overfilled piece

theorem read_eq_aborted_iff {s : List Char} : read s = .error .aborted ↔ Overfilled s := by
  simp only [read, bind_eq_error_iff, mapM_eq_error_iff, Stage.read_eq_aborted_iff]
  constructor
  · rintro (early | ⟨stages, -, late⟩)
    · exact early
    · exact (ofStages_fault late).elim
  · exact .inl

end Profile

/-- No text aborts the program but the overfilled ones: stages with items that make 2^64 seconds by
a last step of at most one second, and profiles with such a stage behind stages that are read. -/
theorem only_overfilled_texts_abort (text : String) :
    (Stage.parse text = .error .aborted ↔ Stage.Overfilled text.toList) ∧
      (Profile.parse text = .error .aborted ↔ Profile.Overfilled text.toList) :=
  ⟨Stage.read_eq_aborted_iff, Profile.read_eq_aborted_iff⟩

/-- One nanosecond beyond the longest span aborts, while two are refused. -/
theorem nanosecond_beyond_the_longest_span_aborts :
    Stage.parse "18446744073709551615s 999999999ns 1ns:1" = .error .aborted ∧
      Profile.parse "30s:100,18446744073709551615s 0.5s 500ms:1" = .error .aborted ∧
      Stage.parse "18446744073709551615s 999999999ns 2ns:1" = .error
        (.invalidDuration "18446744073709551615s 999999999ns 2ns" .overflow) := by
  decide +kernel

end SearchLoad
