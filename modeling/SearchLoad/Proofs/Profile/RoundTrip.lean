import SearchLoad.Profile.Basic
import SearchLoad.Proofs.Profile.StageText
import SearchLoad.Proofs.Span.RoundTrip

namespace SearchLoad

open Number SearchLoad.Span

namespace Stage

theorem toList_display (s : Stage) :
    s.display.toList = s.duration.display.toList ++ ':' :: (toString s.target).toList := by
  have colon : ":".toList = [':'] := rfl
  rw [display, String.toList_append, String.toList_append, colon, List.append_assoc,
    List.singleton_append]

theorem mem_display {s : Stage} {c : Char} (h : c ∈ s.display.toList) :
    isDigit c = true ∨ isUnitLetter c = true ∨ c = ' ' ∨ c = ':' := by
  rw [toList_display, List.mem_append, List.mem_cons] at h
  rcases h with h | rfl | h
  · rcases Span.mem_display h with digit | letter | space
    · exact .inl digit
    · exact .inr (.inl letter)
    · exact .inr (.inr (.inl space))
  · exact .inr (.inr (.inr rfl))
  · exact .inl (isDigit_of_mem_toString h)

theorem trim_display (s : Stage) : Text.trim s.display.toList = s.display.toList := by
  rw [toList_display]
  refine Text.trim_eq_self ?_ ?_
  · intro c hc
    obtain ⟨d, ds, text, digit⟩ := s.duration.display_eq_cons
    rw [text] at hc
    obtain rfl : d = c := Option.some.inj hc
    exact isBlank_eq_false_of_isDigit digit
  · intro c hc
    have decimal : IsDecimal s.target (toString s.target).toList := isDecimal_toString _
    have split : s.duration.display.toList ++ ':' :: (toString s.target).toList =
        s.duration.display.toList ++ [':'] ++ (toString s.target).toList := by simp
    rw [split, List.getLast?_append_of_ne_nil _ decimal.ne_nil] at hc
    exact decimal.solid c (List.mem_of_getLast? hc)

/-- A stage is what its text reads as. -/
theorem read_display {s : Stage} (fits : s.target ≤ maxUnsigned) :
    read s.display.toList = .ok s := by
  have decimal : IsDecimal s.target (toString s.target).toList := isDecimal_toString _
  have plain : ∀ c ∈ s.duration.display.toList, c ≠ ':' := by
    rintro c hc rfl
    rcases Span.mem_display hc with digit | letter | space <;> contradiction
  have timed : Span.read (Text.trim s.duration.display.toList) = .ok s.duration := by
    rw [Span.trim_display]
    exact s.duration.parse_display
  refine read_eq_ok_iff.mpr ⟨_, _, ?_, plain, timed, decimal.trim_eq.symm ▸ decimal, fits⟩
  rw [trim_display, toList_display]

end Stage

namespace Profile

theorem targets_of_addStages {stages : List Stage} {sum total : Span}
    (h : addStages sum stages = .ok total) : ∀ s ∈ stages, s.target ≤ maxTarget := by
  induction stages generalizing sum with
  | nil => simp
  | cons s ss ih =>
    unfold addStages at h
    split at h
    · contradiction
    · rename_i low
      split at h
      · exact List.forall_mem_cons.mpr ⟨Nat.le_of_not_lt low, ih h⟩
      · contradiction

/-- A profile is made of its stages and the sum of their durations. -/
theorem addStages_of_ofStages {stages : List Stage} {p : Profile} (h : ofStages stages = .ok p) :
    p.stages = stages ∧ stages ≠ [] ∧ addStages .zero stages = .ok p.total := by
  unfold ofStages at h
  split at h
  · contradiction
  · rename_i nonempty
    cases added : addStages .zero stages with
    | error fault => simp [added, Except.map] at h
    | ok total =>
      simp only [added, Except.map, Except.ok.injEq] at h
      subst h
      exact ⟨rfl, by simpa using nonempty, rfl⟩

theorem of_ofStages {stages : List Stage} {p : Profile} (h : ofStages stages = .ok p) :
    p.stages = stages ∧ stages ≠ [] ∧ ∀ s ∈ stages, s.target ≤ maxTarget := by
  obtain ⟨same, nonempty, added⟩ := addStages_of_ofStages h
  exact ⟨same, nonempty, targets_of_addStages added⟩

/-- Nothing that is written between two commas is blank. -/
theorem not_isAllBlank_display (s : Stage) : Text.isAllBlank s.display.toList = false := by
  obtain ⟨c, cs, text, digit⟩ := s.duration.display_eq_cons
  rw [Stage.toList_display, text, List.cons_append, Text.isAllBlank, List.all_cons,
    isBlank_eq_false_of_isDigit digit, Bool.false_and]

theorem mapM_read_display {stages : List Stage} (fits : ∀ s ∈ stages, s.target ≤ maxUnsigned) :
    (stages.map fun s => s.display.toList).mapM Stage.read = .ok stages := by
  induction stages with
  | nil => rfl
  | cons s ss ih =>
    obtain ⟨fit, fits⟩ := List.forall_mem_cons.mp fits
    rw [List.map_cons, List.mapM_cons, Stage.read_display fit, ih fits]
    rfl

/-- A profile is what its text reads as. -/
theorem parse_display {stages : List Stage} {p : Profile} (h : ofStages stages = .ok p) :
    parse p.display = .ok p := by
  obtain ⟨rfl, nonempty, low⟩ := of_ofStages h
  have comma : ",".toList = [','] := rfl
  have text : p.display.toList = [','].intercalate (p.stages.map fun s => s.display.toList) := by
    rw [display, String.toList_intercalate, comma, List.map_map]
    rfl
  have pieces : p.display.toList.splitOn ',' = p.stages.map fun s => s.display.toList := by
    rw [text]
    refine List.splitOn_intercalate ',' ?_ (by simpa using nonempty)
    intro piece hp inside
    obtain ⟨s, hs, rfl⟩ := List.mem_map.mp hp
    rcases Stage.mem_display inside with digit | letter | space | colon <;> contradiction
  have written : ∀ piece ∈ p.stages.map fun s => s.display.toList,
      (!Text.isAllBlank piece) = true := by
    intro piece hp
    obtain ⟨s, hs, rfl⟩ := List.mem_map.mp hp
    rw [not_isAllBlank_display, Bool.not_false]
  have fits : ∀ s ∈ p.stages, s.target ≤ maxUnsigned :=
    fun s hs => Nat.le_trans (low s hs) (by decide)
  rw [parse, read, pieces, List.filter_eq_self.mpr written, mapM_read_display fits]
  exact h

end Profile

/-- Profiles and single stages are what their texts read as: a profile with its stages in order and
its total, and a stage with any target of 64 bits. -/
theorem profiles_and_stages_read_back :
    (∀ stages p, Profile.ofStages stages = .ok p →
      p.stages = stages ∧ Profile.parse p.display = .ok p) ∧
    ∀ s : Stage, s.target ≤ maxUnsigned → Stage.parse s.display = .ok s :=
  ⟨fun _ _ h => ⟨(Profile.of_ofStages h).1, Profile.parse_display h⟩,
    fun _ fits => Stage.read_display fits⟩

/-- The longest profile there is reads back. -/
theorem longest_profile_reads_back :
    Profile.parse "0s:5,584542046090years 7months 15days 17h 5m 3s 999ms 999us 999ns:100000" =
      .ok ⟨[⟨.zero, 5⟩, ⟨.longest, 100000⟩], .longest⟩ := by
  have admitted : Profile.ofStages [⟨.zero, 5⟩, ⟨.longest, 100000⟩] =
      .ok ⟨[⟨.zero, 5⟩, ⟨.longest, 100000⟩], .longest⟩ := by decide +kernel
  have text : (Profile.mk [⟨.zero, 5⟩, ⟨.longest, 100000⟩] .longest).display =
      "0s:5,584542046090years 7months 15days 17h 5m 3s 999ms 999us 999ns:100000" := by
    decide +kernel
  rw [← text]
  exact (profiles_and_stages_read_back.1 _ _ admitted).2

end SearchLoad
