import SearchLoad.Proofs.Profile.Aborts
import SearchLoad.Proofs.Text.Entries

namespace SearchLoad

/-- Faults in how a stage is written. -/
def ProfileFault.IsSyntax : ProfileFault → Prop
  | .invalidStage _ | .invalidDuration _ _ | .invalidTarget _ => True
  | .noStages | .targetTooHigh _ | .durationOverflow | .aborted => False

theorem ProfileFault.IsSyntax.not_isRule {fault : ProfileFault} (h : fault.IsSyntax) :
    ¬ fault.IsRule := by
  cases fault <;> simp_all [IsSyntax, IsRule]

namespace Stage

variable {s : List Char} {fault : ProfileFault}

theorem readDuration_fault (h : readDuration s = .error fault) :
    fault.IsSyntax ∨ fault = .aborted := by
  unfold readDuration at h
  split at h
  · contradiction
  · exact .inr (Except.error.inj h).symm
  · exact .inl (Except.error.inj h ▸ trivial)

theorem readTarget_fault (h : readTarget s = .error fault) : fault.IsSyntax := by
  obtain ⟨_, -, rfl⟩ := mapError_eq_error_iff.mp h
  trivial

/-- A stage is refused for how it is written, and never for what it asks for. -/
theorem read_fault (h : read s = .error fault) : fault.IsSyntax ∨ fault = .aborted := by
  unfold read at h
  split at h
  · exact .inl (Except.error.inj h ▸ trivial)
  · rcases bind_eq_error_iff.mp h with timed | ⟨_, -, step⟩
    · exact readDuration_fault timed
    rcases bind_eq_error_iff.mp step with aimed | ⟨_, -, last⟩
    · exact .inl (readTarget_fault aimed)
    · contradiction

end Stage

namespace Profile

variable {a b : List Char} {ss tt : List Stage} {p q : Profile} {fault : ProfileFault}

/-- The stages that a text holds, whatever they ask for. -/
def readStages (s : List Char) : Except ProfileFault (List Stage) := (pieces s).mapM Stage.read

theorem read_eq (s : List Char) : read s = readStages s >>= ofStages := rfl

theorem pieces_eq_entries (s : List Char) : pieces s = Text.entries s := rfl

theorem readStages_append (a b : List Char) :
    readStages (a ++ ',' :: b) =
      readStages a >>= fun ss => readStages b >>= fun tt => pure (ss ++ tt) := by
  rw [readStages, pieces_eq_entries, Text.entries_append, List.mapM_append]
  rfl

theorem readStages_fault (h : readStages a = .error fault) :
    fault.IsSyntax ∨ fault = .aborted := by
  obtain ⟨-, piece, -, -, -, failed⟩ := mapM_eq_error_iff.mp h
  exact Stage.read_fault failed

/-- A text that is refused for what its stages ask for has stages that are read. -/
theorem exists_readStages (ruled : ∀ fault, read a = .error fault → fault.IsRule) :
    ∃ ss, readStages a = .ok ss := by
  cases h : readStages a with
  | ok ss => exact ⟨ss, rfl⟩
  | error fault =>
    have refused : read a = .error fault := by
      rw [read_eq, h]
      rfl
    rcases readStages_fault h with syntactic | rfl
    · exact absurd (ruled fault refused) syntactic.not_isRule
    · exact absurd (ruled _ refused) id

/-- A fault of syntax is one of the stages by themselves. -/
theorem readStages_of_read (h : read a = .error fault) (syntactic : fault.IsSyntax) :
    readStages a = .error fault := by
  rw [read_eq] at h
  rcases bind_eq_error_iff.mp h with early | ⟨ss, -, late⟩
  · exact early
  · exact absurd (ofStages_fault late) syntactic.not_isRule

theorem read_append_of_error (h : readStages a = .error fault) (b : List Char) :
    read (a ++ ',' :: b) = .error fault := by
  rw [read_eq, readStages_append, h]
  rfl

theorem read_append_of_ok (h : readStages a = .ok ss) (b : List Char) :
    read (a ++ ',' :: b) = readStages b >>= fun tt => ofStages (ss ++ tt) := by
  rw [read_eq, readStages_append, h]
  cases readStages b <;> rfl

/-- Stages of which none is too high are too long together, or make a profile. -/
theorem ofStages_of_low (nonempty : ss ≠ []) (low : ∀ s ∈ ss, s.target ≤ maxTarget) :
    (nanosOf ss ≤ Span.maxNanos →
      ∃ p, ofStages ss = .ok p ∧ p.stages = ss ∧ p.total.nanos = nanosOf ss) ∧
    (ofStages ss = .error .durationOverflow ↔ Span.maxNanos < nanosOf ss) := by
  have made : nanosOf ss ≤ Span.maxNanos →
      ∃ p, ofStages ss = .ok p ∧ p.stages = ss ∧ p.total.nanos = nanosOf ss := by
    intro fits
    have admissible : Admissible ss := ⟨low, fits⟩
    exact admissible.ofStages_eq nonempty
  refine ⟨made, ?_, ?_⟩
  · intro refused
    by_contra fits
    obtain ⟨p, made, -⟩ := made (Nat.le_of_not_lt fits)
    simp [made] at refused
  · intro long
    rcases admissible_or_offender ss with
      admissible | ⟨before, s, after, rfl, admissible, high | ⟨lower, long⟩⟩
    · exact absurd admissible.fits (Nat.not_le.mpr long)
    · exact absurd high (Nat.not_lt.mpr (low s (by simp)))
    · exact ofStages_of_long admissible lower long

/-- The stages of two profiles make one if their totals add up to a span. -/
theorem ofStages_append (first : ofStages ss = .ok p) (second : ofStages tt = .ok q) :
    (p.total.nanos + q.total.nanos ≤ Span.maxNanos →
      ∃ r, ofStages (ss ++ tt) = .ok r ∧ r.stages = p.stages ++ q.stages ∧
        r.total.nanos = p.total.nanos + q.total.nanos) ∧
    (ofStages (ss ++ tt) = .error .durationOverflow ↔
      Span.maxNanos < p.total.nanos + q.total.nanos) := by
  obtain ⟨same, nonempty, low⟩ := of_ofStages first
  obtain ⟨same', -, low'⟩ := of_ofStages second
  have total : nanosOf (ss ++ tt) = p.total.nanos + q.total.nanos := by
    rw [nanosOf_append, total_of_ofStages first, total_of_ofStages second]
  have together := ofStages_of_low (List.append_ne_nil_of_left_ne_nil nonempty tt)
    (List.forall_mem_append.mpr ⟨low, low'⟩)
  rw [← total, same, same']
  exact together

theorem readStages_append_nil (blank : pieces a = []) (b : List Char) :
    readStages (a ++ ',' :: b) = readStages b ∧ readStages (b ++ ',' :: a) = readStages b := by
  rw [pieces_eq_entries] at blank
  simp only [readStages, pieces_eq_entries, Text.entries_append, blank, List.nil_append,
    List.append_nil, and_self]

theorem parse_append (a b : String) :
    parse (a ++ "," ++ b) = read (a.toList ++ ',' :: b.toList) := by
  have comma : ",".toList = [','] := rfl
  rw [parse, String.toList_append, String.toList_append, comma, List.append_assoc,
    List.singleton_append]

/-- Two texts with a comma between them. If both are profiles, together they are the one of all
their stages, or too long by their totals. A fault of syntax in the first text is the fault of both,
and so is one in the second if the first is a profile or is refused for what its stages ask for. A
text of commas and blanks changes nothing on either side. -/
theorem profiles_compose (a b : String) :
    (∀ p q, parse a = .ok p → parse b = .ok q →
      (p.total.nanos + q.total.nanos ≤ Span.maxNanos →
        ∃ r, parse (a ++ "," ++ b) = .ok r ∧ r.stages = p.stages ++ q.stages ∧
          r.total.nanos = p.total.nanos + q.total.nanos) ∧
      (parse (a ++ "," ++ b) = .error .durationOverflow ↔
        Span.maxNanos < p.total.nanos + q.total.nanos)) ∧
    (∀ fault, parse a = .error fault → fault.IsSyntax → parse (a ++ "," ++ b) = .error fault) ∧
    ((∀ fault, parse a = .error fault → fault.IsRule) →
      ∀ fault, parse b = .error fault → fault.IsSyntax → parse (a ++ "," ++ b) = .error fault) ∧
    ((∀ c ∈ a.toList, c = ',' ∨ Text.isBlank c = true) →
      parse (a ++ "," ++ b) = parse b ∧ parse (b ++ "," ++ a) = parse b) := by
  refine ⟨?_, ?_, ?_, ?_⟩
  · intro p q first second
    obtain ⟨ss, read, made⟩ := bind_eq_ok_iff.mp first
    obtain ⟨tt, read', made'⟩ := bind_eq_ok_iff.mp second
    have whole : parse (a ++ "," ++ b) = ofStages (ss ++ tt) := by
      rw [parse_append, read_append_of_ok read]
      exact congrArg (· >>= _) read'
    rw [whole]
    exact ofStages_append made made'
  · intro fault failed syntactic
    rw [parse_append]
    exact read_append_of_error (readStages_of_read failed syntactic) _
  · intro ruled fault failed syntactic
    obtain ⟨ss, read⟩ := exists_readStages ruled
    rw [parse_append, read_append_of_ok read, readStages_of_read failed syntactic]
    rfl
  · intro blank
    obtain ⟨before, behind⟩ := readStages_append_nil (Text.entries_eq_nil blank) b.toList
    constructor
    · rw [parse_append, read_eq, before]
      rfl
    · rw [parse_append, read_eq, behind]
      rfl

/-- Two profiles that are too long together, a stage without a target before and behind one that is
too high, and blanks in front of a profile. -/
theorem late_stage_is_blamed :
    parse "500000000000y:1,500000000000y:2" = .error .durationOverflow ∧
      parse "30s,1s:100001" = .error (.invalidStage "30s") ∧
      parse "1s:100001,30s" = .error (.invalidStage "30s") ∧
      parse ",\u00a0,30s:1" = parse "30s:1" := by
  have unwritten : parse "30s" = .error (.invalidStage "30s") := by decide +kernel
  have first : parse "500000000000y:1" = .ok ⟨[⟨⟨15778800000000000000000000000, by decide⟩, 1⟩],
      ⟨15778800000000000000000000000, by decide⟩⟩ := by decide +kernel
  have second : parse "500000000000y:2" = .ok ⟨[⟨⟨15778800000000000000000000000, by decide⟩, 2⟩],
      ⟨15778800000000000000000000000, by decide⟩⟩ := by decide +kernel
  have high : parse "1s:100001" = .error (.targetTooHigh 100001) := by decide +kernel
  have blank : ",\u00a0".toList.all (fun c => c = ',' ∨ Text.isBlank c = true) = true := by decide
  refine ⟨?_, ?_, ?_, ?_⟩
  · exact ((profiles_compose _ "500000000000y:2").1 _ _ first second).2.mpr (by decide)
  · exact (profiles_compose "30s" "1s:100001").2.1 _ unwritten trivial
  · have ruled : ∀ fault, parse "1s:100001" = .error fault → fault.IsRule := by
      rintro fault refused
      exact Except.error.inj (high.symm.trans refused) ▸ trivial
    exact (profiles_compose "1s:100001" "30s").2.2.1 ruled _ unwritten trivial
  · refine ((profiles_compose ",\u00a0" "30s:1").2.2.2 fun c member => ?_).1
    simpa using List.all_eq_true.mp blank c member

end Profile

end SearchLoad
