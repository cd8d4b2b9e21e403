import SearchLoad.Proofs.Corpus.Words

namespace SearchLoad.Corpus

theorem isLetter_eq_isAlpha (c : Char) : isLetter c = c.isAlpha := by
  have upper : c.isUpper = ('A' ≤ c && c ≤ 'Z') := Bool.decide_and ('A' ≤ c) (c ≤ 'Z')
  have lower : c.isLower = ('a' ≤ c && c ≤ 'z') := rfl
  have either : c.isAlpha = (c.isUpper || c.isLower) := rfl
  rw [either, upper, lower, Bool.or_comm, isLetter]

/-- A scanner in the middle of a text: the runs it has given, and the letters since the last one. -/
structure Scanner where
  runs : List String
  current : String
deriving DecidableEq, Repr

namespace Scanner

def start : Scanner := ⟨[], ""⟩

/-- Gives the letters that were gathered, if there are any. -/
def flush (s : Scanner) : Scanner :=
  if s.current.isEmpty then s else ⟨s.runs ++ [s.current], ""⟩

def step (s : Scanner) (c : Char) : Scanner :=
  if c.isAlpha then { s with current := s.current.push c } else s.flush

def scan (text : String) : List String := (text.toList.foldl step start).flush.runs

/-- Nothing but letters has been gathered. -/
def Gathers (s : Scanner) : Prop := ∀ c ∈ s.current.toList, isLetter c = true

variable {s : Scanner}

theorem current_flush : s.flush.current = "" := by
  unfold flush
  split
  · rename_i empty
    exact String.isEmpty_iff.mp empty
  · rfl

theorem Gathers.runs_flush (h : s.Gathers) :
    s.flush.runs = s.runs ++ (letterRuns s.current.toList).map String.ofList := by
  unfold flush
  split
  · rename_i empty
    rw [String.isEmpty_iff.mp empty]
    exact (List.append_nil _).symm
  · rename_i nonempty
    have full : s.current.toList ≠ [] := by simpa [String.isEmpty_iff] using nonempty
    rw [letterRuns_of_letters full h, List.map_singleton, String.ofList_toList]

theorem Gathers.push (h : s.Gathers) {c : Char} (letter : isLetter c = true) :
    Gathers ⟨s.runs, s.current.push c⟩ := by
  intro d hd
  rw [String.toList_push, List.mem_append, List.mem_singleton] at hd
  rcases hd with before | rfl
  · exact h d before
  · exact letter

/-- What is gathered stands before what is still to be read, and is the beginning of a run. -/
theorem Gathers.runs_foldl (h : s.Gathers) (text : List Char) :
    (text.foldl step s).flush.runs =
      s.runs ++ (letterRuns (s.current.toList ++ text)).map String.ofList := by
  induction text generalizing s with
  | nil => rw [List.append_nil, List.foldl_nil, h.runs_flush]
  | cons c text ih =>
    rw [List.foldl_cons, step, ← isLetter_eq_isAlpha]
    cases letter : isLetter c with
    | true =>
      rw [if_pos rfl, ih (h.push letter), String.toList_push, List.append_assoc,
        List.singleton_append]
    | false =>
      have nothing : s.flush.Gathers := by simp [Gathers, current_flush]
      rw [if_neg Bool.false_ne_true, ih nothing, current_flush, h.runs_flush,
        letterRuns_append_cons letter, List.map_append, List.append_assoc]
      rfl

end Scanner

/-- The words of a text are what the scanner finds in it, and those of two texts with anything but
a letter between them are the words of the one and then those of the other. -/
theorem words_are_scanned_and_divided :
    (∀ text, wordsOf text = Scanner.scan text) ∧
    ∀ (a b : String) (c : Char), c.isAlpha = false →
      wordsOf (a ++ String.singleton c ++ b) = wordsOf a ++ wordsOf b := by
  refine ⟨fun text => ?_, fun a b c separator => ?_⟩
  · have nothing : Scanner.start.Gathers := by simp [Scanner.Gathers, Scanner.start]
    exact (nothing.runs_foldl text.toList).symm
  · exact wordsOf_append_separator ((isLetter_eq_isAlpha c).trans separator) a b

/-- A letter with an accent divides words like any other separator. -/
theorem accent_divides_words :
    wordsOf " -Caf\u00e9s, 2x " = ["Caf", "s", "x"] ∧
      Scanner.scan " -Caf\u00e9s, 2x " = ["Caf", "s", "x"] ∧
      Char.isAlpha '\u00e9' = false ∧ wordsOf (" -Caf" ++ String.singleton '\u00e9' ++ "s, 2x ") =
        wordsOf " -Caf" ++ wordsOf "s, 2x " := by
  have scanned : Scanner.scan " -Caf\u00e9s, 2x " = ["Caf", "s", "x"] := by decide +kernel
  have separator : Char.isAlpha '\u00e9' = false := by decide
  refine ⟨?_, scanned, separator, ?_⟩
  · exact (words_are_scanned_and_divided.1 _).trans scanned
  · exact words_are_scanned_and_divided.2 _ _ _ separator

end SearchLoad.Corpus
