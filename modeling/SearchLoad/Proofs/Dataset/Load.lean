import Mathlib.Data.List.Forall2
import Mathlib.Data.List.Induction
import SearchLoad.Dataset.Load
import SearchLoad.Proofs.Dataset.Lines

namespace SearchLoad.Dataset

/-- What a store says to a command, by what it has executed before. It executes what it does not
refuse. -/
abbrev Answers := List Command → Command → Except Wire.Failure Unit

/-- What a store has executed and what was logged, the latest last. -/
structure Ledger where
  executed : List Command
  log : List Entry

/-- A store that executes everything. -/
def obliging : Answers := fun _ _ => .ok ()

def Answers.store (answers : Answers) : Store (StateM Ledger) where
  execute c l :=
    match answers l.executed c with
    | .ok () => (.ok (), { l with executed := l.executed ++ [c] })
    | .error f => (.error f, l)
  log e l := ((), { l with log := l.log ++ [e] })

/-- What an action on a store comes to from some ledger. -/
def outcome {α : Type} (x : ExceptT Fault (StateM Ledger) α) (l : Ledger) :
    Except Fault α × Ledger := x.run.run l

/-- The result of a load that begins with nothing executed, and what the store has executed when it
returns. -/
def transcript (answers : Answers) (path : String) (source : Source) :
    Except Fault Nat × List Command :=
  let (result, ledger) := outcome (load answers.store path source) ⟨[], []⟩
  (result, ledger.executed)

/-- Each command is accepted after those before it. -/
def Accepts (answers : Answers) (cs : List Command) : Prop :=
  ∀ done c rest, cs = done ++ c :: rest → answers done c = .ok ()

/-- The text of a line is that of a document. -/
def Gives (raw : List UInt8) (d : Document) : Prop :=
  ∃ line, lineText raw = .ok line ∧ Document.parse line = .ok d

/-- The lines that are not empty give documents, in their order. -/
def Hold (lines : List (List UInt8)) (ds : List Document) : Prop :=
  List.Forall₂ Gives (lines.filter fun raw => !isEmptyLine raw) ds

/-- What a load does without a problem. -/
def commandsOf (ds : List Document) : List Command := .flush :: ds.map Document.command

/-- A line is a problem after what has been executed. -/
inductive LineProblem (answers : Answers) (path : String) (executed : List Command) (number : Nat)
    (raw : List UInt8) : Fault → Prop
  | notText {f : Text.Utf8.Fault} (bad : Text.Utf8.decode raw = .error f) :
      LineProblem answers path executed number raw (.notText path f)
  | notDocument {line : String} {f : Document.Fault} (full : isEmptyLine raw = false)
      (text : lineText raw = .ok line) (bad : Document.parse line = .error f) :
      LineProblem answers path executed number raw (.ofDocument number f)
  | refused {d : Document} {f : Wire.Failure} (gives : Gives raw d)
      (refusal : answers executed d.command = .error f) :
      LineProblem answers path executed number raw (.refused f)

/-- The first problem of a load, and what is executed before it. Lines count from one, the empty
ones too. -/
inductive FirstProblem (answers : Answers) (path : String) (lines : List (List UInt8)) :
    Fault → List Command → Prop
  | atFlush {f : Wire.Failure} (refusal : answers [] .flush = .error f) :
      FirstProblem answers path lines (.refused f) []
  | atLine {before after : List (List UInt8)} {raw : List UInt8} {ds : List Document}
      {fault : Fault} (split : lines = before ++ raw :: after) (held : Hold before ds)
      (accepted : Accepts answers (commandsOf ds))
      (problem : LineProblem answers path (commandsOf ds) (before.length + 1) raw fault) :
      FirstProblem answers path lines fault (commandsOf ds)

section Actions

variable {α β : Type}

theorem outcome_bind (x : ExceptT Fault (StateM Ledger) α)
    (f : α → ExceptT Fault (StateM Ledger) β) (l : Ledger) :
    outcome (x >>= f) l =
      match outcome x l with
      | (.ok a, l) => outcome (f a) l
      | (.error e, l) => (.error e, l) := by
  change (match outcome x l with | (a, s) => ExceptT.bindCont f a s) = _
  rcases outcome x l with ⟨_ | _, l⟩ <;> rfl

theorem outcome_lift (x : StateM Ledger α) (l : Ledger) :
    outcome (liftM x) l = (.ok (x.run l).1, (x.run l).2) := rfl

theorem outcome_liftExcept (x : Except Fault α) (l : Ledger) :
    outcome (Store.addLines.liftExcept x) l = (x, l) := rfl

end Actions

variable (answers : Answers) (path : String)

theorem outcome_log (e : Entry) (l : Ledger) : outcome (liftM (answers.store.log e)) l =
    (.ok (), ⟨l.executed, l.log ++ [e]⟩) := rfl

theorem outcome_run (c : Command) (l : Ledger) : outcome (answers.store.run c) l =
    match answers l.executed c with
    | .ok () => (.ok (), ⟨l.executed ++ [c], l.log⟩)
    | .error f => (.error (.refused f), l) := by
  have told : (answers.store.execute c).run l =
      match answers l.executed c with
      | .ok () => (.ok (), { l with executed := l.executed ++ [c] })
      | .error f => (.error f, l) := rfl
  rw [Store.run, outcome_bind, outcome_lift, told]
  cases answers l.executed c with
  | ok u => rfl
  | error f => rfl

theorem outcome_empty (l : Ledger) : ∃ log, outcome (answers.store.empty path) l =
    match answers l.executed .flush with
    | .ok () => (.ok (), ⟨l.executed ++ [.flush], log⟩)
    | .error f => (.error (.refused f), ⟨l.executed, log⟩) := by
  refine ⟨l.log ++ [.info ("flushing the database before loading " ++ Text.quote path)], ?_⟩
  rw [Store.empty, outcome_bind, outcome_log]
  exact outcome_run answers _ _

theorem outcome_add (loaded : Nat) (d : Document) (l : Ledger) :
    ∃ log, outcome (answers.store.add loaded d) l =
      match answers l.executed d.command with
      | .ok () => (.ok (loaded + 1), ⟨l.executed ++ [d.command], log⟩)
      | .error f => (.error (.refused f), l) := by
  rw [Store.add, outcome_bind, outcome_run]
  cases answers l.executed d.command with
  | error f => exact ⟨l.log, rfl⟩
  | ok u =>
    by_cases noted : (loaded + 1) % progressEvery = 0
    · exact ⟨_, by simp only [if_pos noted, outcome_bind, outcome_log]; rfl⟩
    · exact ⟨_, by simp only [if_neg noted]; rfl⟩

theorem documentOf_of_isEmptyLine {raw : List UInt8} (h : isEmptyLine raw = true) (number : Nat) :
    documentOf path number raw = .ok none := by
  rw [documentOf, lineText_of_isEmptyLine h]
  rfl

theorem isEmpty_of_parse {line : String} {d : Document} (h : Document.parse line = .ok d) :
    line.isEmpty = false := by
  obtain ⟨f, nothing⟩ : ∃ f, Document.parse "" = .error f := ⟨_, rfl⟩
  by_contra empty
  rw [Bool.not_eq_false, String.isEmpty_iff] at empty
  rw [empty, nothing] at h
  contradiction

theorem documentOf_of_gives {raw : List UInt8} {d : Document} (h : Gives raw d) (number : Nat) :
    documentOf path number raw = .ok (some d) := by
  obtain ⟨line, text, parsed⟩ := h
  rw [documentOf, text]
  simp [Except.mapError, isEmpty_of_parse parsed, parsed, bind, Except.bind, Except.map]

theorem outcome_addLines_of_isEmptyLine {raw : List UInt8} (h : isEmptyLine raw = true)
    (number loaded : Nat) (rest : List (List UInt8)) (l : Ledger) :
    outcome (answers.store.addLines path number loaded (raw :: rest)) l =
      outcome (answers.store.addLines path (number + 1) loaded rest) l := by
  rw [Store.addLines, outcome_bind, outcome_liftExcept, documentOf_of_isEmptyLine path h]

theorem outcome_addLines_of_gives {raw : List UInt8} {d : Document} (h : Gives raw d) {l : Ledger}
    (accepted : answers l.executed d.command = .ok ()) (number loaded : Nat)
    (rest : List (List UInt8)) :
    ∃ log, outcome (answers.store.addLines path number loaded (raw :: rest)) l =
      outcome (answers.store.addLines path (number + 1) (loaded + 1) rest)
        ⟨l.executed ++ [d.command], log⟩ := by
  obtain ⟨log, added⟩ := outcome_add answers loaded d l
  rw [accepted] at added
  refine ⟨log, ?_⟩
  rw [Store.addLines, outcome_bind, outcome_liftExcept, documentOf_of_gives path h]
  simp only [outcome_bind, added]

variable {answers} {path}

theorem accepts_concat {cs : List Command} {c : Command} :
    Accepts answers (cs ++ [c]) ↔ Accepts answers cs ∧ answers cs c = .ok () := by
  constructor
  · intro h
    refine ⟨?_, h cs c [] rfl⟩
    rintro done d rest rfl
    exact h done d (rest ++ [c]) (by simp)
  · rintro ⟨h, last⟩ done d rest split
    rcases List.eq_nil_or_concat rest with rfl | ⟨rest, e, rfl⟩
    · obtain ⟨rfl, rfl⟩ := List.append_singleton_inj.mp split
      exact last
    · rw [List.concat_eq_append, ← List.cons_append, ← List.append_assoc] at split
      obtain ⟨rfl, rfl⟩ := List.append_singleton_inj.mp split
      exact h done d rest rfl

theorem hold_cons_of_isEmptyLine {raw : List UInt8} {lines : List (List UInt8)}
    {ds : List Document} (h : isEmptyLine raw = true) : Hold (raw :: lines) ds ↔ Hold lines ds := by
  simp only [Hold, List.filter_cons, h, Bool.not_true, Bool.false_eq_true, if_false]

theorem hold_cons {raw : List UInt8} {lines : List (List UInt8)} {ds : List Document}
    (h : isEmptyLine raw = false) :
    Hold (raw :: lines) ds ↔ ∃ d rest, Gives raw d ∧ Hold lines rest ∧ ds = d :: rest := by
  simp only [Hold, List.filter_cons, h, Bool.not_false, if_true]
  exact List.forall₂_cons_left_iff

theorem Hold.append {lines more : List (List UInt8)} {ds es : List Document} (h : Hold lines ds)
    (further : Hold more es) : Hold (lines ++ more) (ds ++ es) := by
  rw [Hold, List.filter_append]
  exact List.rel_append h further

/-- The documents of lines are determined. -/
theorem Hold.unique {lines : List (List UInt8)} {ds es : List Document} (h : Hold lines ds)
    (other : Hold lines es) : ds = es := by
  have unique : Relator.RightUnique Gives := by
    rintro raw d e ⟨line, text, parsed⟩ ⟨line', text', parsed'⟩
    obtain rfl := Except.ok.inj (text.symm.trans text')
    exact Except.ok.inj (parsed.symm.trans parsed')
  exact unique.forall₂ h other

/-- Lines without a problem are stored, and the load goes on behind them. -/
theorem outcome_addLines_append (path : String) {lines : List (List UInt8)} {ds : List Document}
    (held : Hold lines ds) (executed : List Command)
    (accepted : Accepts answers (executed ++ ds.map Document.command)) (number loaded : Nat)
    (rest : List (List UInt8)) (log : List Entry) :
    ∃ log', outcome (answers.store.addLines path number loaded (lines ++ rest)) ⟨executed, log⟩ =
      outcome (answers.store.addLines path (number + lines.length) (loaded + ds.length) rest)
        ⟨executed ++ ds.map Document.command, log'⟩ := by
  -- Each document that is stored adds to what the store has executed, which is general therefore.
  induction lines generalizing ds executed number loaded log with
  | nil =>
    obtain rfl : ds = [] := List.forall₂_nil_left_iff.mp held
    exact ⟨log, by simp⟩
  | cons raw lines ih =>
    cases empty : isEmptyLine raw with
    | true =>
      rw [hold_cons_of_isEmptyLine empty] at held
      obtain ⟨log', stored⟩ := ih held executed accepted (number + 1) loaded log
      refine ⟨log', ?_⟩
      rw [List.cons_append, outcome_addLines_of_isEmptyLine answers path empty, stored,
        List.length_cons, Nat.add_assoc, Nat.add_comm 1]
    | false =>
      obtain ⟨d, ds', gives, held', rfl⟩ := (hold_cons empty).mp held
      have first : answers executed d.command = .ok () :=
        accepted executed d.command (ds'.map Document.command) rfl
      obtain ⟨log', stored⟩ := outcome_addLines_of_gives answers path gives (l := ⟨executed, log⟩)
        first number loaded (lines ++ rest)
      rw [List.map_cons, List.append_cons] at accepted ⊢
      obtain ⟨log'', further⟩ := ih held' _ accepted (number + 1) (loaded + 1) log'
      refine ⟨log'', ?_⟩
      rw [List.cons_append, stored, further, List.length_cons, List.length_cons,
        Nat.add_right_comm number, Nat.add_right_comm loaded]
      rfl

/-- What a load comes to once the database is empty. -/
theorem transcript_file (path : String) (bytes : List UInt8)
    (accepted : answers [] .flush = .ok ()) :
    ∃ log, ∀ result ledger,
      outcome (answers.store.addLines path 1 0 (rawLines bytes)) ⟨[.flush], log⟩ =
        (result, ledger) →
      transcript answers path (.file bytes) = (result, ledger.executed) := by
  obtain ⟨log, emptied⟩ := outcome_empty answers path ⟨[], []⟩
  simp only [accepted] at emptied
  refine ⟨log, ?_⟩
  intro result ledger added
  rw [List.nil_append] at emptied
  simp only [transcript, load, outcome_bind, emptied, added]
  cases result with
  | error fault => rfl
  | ok n => rfl

theorem transcript_of_hold {bytes : List UInt8} {ds : List Document}
    (held : Hold (rawLines bytes) ds) (accepted : Accepts answers (commandsOf ds)) :
    transcript answers path (.file bytes) = (.ok ds.length, commandsOf ds) := by
  obtain ⟨log, loads⟩ := transcript_file path bytes (accepted [] _ _ rfl)
  obtain ⟨log', stored⟩ := outcome_addLines_append path held [.flush] accepted 1 0 [] log
  rw [List.append_nil, Nat.zero_add] at stored
  exact loads _ _ stored

/-- A load stops at a line that is a problem. -/
theorem outcome_addLines_of_problem {raw : List UInt8} {l : Ledger} {number : Nat} {fault : Fault}
    (full : raw ≠ []) (h : LineProblem answers path l.executed number raw fault) (loaded : Nat)
    (rest : List (List UInt8)) :
    ∃ log, outcome (answers.store.addLines path number loaded (raw :: rest)) l =
      (.error fault, ⟨l.executed, log⟩) := by
  rw [Store.addLines, outcome_bind, outcome_liftExcept]
  cases h with
  | @notText f bad =>
    have found : documentOf path number raw = .error (.notText path f) := by
      rw [documentOf, lineText, bad]
      rfl
    rw [found]
    exact ⟨l.log, rfl⟩
  | @notDocument line f filled text bad =>
    have some_text : line.isEmpty = false := by
      by_contra empty
      rw [Bool.not_eq_false, String.isEmpty_iff] at empty
      rw [empty, lineText_eq_empty_iff full, filled] at text
      contradiction
    have found : documentOf path number raw = .error (.ofDocument number f) := by
      rw [documentOf, text]
      simp [Except.mapError, some_text, bad, bind, Except.bind, Except.map]
    rw [found]
    exact ⟨l.log, rfl⟩
  | @refused d f gives refusal =>
    obtain ⟨log, added⟩ := outcome_add answers loaded d l
    rw [refusal] at added
    rw [documentOf_of_gives path gives]
    simp only [outcome_bind, added]
    exact ⟨l.log, rfl⟩

theorem transcript_of_problem {bytes : List UInt8} {fault : Fault} {executed : List Command}
    (h : FirstProblem answers path (rawLines bytes) fault executed) :
    transcript answers path (.file bytes) = (.error fault, executed) := by
  cases h with
  | @atFlush f refusal =>
    obtain ⟨log, emptied⟩ := outcome_empty answers path ⟨[], []⟩
    simp only [refusal] at emptied
    simp only [transcript, load, outcome_bind, emptied]
  | @atLine before after raw ds fault split held accepted problem =>
    obtain ⟨log, loads⟩ := transcript_file path bytes (accepted [] _ _ rfl)
    obtain ⟨log', stored⟩ := outcome_addLines_append path held [.flush] accepted 1 0
      (raw :: after) log
    have member : raw ∈ rawLines bytes := by simp [split]
    have full : raw ≠ [] := ne_nil_of_mem_rawLines member
    rw [Nat.add_comm] at problem
    obtain ⟨log'', stopped⟩ := outcome_addLines_of_problem full
      (l := ⟨[.flush] ++ ds.map Document.command, log'⟩) problem (0 + ds.length) after
    rw [split] at loads
    exact loads _ _ (stored.trans stopped)

/-- More lines have the problem that fewer had. -/
theorem FirstProblem.append {lines : List (List UInt8)} {fault : Fault} {executed : List Command}
    (h : FirstProblem answers path lines fault executed) (more : List (List UInt8)) :
    FirstProblem answers path (lines ++ more) fault executed := by
  cases h with
  | atFlush refusal => exact .atFlush refusal
  | @atLine before after raw ds fault split held accepted problem =>
    have longer : lines ++ more = before ++ raw :: (after ++ more) := by simp [split]
    exact .atLine longer held accepted problem

/-- A line is a problem, or it gives a document that the store accepts. -/
theorem problem_or_gives (answers : Answers) (path : String) (executed : List Command)
    (number : Nat) {raw : List UInt8} (full : isEmptyLine raw = false) :
    (∃ fault, LineProblem answers path executed number raw fault) ∨
      ∃ d, Gives raw d ∧ answers executed d.command = .ok () := by
  cases read : Text.Utf8.decode raw with
  | error f => exact .inl ⟨_, .notText read⟩
  | ok s =>
    have text : lineText raw = .ok (String.ofList (stripEnd s)) := by
      rw [lineText, read]
      rfl
    cases parsed : Document.parse (String.ofList (stripEnd s)) with
    | error f => exact .inl ⟨_, .notDocument full text parsed⟩
    | ok d =>
      have gives : Gives raw d := ⟨_, text, parsed⟩
      cases answered : answers executed d.command with
      | error f => exact .inl ⟨_, .refused gives answered⟩
      | ok u => exact .inr ⟨d, gives, answered⟩

/-- Lines have a problem, or they hold documents that the store accepts. -/
theorem problem_or_hold (answers : Answers) (path : String) (lines : List (List UInt8)) :
    (∃ fault executed, FirstProblem answers path lines fault executed) ∨
      ∃ ds, Hold lines ds ∧ Accepts answers (commandsOf ds) := by
  -- Where the lines before the last one have no problem, the last one decides.
  induction lines using List.reverseRecOn with
  | nil =>
    cases flushed : answers [] .flush with
    | error f => exact .inl ⟨_, _, .atFlush flushed⟩
    | ok u =>
      have idle : Accepts answers [] := by simp [Accepts]
      have accepted : Accepts answers ([] ++ [.flush]) := accepts_concat.mpr ⟨idle, flushed⟩
      exact .inr ⟨[], .nil, accepted⟩
  | append_singleton lines raw ih =>
    rcases ih with ⟨fault, executed, problem⟩ | ⟨ds, held, accepted⟩
    · exact .inl ⟨fault, executed, problem.append [raw]⟩
    cases empty : isEmptyLine raw with
    | true =>
      have held' : Hold [raw] [] := (hold_cons_of_isEmptyLine empty).mpr .nil
      refine .inr ⟨ds, ?_, accepted⟩
      rw [← ds.append_nil]
      exact held.append held'
    | false =>
      rcases problem_or_gives answers path (commandsOf ds) (lines.length + 1) empty with
        ⟨fault, problem⟩ | ⟨d, gives, answered⟩
      · exact .inl ⟨fault, _, .atLine rfl held accepted problem⟩
      · have held' : Hold [raw] [d] := (hold_cons empty).mpr ⟨d, [], gives, .nil, rfl⟩
        refine .inr ⟨ds ++ [d], held.append held', ?_⟩
        rw [commandsOf, List.map_append, List.map_singleton, ← List.cons_append]
        exact accepts_concat.mpr ⟨accepted, answered⟩

theorem Hold.length_eq {lines : List (List UInt8)} {ds : List Document} (h : Hold lines ds) :
    ds.length = (lines.filter fun raw => !isEmptyLine raw).length :=
  (List.Forall₂.length_eq h).symm

/-- A load returns the number of its lines that are not empty unless it has a problem, and its first
problem otherwise. What it has executed is the emptying of the database, then the documents of the
lines in their order: all of them, or those before the problem. The lines are the stretches that
line feeds end, and what is left behind the last one. -/
theorem load_stops_at_first_problem (answers : Answers) (path : String) (bytes : List UInt8) :
    (∃ ended tail, IsLined lineFeed bytes ended tail ∧
      rawLines bytes = ended.map (· ++ [lineFeed]) ++ if tail.isEmpty then [] else [tail]) ∧
    (∀ fault executed, transcript answers path (.file bytes) = (.error fault, executed) ↔
      FirstProblem answers path (rawLines bytes) fault executed) ∧
    ∀ n executed, transcript answers path (.file bytes) = (.ok n, executed) ↔
      (¬ ∃ fault before, FirstProblem answers path (rawLines bytes) fault before) ∧
        n = ((rawLines bytes).filter fun raw => !isEmptyLine raw).length ∧
        ∃ ds, Hold (rawLines bytes) ds ∧ executed = commandsOf ds := by
  have cases_of := problem_or_hold answers path (rawLines bytes)
  refine ⟨?_, ?_, ?_⟩
  · obtain ⟨ended, tail, lined⟩ := exists_isLined lineFeed bytes
    exact ⟨ended, tail, lined, lined.rawLines_eq⟩
  · intro fault executed
    refine ⟨?_, transcript_of_problem⟩
    intro returns
    rcases cases_of with ⟨fault', executed', problem⟩ | ⟨ds, held, accepted⟩
    · rw [transcript_of_problem problem] at returns
      obtain ⟨rfl, rfl⟩ : fault' = fault ∧ executed' = executed := by simpa using returns
      exact problem
    · rw [transcript_of_hold held accepted] at returns
      simp at returns
  · intro n executed
    constructor
    · intro returns
      have clean : ¬ ∃ fault before, FirstProblem answers path (rawLines bytes) fault before := by
        rintro ⟨fault, before, problem⟩
        rw [transcript_of_problem problem] at returns
        simp at returns
      obtain ⟨ds, held, accepted⟩ := cases_of.resolve_left clean
      rw [transcript_of_hold held accepted] at returns
      obtain ⟨rfl, rfl⟩ : ds.length = n ∧ commandsOf ds = executed := by simpa using returns
      exact ⟨clean, held.length_eq, ds, held, rfl⟩
    · rintro ⟨clean, rfl, ds, held, rfl⟩
      obtain ⟨es, held', accepted⟩ := cases_of.resolve_left clean
      obtain rfl := held'.unique held
      rw [transcript_of_hold held accepted, held.length_eq]

/-- Empty lines are skipped and counted, whatever ends them, and nothing behind the first problem is
stored. Here that is a third line without a link, or else a store that has no room for the second
document. -/
theorem load_stops_at_third_line :
    let head := "\x7b\"link\":\"a\"\x7d\n\r\n".toUTF8.toList
    let last := "\x7b\"link\":\"b\"\x7d".toUTF8.toList
    let bad := head ++ "\x7b\x7d\n".toUTF8.toList ++ last
    let full : Answers := fun executed _ =>
      if executed.length < 2 then .ok () else .error .brokenPipe
    let stored : List Command := [.flush, .store "a" [("link", "a")]]
    (transcript obliging "news" (.file bad) = (.error (.missingLink 3), stored) ∧
      FirstProblem obliging "news" (rawLines bad) (.missingLink 3) stored) ∧
    (transcript full "news" (.file (head ++ last)) = (.error (.refused .brokenPipe), stored) ∧
      FirstProblem full "news" (rawLines (head ++ last)) (.refused .brokenPipe) stored) ∧
    transcript obliging "news" (.file (head ++ last)) =
        (.ok 2, stored ++ [.store "b" [("link", "b")]]) ∧
      ¬ ∃ fault before, FirstProblem obliging "news" (rawLines (head ++ last)) fault before := by
  intro head last bad full stored
  have stops : transcript obliging "news" (.file bad) = (.error (.missingLink 3), stored) := by
    decide +kernel
  have refused : transcript full "news" (.file (head ++ last)) =
      (.error (.refused .brokenPipe), stored) := by decide +kernel
  have loads : transcript obliging "news" (.file (head ++ last)) =
      (.ok 2, stored ++ [.store "b" [("link", "b")]]) := by decide +kernel
  refine ⟨⟨stops, ?_⟩, ⟨refused, ?_⟩, loads, ?_⟩
  · exact ((load_stops_at_first_problem obliging "news" bad).2.1 _ _).mp stops
  · exact ((load_stops_at_first_problem full "news" _).2.1 _ _).mp refused
  · exact (((load_stops_at_first_problem obliging "news" _).2.2 _ _).mp loads).1

/-- A dataset that cannot be opened costs nothing. One whose first read fails has cost the database
by then: it is emptied as soon as the dataset is open. -/
theorem load_unreadable (answers : Answers) (path : String) (e : OsError) :
    transcript answers path (.closed e) = (.error (.unreadable path e), []) ∧
      transcript answers path (.unreadable e) =
        match answers [] .flush with
        | .ok () => (.error (.unreadable path e), [.flush])
        | .error f => (.error (.refused f), []) := by
  refine ⟨rfl, ?_⟩
  obtain ⟨log, emptied⟩ := outcome_empty answers path ⟨[], []⟩
  simp only [transcript, load, outcome_bind, emptied]
  cases answers [] .flush with
  | error f => rfl
  | ok u => rfl

/-- Loading a directory empties the database. -/
theorem load_directory_flushes :
    transcript (fun _ _ => .ok ()) "news" (.unreadable .isDirectory) =
      (.error (.unreadable "news" .isDirectory), [.flush]) ∧
    ¬ ∀ answers path source e, source = .closed e ∨ source = .unreadable e →
      transcript answers path source = (.error (.unreadable path e), []) := by
  have flushes : transcript (fun _ _ => .ok ()) "news" (.unreadable .isDirectory) =
      (.error (.unreadable "news" .isDirectory), [.flush]) := rfl
  refine ⟨flushes, ?_⟩
  intro harmless
  have spared := harmless (fun _ _ => .ok ()) "news" _ .isDirectory (.inr rfl)
  rw [flushes] at spared
  contradiction

end SearchLoad.Dataset
