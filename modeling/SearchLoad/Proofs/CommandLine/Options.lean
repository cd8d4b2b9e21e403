import SearchLoad.CommandLine.Parse
import SearchLoad.Proofs.CommandLine.Values

namespace SearchLoad.CommandLine

open Text

/-- An option and its value in one argument. -/
def Flag.argument (f : Flag) (value : String) : String := "--" ++ f.name ++ "=" ++ value

theorem toList_argument (f : Flag) (value : String) :
    (f.argument value).toList = '-' :: '-' :: (f.name.toList ++ '=' :: value.toList) := by
  simp [Flag.argument]

theorem equals_not_mem_name (f : Flag) : '=' ∉ f.name.toList := by
  cases f <;> decide

theorem of_long {s : List Char} (full : s ≠ []) :
    Form.of ('-' :: '-' :: s) = .long (splitEquals s).1 (splitEquals s).2 := by
  obtain ⟨c, s, rfl⟩ := List.exists_cons_of_ne_nil full
  rfl

theorem of_argument (f : Flag) (value : String) :
    Form.of (f.argument value).toList = .long f.name (some value) := by
  have split : splitEquals (f.name.toList ++ '=' :: value.toList) = (f.name, some value) := by
    rw [splitEquals, takeWhile_append_mark (equals_not_mem_name f),
      dropWhile_append_mark (equals_not_mem_name f), String.ofList_toList]
    simp
  rw [toList_argument, of_long (by simp), split]

/-- No subcommand begins with a hyphen. -/
theorem subcommand?_argument (s : Scope) (f : Flag) (value : String) :
    s.subcommand? (f.argument value) = none := by
  have plain : ∀ c ∈ s.subcommands, c.name.toList.head? ≠ some '-' := by cases s <;> decide
  apply List.find?_eq_none.mpr
  intro c member same
  have first := congrArg (fun name => name.toList.head?) (of_decide_eq_true same)
  rw [toList_argument] at first
  exact plain c member first

/-- A new option is taken with its value. -/
theorem readArguments_argument {s : Scope} {f : Flag} (known : s.flag? f.name = some f)
    (takes : f.takesValue = true) {value : String} {r : Reading} (settled : r.pending = none)
    (fresh : f ∉ r.used) {given : Given} (put : r.given.put f value = .ok given)
    (rest : List String) : readArguments s r (f.argument value :: rest) =
      readArguments s ⟨given, r.used ++ [f], none⟩ rest := by
  have next : r.next s f (some value) = .ok ⟨given, r.used ++ [f], none⟩ := by
    simp [Reading.next, Reading.settled, Reading.settle, Reading.take, Used.add, settled, fresh,
      put, bind, Except.bind]
  have read : readLong s f.name (some value) rest r = .ok ⟨given, r.used ++ [f], none⟩ := by
    simp only [readLong, known, takes, if_true, next]
  conv => lhs; unfold readArguments
  simp only [subcommand?_argument, ite_self, of_argument, read]

theorem known_of_mem_valued : ∀ f ∈ Flag.valued,
    Scope.run.flag? f.name = some f ∧ f.takesValue = true := by
  decide

/-- What has been read are the values of the options so far. -/
theorem readArguments_settings {g : Given} (proper : g.Proper) {used : List Flag}
    {settings : List (Flag × String)} (told : ∀ x ∈ settings, g.text? x.1 = some x.2)
    (apart : (used ++ settings.map Prod.fst).Nodup) :
    readArguments .run ⟨g.only used, used, none⟩ (settings.map fun x => x.1.argument x.2) =
      .ok (⟨g.only (used ++ settings.map Prod.fst), used ++ settings.map Prod.fst, none⟩,
        none) := by
  induction settings generalizing used with
  | nil =>
    rw [List.map_nil, List.map_nil, List.append_nil, readArguments]
  | cons x settings ih =>
    obtain ⟨first, told⟩ := List.forall_mem_cons.mp told
    have valued : x.1 ∈ Flag.valued := Given.mem_valued (by rw [first, Option.isSome_some])
    obtain ⟨known, takes⟩ := known_of_mem_valued x.1 valued
    have longer : used ++ (x :: settings).map Prod.fst =
        used ++ [x.1] ++ settings.map Prod.fst := by simp
    rw [longer] at apart ⊢
    -- An option that is used already would be refused as repeated.
    have fresh : x.1 ∉ used := by
      have ahead := (List.nodup_append.mp apart).1
      exact fun member => List.disjoint_of_nodup_append ahead member List.mem_cons_self
    have put := Given.put_only proper first used
    rw [List.map_cons, readArguments_argument known takes rfl fresh put, ih told apart]

theorem readArguments_of_tells {g : Given} {settings : List (Flag × String)} (h : g.Tells settings)
    (proper : g.Proper) :
    readArguments .run .start (settings.map fun x => x.1.argument x.2) =
      .ok (⟨g, settings.map Prod.fst, none⟩, none) := by
  have apart : ([] ++ settings.map Prod.fst).Nodup := h.apart
  have read := readArguments_settings proper h.told apart
  rw [Given.only_nil, List.nil_append, Given.only_eq_self h.full] at read
  exact read

namespace Reading

theorem settled_of_idle {r : Reading} (s : Scope) (idle : r.pending = none) :
    r.settled s = .ok r := by
  simp [settled, settle, idle]

end Reading

/-- The arguments of a run: a log file may be named before the subcommand, and all options may stand
behind it. -/
def runArguments (logFile : Option String) (settings : List (Flag × String)) : List String :=
  logFile.toList.map Flag.logFile.argument ++ "run" :: settings.map fun x => x.1.argument x.2

theorem readArguments_leading {logFile : Option String} (full : ∀ path ∈ logFile, path ≠ "")
    (rest : List String) :
    ∃ top : Reading, top.pending = none ∧ top.given.logFile = logFile ∧
      readArguments .program .start
          (logFile.toList.map Flag.logFile.argument ++ "run" :: rest) =
        .ok (top, some (.run, rest)) := by
  have subcommand : ∀ r : Reading, r.pending = none →
      readArguments .program r ("run" :: rest) = .ok (r, some (.run, rest)) := by
    intro r settled
    have waits : r.isWaiting = false := by simp [Reading.isWaiting, settled]
    have run : Scope.program.subcommand? "run" = some .run := by decide
    conv => lhs; unfold readArguments
    simp only [waits, Bool.false_eq_true, if_false, run]
  cases logFile with
  | none => exact ⟨.start, rfl, rfl, subcommand .start rfl⟩
  | some path =>
    have put : Given.nothing.put .logFile path =
        .ok { Given.nothing with logFile := some path } := by
      rw [Given.put, Given.readPath_eq _ (full path rfl)]
      rfl
    refine ⟨⟨{ Given.nothing with logFile := some path }, [.logFile], none⟩, rfl, rfl, ?_⟩
    have known : Scope.program.flag? Flag.logFile.name = some .logFile := by decide
    have taken := readArguments_argument (r := .start) known rfl rfl List.not_mem_nil put
    exact (taken _).trans (subcommand _ rfl)

/-- Values given as options in any order are the values of the run, a log file that is named before
the subcommand counting if none is named behind it; what is left out is standard. The standard
profile is what its text reads as. -/
theorem options_in_any_order {g : Given} (proper : g.Proper) {settings : List (Flag × String)}
    (order : settings.Perm g.settings) {logFile : Option String}
    (full : ∀ path ∈ logFile, path ≠ "") :
    parse (runArguments logFile settings) = .ok {
      task := .run (g.dataset.getD "test_data/News_Category_Dataset_v3.json") {
        profile := g.stages.getD .standard
        tick := g.tick.getD (.ofMillis 100)
        gracefulStop := g.gracefulStop.getD (.ofMillis 30000)
        seed := g.seed }
      logFile := g.logFile.or logFile } ∧
    Given.readProfile .stages Profile.standard.display = .ok .standard := by
  obtain ⟨top, settled, rfl, before⟩ := readArguments_leading full _
  have inner := readArguments_of_tells (Given.tells_settings.perm order) proper
  refine ⟨?_, Given.readProfile_standard⟩
  rw [parse, runArguments, before]
  simp only [bind, Except.bind, enter, inner, Reading.settled_of_idle _ settled,
    Reading.settled_of_idle, g.runTask_eq]
  rfl

/-- Values of four options. -/
def busyRun : Given where
  dataset := some "a=b, c"
  stages := some ⟨[⟨.zero, 5⟩, ⟨.ofMillis 5400000, 0⟩], .ofMillis 5400000⟩
  seed := some 18446744073709551615
  gracefulStop := none
  tick := some .longest
  logFile := none

theorem proper_busyRun : busyRun.Proper where
  dataset := by simp [busyRun]
  logFile := by simp [busyRun]
  stages := by
    rintro p same
    obtain rfl := Option.some.inj same
    have made : Profile.ofStages [⟨.zero, 5⟩, ⟨.ofMillis 5400000, 0⟩] =
        .ok ⟨[⟨.zero, 5⟩, ⟨.ofMillis 5400000, 0⟩], .ofMillis 5400000⟩ := by decide +kernel
    exact .ofStages made

/-- The options from the last to the first, behind a log file that is called like the subcommand. -/
theorem options_from_last_to_first :
    busyRun.Proper ∧ busyRun.settings.reverse.Perm busyRun.settings ∧
    parse ["--log-file=run", "run",
        "--tick=584542046090years 7months 15days 17h 5m 3s 999ms 999us 999ns",
        "--seed=18446744073709551615", "--stages=0s:5,1h 30m:0", "--dataset=a=b, c"] =
      .ok ⟨.run "a=b, c" ⟨⟨[⟨.zero, 5⟩, ⟨.ofMillis 5400000, 0⟩], .ofMillis 5400000⟩, .longest,
        .ofMillis 30000, some 18446744073709551615⟩, some "run"⟩ := by
  have order := List.reverse_perm busyRun.settings
  have full : ∀ path ∈ some "run", path ≠ "" := by simp
  have arguments : runArguments (some "run") busyRun.settings.reverse = ["--log-file=run", "run",
      "--tick=584542046090years 7months 15days 17h 5m 3s 999ms 999us 999ns",
      "--seed=18446744073709551615", "--stages=0s:5,1h 30m:0", "--dataset=a=b, c"] := by
    decide +kernel
  refine ⟨proper_busyRun, order, ?_⟩
  rw [← arguments]
  exact (options_in_any_order proper_busyRun order full).1

end SearchLoad.CommandLine
