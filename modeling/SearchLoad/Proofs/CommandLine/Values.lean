import SearchLoad.CommandLine.Invocation
import SearchLoad.Proofs.Profile.Walk

namespace SearchLoad.CommandLine

open Number

/-- The options that can have values. -/
def Flag.valued : List Flag := [.dataset, .logFile, .stages, .seed, .gracefulStop, .tick]

namespace Given

/-- The text that tells the value of an option, if it has one. -/
def text? (g : Given) : Flag → Option String
  | .dataset => g.dataset
  | .logFile => g.logFile
  | .stages => g.stages.map Profile.display
  | .seed => g.seed.map fun n => toString n.toNat
  | .gracefulStop => g.gracefulStop.map Span.display
  | .tick => g.tick.map Span.display
  | .help | .version => none

/-- The options that have values, with the texts of these. -/
def settings (g : Given) : List (Flag × String) :=
  Flag.valued.filterMap fun f => (g.text? f).map fun value => (f, value)

/-- Paths have a character at least, and profiles are ones that there is a way to get. -/
structure Proper (g : Given) : Prop where
  dataset : ∀ path ∈ g.dataset, path ≠ ""
  logFile : ∀ path ∈ g.logFile, path ≠ ""
  stages : ∀ p ∈ g.stages, p.Obtainable

/-- The values of some options only. -/
def only (g : Given) (kept : List Flag) : Given where
  dataset := if .dataset ∈ kept then g.dataset else none
  stages := if .stages ∈ kept then g.stages else none
  seed := if .seed ∈ kept then g.seed else none
  gracefulStop := if .gracefulStop ∈ kept then g.gracefulStop else none
  tick := if .tick ∈ kept then g.tick else none
  logFile := if .logFile ∈ kept then g.logFile else none

theorem readPath_eq (f : Flag) {path : String} (full : path ≠ "") : readPath f path = .ok path := by
  rw [readPath, if_neg (by simpa [String.isEmpty_iff] using full)]

theorem readProfile_display (f : Flag) {p : Profile} (obtained : p.Obtainable) :
    readProfile f p.display = .ok p := by
  rw [readProfile, Profile.parse_display obtained.admitted]
  rfl

theorem readSpan_display (f : Flag) (s : Span) : readSpan f s.display = .ok s := by
  rw [readSpan, s.parse_display]
  rfl

theorem readSeed_toString (f : Flag) (n : UInt64) : readSeed f (toString n.toNat) = .ok n := by
  have fits : n.toNat ≤ maxUnsigned := Nat.le_of_lt_succ n.toNat_lt
  rw [readSeed, readUnsigned_toString fits]
  simp

/-- The value of one more option is read from its text. -/
theorem put_only {g : Given} (proper : g.Proper) {f : Flag} {value : String}
    (told : g.text? f = some value) (kept : List Flag) :
    (g.only kept).put f value = .ok (g.only (kept ++ [f])) := by
  cases f with
  | dataset =>
    have path : g.dataset = some value := told
    rw [put, readPath_eq _ (proper.dataset _ path)]
    simp [Except.map, only, path]
  | logFile =>
    have path : g.logFile = some value := told
    rw [put, readPath_eq _ (proper.logFile _ path)]
    simp [Except.map, only, path]
  | stages =>
    obtain ⟨p, stages, rfl⟩ := Option.map_eq_some_iff.mp told
    rw [put, readProfile_display _ (proper.stages _ stages)]
    simp [Except.map, only, stages]
  | seed =>
    obtain ⟨n, seed, rfl⟩ := Option.map_eq_some_iff.mp told
    rw [put, readSeed_toString]
    simp [Except.map, only, seed]
  | gracefulStop =>
    obtain ⟨s, stop, rfl⟩ := Option.map_eq_some_iff.mp told
    rw [put, readSpan_display]
    simp [Except.map, only, stop]
  | tick =>
    obtain ⟨s, tick, rfl⟩ := Option.map_eq_some_iff.mp told
    rw [put, readSpan_display]
    simp [Except.map, only, tick]
  | help => contradiction
  | version => contradiction

/-- Settings that tell given values: each option that has one stands there once. -/
structure Tells (g : Given) (settings : List (Flag × String)) : Prop where
  apart : (settings.map Prod.fst).Nodup
  told : ∀ x ∈ settings, g.text? x.1 = some x.2
  full : ∀ f, (g.text? f).isSome → f ∈ settings.map Prod.fst

variable {g : Given}

theorem mem_valued {f : Flag} (has : (g.text? f).isSome) : f ∈ Flag.valued := by
  cases f with
  | help => contradiction
  | version => contradiction
  | _ => decide

theorem tells_settings : g.Tells g.settings where
  apart := by
    rw [settings, List.map_filterMap]
    simp only [Option.map_map]
    refine List.Nodup.filterMap ?_ (by decide)
    intro e f x first second
    obtain ⟨_, -, rfl⟩ := Option.map_eq_some_iff.mp first
    obtain ⟨_, -, same⟩ := Option.map_eq_some_iff.mp second
    exact same.symm
  told := by
    intro x member
    obtain ⟨f, -, has⟩ := List.mem_filterMap.mp member
    obtain ⟨value, told, rfl⟩ := Option.map_eq_some_iff.mp has
    exact told
  full := by
    intro f has
    obtain ⟨value, told⟩ := Option.isSome_iff_exists.mp has
    have setting : (g.text? f).map (fun value => (f, value)) = some (f, value) := by
      rw [told, Option.map_some]
    exact List.mem_map.mpr ⟨_, List.mem_filterMap.mpr ⟨f, mem_valued has, setting⟩, rfl⟩

theorem Tells.perm {settings others : List (Flag × String)} (h : g.Tells settings)
    (order : others.Perm settings) : g.Tells others where
  apart := (order.map Prod.fst).nodup_iff.mpr h.apart
  told x member := h.told x (order.mem_iff.mp member)
  full f has := (order.map Prod.fst).mem_iff.mpr (h.full f has)

theorem only_nil : g.only [] = nothing := by
  simp [only, nothing]

theorem ite_eq_of_isSome {α : Type} {o : Option α} {p : Prop} [Decidable p] (h : o.isSome → p) :
    (if p then o else none) = o := by
  cases o with
  | none => exact ite_self _
  | some a => exact if_pos (h rfl)

theorem only_eq_self {kept : List Flag} (h : ∀ f, (g.text? f).isSome → f ∈ kept) :
    g.only kept = g := by
  have dataset : (if .dataset ∈ kept then g.dataset else none) = g.dataset :=
    ite_eq_of_isSome (h .dataset)
  have logFile : (if .logFile ∈ kept then g.logFile else none) = g.logFile :=
    ite_eq_of_isSome (h .logFile)
  have stages : (if .stages ∈ kept then g.stages else none) = g.stages :=
    ite_eq_of_isSome fun has => h .stages (Option.isSome_map.trans has)
  have seed : (if .seed ∈ kept then g.seed else none) = g.seed :=
    ite_eq_of_isSome fun has => h .seed (Option.isSome_map.trans has)
  have stop : (if .gracefulStop ∈ kept then g.gracefulStop else none) = g.gracefulStop :=
    ite_eq_of_isSome fun has => h .gracefulStop (Option.isSome_map.trans has)
  have tick : (if .tick ∈ kept then g.tick else none) = g.tick :=
    ite_eq_of_isSome fun has => h .tick (Option.isSome_map.trans has)
  rw [only, dataset, logFile, stages, seed, stop, tick]

theorem orStandard_eq {α : Type} {f : Flag} {text : String}
    {read : Flag → String → Except Stop α} {standard : α} (reads : read f text = .ok standard)
    (given : Option α) : orStandard f text read given = .ok (given.getD standard) := by
  cases given with
  | none => exact reads
  | some value => rfl

/-- The standard profile is what its own text reads as. -/
theorem readProfile_standard : readProfile .stages standardStages = .ok .standard :=
  readProfile_display _ .standard

theorem readSpan_standardGracefulStop :
    readSpan .gracefulStop standardGracefulStop = .ok (.ofMillis 30000) := by
  have text : standardGracefulStop = (Span.ofMillis 30000).display := by decide +kernel
  rw [text, readSpan_display]

theorem readSpan_standardTick : readSpan .tick standardTick = .ok (.ofMillis 100) := by
  have text : standardTick = (Span.ofMillis 100).display := by decide +kernel
  rw [text, readSpan_display]

/-- A run has the values that are given, and standard ones otherwise. -/
theorem runTask_eq (g : Given) : g.runTask = .ok (.run (g.dataset.getD standardDataset) {
    profile := g.stages.getD .standard
    tick := g.tick.getD (.ofMillis 100)
    gracefulStop := g.gracefulStop.getD (.ofMillis 30000)
    seed := g.seed }) := by
  have path : readPath .dataset standardDataset = .ok standardDataset :=
    readPath_eq _ (by simp [standardDataset])
  simp only [runTask, datasetOrStandard, options, orStandard_eq path,
    orStandard_eq readProfile_standard, orStandard_eq readSpan_standardGracefulStop,
    orStandard_eq readSpan_standardTick]
  rfl

end Given

end SearchLoad.CommandLine
