import SearchLoad.CommandLine.Parse
import SearchLoad.Connection.Basic
import SearchLoad.Corpus.Dataset
import SearchLoad.Dataset.Load
import SearchLoad.Sampling.Sampler
import SearchLoad.Settings
import SearchLoad.Stats.Report

namespace SearchLoad.Program

/-- What the program acts on: variables, servers, files to read, log files to create, and load tests
over a connection. -/
structure World (m : Type → Type) where
  lookup : Lookup
  network : Network m
  source : String → m Source
  createLog : String → m (Option OsError)
  test : Connection m → Sampler → Run.Options → m Report

/-- How the program ends: its status, and what it printed as output and as errors. -/
structure Ending where
  status : Nat
  output : String
  errors : String
deriving DecidableEq, Repr

/-- What failed, and what that stems from, the nearest cause first. -/
structure Failure where
  message : String
  causes : List String
deriving DecidableEq, Repr

namespace Failure

/-- A text whose lines after the first begin with a margin. -/
def indent (margin : String) (s : String) : String :=
  String.intercalate ("\n" ++ margin) ((s.toList.splitOn '\n').map String.ofList)

/-- Several causes are numbered from zero, a single one is not. -/
def causeLines : List String → List String
  | [cause] => ["    " ++ indent "    " cause]
  | causes => causes.zipIdx.map fun (cause, i) =>
      let number := toString i
      String.ofList (List.replicate (5 - number.length) ' ') ++ number ++ ": " ++
        indent "       " cause

def report (f : Failure) : String :=
  "Error: " ++ f.message ++
    (if f.causes.isEmpty then ""
    else "\n\nCaused by:\n" ++ String.intercalate "\n" (causeLines f.causes)) ++ "\n"

def ofCorpus (path : String) (f : Corpus.Fault) : Failure :=
  ⟨"failed to build the corpus from " ++ Text.quote path, [f.message, f.source]⟩

def ofConnection (service : String) (f : ConnectionFault) : Failure :=
  ⟨"failed to connect to the " ++ service, f.message :: f.source.toList⟩

def ofLoad (path : String) (f : Dataset.Fault) : Failure :=
  ⟨"failed to load " ++ Text.quote path, f.message :: f.source.toList⟩

end Failure

namespace Ending

def success (output : String) : Ending := ⟨0, output, ""⟩

def ofFailure (f : Failure) : Ending := ⟨1, "", f.report⟩

/-- An answer is output. Errors have a status of their own, and another one if the program
aborts. -/
def ofStop (s : CommandLine.Stop) : Ending :=
  if s.isAnswer then success s.printed
  else
    match s with
    | .badValue _ _ why =>
      if why.isAbort then ⟨101, "", why.message ++ "\n"⟩ else ⟨2, "", s.printed⟩
    | _ => ⟨2, "", s.printed⟩

end Ending

variable {m : Type → Type} [Monad m]

def storeOf (net : Network m) (c : Connection m) : Dataset.Store m where
  execute command := do
    match ← c.link.exchange command with
    | .error f => pure (.error f)
    | .ok r => pure ((Wire.Reply.result r).map fun _ => ())
  log := net.log

/-- A step that may fail, and the failure that it means. -/
def orFail {ε α : Type} (f : ε → Failure) (x : m (Except ε α)) : ExceptT Failure m α :=
  ExceptT.mk do return (← x).mapError f

def samplerOf (w : World m) (path : String) : ExceptT Failure m Sampler := do
  let source ← w.source path
  (Corpus.ofSourceLog path source).forM fun e => w.network.log e
  let corpus ← orFail (Failure.ofCorpus path) (pure (Corpus.ofSource path source))
  match Sampler.ofCorpus? corpus with
  | some s => pure s
  | none => throw ⟨Sampler.emptyMessage, []⟩

/-- Runs a load test and returns its summary. The dataset is read before the connection is made. -/
def runTest (w : World m) (dataset : String) (o : Run.Options) : ExceptT Failure m String := do
  let sampler ← samplerOf w dataset
  let settings := (Settings.ofLookup w.lookup).search
  w.network.log ⟨.info, "connecting to the search service", [("search", settings.text)]⟩
  let connection ←
    orFail (Failure.ofConnection "search service") (Connection.connect w.network settings)
  let report ← w.test connection sampler o
  pure (report.summary ++ "\n")

/-- Loads a dataset and returns how many documents it had. The connection is made before the dataset
is read. -/
def loadDataset (w : World m) (dataset : String) : ExceptT Failure m String := do
  let settings := (Settings.ofLookup w.lookup).primary
  w.network.log ⟨.info, "connecting to the primary store", [("primary", settings.text)]⟩
  let connection ←
    orFail (Failure.ofConnection "primary store") (Connection.connect w.network settings)
  let source ← w.source dataset
  let loaded ←
    orFail (Failure.ofLoad dataset) (Dataset.load (storeOf w.network connection) dataset source).run
  pure ("loaded " ++ toString loaded ++ " documents into " ++ Text.quoteAll settings.addresses ++
    "\n")

def perform (w : World m) : CommandLine.Task → ExceptT Failure m String
  | .run dataset options => runTest w dataset options
  | .load dataset => loadDataset w dataset

def createLog (w : World m) : Option String → ExceptT Failure m Unit
  | none => pure ()
  | some path => do
    match ← w.createLog path with
    | none => pure ()
    | some e => throw ⟨e.message, []⟩

def invoke (w : World m) (i : CommandLine.Invocation) : ExceptT Failure m String := do
  createLog w i.logFile
  perform w i.task

def start (w : World m) (arguments : List String) : m Ending := do
  match CommandLine.parse arguments with
  | .error stop => pure (.ofStop stop)
  | .ok i =>
    match ← (invoke w i).run with
    | .ok output => pure (.success output)
    | .error f => pure (.ofFailure f)

end SearchLoad.Program
