import SearchLoad.Dataset.Document
import SearchLoad.Dataset.Source
import SearchLoad.Log
import SearchLoad.Wire.Failure

namespace SearchLoad.Dataset

/-- What a load acts on: a store that runs commands, and a log. -/
structure Store (m : Type → Type) where
  execute : Command → m (Except Wire.Failure Unit)
  log : Entry → m Unit

inductive Fault
  | unreadable (path : String) (error : OsError)
  | notText (path : String) (fault : Text.Utf8.Fault)
  | badLine (line : Nat) (fault : Json.Fault)
  | missingLink (line : Nat)
  | refused (failure : Wire.Failure)
deriving DecidableEq, Repr

def Fault.source : Fault → Option String
  | .unreadable _ e => some e.message
  | .notText _ f => some f.message
  | .badLine _ f => some f.message
  | .missingLink _ => none
  | .refused f => some f.message

def Fault.message (f : Fault) : String :=
  let source := f.source.getD ""
  match f with
  | .unreadable path _ | .notText path _ =>
    "Failed to read the dataset at " ++ Text.quote path ++ ": " ++ source
  | .badLine line _ => "Line " ++ toString line ++ " is not a flat object of strings: " ++ source
  | .missingLink line => "Line " ++ toString line ++ " has no link to use as the key"
  | .refused _ => "Redis error: " ++ source

def Fault.ofDocument (line : Nat) : Document.Fault → Fault
  | .malformed f => .badLine line f
  | .missingLink => .missingLink line

/-- The document of a line; nothing for an empty line. -/
def documentOf (path : String) (number : Nat) (raw : List UInt8) :
    Except Fault (Option Document) := do
  let line ← (lineText raw).mapError (.notText path)
  if line.isEmpty then .ok none
  else ((Document.parse line).mapError (.ofDocument number)).map some

def progressEvery : Nat := 10000

variable {m : Type → Type} [Monad m]

def Store.run (store : Store m) (c : Command) : ExceptT Fault m Unit := do
  match ← store.execute c with
  | .ok () => pure ()
  | .error f => throw (.refused f)

def Store.add (store : Store m) (loaded : Nat) (d : Document) : ExceptT Fault m Nat := do
  store.run d.command
  let loaded := loaded + 1
  if loaded % progressEvery = 0 then
    store.log (.info ("loaded " ++ toString loaded ++ " documents so far"))
  pure loaded

/-- Stores the documents of lines, the first of which has the given number. -/
def Store.addLines (store : Store m) (path : String) :
    Nat → Nat → List (List UInt8) → ExceptT Fault m Nat
  | _, loaded, [] => pure loaded
  | number, loaded, raw :: rest => do
    match ← liftExcept (documentOf path number raw) with
    | none => store.addLines path (number + 1) loaded rest
    | some d =>
      let loaded ← store.add loaded d
      store.addLines path (number + 1) loaded rest
where
  /-- A result in a monad that may fail. -/
  liftExcept {α : Type} (x : Except Fault α) : ExceptT Fault m α := ExceptT.mk (pure x)

def Store.empty (store : Store m) (path : String) : ExceptT Fault m Unit := do
  store.log (.info ("flushing the database before loading " ++ Text.quote path))
  store.run .flush

/-- Loads a dataset and returns the number of its documents. The database is emptied once the
dataset is open; the first problem ends the load, and what was stored before it stays. -/
def load (store : Store m) (path : String) (source : Source) : ExceptT Fault m Nat := do
  match source with
  | .closed e => throw (.unreadable path e)
  | .unreadable e =>
    store.empty path
    throw (.unreadable path e)
  | .file bytes =>
    store.empty path
    let loaded ← store.addLines path 1 0 (rawLines bytes)
    store.log (.info ("loaded " ++ toString loaded ++ " documents"))
    pure loaded

end SearchLoad.Dataset
