import SearchLoad.Corpus.Basic
import SearchLoad.Corpus.Record
import SearchLoad.Dataset.Source

namespace SearchLoad.Corpus

inductive Fault
  | unreadable (path : String) (error : OsError)
  | notText (path : String)
  | badLine (line : Nat) (fault : Record.Fault)
deriving DecidableEq, Repr

def Fault.source : Fault → String
  | .unreadable _ e => e.message
  | .notText _ => "stream did not contain valid UTF-8"
  | .badLine _ f => f.message

def Fault.message (f : Fault) : String :=
  match f with
  | .unreadable path _ | .notText path =>
    "Failed to read the dataset at " ++ Text.quote path ++ ": " ++ f.source
  | .badLine line _ => "Line " ++ toString line ++ " is not a valid record: " ++ f.source

/-- The lines with their numbers. -/
def numberedLines (contents : String) : List (String × Nat) :=
  ((contents.toList.splitOn '\n').map String.ofList).zipIdx 1

def parseLine (line : String × Nat) : Except Fault Record :=
  (Record.parse line.1).mapError (.badLine line.2)

/-- The records of all lines that are not empty. -/
def records (contents : String) : Except Fault (List Record) :=
  ((numberedLines contents).filter fun line => !line.1.isEmpty).mapM parseLine

def ofRecords (records : List Record) : Corpus := ofTexts (records.map Record.text)

def ofNdjson (contents : String) : Except Fault Corpus := (records contents).map ofRecords

def ofRecordsLog (records : List Record) : List Entry :=
  ofTextsLog (records.map Record.text) ++
    [⟨.info, "corpus built", [("records", toString records.length),
      ("words", toString (ofRecords records).size)]⟩]

def ofNdjsonLog (contents : String) : List Entry :=
  match records contents with
  | .ok rs => ofRecordsLog rs
  | .error _ => []

/-- The contents of a dataset as text. -/
def readText (path : String) : Source → Except Fault String
  | .closed e | .unreadable e => .error (.unreadable path e)
  | .file bytes =>
    match Text.Utf8.decode bytes with
    | .ok cs => .ok (String.ofList cs)
    | .error _ => .error (.notText path)

def ofSource (path : String) (source : Source) : Except Fault Corpus :=
  readText path source >>= ofNdjson

def ofSourceLog (path : String) (source : Source) : List Entry :=
  .info ("reading dataset from " ++ Text.quote path) ::
    match readText path source with
    | .ok contents => ofNdjsonLog contents
    | .error _ => []

end SearchLoad.Corpus
