import SearchLoad.Log
import Std.Data.HashSet

namespace SearchLoad

structure Corpus where
  words : Array String
deriving DecidableEq, Repr

namespace Corpus

def isLetter (c : Char) : Bool := ('a' ≤ c && c ≤ 'z') || ('A' ≤ c && c ≤ 'Z')

/-- Splits at everything that is no letter and keeps what is not empty. -/
def letterRuns (s : List Char) : List (List Char) :=
  (s.splitOnP fun c => !isLetter c).filter fun run => !run.isEmpty

def wordsOf (text : String) : List String := (letterRuns text.toList).map String.ofList

/-- What has been kept, last one first, and the set of it. -/
structure Seen where
  kept : List String
  index : Std.HashSet String

def Seen.add (seen : Seen) (word : String) : Seen :=
  if seen.index.contains word then seen else ⟨word :: seen.kept, seen.index.insert word⟩

/-- Leaves out what occurred before. -/
def distinct (words : List String) : List String :=
  (words.foldl Seen.add ⟨[], ∅⟩).kept.reverse

def tokens (texts : List String) : List String := texts.flatMap wordsOf

def ofTexts (texts : List String) : Corpus := ⟨(distinct (tokens texts)).toArray⟩

def ofTextsLog (texts : List String) : List Entry :=
  [.debug ("extracted " ++ toString (tokens texts).length ++ " tokens before deduplication")]

def size (c : Corpus) : Nat := c.words.size

def isEmpty (c : Corpus) : Bool := c.size = 0

def get? (c : Corpus) (i : Nat) : Option String := c.words[i]?

def contains (c : Corpus) (word : String) : Bool := c.words.contains word

/-- An index that no word of the corpus has. -/
structure OutOfBounds where
  size : Nat
  index : Nat
deriving DecidableEq, Repr

def OutOfBounds.message (o : OutOfBounds) : String :=
  "index out of bounds: the len is " ++ toString o.size ++
    " but the index is " ++ toString o.index

/-- The word at an index that is promised to be one of the corpus. -/
def word (c : Corpus) (i : Nat) : Except OutOfBounds String :=
  match c.get? i with
  | some w => .ok w
  | none => .error ⟨c.size, i⟩

end Corpus

end SearchLoad
