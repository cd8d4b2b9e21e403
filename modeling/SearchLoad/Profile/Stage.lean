import SearchLoad.Span.Items
import SearchLoad.Span.Text
import SearchLoad.Text.Quoted

namespace SearchLoad

structure Stage where
  duration : Span
  target : Nat
deriving DecidableEq, Repr

def maxTarget : Nat := 100000

/-- Why a text or a list of stages is no profile. A carry beyond the longest span aborts the
program. -/
inductive ProfileFault
  | noStages
  | invalidStage (text : String)
  | invalidDuration (text : String) (fault : Span.Fault)
  | invalidTarget (text : String)
  | targetTooHigh (target : Nat)
  | durationOverflow
  | aborted
deriving DecidableEq, Repr

def ProfileFault.message : ProfileFault → String
  | .noStages => "A load profile needs at least one stage"
  | .invalidStage text =>
    "Stage " ++ Text.quote text ++ " is not in the <duration>:<target> format"
  | .invalidDuration text fault =>
    "Invalid stage duration " ++ Text.quote text ++ ": " ++ fault.message
  | .invalidTarget text => "Invalid stage target " ++ Text.quote text
  | .targetTooHigh target => "Stage target " ++ toString target ++ " is above the limit of " ++
      toString maxTarget ++ " virtual users"
  | .durationOverflow => "The stages add up to more time than can be represented"
  | .aborted => Span.Fault.message .carryOverflow

namespace Stage

def splitColon (s : List Char) : Option (List Char × List Char) :=
  let front := s.takeWhile (· != ':')
  match s.dropWhile (· != ':') with
  | [] => none
  | _ :: back => some (front, back)

def readDuration (text : List Char) : Except ProfileFault Span :=
  match Span.read (Text.trim text) with
  | .ok s => .ok s
  | .error .carryOverflow => .error .aborted
  | .error f => .error (.invalidDuration (String.ofList text) f)

def readTarget (text : List Char) : Except ProfileFault Nat :=
  (Number.readUnsigned (Text.trim text)).mapError fun _ => .invalidTarget (String.ofList text)

/-- Reads a duration, a colon and a target, with blanks around each. -/
def read (s : List Char) : Except ProfileFault Stage :=
  match splitColon (Text.trim s) with
  | none => .error (.invalidStage (String.ofList s))
  | some (front, back) => do
    let duration ← readDuration front
    let target ← readTarget back
    .ok ⟨duration, target⟩

def parse (text : String) : Except ProfileFault Stage := read text.toList

def display (s : Stage) : String := s.duration.display ++ ":" ++ toString s.target

end Stage

end SearchLoad
