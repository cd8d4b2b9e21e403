import SearchLoad.Wire.Failure
import SearchLoad.Command

namespace SearchLoad.Wire

/-- A map has its keys and values in turn, and so have the attributes of a reply. A double is kept
as it was written. -/
inductive Reply
  | nil
  | okay
  | int (n : Int)
  | simple (text : String)
  | bulk (bytes : Bytes)
  | array (items : List Reply)
  | error (code : String) (detail : Option String)
  | map (members : List Reply)
  | set (items : List Reply)
  | attributed (reply : Reply) (attributes : List Reply)
  | push (kind : String) (items : List Reply)
  | double (literal : String)
  | boolean (b : Bool)
  | verbatim (format text : String)
  | big (n : Int)

namespace Reply

/-- An error has a code, and a detail behind the first space. -/
def ofErrorLine (line : List Char) : Reply :=
  let detail :=
    match line.dropWhile (· != ' ') with
    | [] => none
    | _ :: detail => some (String.ofList detail)
  .error (String.ofList (line.takeWhile (· != ' '))) detail

def answeringKinds : List String :=
  ["subscribe", "psubscribe", "ssubscribe", "unsubscribe", "punsubscribe", "sunsubscribe"]

/-- Whether a reply answers no command. -/
def isAnnouncement : Reply → Bool
  | .push kind _ => kind ∉ answeringKinds
  | _ => false

mutual

/-- The first error of a reply, looked for inside it too. -/
def failure? : Reply → Option Failure
  | .error code detail => some (.ofErrorReply code detail)
  | .array items => failureIn? items
  | .map members => failureIn? members
  | .set items => failureIn? items
  | .attributed reply attributes =>
    match failure? reply with
    | some f => some f
    | none => failureIn? attributes
  | .push _ items => failureIn? items
  | .nil => none
  | .okay => none
  | .int _ => none
  | .simple _ => none
  | .bulk _ => none
  | .double _ => none
  | .boolean _ => none
  | .verbatim .. => none
  | .big _ => none

/-- The first error of several replies. -/
def failureIn? : List Reply → Option Failure
  | [] => none
  | r :: rs =>
    match failure? r with
    | some f => some f
    | none => failureIn? rs

end

/-- A reply with an error in it is a failure. -/
def result (r : Reply) : Except Failure Reply :=
  match failure? r with
  | some f => .error f
  | none => .ok r

end Reply

end SearchLoad.Wire
