import SearchLoad.Text.Utf8

namespace SearchLoad

inductive OsError
  | notFound
  | isDirectory
  | nameTooLong
  | other (code : Nat) (message : String)
deriving DecidableEq, Repr

def OsError.message : OsError → String
  | .notFound => "No such file or directory (os error 2)"
  | .isDirectory => "Is a directory (os error 21)"
  | .nameTooLong => "File name too long (os error 36)"
  | .other code message => message ++ " (os error " ++ toString code ++ ")"

/-- What opening a path gives: an error at once, something whose first read fails, or bytes. -/
inductive Source
  | closed (error : OsError)
  | unreadable (error : OsError)
  | file (bytes : List UInt8)
deriving DecidableEq, Repr

end SearchLoad

namespace SearchLoad.Dataset

def lineFeed : UInt8 := 10

/-- The lines with their ends; the last one may lack it, but is not empty. -/
def rawLines (bytes : List UInt8) : List (List UInt8) :=
  let pieces := bytes.splitOn lineFeed
  let last := pieces.getLastD []
  pieces.dropLast.map (· ++ [lineFeed]) ++ (if last.isEmpty then [] else [last])

/-- A line without its end: a line feed, and a carriage return before it. -/
def stripEnd (line : List Char) : List Char :=
  match line.reverse with
  | '\n' :: '\r' :: s => s.reverse
  | '\n' :: s => s.reverse
  | _ => line

/-- The text of a line. Where it is not UTF-8, bytes are counted from the line's beginning. -/
def lineText (raw : List UInt8) : Except Text.Utf8.Fault String :=
  (Text.Utf8.decode raw).map fun cs => String.ofList (stripEnd cs)

end SearchLoad.Dataset
