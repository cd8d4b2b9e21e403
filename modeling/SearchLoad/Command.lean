import SearchLoad.Text.Utf8

namespace SearchLoad.Wire

abbrev Bytes := List UInt8

def lineEnd : Bytes := [13, 10]

/-- A mark, a decimal number and the end of the line. -/
def header (mark : Char) (n : Nat) : Bytes :=
  Text.Utf8.encode (mark :: Nat.toDigits 10 n) ++ lineEnd

def packArg (arg : Bytes) : Bytes := header '$' arg.length ++ arg ++ lineEnd

def pack (args : List Bytes) : Bytes := header '*' args.length ++ args.flatMap packArg

def bytesOf (s : String) : Bytes := Text.Utf8.encode s.toList

end SearchLoad.Wire

namespace SearchLoad

/-- Two words joined by one space. -/
structure Query where
  text : String
deriving DecidableEq, Repr

namespace Query

def ofWords (first second : String) : Query := ⟨first ++ " " ++ second⟩

/-- The pieces between the spaces. -/
def words (q : Query) : List String := (q.text.toList.splitOn ' ').map String.ofList

end Query

structure Command where
  args : List String
deriving DecidableEq, Repr

namespace Command

def packed (c : Command) : Wire.Bytes := Wire.pack (c.args.map Wire.bytesOf)

def index : String := "idx"

/-- The first twenty results of a query. -/
def search (q : Query) : Command := ⟨["FT.SEARCH", index, q.text, "LIMIT", "0", "20"]⟩

def flush : Command := ⟨["FLUSHDB"]⟩

def store (key : String) (fields : List (String × String)) : Command :=
  ⟨"HSET" :: key :: fields.flatMap fun f => [f.1, f.2]⟩

end Command

end SearchLoad
