import SearchLoad.Dataset.Source
import SearchLoad.Log

namespace SearchLoad.Live

/-- The least grave level that is written; a name that is no level's means the standard one. -/
def levelOf : Option String → Option Level
  | some "off" => none
  | some "error" => some .error
  | some "warn" => some .warn
  | some "debug" | some "trace" => some .debug
  | _ => some .info

def osErrorOf (code : Nat) (details : String) : OsError :=
  match code with
  | 2 => .notFound
  | 13 => .other 13 "Permission denied"
  | 20 => .other 20 "Not a directory"
  | 21 => .isDirectory
  | 36 => .nameTooLong
  | 101 => .other 101 "Network is unreachable"
  | 104 => .other 104 "Connection reset by peer"
  | 110 => .other 110 "Connection timed out"
  | 111 => .other 111 "Connection refused"
  | 113 => .other 113 "No route to host"
  | code => .other code details

/-- The code of an error, which some calls give with its sign turned. -/
def plainCode (code : UInt32) : Nat :=
  if code.toNat < 2147483648 then code.toNat else 4294967296 - code.toNat

def osErrorFrom : IO.Error → OsError
  | .alreadyExists _ code details | .otherError code details | .resourceBusy code details
  | .resourceVanished code details | .unsupportedOperation code details
  | .hardwareFault code details | .unsatisfiedConstraints code details
  | .illegalOperation code details | .protocolError code details | .timeExpired code details
  | .interrupted _ code details | .noFileOrDirectory _ code details
  | .invalidArgument _ code details | .permissionDenied _ code details
  | .resourceExhausted _ code details | .inappropriateType _ code details
  | .noSuchThing _ code details => osErrorOf (plainCode code) details
  | .unexpectedEof => .other 0 "end of file"
  | .userError details => .other 0 details

structure Journal where
  level : Option Level
  file : IO.Ref (Option IO.FS.Handle)

namespace Journal

def create (setting : Option String) : IO Journal := do
  return ⟨levelOf setting, ← IO.mkRef none⟩

def redirect (j : Journal) (path : String) : IO (Option OsError) := do
  try
    j.file.set (some (← IO.FS.Handle.mk path .write))
    return none
  catch e => return some (osErrorFrom e)

def write (j : Journal) (e : Entry) : IO Unit := do
  let some level := j.level | return
  if level.rank < e.level.rank then return
  match ← j.file.get with
  | some handle =>
    handle.putStr (e.render ++ "\n")
    handle.flush
  | none => IO.eprintln e.render

end Journal

def readHandle (handle : IO.FS.Handle) : IO Source := do
  try return .file (← handle.readBinToEnd).toList
  catch e => return .unreadable (osErrorFrom e)

def readSource (path : String) : IO Source := do
  try readHandle (← IO.FS.Handle.mk path .read)
  catch e => return .closed (osErrorFrom e)

end SearchLoad.Live
