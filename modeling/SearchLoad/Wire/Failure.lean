namespace SearchLoad.Wire

inductive FailureKind
  | response
  | authenticationFailed
  | executionAborted
  | busyLoading
  | noScript
  | invalidConfig
  | moved
  | ask
  | tryAgain
  | clusterDown
  | crossSlot
  | masterDown
  | readOnly
  | notBusy
  | noSubscriber
  | parse
  | inputOutput
  | helloNotSupported
deriving DecidableEq, Repr

def FailureKind.name : FailureKind → String
  | response => "ResponseError"
  | authenticationFailed => "AuthenticationFailed"
  | executionAborted => "ExecAbortError"
  | busyLoading => "BusyLoadingError"
  | noScript => "NoScriptError"
  | invalidConfig => "InvalidClientConfig"
  | moved => "Moved"
  | ask => "Ask"
  | tryAgain => "TryAgain"
  | clusterDown => "ClusterDown"
  | crossSlot => "CrossSlot"
  | masterDown => "MasterDown"
  | readOnly => "ReadOnly"
  | notBusy => "NotBusy"
  | noSubscriber => "NoSub"
  | parse => "ParseError"
  | inputOutput => "IoError"
  | helloNotSupported => "RESP3NotSupported"

/-- A failure is described, or an error of the server under a code of its own, or what the operating
system says. -/
inductive Failure
  | described (kind : FailureKind) (description : String) (detail : Option String)
  | extension (code detail : String)
  | system (message : String)
deriving DecidableEq, Repr

namespace Failure

def message : Failure → String
  | described kind description none => description ++ "- " ++ kind.name
  | described kind description (some detail) =>
    description ++ " - " ++ kind.name ++ ": " ++ detail
  | extension code detail => code ++ ": " ++ detail
  | system message => message

def kindOf? : String → Option FailureKind
  | "ERR" => some .response
  | "EXECABORT" => some .executionAborted
  | "LOADING" => some .busyLoading
  | "NOSCRIPT" => some .noScript
  | "MOVED" => some .moved
  | "ASK" => some .ask
  | "TRYAGAIN" => some .tryAgain
  | "CLUSTERDOWN" => some .clusterDown
  | "CROSSSLOT" => some .crossSlot
  | "MASTERDOWN" => some .masterDown
  | "READONLY" => some .readOnly
  | "NOTBUSY" => some .notBusy
  | "NOSUB" => some .noSubscriber
  | _ => none

/-- The failure that an error reply stands for: its code and what comes after the first space. -/
def ofErrorReply (code : String) (detail : Option String) : Failure :=
  match kindOf? code with
  | some kind => described kind "An error was signalled by the server" detail
  | none => extension code (detail.getD "Unknown extension error encountered")

def brokenPipe : Failure := system "broken pipe"

end Failure

end SearchLoad.Wire
