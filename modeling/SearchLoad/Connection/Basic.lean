import SearchLoad.Connection.Setup
import SearchLoad.Log
import SearchLoad.Settings
import SearchLoad.Wire.Reply

namespace SearchLoad

/-- A line to a server, over which commands are answered one by one. -/
structure Link (m : Type → Type) where
  exchange : Command → m (Except Wire.Failure Wire.Reply)

/-- What connections are made over: a way to reach servers, and a log. -/
structure Network (m : Type → Type) where
  dial : Endpoint → m (Except Wire.Failure (Link m))
  log : Entry → m Unit

inductive ConnectionFault
  | noEndpoints
  | invalidEndpoint (address : String) (fault : Endpoint.Fault)
  | failed (failure : Wire.Failure)
deriving DecidableEq, Repr

namespace ConnectionFault

def source : ConnectionFault → Option String
  | noEndpoints => none
  | invalidEndpoint _ f => some f.failure.message
  | failed f => some f.message

def message (f : ConnectionFault) : String :=
  let source := f.source.getD ""
  match f with
  | noEndpoints => "No endpoints were configured"
  | invalidEndpoint address _ => "Invalid endpoint " ++ Text.quote address ++ ": " ++ source
  | failed _ => "Redis error: " ++ source

end ConnectionFault

/-- An open connection, to a server or to a cluster. -/
inductive Connection (m : Type → Type)
  | single (link : Link m)
  | cluster (link : Link m)

namespace Connection

def link {m : Type → Type} : Connection m → Link m
  | single l => l
  | cluster l => l

/-- The endpoint of an address, with the configured password if there is one. -/
def endpointOf (address password : String) : Except ConnectionFault Endpoint :=
  match Endpoint.parse address with
  | .ok e => .ok (e.withPassword password)
  | .error f => .error (.invalidEndpoint address f)

/-- What all nodes of a cluster have to agree on. -/
inductive Shared
  | password
  | username
  | protocol
deriving DecidableEq, Repr

def Shared.name : Shared → String
  | password => "password"
  | username => "username"
  | protocol => "protocol"

def Shared.failure (x : Shared) : Wire.Failure :=
  .described .invalidConfig ("Cannot use different " ++ x.name ++ " among initial nodes.") none

/-- Where a node differs from the first one. What the first one leaves open is open to all, and so
is the password if one is configured. -/
def difference? (password : String) (first node : Endpoint) : Option Shared :=
  if password.isEmpty && first.password.isSome && node.password != first.password then
    some .password
  else if first.username.isSome && node.username != first.username then some .username
  else if node.protocol != first.protocol then some .protocol
  else none

/-- A node as a cluster connects to it: with the shared user and password, and no database. -/
def clusterNode (password : String) (first node : Endpoint) : Endpoint :=
  { first.withPassword password with host := node.host, port := node.port, database := 0 }

variable {m : Type → Type} [Monad m]

/-- Sends the steps of a setup, all of them before the first reply is looked at, and checks the
answers. -/
def attempt (steps : List SetupStep) (link : Link m) : m (Except Wire.Failure Acceptance) := do
  let answers ← steps.mapM fun step => link.exchange step.command
  pure (answers.mapM id >>= fun replies => SetupStep.checkAll (steps.zip replies))

/-- Sends the setup, and once more without the user if the server knows no users; then the answer
does not matter unless it ends the setup. -/
def establish (e : Endpoint) (link : Link m) : m (Except Wire.Failure (Link m)) := do
  match ← attempt (setup e) link with
  | .error f => pure (.error f)
  | .ok .accepted => pure (.ok link)
  | .ok .withoutUser =>
    let again ← attempt (setup { e with username := none }) link
    pure (again.map fun _ => link)

def dialAndEstablish (net : Network m) (e : Endpoint) : m (Except Wire.Failure (Link m)) := do
  match ← net.dial e with
  | .error f => pure (.error f)
  | .ok link => establish e link

/-- The links to those endpoints that take the setup. -/
def reachable (net : Network m) (es : List Endpoint) : m (List (Link m)) := do
  let links ← es.mapM (dialAndEstablish net)
  pure (links.filterMap Except.toOption)

def noInitialConnections : Wire.Failure :=
  .described .inputOutput "Failed to create initial connections" none

def connectCluster (net : Network m) (password : String) (first : Endpoint)
    (nodes : List Endpoint) : m (Except Wire.Failure (Link m)) := do
  match nodes.findSome? (difference? password first) with
  | some x => pure (.error x.failure)
  | none =>
    match ← reachable net (nodes.map (clusterNode password first)) with
    | [] => pure (.error noInitialConnections)
    | link :: _ =>
      match ← link.exchange ⟨["CLUSTER", "SLOTS"]⟩ with
      | .error f => pure (.error f)
      | .ok r => pure ((Wire.Reply.result r).map fun _ => link)

def connectServer (net : Network m) (password address : String) :
    m (Except ConnectionFault (Link m)) := do
  match endpointOf address password with
  | .error f => pure (.error f)
  | .ok e =>
    net.log (.info ("connecting to " ++ address))
    let link ← dialAndEstablish net e
    pure (link.mapError .failed)

/-- Connects to the cluster that the addresses are nodes of. The nodes are taken as they are given;
the configured password goes to all of them. -/
def connectNodes (net : Network m) (password : String) (addresses : List String) :
    m (Except ConnectionFault (Link m)) := do
  match addresses.mapM (endpointOf · "") with
  | .error f => pure (.error f)
  | .ok [] => pure (.error .noEndpoints)
  | .ok (first :: rest) =>
    net.log (.info ("connecting to a cluster through " ++ Text.quoteAll addresses))
    let link ← connectCluster net password first (first :: rest)
    pure (link.mapError .failed)

/-- Connects to one address as a server, and to several as a cluster. -/
def connect (net : Network m) (c : ClientSettings) :
    m (Except ConnectionFault (Connection m)) := do
  match c.addresses with
  | [] => pure (.error .noEndpoints)
  | [address] => pure ((← connectServer net c.password address).map single)
  | addresses => pure ((← connectNodes net c.password addresses).map cluster)

def query (c : Connection m) (command : Command) :
    m (Except ConnectionFault Wire.Reply) := do
  match ← c.link.exchange command with
  | .error f => pure (.error (.failed f))
  | .ok r => pure ((Wire.Reply.result r).mapError .failed)

/-- Sends a command whose reply does not matter unless it is an error. -/
def execute (c : Connection m) (command : Command) : m (Except ConnectionFault Unit) := do
  let r ← c.query command
  pure (r.map fun _ => ())

end Connection

end SearchLoad
