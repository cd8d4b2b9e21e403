import SearchLoad.Connection.Basic
import SearchLoad.Live.Journal
import SearchLoad.Wire.Inbox
import Std.Async
import Std.Sync

namespace SearchLoad.Live

open Std.Async

abbrev Answer := Except Wire.Failure Wire.Reply

instance : Inhabited Answer := ⟨.error .brokenPipe⟩

/-- A command on its way, and what is done with its answer. -/
structure Call where
  bytes : ByteArray
  answer : Answer → BaseIO Unit
deriving Inhabited

/-- What is sent, and what was sent and has no reply yet. -/
structure Pipeline where
  socket : TCP.Socket.Client
  outgoing : Std.Channel Call
  awaiting : Std.Channel Call

namespace Pipeline

/-- Sends calls as they come. On a broken line nothing is sent, and the reader answers. -/
def sendAll (p : Pipeline) : Async Unit := do
  repeat
    let call ← await (← p.outgoing.recv)
    let _ ← p.awaiting.send call
    try p.socket.send call.bytes catch _ => pure ()

def refuseAll (p : Pipeline) : Async Unit := do
  repeat
    let call ← await (← p.awaiting.recv)
    call.answer (.error .brokenPipe)

def receive (p : Pipeline) : Async (Option ByteArray) := do
  try p.socket.recv? 65536 catch _ => pure none

def deliver (p : Pipeline) (answer : Answer) : Async Unit := do
  if let some call ← p.awaiting.tryRecv then call.answer answer

/-- Delivers replies as they come, as long as they can be read. -/
def receiveAll (p : Pipeline) : Async Unit := do
  let mut inbox : Wire.Inbox := .empty
  while !inbox.broken do
    let some bytes ← p.receive | break
    let (answers, rest) := inbox.receive bytes.toList
    answers.forM p.deliver
    inbox := rest
  p.refuseAll

def exchange (p : Pipeline) (c : Command) : Async Answer := do
  let answer : IO.Promise Answer ← IO.Promise.new
  let _ ← p.outgoing.send ⟨⟨c.packed.toArray⟩, (answer.resolve ·)⟩
  Async.ofPurePromise (pure answer)

def create (socket : TCP.Socket.Client) : Async Pipeline := do
  let p : Pipeline := ⟨socket, ← Std.Channel.new, ← Std.Channel.new⟩
  background p.sendAll
  background p.receiveAll
  return p

end Pipeline

def socketAddress (port : Nat) : Std.Net.IPAddr → Std.Net.SocketAddress
  | .v4 a => .v4 ⟨a, port.toUInt16⟩
  | .v6 a => .v6 ⟨a, port.toUInt16⟩

def lookupFailure : Wire.Failure :=
  .system "failed to lookup address information: Name or service not known"

def resolve (e : Endpoint) : Async (List Std.Net.IPAddr) := do
  try return (← DNS.getAddrInfo e.host (toString e.port)).toList catch _ => return []

/-- Connects to the first address that takes the connection; the last failure counts. -/
def connectAny (port : Nat) (failure : Wire.Failure) :
    List Std.Net.IPAddr → Async (Except Wire.Failure TCP.Socket.Client)
  | [] => return .error failure
  | address :: rest => do
    let attempt : Async (Except Wire.Failure TCP.Socket.Client) := do
      try
        let socket ← TCP.Socket.Client.mk
        socket.connect (socketAddress port address)
        return .ok socket
      catch error => return .error (.system (osErrorFrom error).message)
    match ← attempt with
    | .ok socket => return .ok socket
    | .error failure => connectAny port failure rest

def dial (e : Endpoint) : Async (Except Wire.Failure (Link Async)) := do
  match ← connectAny e.port lookupFailure (← resolve e) with
  | .error failure => return .error failure
  | .ok socket =>
    let p ← Pipeline.create socket
    return .ok ⟨p.exchange⟩

def network (j : Journal) : Network Async where
  dial := dial
  log e := j.write e

end SearchLoad.Live
