import SearchLoad.Wire.Reader

namespace SearchLoad.Wire

/-- The bytes of a reply that is not whole yet, and how many of them are beyond doubt. The first
bytes that are no reply break an inbox. -/
structure Inbox where
  bytes : Bytes
  settled : Nat
  broken : Bool
deriving DecidableEq, Repr

namespace Inbox

def empty : Inbox := ⟨[], 0, false⟩

def lost : Inbox := ⟨[], 0, true⟩

/-- Takes off the replies that answer commands, so many at most. -/
def takeAnswers : Nat → Nat → Bytes → List (Except Failure Reply) × Inbox
  | 0, settled, s => ([], ⟨s, settled, false⟩)
  | steps + 1, settled, s =>
    match Reader.reply s with
    | .error (.incomplete rest) => ([], ⟨s, s.length - rest.length, false⟩)
    | .error (.malformed m) => ([.error (m.failure (s.length - settled))], lost)
    | .ok (r, rest) =>
      let (answers, inbox) := takeAnswers steps 0 rest
      (if r.isAnnouncement then answers else .ok r :: answers, inbox)

/-- Takes the bytes that arrive, and hands out the answers that are whole then. -/
def receive (arriving : Bytes) (inbox : Inbox) : List (Except Failure Reply) × Inbox :=
  let s := inbox.bytes ++ arriving
  if inbox.broken then ([], inbox) else takeAnswers (s.length + 1) inbox.settled s

end Inbox

end SearchLoad.Wire
