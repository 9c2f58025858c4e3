import StreamRelay.Envelope
import StreamRelay.StreamId.Spelling
import StreamRelay.Text.Quoted

/-!
# The parts of a region

Channels, rings, the ledger of buffer accounting, and the errors that operations on a region give. A
ring is bounded and keeps its buffers in the order in which they were parked; parking relabels a
buffer with the stream of the ring.
-/

namespace StreamRelay

/-- A thread. The name is what is shown of it; the number tells threads of one name apart. -/
structure Thread where
  name : String
  number : Nat := 0
  deriving DecidableEq, Repr, Inhabited

abbrev Buffer := Envelope

inductive Direction
  | input
  | output
  deriving DecidableEq, Repr, Inhabited

def Direction.name : Direction → String
  | .input => "input"
  | .output => "output"

structure Channel where
  stream : StreamId
  direction : Direction
  deriving DecidableEq

def Channel.before (a b : Channel) : Bool :=
  if a.stream = b.stream then a.direction = .input && b.direction = .output
  else a.stream.le b.stream

structure Ring where
  channel : Channel
  capacity : Nat
  parked : List Buffer
  deriving DecidableEq

def Ring.push? (ring : Ring) (b : Buffer) : Option Ring :=
  if ring.capacity ≤ ring.parked.length then none
  else some { ring with parked := ring.parked ++ [⟨ring.channel.stream, b.body⟩] }

namespace Region

/-- The sizes of a region; `size` and `slotSize` are in bytes. -/
structure Config where
  name : String := "example_ipc_app"
  size : Nat := 64 * 1024 * 1024
  slotSize : Nat := 1024
  ringCapacity : Nat := 256
  deriving DecidableEq, Repr

def Config.totalSlots (c : Config) : Nat := c.size / c.slotSize

inductive Error
  | threadNotRegistered (name : String)
  | channelNotFound (channel : Channel)
  | channelExists (channel : Channel)
  | ringFull (stream : StreamId) (capacity : Nat)
  | exhausted (requested available : Nat)
  | malformed (what : String)
  | bufferOverflow (size capacity : Nat)
  | scratchTooSmall (needed capacity : Nat)
  | invalidStreamId (input reason : String)
  | invalidConfig (what : String)
  deriving DecidableEq

def Error.message : Error → String
  | .threadNotRegistered name => s!"thread {name} is not registered with the io subsystem"
  | .channelNotFound c => s!"no {c.direction.name} channel for stream {c.stream}"
  | .channelExists c => s!"{c.direction.name} channel for stream {c.stream} already exists"
  | .ringFull stream capacity => s!"ring for stream {stream} is full ({capacity} slots)"
  | .exhausted requested available =>
    s!"region exhausted (requested {requested} slots, {available} available)"
  | .malformed what => s!"malformed message: {what}"
  | .bufferOverflow size capacity =>
    s!"message body of {size} bytes exceeds slot capacity of {capacity}"
  | .scratchTooSmall needed capacity =>
    s!"serialized message needs {needed} bytes, scratch holds {capacity}"
  | .invalidStreamId input reason => s!"invalid stream id {Text.quoted input}: {reason}"
  | .invalidConfig what => s!"invalid io configuration: {what}"

inductive Entry
  | acquired
  | submitted
  | published
  | handedOut
  | consumed
  | released
  | leaked
  deriving DecidableEq, Repr

structure Ledger where
  acquired : Nat := 0
  submitted : Nat := 0
  published : Nat := 0
  handedOut : Nat := 0
  consumed : Nat := 0
  released : Nat := 0
  leaked : Nat := 0
  deriving DecidableEq, Repr, Inhabited

namespace Ledger

def record (l : Ledger) (e : Entry) (n : Nat := 1) : Ledger :=
  match e with
  | .acquired => { l with acquired := l.acquired + n }
  | .submitted => { l with submitted := l.submitted + n }
  | .published => { l with published := l.published + n }
  | .handedOut => { l with handedOut := l.handedOut + n }
  | .consumed => { l with consumed := l.consumed + n }
  | .released => { l with released := l.released + n }
  | .leaked => { l with leaked := l.leaked + n }

/-- The buffers that were given to a caller and not yet returned in some way. -/
def outstanding (l : Ledger) : Nat :=
  (l.acquired + l.handedOut) - (l.submitted + l.released + l.leaked)

def entries (l : Ledger) : List (String × Nat) :=
  [("acquired", l.acquired), ("submitted", l.submitted), ("published", l.published),
    ("handed_out", l.handedOut), ("consumed", l.consumed), ("released", l.released),
    ("leaked", l.leaked)]

end Ledger

end Region

def StreamId.parse (s : String) : Except Region.Error StreamId :=
  (ofText s).mapError fun m => .invalidStreamId s m.message

end StreamRelay
