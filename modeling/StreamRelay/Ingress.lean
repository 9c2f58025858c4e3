import StreamRelay.Frame.Reader
import StreamRelay.Stats
import StreamRelay.Subsystem

/-!
# Ingress

The payload of a frame is a message for the input channel of its stream. Whatever keeps it from
getting there is counted and the message dropped, so the connection it came on goes on. A connection
is read until the peer leaves, breaks the frame format, or the stream fails.
-/

namespace StreamRelay

namespace Router

inductive Route
  | found (channel : Channel)
  | notFound
  deriving DecidableEq

variable {σ : Type} [Subsystem σ]

/-- The input channel of a stream. That there is none is an answer and no error. -/
def route (s : σ) (t : Thread) (stream : StreamId) : Except Region.Error Route × σ :=
  match Subsystem.findChannel s t ⟨stream, .input⟩ with
  | (.ok c, s) => (.ok (.found c), s)
  | (.error (.channelNotFound _), s) => (.ok .notFound, s)
  | (.error e, s) => (.error e, s)

end Router

namespace Ingress

inductive Outcome
  | dispatched (stream : StreamId)
  | malformed
  | unknownStream (stream : StreamId)
  | rejected (stream : StreamId)
  deriving DecidableEq

variable {σ : Type} [Subsystem σ]

def handleFrame (s : σ) (stats : Stats) (t : Thread) (payload : Bytes) : Outcome × σ × Stats :=
  match Subsystem.deserialize s t payload with
  | (.error _, s) => (.malformed, s, stats.count .droppedMalformed)
  | (.ok b, s) =>
    let stream := b.stream
    match Router.route s t stream with
    | (.error _, s) =>
      (.rejected stream, Subsystem.release s, stats.count .droppedLookupFailed)
    | (.ok .notFound, s) =>
      (.unknownStream stream, Subsystem.release s, stats.count .droppedUnknownStream)
    | (.ok (.found c), s) =>
      match Subsystem.submit s t c b with
      | (.ok (), s) => (.dispatched stream, s, stats.count .frameDispatched)
      | (.error _, s) => (.rejected stream, s, stats.count .droppedSubmitFailed)

structure Connection where
  thread : Thread
  reader : Frame.Reader
  source : Frame.Source

namespace Connection

/-- One poll of the reader, and what follows from it. Tells whether the connection stays open. -/
def turn (c : Connection) (s : σ) (stats : Stats) : Bool × Connection × σ × Stats :=
  let (answer, reader, source) := c.reader.poll c.source
  let c := { c with reader, source }
  match answer with
  | .ok none => (true, c, s, stats)
  | .ok (some frame) =>
    let (_, s, stats) := handleFrame s (stats.count .frameReceived) c.thread frame.payload
    (true, c, s, stats)
  | .error e =>
    if e.isTimeout then (true, c, s, stats)
    else if e.isProtocolViolation then (false, c, s, stats.count .protocolError)
    else (false, c, s, stats)

def isIdle (c : Connection) : Bool :=
  c.source.coming.isEmpty &&
    match c.reader.decodeBuffered.1 with
    | .ok none => true
    | _ => false

/-- More turns than arrivals and buffered frames can need. -/
def maxTurns (c : Connection) : Nat :=
  c.source.coming.foldl (fun n o => n + match o with
    | .bytes b => b.length + 1
    | .failed _ => 1) (c.reader.buffer.length + 1)

def turns (wait : Bool) : (bound : Nat) → Connection → σ → Stats → Bool × Connection × σ × Stats
  | 0, c, s, stats => (true, c, s, stats)
  | bound + 1, c, s, stats =>
    if wait && c.isIdle then (true, c, s, stats)
    else match c.turn s stats with
      | (true, c, s, stats) => turns wait bound c s stats
      | (false, c, s, stats) => (false, c, s, stats)

def accept (c : Connection) (s : σ) (stats : Stats) : Bool × σ × Stats :=
  match Subsystem.register s c.thread with
  | (.error _, s) => (false, s, (stats.count .connectionAccepted).count .connectionClosed)
  | (.ok (), s) => (true, s, stats.count .connectionAccepted)

def close (c : Connection) (s : σ) (stats : Stats) : σ × Stats :=
  (Subsystem.unregister s c.thread, stats.count .connectionClosed)

/-- Serve a connection. With `wait` it stays open when nothing more arrives, and what remains of it
is returned; otherwise the stream then ends. -/
def serve (c : Connection) (wait : Bool) (s : σ) (stats : Stats) :
    Option Connection × σ × Stats :=
  match c.accept s stats with
  | (false, s, stats) => (none, s, stats)
  | (true, s, stats) =>
    match turns wait (c.maxTurns + 1) c s stats with
    | (true, c, s, stats) => (some c, s, stats)
    | (false, c, s, stats) =>
      let (s, stats) := c.close s stats
      (none, s, stats)

end Connection

end Ingress

end StreamRelay
