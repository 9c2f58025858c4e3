import StreamRelay.CommandLine.Invocation
import StreamRelay.Region.Json
import StreamRelay.Stats
import StreamRelay.Table

/-!
# Output

What the program prints: a collected message, the announcement of a started bridge, and its counters
at the end, in each format. The JSON format writes one object a line.
-/

namespace StreamRelay

open CommandLine (Format)
open Json (Value)

def Bytes.line (s : String) : Bytes := Bytes.ofText (s ++ "\n")

namespace Output

def preview (body : Bytes) : String := body.text?.getD s!"<binary {body.length} bytes>"

/-- A message and where it came from; `time` is in seconds. -/
structure Received where
  message : Envelope
  source : SocketAddress
  time : Nat

def Received.toJson (r : Received) : Value :=
  .object [("stream_id", r.message.stream.toJson), ("size", .nat r.message.body.length),
    ("payload", .string (preview r.message.body)), ("from", .string (toString r.source)),
    ("timestamp", .string (toString r.time))]

def Received.toTable (r : Received) : Table where
  header := ["STREAM", "SIZE", "FROM", "PAYLOAD"]
  rows := [[toString r.message.stream, toString r.message.body.length, toString r.source,
    preview r.message.body]]

def Received.print (r : Received) : Format → Bytes
  | .json => Bytes.line r.toJson.render
  | .table => Bytes.line r.toTable.render
  | .pretty =>
    let size := r.message.body.length
    let payload := preview r.message.body
    Bytes.line s!"stream={r.message.stream} size={size} from={r.source} payload={payload}"
  | .raw => r.message.body

structure Started where
  listen : SocketAddress
  collector : String
  region : String
  channels : List Region.ChannelInfo

def Started.toJson (s : Started) : Value :=
  .object [("event", .string "started"), ("listen", .string (toString s.listen)),
    ("collector", .string s.collector), ("region", .string s.region),
    ("channels", .list (s.channels.map fun c => c.toJson))]

def Started.toTable (s : Started) : Table where
  header := ["STREAM", "DIRECTION", "CAPACITY", "LINKED TO"]
  rows := s.channels.map fun c =>
    [toString c.stream, c.direction.name, toString c.capacity,
      match c.linkedTo with
      | some id => toString id
      | none => "-"]

def Started.lines (s : Started) : Bytes :=
  Bytes.line s!"listen={s.listen} collector={s.collector} region={s.region}"
    ++ s.channels.flatMap fun c =>
      Bytes.line s!"  {c.direction.name} {c.stream} capacity={c.capacity}"

def Started.print (s : Started) : Format → Bytes
  | .json => Bytes.line s.toJson.render
  | .table =>
    Bytes.line s!"listening on {s.listen}, sending to {s.collector}, region {s.region}"
      ++ Bytes.line s.toTable.render
  | .pretty | .raw => s.lines

structure Stopped where
  stats : Stats
  ledger : Region.Ledger

def Stopped.toJson (s : Stopped) : Value :=
  .object [("event", .string "stopped"), ("bridge", .counters s.stats.entries),
    ("buffers", s.ledger.toJson)]

def Stopped.counters (s : Stopped) : List (String × Nat) :=
  [("connections_accepted", s.stats.connectionsAccepted),
    ("protocol_errors", s.stats.protocolErrors),
    ("frames_received", s.stats.framesReceived),
    ("frames_dispatched", s.stats.framesDispatched),
    ("frames_dropped", s.stats.framesDropped),
    ("datagrams_sent", s.stats.datagramsSent),
    ("send_failures", s.stats.sendFailures),
    ("buffers_released", s.stats.buffersReleased),
    ("buffers_outstanding", s.ledger.outstanding),
    ("buffers_leaked", s.ledger.leaked)]

def Stopped.toTable (s : Stopped) : Table where
  header := ["COUNTER", "VALUE"]
  rows := s.counters.map fun (name, n) => [name, toString n]

def Stopped.print (s : Stopped) : Format → Bytes
  | .json => Bytes.line s.toJson.render
  | .table => Bytes.line s.toTable.render
  | .pretty | .raw => s.counters.flatMap fun (name, n) => Bytes.line s!"{name}={n}"

end Output

end StreamRelay
