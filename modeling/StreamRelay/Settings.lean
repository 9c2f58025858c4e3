import StreamRelay.Bridge.Error
import StreamRelay.Frame
import StreamRelay.Json.Member
import StreamRelay.Region.Json

/-!
# Settings of a bridge

Every setting has a default, so a settings file names only what it changes. Valid settings leave
room for a payload in a frame whose length can be announced, move at least one buffer per pass, and
wait a positive time for bytes.
-/

namespace StreamRelay

def Trailing.fromJson : Json.Reader Trailing :=
  Json.choice [(Trailing.name .reject, .reject), (Trailing.name .carryOver, .carryOver)]

def SocketAddress.fromJson : Json.Reader SocketAddress :=
  Json.parsed fun s => SocketAddress.ofText? s.toList

/-- Times are in milliseconds, sizes in bytes. -/
structure Settings where
  listen : SocketAddress := .v4 (Ipv4.of 0 0 0 0) 20787
  collector : SocketAddress := .v4 (Ipv4.of 127 0 0 1) 20788
  region : Region.Config := {}
  maxFrame : Nat := Frame.defaultMaxFrame
  trailing : Trailing := .reject
  egressInterval : Nat := 1000
  egressBatch : Nat := 16
  readInterval : Nat := 200
  acceptInterval : Nat := 50
  deriving DecidableEq

namespace Settings

inductive Invalid
  | frameTooSmall (maxFrame : Nat)
  | frameTooLarge (maxFrame : Nat)
  | emptyBatch
  | noReadInterval
  deriving DecidableEq, Repr

def Invalid.message : Invalid → String
  | .frameTooSmall n => s!"max_frame_size must exceed the {Frame.headerSize}-byte header, got {n}"
  | .frameTooLarge n => s!"max_frame_size {n} exceeds what a 16-bit length can describe"
  | .emptyBatch => "egress_batch must be non-zero"
  | .noReadInterval => "read_poll_interval_ms must be non-zero"

def validate (s : Settings) : Except Invalid Unit :=
  if s.maxFrame ≤ Frame.headerSize then .error (.frameTooSmall s.maxFrame)
  else if Frame.headerSize + Frame.wireMaxPayload < s.maxFrame then
    .error (.frameTooLarge s.maxFrame)
  else if s.egressBatch = 0 then .error .emptyBatch
  else if s.readInterval = 0 then .error .noReadInterval
  else .ok ()

def frameConfig (s : Settings) : Frame.Config :=
  let limits : Frame.Config := { trailing := s.trailing, readTimeout := some s.readInterval }
  limits.withMaxFrame s.maxFrame

def fields : List (Json.Field Settings) :=
  [.of "listen_addr" SocketAddress.fromJson fun v s => { s with listen := v },
    .of "collector_addr" SocketAddress.fromJson fun v s => { s with collector := v },
    .of "io" Region.Config.fromJson fun v s => { s with region := v },
    .of "max_frame_size" Json.word fun v s => { s with maxFrame := v },
    .of "trailing_bytes" Trailing.fromJson fun v s => { s with trailing := v },
    .of "egress_poll_interval_ms" Json.word fun v s => { s with egressInterval := v },
    .of "egress_batch" Json.word fun v s => { s with egressBatch := v },
    .of "read_poll_interval_ms" Json.word fun v s => { s with readInterval := v },
    .of "accept_poll_interval_ms" Json.word fun v s => { s with acceptInterval := v }]

def fromJson : Json.Reader Settings := Json.record fields {}

def toJson (s : Settings) : Json.Value :=
  .object [("listen_addr", .string (toString s.listen)),
    ("collector_addr", .string (toString s.collector)),
    ("io", s.region.toJson),
    ("max_frame_size", .nat s.maxFrame),
    ("trailing_bytes", .string s.trailing.name),
    ("egress_poll_interval_ms", .nat s.egressInterval),
    ("egress_batch", .nat s.egressBatch),
    ("read_poll_interval_ms", .nat s.readInterval),
    ("accept_poll_interval_ms", .nat s.acceptInterval)]

def ofText (text : String) : Except Json.Fault Settings := Json.document fromJson text

/-- The settings that a value describes. As it is a value already, it can only have the wrong type
or hold a wrong value. -/
def ofValue (v : Json.Value) : Except Json.Fault Settings :=
  (ofText v.distinct.render).mapError fun _ => .mismatch

def check (s : Settings) : Except Bridge.Error Unit :=
  s.validate.mapError fun i => .config i.message

def ofFile (path : String) (content : Except SystemError Bytes) : Except Bridge.Error Settings := do
  let unreadable (cause : SystemError) : Bridge.Error :=
    .config s!"cannot read {path}: {cause.text}"
  let bytes ← content.mapError unreadable
  let text ← match bytes.text? with
    | some text => pure text
    | none => throw (unreadable .notUtf8)
  let settings ← (ofText text).mapError .json
  settings.check
  return settings

end Settings

end StreamRelay
