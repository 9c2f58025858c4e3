import StreamRelay.Command.Run
import StreamRelay.Frame.Writer
import StreamRelay.Json.Value

/-!
# Forwarding a message

One message is sent to a bridge as one frame. Its body is given as an option, checked if it is to be
JSON, or read from a file.
-/

namespace StreamRelay.Command.Forward

open CommandLine (ForwardOptions Format Payload)

def body (files : Files) : Payload → Except Failure Bytes
  | .nothing => .ok []
  | .json text =>
    match Json.Value.ofText text with
    | .ok _ => .ok (Bytes.ofText text)
    | .error fault => .error (.within "--json is not valid JSON" Exit.usage fault.message)
  | .data text => .ok (Bytes.ofText text)
  | .file path => (files path).mapError (Failure.ofSystem s!"failed reading {path}")

def sent (o : ForwardOptions) (size : Nat) : Format → Bytes
  | .json => Bytes.line (Json.Value.render (.object [("stream_id", o.stream.toJson),
      ("payload_size", .nat size), ("frame_size", .nat (size + Frame.headerSize)),
      ("addr", .string (toString o.address))]))
  | .table | .pretty =>
    let frame := size + Frame.headerSize
    Bytes.line s!"sent {frame} bytes to stream {o.stream} at {o.address}"
  | .raw => []

/-- Send a message over a connection, `peer` being what takes its bytes. Gives what is printed, and
the bytes that went out if the connection came about. -/
def run (files : Files) (host : Host) (peer : Frame.Sink) (o : ForwardOptions)
    (format : Format) : Except Failure Bytes × Option Bytes :=
  match do
    let _ ← duration o.timeout
    let body ← body files o.payload
    let _ ← (host.connect [o.address]).mapError (Failure.ofTransport "connect failed")
    return (Envelope.mk o.stream body).encode with
  | .error e => (.error e, none)
  | .ok message =>
    let config := Frame.Config.withMaxFrame {} o.maxFrame
    let writer : Frame.Writer := { stream := peer, maxPayload := config.maxPayload }
    match writer.send message with
    | (.error e, writer) => (.error (Failure.ofFrame "send failed" e), some writer.stream.taken)
    | (.ok (), writer) => (.ok (sent o message.length format), some writer.stream.taken)

end StreamRelay.Command.Forward
