import StreamRelay.Command.Run

/-!
# Collecting messages

Datagrams are received one by one. Those that hold a message of a wanted stream are printed, up to
the wished number of them; others are passed over. Waiting in vain for too long is a failure.
-/

namespace StreamRelay.Command.Collect

open CommandLine (CollectOptions Format)

inductive Reception
  | datagram (raw : Bytes) (source : SocketAddress) (time : Nat)
  /-- Nothing came, and nothing has come for so many milliseconds. -/
  | silence (millis : Nat)
  | failed (cause : SystemError)

def wanted (o : CollectOptions) (raw : Bytes) : Option Envelope :=
  (Envelope.split? raw).filter fun m => o.streams.all (·.contains m.stream)

/-- Receive and print, `printed` messages having been printed before. What is received of a datagram
is at most the longest one that can be sent. When the receptions end, the command was stopped. -/
def receive (o : CollectOptions) (idle : Option Duration) (format : Format) :
    (printed : Nat) → List Reception → Except Failure Unit × Bytes
  | _, [] => (.ok (), [])
  | printed, .silence millis :: rest =>
    match idle with
    | some limit =>
      if limit.millis ≤ millis then
        (.error ⟨Exit.timeout, s!"no datagram received within {limit}"⟩, [])
      else receive o idle format printed rest
    | none => receive o idle format printed rest
  | _, .failed cause :: _ => (.error (Failure.ofTransport "receive failed" (.io cause)), [])
  | printed, .datagram raw source time :: rest =>
    match wanted o (raw.take Host.maxDatagram) with
    | none => receive o idle format printed rest
    | some message =>
      let line := (Output.Received.mk message source time).print format
      if o.count.any (· ≤ printed + 1) then (.ok (), line)
      else
        let (answer, output) := receive o idle format (printed + 1) rest
        (answer, line ++ output)

def listen (host : Host) (o : CollectOptions) :
    Except Failure (Option Duration × SocketAddress × Host) := do
  let idle ← o.idleTimeout.mapM duration
  let (address, host) ← (host.bind .datagram o.bind).mapError (Failure.ofTransport "bind failed")
  return (idle, address, host)

end StreamRelay.Command.Collect
