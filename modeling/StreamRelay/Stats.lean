/-!
# Counters of a bridge

What a bridge has seen and done so far.
-/

namespace StreamRelay

inductive Event
  | connectionAccepted
  | connectionClosed
  | protocolError
  | frameReceived
  | frameDispatched
  | droppedMalformed
  | droppedUnknownStream
  | droppedSubmitFailed
  | droppedLookupFailed
  | datagramSent
  | sendFailure
  | serializeFailure
  | bufferReleased
  deriving DecidableEq, Repr

structure Stats where
  connectionsAccepted : Nat := 0
  connectionsClosed : Nat := 0
  protocolErrors : Nat := 0
  framesReceived : Nat := 0
  framesDispatched : Nat := 0
  droppedMalformed : Nat := 0
  droppedUnknownStream : Nat := 0
  droppedSubmitFailed : Nat := 0
  droppedLookupFailed : Nat := 0
  datagramsSent : Nat := 0
  sendFailures : Nat := 0
  serializeFailures : Nat := 0
  buffersReleased : Nat := 0
  deriving DecidableEq, Repr, Inhabited

namespace Stats

def count (s : Stats) : Event → Stats
  | .connectionAccepted => { s with connectionsAccepted := s.connectionsAccepted + 1 }
  | .connectionClosed => { s with connectionsClosed := s.connectionsClosed + 1 }
  | .protocolError => { s with protocolErrors := s.protocolErrors + 1 }
  | .frameReceived => { s with framesReceived := s.framesReceived + 1 }
  | .frameDispatched => { s with framesDispatched := s.framesDispatched + 1 }
  | .droppedMalformed => { s with droppedMalformed := s.droppedMalformed + 1 }
  | .droppedUnknownStream => { s with droppedUnknownStream := s.droppedUnknownStream + 1 }
  | .droppedSubmitFailed => { s with droppedSubmitFailed := s.droppedSubmitFailed + 1 }
  | .droppedLookupFailed => { s with droppedLookupFailed := s.droppedLookupFailed + 1 }
  | .datagramSent => { s with datagramsSent := s.datagramsSent + 1 }
  | .sendFailure => { s with sendFailures := s.sendFailures + 1 }
  | .serializeFailure => { s with serializeFailures := s.serializeFailures + 1 }
  | .bufferReleased => { s with buffersReleased := s.buffersReleased + 1 }

def framesDropped (s : Stats) : Nat :=
  s.droppedMalformed + s.droppedUnknownStream + s.droppedSubmitFailed + s.droppedLookupFailed

def entries (s : Stats) : List (String × Nat) :=
  [("connections_accepted", s.connectionsAccepted), ("connections_closed", s.connectionsClosed),
    ("protocol_errors", s.protocolErrors), ("frames_received", s.framesReceived),
    ("frames_dispatched", s.framesDispatched), ("dropped_malformed", s.droppedMalformed),
    ("dropped_unknown_stream", s.droppedUnknownStream),
    ("dropped_submit_failed", s.droppedSubmitFailed),
    ("dropped_lookup_failed", s.droppedLookupFailed), ("datagrams_sent", s.datagramsSent),
    ("send_failures", s.sendFailures), ("serialize_failures", s.serializeFailures),
    ("buffers_released", s.buffersReleased)]

end Stats

end StreamRelay
