import StreamRelay.StreamId

/-!
# Envelopes

A message is a stream id followed by its body. Frames and datagrams both carry messages.
-/

namespace StreamRelay

structure Envelope where
  stream : StreamId
  body : Bytes
  deriving DecidableEq

namespace Envelope

def encode (e : Envelope) : Bytes := e.stream.bytes ++ e.body

def split? (raw : Bytes) : Option Envelope :=
  (StreamId.ofPrefix? raw).map fun id => ⟨id, raw.drop 16⟩

end Envelope

end StreamRelay
