import StreamRelay.Bytes
import StreamRelay.SystemError

/-!
# Frames

A frame is a payload behind its length in two bytes, low byte first. Decoding looks at the front of
a buffer: the declared length is held against the limit before any byte of the payload, and bytes
behind a complete frame are a violation or the start of the next frame, as the policy says.
-/

namespace StreamRelay

inductive Trailing
  | reject
  | carryOver
  deriving DecidableEq, Repr, Inhabited

def Trailing.name : Trailing → String
  | .reject => "reject"
  | .carryOver => "carry-over"

structure Frame where
  payload : Bytes
  deriving DecidableEq

namespace Frame

def headerSize : Nat := 2

def wireMaxPayload : Nat := 65535

def defaultMaxFrame : Nat := 1024

def wireSize (f : Frame) : Nat := headerSize + f.payload.length

inductive Error
  | payloadTooLarge (size max : Nat)
  | trailingBytes (expected received : Nat)
  | io (cause : SystemError)
  | connectionClosed
  | truncated (buffered : Nat)
  deriving DecidableEq, Repr

namespace Error

def message : Error → String
  | .payloadTooLarge size max => s!"payload too large ({size} bytes, max {max})"
  | .trailingBytes expected received =>
    s!"unexpected number of bytes in buffer, expected: {expected}, got: {received}"
  | .io cause => s!"frame I/O error: {cause.text}"
  | .connectionClosed => "connection closed"
  | .truncated buffered => s!"connection closed (incomplete frame, {buffered} bytes buffered)"

def isTimeout : Error → Bool
  | .io cause => cause.kind == .wouldBlock || cause.kind == .timedOut
  | _ => false

def isDisconnect : Error → Bool
  | .connectionClosed | .truncated _ => true
  | .io cause =>
    cause.kind == .connectionReset || cause.kind == .connectionAborted || cause.kind == .brokenPipe
  | _ => false

def isProtocolViolation : Error → Bool
  | .payloadTooLarge .. | .trailingBytes .. => true
  | _ => false

end Error

/-- The limits under which frames are read and written; times are in milliseconds. -/
structure Config where
  maxPayload : Nat := defaultMaxFrame - headerSize
  trailing : Trailing := .reject
  readTimeout : Option Nat := none
  writeTimeout : Option Nat := none
  deriving DecidableEq, Repr

def Config.withMaxFrame (c : Config) (capacity : Nat) : Config :=
  { c with maxPayload := min (capacity - headerSize) wireMaxPayload }

def wire (payload : Bytes) : Bytes := Bytes.ofUInt16 payload.length ++ payload

def encode (payload : Bytes) : Except Error Bytes :=
  if wireMaxPayload < payload.length then .error (.payloadTooLarge payload.length wireMaxPayload)
  else .ok (wire payload)

def announced? : Bytes → Option Nat
  | lo :: hi :: _ => some (lo.toNat + 256 * hi.toNat)
  | _ => none

/-- The frame at the front of a buffer and what is behind it; nothing while it is incomplete. -/
def decode (maxPayload : Nat) (trailing : Trailing) (buffer : Bytes) :
    Except Error (Option (Frame × Bytes)) :=
  match announced? buffer with
  | none => .ok none
  | some length =>
    if maxPayload < length then .error (.payloadTooLarge length maxPayload)
    else
      let body := buffer.drop headerSize
      if body.length < length then .ok none
      else if length < body.length ∧ trailing = .reject then
        .error (.trailingBytes length body.length)
      else .ok (some (⟨body.take length⟩, body.drop length))

end Frame

end StreamRelay
