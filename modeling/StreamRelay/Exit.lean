import StreamRelay.Bridge.Error
import StreamRelay.Duration
import StreamRelay.Frame
import StreamRelay.Region.Basic

/-!
# Exit codes

How the program ends: a code and, when it failed, a text that names what was being done. The code
depends on the kind of the error alone.
-/

namespace StreamRelay

structure Failure where
  code : Nat
  message : String
  deriving DecidableEq, Repr

namespace Exit

def success : Nat := 0
def failure : Nat := 1
def transportError : Nat := 3
def configInvalid : Nat := 40
def permissionDenied : Nat := 50
def dataInvalid : Nat := 60
def usage : Nat := 64
def timeout : Nat := 124
def internal : Nat := 125

def panicked : Nat := 101

end Exit

namespace Failure

def within (context : String) (code : Nat) (what : String) : Failure :=
  ⟨code, s!"{context}: {what}"⟩

/-- More memory was to be set aside than can be asked for. -/
def panicked : Failure := ⟨Exit.panicked, "capacity overflow"⟩

def ofDuration (f : Duration.Fault) : Failure := ⟨Exit.usage, f.message⟩

def ofSystem (context : String) (e : SystemError) : Failure :=
  let code := match e.kind with
    | .permissionDenied => Exit.permissionDenied
    | .timedOut | .wouldBlock => Exit.timeout
    | .connectionRefused | .addressInUse => Exit.failure
    | _ => Exit.internal
  within context code e.text

def ofTransport (context : String) (e : TransportError) : Failure :=
  match e with
  | .bind _ cause | .connect _ cause | .accept cause | .io cause => ofSystem context cause
  | .send .. | .shortSend .. => within context Exit.transportError e.message

def ofFrame (context : String) (e : Frame.Error) : Failure :=
  match e with
  | .io cause => ofSystem context cause
  | .payloadTooLarge .. | .trailingBytes .. => within context Exit.dataInvalid e.message
  | .connectionClosed | .truncated _ => within context Exit.failure e.message

def ofRegion (context : String) (e : Region.Error) : Failure :=
  let code := match e with
    | .invalidConfig _ | .exhausted .. => Exit.configInvalid
    | .invalidStreamId .. | .channelExists _ => Exit.usage
    | .malformed _ | .bufferOverflow .. => Exit.dataInvalid
    | _ => Exit.internal
  within context code e.message

def ofBridge (context : String) (e : Bridge.Error) : Failure :=
  match e with
  | .transport cause => ofTransport context cause
  | .config _ | .json _ => within context Exit.configInvalid e.message
  | .spawn .. | .threadPanicked _ => within context Exit.internal e.message

end Failure

end StreamRelay
