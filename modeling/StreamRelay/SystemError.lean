/-!
# System errors

What a read, write or socket call of the operating system fails with: the kind, on which decisions
are taken, and the text, which is only shown.
-/

namespace StreamRelay

inductive SystemError.Kind
  | interrupted
  | wouldBlock
  | timedOut
  | connectionReset
  | connectionAborted
  | brokenPipe
  | permissionDenied
  | notFound
  | connectionRefused
  | addressInUse
  | addressNotAvailable
  | networkUnreachable
  | unexpectedEof
  | invalidInput
  | invalidData
  | other
  deriving DecidableEq, Repr

structure SystemError where
  kind : SystemError.Kind
  text : String
  deriving DecidableEq, Repr

namespace SystemError

def numbered (kind : Kind) (text : String) (number : Nat) : SystemError :=
  ⟨kind, s!"{text} (os error {number})"⟩

def permissionDenied : SystemError := numbered .permissionDenied "Permission denied" 13
def fileNotFound : SystemError := numbered .notFound "No such file or directory" 2
def notDirectory : SystemError := numbered .other "Not a directory" 20
def isDirectory : SystemError := numbered .other "Is a directory" 21
def nameTooLong : SystemError := numbered .other "File name too long" 36
def addressInUse : SystemError := numbered .addressInUse "Address already in use" 98
def addressNotAvailable : SystemError :=
  numbered .addressNotAvailable "Cannot assign requested address" 99
def networkUnreachable : SystemError := numbered .networkUnreachable "Network is unreachable" 101
def messageTooLong : SystemError := numbered .other "Message too long" 90

def invalidPath : SystemError :=
  ⟨.invalidInput, "file name contained an unexpected NUL byte"⟩

def notUtf8 : SystemError := ⟨.invalidData, "stream did not contain valid UTF-8"⟩

/-- The call was cut short by a signal and may simply be made again. -/
def isInterrupted (e : SystemError) : Bool := e.kind == .interrupted

end SystemError

end StreamRelay
