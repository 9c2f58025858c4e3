import StreamRelay.Json.Lexeme
import StreamRelay.Net.Host

/-!
# Errors of a bridge

What keeps a bridge from starting, or from stopping in good order.
-/

namespace StreamRelay

namespace Json

def Fault.message : Fault → String
  | .ended => "the text ends inside a value"
  | .malformed => "the text is not JSON"
  | .mismatch => "a value has the wrong type or is out of range"

end Json

namespace Bridge

inductive Error
  | transport (cause : TransportError)
  | config (what : String)
  | json (cause : Json.Fault)
  | spawn (thread : String) (cause : SystemError)
  | threadPanicked (thread : String)
  deriving DecidableEq

def Error.message : Error → String
  | .transport cause => s!"transport error: {cause.message}"
  | .config what => s!"invalid configuration: {what}"
  | .json cause => s!"json error: {cause.message}"
  | .spawn thread cause => s!"failed to spawn {thread} thread: {cause.text}"
  | .threadPanicked thread => s!"{thread} thread panicked"

end Bridge

end StreamRelay
