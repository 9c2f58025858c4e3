/-!
# Stop signals

A signal is a request to stop that several threads share. It is made at most once and never taken
back, and it wakes whoever waits for it.
-/

namespace StreamRelay

structure Signal where
  requested : Bool := false
  deriving DecidableEq, Inhabited

namespace Signal

def trigger (_ : Signal) : Signal := ⟨true⟩

/-- What happens while someone waits: the request comes, or the time is up before. -/
inductive Meanwhile
  | triggered
  | nothing
  deriving DecidableEq

def wait (s : Signal) : Meanwhile → Bool × Signal
  | .triggered => (true, s.trigger)
  | .nothing => (s.requested, s)

end Signal

end StreamRelay
