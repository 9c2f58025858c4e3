import StreamRelay.Net.Address
import StreamRelay.SystemError

/-!
# The network of a host

What socket calls of a program give on a host: which addresses it may bind, and whether anything can
be reached from it. A host without a route still lets a program listen; nobody ever arrives.
-/

namespace StreamRelay

inductive TransportError
  | bind (address : SocketAddress) (cause : SystemError)
  | connect (address : SocketAddress) (cause : SystemError)
  | accept (cause : SystemError)
  | send (address : SocketAddress) (cause : SystemError)
  | shortSend (address : SocketAddress) (sent length : Nat)
  | io (cause : SystemError)
  deriving DecidableEq

def TransportError.message : TransportError → String
  | .bind address cause => s!"failed to bind to {address}: {cause.text}"
  | .connect address cause => s!"failed to connect to {address}: {cause.text}"
  | .accept cause => s!"failed to accept connection: {cause.text}"
  | .send address cause => s!"failed to send datagram to {address}: {cause.text}"
  | .shortSend address sent length =>
    s!"short datagram write to {address} ({sent} of {length} bytes)"
  | .io cause => s!"transport I/O error: {cause.text}"

/-- Streams and datagrams have separate ports. -/
inductive Service
  | stream
  | datagram
  deriving DecidableEq

structure Host where
  /-- Whether the host has a route to any address, its own included. -/
  routed : Bool
  bound : List (Service × SocketAddress) := []

namespace Host

def isolated : Host := { routed := false }

def isPrivileged (port : UInt16) : Bool := 0 < port && port < 1024

/-- The host has this address, or none that forbids to use it. -/
def hasAddress : SocketAddress → Bool
  | .v4 .. => true
  | .v6 ip .. => ip = Ipv6.unspecified || ip.mapped?.isSome

def firstFreePort : Nat := 32768

def withPort (port : UInt16) : SocketAddress → SocketAddress
  | .v4 ip _ => .v4 ip port
  | .v6 ip scope _ => .v6 ip scope port

def choosePort (h : Host) (address : SocketAddress) : SocketAddress :=
  if address.port = 0 then withPort (UInt16.ofNat (firstFreePort + h.bound.length)) address
  else address

def bind (h : Host) (service : Service) (address : SocketAddress) :
    Except TransportError (SocketAddress × Host) :=
  let chosen := h.choosePort address
  if isPrivileged address.port then .error (.bind address .permissionDenied)
  else if !hasAddress address then .error (.bind address .addressNotAvailable)
  else if (service, chosen) ∈ h.bound then .error (.bind address .addressInUse)
  else .ok (chosen, { h with bound := (service, chosen) :: h.bound })

def connectFault (h : Host) (address : SocketAddress) : Option SystemError :=
  if !h.routed then some .networkUnreachable
  else if (.stream, address) ∈ h.bound then none
  else some (SystemError.numbered .connectionRefused "Connection refused" 111)

/-- Connect to the first candidate that answers; with none that does, the last failure counts. -/
def connect (h : Host) : List SocketAddress → Except TransportError SocketAddress
  | [] => .error (.io ⟨.invalidInput, "address resolved to no candidates"⟩)
  | [a] => match h.connectFault a with
    | none => .ok a
    | some cause => .error (.connect a cause)
  | a :: rest => match h.connectFault a with
    | none => .ok a
    | some _ => h.connect rest

def openCollector (h : Host) (target : SocketAddress) : Except TransportError Host :=
  (h.bind .datagram target.anyLocal).map (·.2)

def maxDatagram : Nat := 65507

def sendFault (h : Host) (target : SocketAddress) (length : Nat) : Option TransportError :=
  if maxDatagram < length then some (.send target .messageTooLong)
  else if !h.routed then some (.send target .networkUnreachable)
  else none

end Host

end StreamRelay
