import StreamRelay.Egress
import StreamRelay.Ingress
import StreamRelay.Settings
import StreamRelay.Signal
import StreamRelay.Workers

/-!
# The bridge

A running bridge listens for connections, serves each on a thread of its own, and moves what the
region puts out to a datagram sink. It stops in two stages: first no connection is left, so that
nothing more comes in, and then the egress side empties the output channels.
-/

namespace StreamRelay

structure Bridge.Worker where
  number : Nat
  connection : Option Ingress.Connection

structure Bridge (σ : Type) where
  settings : Settings
  listen : SocketAddress
  system : σ
  stats : Stats := {}
  egress : Egress
  /-- Whether the egress thread runs, which it does only if it could register. -/
  draining : Bool
  accepted : Nat := 0
  /-- The threads of connections that are not joined yet. -/
  workers : List Bridge.Worker := []
  /-- The numbers of the connections whose threads are joined, in this order. -/
  joined : List Nat := []
  ingressStop : Signal := {}
  egressStop : Signal := {}

namespace Bridge

def egressThread : Thread := { name := "egress" }

def connectionThread (n : Nat) : Thread := { name := s!"connection-{n}" }

variable {σ : Type} [Subsystem σ]

def pass (b : Bridge σ) : Bridge σ :=
  if b.draining then
    let (system, egress, stats) := Egress.pass egressThread b.system b.egress b.stats
    { b with system, egress, stats }
  else b

/-- Passes of the egress thread until one leaves no backlog, at most `bound`; it sleeps then. -/
def drain (b : Bridge σ) (bound : Nat) : Bridge σ :=
  if b.draining then
    let (system, egress, stats) := Egress.passes egressThread bound b.system b.egress b.stats
    { b with system, egress, stats }
  else b

/-- Start a bridge: the settings are checked before the address is bound. The egress thread makes
its first pass. -/
def start (host : Host) (settings : Settings) (sink : DatagramSink) (system : σ) :
    Except Error (Bridge σ × Host) := do
  settings.check
  let (listen, host) ← (host.bind .stream settings.listen).mapError .transport
  let (answer, system) := Subsystem.register system egressThread
  let b : Bridge σ := {
    settings, listen, system
    egress := Egress.of sink settings.maxFrame settings.egressBatch
    draining := answer.isOk }
  return (b.pass, host)

def Worker.isFinished (w : Worker) : Bool := w.connection.isNone

def sweep (b : Bridge σ) : Bridge σ :=
  let (workers, joined) := Workers.sweep Worker.isFinished b.workers
  { b with workers, joined := b.joined ++ joined.map (·.number) }

/-- Serve a connection on which `chunks` arrive, each in one piece. Unless it is held, the peer then
ends its side and the connection is closed. -/
def serve (b : Bridge σ) (chunks : List Bytes) (held : Bool) : Bridge σ :=
  let number := b.accepted + 1
  let arrivals := chunks.filter (!·.isEmpty) |>.map Frame.ReadOutcome.bytes
  let connection : Ingress.Connection := {
    thread := connectionThread number
    reader := { config := b.settings.frameConfig }
    source := Frame.Source.ofArrivals arrivals }
  let (connection, system, stats) := connection.serve held b.system b.stats
  let workers := b.workers ++ [{ number, connection : Worker }]
  { b with system, stats, accepted := number, workers }.sweep

def closeAll (b : Bridge σ) : Bridge σ :=
  let (system, stats) := (b.workers.filterMap (·.connection)).foldl
    (fun s connection => connection.close s.1 s.2) (b.system, b.stats)
  { b with system, stats, workers := [], joined := b.joined ++ b.workers.map (·.number) }

def finish (b : Bridge σ) : Bridge σ :=
  if b.draining then
    let (system, egress, stats) :=
      Egress.finalPasses egressThread Egress.maxFinalPasses b.system b.egress b.stats
    { b with system := Subsystem.unregister system egressThread, egress, stats, draining := false }
  else b

def stop (b : Bridge σ) : Bridge σ :=
  let b := { b with ingressStop := b.ingressStop.trigger }.closeAll
  { b with egressStop := b.egressStop.trigger }.finish

end Bridge

end StreamRelay
