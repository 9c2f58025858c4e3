import StreamRelay.Net.Host
import StreamRelay.Stats
import StreamRelay.Subsystem

/-!
# Egress

Passes over the output channels: each takes a batch of buffers from every channel, sends each buffer
as one datagram, and releases it whether or not that went well. After the request to stop, a bounded
number of passes empties what is left.
-/

namespace StreamRelay

/-- Where datagrams go: what the coming sends give, what the sends behind them give for a datagram
of some length, and the datagrams taken so far. -/
structure DatagramSink where
  description : String
  coming : List (Option TransportError) := []
  beyond : Nat → Option TransportError := fun _ => none
  sent : List Bytes := []

namespace DatagramSink

def toAddress (host : Host) (target : SocketAddress) : DatagramSink where
  description := s!"udp://{target}"
  beyond := host.sendFault target

def send (d : DatagramSink) (datagram : Bytes) : Except TransportError Nat × DatagramSink :=
  let (outcome, rest) := match d.coming with
    | [] => (d.beyond datagram.length, [])
    | o :: rest => (o, rest)
  match outcome with
  | some e => (.error e, { d with coming := rest })
  | none => (.ok datagram.length, { d with coming := rest, sent := d.sent ++ [datagram] })

end DatagramSink

structure Egress where
  sink : DatagramSink
  scratch : Bytes
  batch : Nat
  backlog : Bool := false

namespace Egress

def maxFinalPasses : Nat := 64

def of (sink : DatagramSink) (scratchSize batch : Nat) : Egress where
  sink := sink
  scratch := List.replicate scratchSize 0
  batch := batch

variable {σ : Type} [Subsystem σ]

def forward (t : Thread) (b : Buffer) (s : σ) (e : Egress) (stats : Stats) : σ × Egress × Stats :=
  match Subsystem.serialize s t b e.scratch with
  | (.error _, scratch, s) => (s, { e with scratch }, stats.count .serializeFailure)
  | (.ok 0, scratch, s) => (s, { e with scratch }, stats.count .serializeFailure)
  | (.ok (n + 1), scratch, s) =>
    match e.sink.send (scratch.take (n + 1)) with
    | (.ok _, sink) => (s, { e with scratch, sink }, stats.count .datagramSent)
    | (.error _, sink) => (s, { e with scratch, sink }, stats.count .sendFailure)

def forwardAll (t : Thread) : List Buffer → σ × Egress × Stats → σ × Egress × Stats
  | [], state => state
  | b :: rest, (s, e, stats) =>
    let (s, e, stats) := forward t b s e stats
    forwardAll t rest (Subsystem.release s, e, stats.count .bufferReleased)

/-- One pass over all output channels. Gives the number of buffers. -/
def drainOnce (t : Thread) (s : σ) (e : Egress) (stats : Stats) :
    Except Region.Error Nat × σ × Egress × Stats :=
  Subsystem.poll s t e.batch
    (fun _ batch (s, e, stats) =>
      forwardAll t batch (s, { e with backlog := e.backlog || e.batch ≤ batch.length }, stats))
    ({ e with backlog := false }, stats)

/-- A pass of the loop; after a failed one there is no backlog. -/
def pass (t : Thread) (s : σ) (e : Egress) (stats : Stats) : σ × Egress × Stats :=
  match drainOnce t s e stats with
  | (.ok _, s, e, stats) => (s, e, stats)
  | (.error _, s, e, stats) => (s, { e with backlog := false }, stats)

def finalPasses (t : Thread) : (bound : Nat) → σ → Egress → Stats → σ × Egress × Stats
  | 0, s, e, stats => (s, e, stats)
  | bound + 1, s, e, stats =>
    match drainOnce t s e stats with
    | (.ok (_ + 1), s, e, stats) => finalPasses t bound s e stats
    | (_, s, e, stats) => (s, e, stats)

def passes (t : Thread) : (bound : Nat) → σ → Egress → Stats → σ × Egress × Stats
  | 0, s, e, stats => (s, e, stats)
  | bound + 1, s, e, stats =>
    let (s, e, stats) := pass t s e stats
    if e.backlog then passes t bound s e stats else (s, e, stats)

/-- The loop of the egress thread when the stop was requested before: one pass sees the request, the
final passes follow, and the thread unregisters. -/
def run (t : Thread) (s : σ) (e : Egress) (stats : Stats) : σ × Egress × Stats :=
  match Subsystem.register s t with
  | (.error _, s) => (s, e, stats)
  | (.ok (), s) =>
    let (s, e, stats) := pass t s e stats
    let (s, e, stats) := finalPasses t maxFinalPasses s e stats
    (Subsystem.unregister s t, e, stats)

end Egress

end StreamRelay
