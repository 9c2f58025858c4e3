import StreamRelay.Egress
import StreamRelay.Ingress

/-!
# A bench

One region with a router, an egress side and counters, operated step by step. The operator holds
channels and buffers under names; storing under a name in use lets go of what it named, and a buffer
that is let go is leaked. Every step is taken on behalf of a thread.
-/

namespace StreamRelay

structure Bench where
  system : Hindered
  stats : Stats := {}
  egress : Egress
  /-- Whether the egress side is there; a run uses it up. -/
  hasEgress : Bool := true
  /-- How many of the sent datagrams were shown. -/
  shown : Nat := 0
  channels : List (String × Channel) := []
  buffers : List (String × Buffer) := []

namespace Bench

inductive FaultKind
  | register
  | lookup
  | poll
  | serialize
  deriving DecidableEq

inductive Fate
  | release
  | drop
  | keep
  deriving DecidableEq

inductive Step
  | register
  | unregister
  | guarded (steps : List Step)
  | fault (kind : FaultKind) (times : Nat)
  | create (channel : Channel) (capacity : Option Nat)
  | link (source target : StreamId)
  | publish (stream : StreamId) (body : Bytes)
  | take (stream : StreamId)
  | channels
  | config
  | find (channel : Channel) (name : String)
  | route (stream : StreamId) (name : String)
  | deserialize (raw : Bytes) (name : String)
  | submit (channel buffer : String)
  | serialize (buffer : String) (area : Bytes)
  | release (buffer : String)
  | drop (buffer : String)
  | poll (max : Nat) (fate : Fate) (name : String)
  | frame (payload : Bytes)
  | egress (scratch batch : Nat)
  | drain
  | run
  | stats
  deriving Inhabited

inductive Answer
  | done
  /-- The thread panicked. -/
  | panicked
  | count (n : Nat)
  | held (b : Bool)
  | refused (e : Region.Error)
  | noChannel
  | noBuffer
  | noEgress
  | body (b : Option Bytes)
  | channels (list : List Region.ChannelInfo)
  | config (c : Region.Config)
  | channel (c : Channel)
  | notFound
  | buffer (b : Buffer)
  | serialized (answer : Except Region.Error Nat) (area : Bytes)
  | polled (answer : Except Region.Error Nat) (seen : List (StreamId × List Buffer))
  | outcome (o : Ingress.Outcome)
  | drained (answer : Except Region.Error Nat) (backlog : Bool) (sent : List Bytes)
  | ran (sent : List Bytes) (threads : Nat)
  | stats (s : Stats)

inductive Reply
  | step (answer : Answer) (ledger : Region.Ledger) (queued : List Nat)
  | guarded (replies : List Reply) (ledger : Region.Ledger) (queued : List Nat)

def region (b : Bench) : Region := b.system.region

def onRegion {α : Type} (b : Bench) (f : Region → α × Region) : α × Bench :=
  let (a, region) := f b.region
  (a, { b with system.region := region })

def queued (b : Bench) : List Nat := b.region.rings.map (·.parked.length)

def threads (b : Bench) : Nat := b.region.registered.length

def leak (b : Bench) (n : Nat := 1) : Bench :=
  { b with system.region := b.region.record .leaked n }

def hold (b : Bench) (name : String) (buffer : Buffer) : Bench :=
  let b := if (b.buffers.lookup name).isSome then b.leak else b
  { b with buffers := (name, buffer) :: b.buffers.filter (·.1 ≠ name) }

def holdChannel (b : Bench) (name : String) (c : Channel) : Bench :=
  { b with channels := (name, c) :: b.channels.filter (·.1 ≠ name) }

def letGo (b : Bench) (name : String) : Option (Buffer × Bench) :=
  (b.buffers.lookup name).map fun buffer =>
    (buffer, { b with buffers := b.buffers.filter (·.1 ≠ name) })

def leakAll (b : Bench) : Bench :=
  { b.leak b.buffers.length with buffers := [] }

def newlySent (b : Bench) : List Bytes × Bench :=
  (b.egress.sink.sent.drop b.shown, { b with shown := b.egress.sink.sent.length })

def answerOf : Except Region.Error Unit → Answer
  | .ok () => .done
  | .error e => .refused e

def setFault (f : Faults) (times : Nat) : FaultKind → Faults
  | .register => { f with register := times }
  | .lookup => { f with lookup := times }
  | .poll => { f with poll := times }
  | .serialize => { f with serialize := times }

def collect (fate : Fate) : Region.Handler Hindered (List (StreamId × List Buffer)) :=
  fun stream batch (h, seen) =>
    let h := match fate with
      | .release => { h with region := h.region.record .released batch.length }
      | .drop => { h with region := h.region.record .leaked batch.length }
      | .keep => h
    (h, seen ++ [(stream, batch)])

def perform (b : Bench) (t : Thread) : Step → Answer × Bench
  | .register =>
    match Subsystem.register b.system t with
    | (.error e, system) => (.refused e, { b with system })
    | (.ok (), system) =>
      let b := { b with system }
      (.count b.threads, b)
  | .unregister =>
    let b := { b with system := Subsystem.unregister b.system t }
    (.count b.threads, b)
  | .guarded _ => (.done, b)
  | .fault kind times => (.done, { b with system.faults := setFault b.system.faults times kind })
  | .create c capacity =>
    let created := match capacity with
      | some n => b.region.createWith c n
      | none => b.region.create c
    match created with
    | some (answer, region) => (answerOf answer, { b with system.region := region })
    | none => (.panicked, b)
  | .link source target =>
    let (answer, b) := b.onRegion fun r => r.link source target
    (answerOf answer, b)
  | .publish stream body =>
    let (answer, b) := b.onRegion fun r => r.publish t stream body
    (answerOf answer, b)
  | .take stream =>
    match b.onRegion fun r => r.takeInput t stream with
    | (.error e, b) => (.refused e, b)
    | (.ok body, b) => (.body body, b)
  | .channels => (.channels b.region.channels, b)
  | .config => (.config b.region.config, b)
  | .find c name =>
    match Subsystem.findChannel b.system t c with
    | (.error e, system) => (.refused e, { b with system })
    | (.ok c, system) => (.channel c, { b with system }.holdChannel name c)
  | .route stream name =>
    match Router.route b.system t stream with
    | (.error e, system) => (.refused e, { b with system })
    | (.ok .notFound, system) => (.notFound, { b with system })
    | (.ok (.found c), system) => (.channel c, { b with system }.holdChannel name c)
  | .deserialize raw name =>
    match Subsystem.deserialize b.system t raw with
    | (.error e, system) => (.refused e, { b with system })
    | (.ok buffer, system) => (.buffer buffer, { b with system }.hold name buffer)
  | .submit channel buffer =>
    match b.channels.lookup channel with
    | none => (.noChannel, b)
    | some c =>
      match b.letGo buffer with
      | none => (.noBuffer, b)
      | some (buffer, b) =>
        let (answer, system) := Subsystem.submit b.system t c buffer
        (answerOf answer, { b with system })
  | .serialize buffer area =>
    match b.buffers.lookup buffer with
    | none => (.noBuffer, b)
    | some buffer =>
      let (answer, area, system) := Subsystem.serialize b.system t buffer area
      (.serialized answer area, { b with system })
  | .release buffer =>
    match b.letGo buffer with
    | none => (.noBuffer, b)
    | some (_, b) => (.done, { b with system := Subsystem.release b.system })
  | .drop buffer =>
    match b.letGo buffer with
    | none => (.held false, b)
    | some (_, b) => (.held true, b.leak)
  | .poll max fate name =>
    let (answer, system, seen) := Subsystem.poll b.system t max (collect fate) []
    let b := { b with system }
    let b := match fate with
      | .keep => ((seen.flatMap (·.2)).zipIdx).foldl (fun b p => b.hold s!"{name}{p.2}" p.1) b
      | _ => b
    (.polled answer seen, b)
  | .frame payload =>
    let (outcome, system, stats) := Ingress.handleFrame b.system b.stats t payload
    (.outcome outcome, { b with system, stats })
  | .egress scratch batch =>
    (.done, { b with egress := Egress.of b.egress.sink scratch batch, hasEgress := true })
  | .drain =>
    if !b.hasEgress then (.noEgress, b)
    else
      let (answer, system, egress, stats) := Egress.drainOnce t b.system b.egress b.stats
      let (sent, b) := { b with system, egress, stats }.newlySent
      (.drained answer egress.backlog sent, b)
  | .run =>
    if !b.hasEgress then (.noEgress, b)
    else
      let (system, egress, stats) := Egress.run t b.system b.egress b.stats
      let (sent, b) := { b with system, egress, stats, hasEgress := false }.newlySent
      (.ran sent b.threads, b)
  | .stats => (.stats b.stats, b)

mutual

def take (b : Bench) (t : Thread) : Step → Reply × Bench
  | .guarded steps =>
    match Subsystem.register b.system t with
    | (.error e, system) =>
      let b := { b with system }
      (.step (.refused e) b.region.ledger b.queued, b)
    | (.ok (), system) =>
      let (replies, b) := takeAll { b with system } t steps
      let b := { b with system := Subsystem.unregister b.system t }
      (.guarded replies b.region.ledger b.queued, b)
  | step =>
    let (answer, b) := b.perform t step
    (.step answer b.region.ledger b.queued, b)

def takeAll (b : Bench) (t : Thread) : List Step → List Reply × Bench
  | [] => ([], b)
  | step :: steps =>
    let (reply, b) := take b t step
    let (replies, b) := takeAll b t steps
    (reply :: replies, b)

end

end Bench

end StreamRelay
