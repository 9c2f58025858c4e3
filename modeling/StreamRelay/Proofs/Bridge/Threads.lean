import StreamRelay.Bridge
import StreamRelay.Proofs.Region.Usage

/-!
# The threads of a bridge

A running bridge is a thread that accepts connections, one thread for each connection, the egress
thread, and whoever stops it; other callers use its region meanwhile. They take their steps in any
order. A step makes at most one operation on the region, counts at most one event, or looks at a stop
signal, and remembers in its phase what comes next.
-/

namespace StreamRelay.Bridge

inductive Verdict
  | dispatched
  | malformed
  | unknownStream
  | submitFailed
  | lookupFailed
  deriving DecidableEq

def Verdict.event : Verdict → Event
  | .dispatched => .frameDispatched
  | .malformed => .droppedMalformed
  | .unknownStream => .droppedUnknownStream
  | .submitFailed => .droppedSubmitFailed
  | .lookupFailed => .droppedLookupFailed

inductive Session.Phase
  | starting
  | configuring
  | checking
  | reading
  | receiving (payload : Bytes)
  | deserializing (payload : Bytes)
  | routing (b : Buffer)
  | submitting (c : Channel) (b : Buffer)
  | releasing (b : Buffer) (verdict : Verdict)
  | counting (verdict : Verdict)
  | violated (e : Frame.Error)
  | closing
  | leaving
  | gone

structure Session where
  connection : Ingress.Connection
  phase : Session.Phase := .starting
  ended : Option Frame.Error := none

namespace Session

def isGone (s : Session) : Bool :=
  match s.phase with
  | .gone => true
  | _ => false

def finish (s : Session) (e : Frame.Error) : Session := { s with phase := .closing, ended := some e }

def read (s : Session) : Session :=
  let (answer, reader, source) := s.connection.reader.poll s.connection.source
  let s := { s with connection := { s.connection with reader, source } }
  match answer with
  | .ok none => { s with phase := .checking }
  | .ok (some frame) => { s with phase := .receiving frame.payload }
  | .error e =>
    if e.isTimeout then { s with phase := .checking }
    else if e.isDisconnect then s.finish e
    else if e.isProtocolViolation then { s with phase := .violated e }
    else s.finish e

/-- The next step. The stream may turn out not to be `usable` when it is configured. -/
def step (s : Session) (stop : Signal) (usable : Bool) (r : Region) (stats : Stats) :
    Session × Region × Stats :=
  let t := s.connection.thread
  match s.phase with
  | .starting => ({ s with phase := .configuring }, r.register t, stats)
  | .configuring => ({ s with phase := if usable then .checking else .closing }, r, stats)
  | .checking => ({ s with phase := if stop.requested then .closing else .reading }, r, stats)
  | .reading => (s.read, r, stats)
  | .receiving payload =>
    ({ s with phase := .deserializing payload }, r, stats.count .frameReceived)
  | .deserializing payload =>
    match r.deserialize t payload with
    | (.ok b, r) => ({ s with phase := .routing b }, r, stats)
    | (.error _, r) => ({ s with phase := .counting .malformed }, r, stats)
  | .routing b =>
    match Router.route r t b.stream with
    | (.ok (.found c), r) => ({ s with phase := .submitting c b }, r, stats)
    | (.ok .notFound, r) => ({ s with phase := .releasing b .unknownStream }, r, stats)
    | (.error _, r) => ({ s with phase := .releasing b .lookupFailed }, r, stats)
  | .submitting c b =>
    match r.submit t c b with
    | (.ok (), r) => ({ s with phase := .counting .dispatched }, r, stats)
    | (.error _, r) => ({ s with phase := .counting .submitFailed }, r, stats)
  | .releasing _ verdict => ({ s with phase := .counting verdict }, r.release, stats)
  | .counting verdict => ({ s with phase := .checking }, r, stats.count verdict.event)
  | .violated e => (s.finish e, r, stats.count .protocolError)
  | .closing => ({ s with phase := .leaving }, r, stats.count .connectionClosed)
  | .leaving => ({ s with phase := .gone }, r.unregister t, stats)
  | .gone => (s, r, stats)

end Session

inductive Fate
  | sent
  | sendFailed
  | unserialized
  deriving DecidableEq

def Fate.event : Fate → Event
  | .sent => .datagramSent
  | .sendFailed => .sendFailure
  | .unserialized => .serializeFailure

inductive Sender.Stage
  | serializing
  | sending (length : Nat)
  | tallying (fate : Fate)
  | releasing
  | counting

/-- What the egress thread does next. During a pass it knows the channels whose turns are to come, and
the buffers of the present turn behind the one in hand. -/
inductive Sender.Phase
  | starting
  | polling
  | visiting (rest : List Channel)
  | forwarding (c : Channel) (b : Buffer) (behind : List Buffer) (rest : List Channel)
    (stage : Sender.Stage)
  | deciding
  | waiting
  | leaving
  | gone

/-- The egress side, with how many final passes it may still make once it saw the request to stop,
how many buffers it handled in the present pass, and the buffers that it attempted so far. -/
structure Sender where
  egress : Egress
  phase : Sender.Phase := .starting
  final : Option Nat := none
  handled : Nat := 0
  attempted : List (Channel × Buffer) := []

namespace Sender

def poll (s : Sender) (r : Region) : Sender :=
  if s.final = some 0 then { s with phase := .leaving }
  else
    let s := { s with egress := { s.egress with backlog := false }, handled := 0 }
    match r.checkRegistered egressThread with
    | .ok () => { s with phase := .visiting r.outputs }
    | .error _ => { s with phase := if s.final.isSome then .leaving else .deciding }

def complete (s : Sender) : Sender :=
  match s.final with
  | none => { s with phase := .deciding }
  | some left =>
    if s.handled = 0 then { s with phase := .leaving }
    else { s with phase := .polling, final := some (left - 1) }

def take (s : Sender) (c : Channel) (rest : List Channel) : List Buffer → Sender
  | [] => { s with phase := .visiting rest }
  | b :: behind =>
    let size := (b :: behind).length
    { s with
      egress := { s.egress with backlog := s.egress.backlog || s.egress.batch ≤ size }
      phase := .forwarding c b behind rest .serializing
      handled := s.handled + size }

def resume (s : Sender) (stop : Signal) : Sender :=
  { s with
    phase := .polling
    final := if stop.requested then some Egress.maxFinalPasses else none }

def next (c : Channel) (rest : List Channel) : List Buffer → Phase
  | [] => .visiting rest
  | b :: behind => .forwarding c b behind rest .serializing

def forward (s : Sender) (c : Channel) (b : Buffer) (behind : List Buffer) (rest : List Channel)
    (r : Region) (stats : Stats) : Stage → Sender × Region × Stats
  | .serializing =>
    let (answer, scratch) := r.serialize egressThread b s.egress.scratch
    let s := { s with egress := { s.egress with scratch } }
    match answer with
    | .error _ | .ok 0 =>
      ({ s with phase := .forwarding c b behind rest (.tallying .unserialized) }, r, stats)
    | .ok (n + 1) => ({ s with phase := .forwarding c b behind rest (.sending (n + 1)) }, r, stats)
  | .sending n =>
    let (answer, sink) := s.egress.sink.send (s.egress.scratch.take n)
    let s := { s with egress := { s.egress with sink } }
    let fate : Fate := if answer.isOk then .sent else .sendFailed
    ({ s with phase := .forwarding c b behind rest (.tallying fate) }, r, stats)
  | .tallying fate =>
    ({ s with phase := .forwarding c b behind rest .releasing, attempted := s.attempted ++ [(c, b)] },
      r, stats.count fate.event)
  | .releasing => ({ s with phase := .forwarding c b behind rest .counting }, r.release, stats)
  | .counting => ({ s with phase := next c rest behind }, r, stats.count .bufferReleased)

/-- The next step. Behind a backlog the next pass follows at once. Whoever waits for the request wakes
up when it is made or the time is over, and looks at it then. -/
def step (s : Sender) (stop : Signal) (r : Region) (stats : Stats) : Sender × Region × Stats :=
  match s.phase with
  | .starting => ({ s with phase := .polling }, r.register egressThread, stats)
  | .polling => (s.poll r, r, stats)
  | .visiting [] => (s.complete, r, stats)
  | .visiting (c :: rest) =>
    let (batch, r) := r.handOut c s.egress.batch
    (s.take c rest batch, r, stats)
  | .forwarding c b behind rest stage => s.forward c b behind rest r stats stage
  | .deciding =>
    (if s.egress.backlog then s.resume stop else { s with phase := .waiting }, r, stats)
  | .waiting => (s.resume stop, r, stats)
  | .leaving => ({ s with phase := .gone }, r.unregister egressThread, stats)
  | .gone => (s, r, stats)

end Sender

/-- What the accepting thread does next. It sweeps its workers place by place, and joins them in order
when it was told to stop. -/
inductive Acceptor
  | checking
  | accepting
  | sweeping (place : Nat)
  | joining
  | gone
  deriving DecidableEq

inductive Stopper
  | idle
  | joiningIngress
  | stoppingEgress
  | joiningEgress
  | done
  deriving DecidableEq

/-- A running bridge between two steps. Connections are known by their place among all that were
accepted. -/
structure Moment where
  usage : Usage
  stats : Stats := {}
  limits : Frame.Config
  sessions : List Session := []
  acceptor : Acceptor := .checking
  workers : List Nat := []
  joined : List Nat := []
  sender : Sender
  stopper : Stopper := .idle
  ingressStop : Signal := {}
  egressStop : Signal := {}

namespace Moment

/-- Whose step it is. A caller outside the bridge makes an operation, someone may connect when the
bridge accepts, and the stream of a connection may be usable or not. -/
inductive Move
  | call (operation : Usage.Operation)
  | acceptor (arrival : Option Frame.Source)
  | session (place : Nat) (usable : Bool)
  | sender
  | stopper

def start (s : Settings) (sink : DatagramSink) (region : Region) : Moment where
  usage := { region }
  limits := s.frameConfig
  sender := { egress := Egress.of sink s.maxFrame s.egressBatch }

def isGone (m : Moment) (place : Nat) : Bool := m.sessions[place]?.any Session.isGone

def stepAcceptor (m : Moment) (arrival : Option Frame.Source) : Moment :=
  match m.acceptor with
  | .checking => { m with acceptor := if m.ingressStop.requested then .joining else .accepting }
  | .accepting =>
    match arrival with
    | none => { m with acceptor := .sweeping 0 }
    | some source =>
      let thread := connectionThread (m.sessions.length + 1)
      let connection : Ingress.Connection := { thread, reader := { config := m.limits }, source }
      { m with
        acceptor := .sweeping 0
        stats := m.stats.count .connectionAccepted
        sessions := m.sessions ++ [{ connection }]
        workers := m.workers ++ [m.sessions.length] }
  | .sweeping place =>
    match m.workers[place]? with
    | none => { m with acceptor := .checking }
    | some worker =>
      if m.isGone worker then
        { m with workers := Workers.swapRemove m.workers place, joined := m.joined ++ [worker] }
      else { m with acceptor := .sweeping (place + 1) }
  | .joining =>
    match m.workers with
    | [] => { m with acceptor := .gone }
    | worker :: rest =>
      if m.isGone worker then { m with workers := rest, joined := m.joined ++ [worker] } else m
  | .gone => m

def stepStopper (m : Moment) : Moment :=
  match m.stopper with
  | .idle => { m with ingressStop := m.ingressStop.trigger, stopper := .joiningIngress }
  | .joiningIngress =>
    match m.acceptor with
    | .gone => { m with stopper := .stoppingEgress }
    | _ => m
  | .stoppingEgress => { m with egressStop := m.egressStop.trigger, stopper := .joiningEgress }
  | .joiningEgress =>
    match m.sender.phase with
    | .gone => { m with stopper := .done }
    | _ => m
  | .done => m

def stepSession (m : Moment) (place : Nat) (usable : Bool) : Moment :=
  match m.sessions[place]? with
  | none => m
  | some s =>
    let (s, region, stats) := s.step m.ingressStop usable m.usage.region m.stats
    { m with usage := { m.usage with region }, stats, sessions := m.sessions.set place s }

def stepSender (m : Moment) : Moment :=
  let (sender, region, stats) := m.sender.step m.egressStop m.usage.region m.stats
  { m with usage := { m.usage with region }, stats, sender }

def move (m : Moment) : Move → Moment
  | .call operation => { m with usage := m.usage.operate operation }
  | .acceptor arrival => m.stepAcceptor arrival
  | .session place usable => m.stepSession place usable
  | .sender => m.stepSender
  | .stopper => m.stepStopper

def run (m : Moment) (moves : List Move) : Moment := moves.foldl move m

theorem run_append (m : Moment) (front back : List Move) :
    m.run (front ++ back) = (m.run front).run back := List.foldl_append

end Moment

end StreamRelay.Bridge
