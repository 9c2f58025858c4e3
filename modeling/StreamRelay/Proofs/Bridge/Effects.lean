import StreamRelay.Proofs.Bridge.Threads
import StreamRelay.Proofs.Region.Conservation

/-!
# What the steps of a thread do

A thread of a bridge is seen from outside through the region and the counters, and what it has to
make good there shows in its phase: a count that is due, a buffer in its hands, a registration. Each
step of a connection and of the egress thread does one thing to the region or the counters, and what
shows of the thread changes accordingly.
-/

namespace StreamRelay

def Stats.attempts (s : Stats) : Nat := s.datagramsSent + s.sendFailures + s.serializeFailures

/-- Whoever leaves does not break the format. -/
theorem Frame.Error.not_isProtocolViolation {e : Frame.Error} (h : e.isDisconnect = true) :
    e.isProtocolViolation = false := by
  cases e with
  | payloadTooLarge size max => simp [isDisconnect] at h
  | trailingBytes expected received => simp [isDisconnect] at h
  | _ => rfl

namespace Bridge
open Region

namespace Session

/-- Its closing was not counted yet. -/
def isServed (s : Session) : Bool :=
  match s.phase with
  | .leaving | .gone => false
  | _ => true

/-- A frame was received and is not accounted for yet. -/
def isHandling (s : Session) : Bool :=
  match s.phase with
  | .deserializing _ | .routing _ | .submitting _ _ | .releasing _ _ | .counting _ => true
  | _ => false

def hasBroken (s : Session) : Bool :=
  match s.ended with
  | some (.payloadTooLarge _ _) | some (.trailingBytes _ _) => true
  | _ => false

def isRegistered (s : Session) : Bool :=
  match s.phase with
  | .starting | .gone => false
  | _ => true

def holding (s : Session) : List Buffer :=
  match s.phase with
  | .routing b | .submitting _ b | .releasing b _ => [b]
  | _ => []

structure View where
  served : Bool
  handling : Bool
  broken : Bool
  registered : Bool
  holding : List Buffer

@[simp] def view (s : Session) : View :=
  ⟨s.isServed, s.isHandling, s.hasBroken, s.isRegistered, s.holding⟩

/-- An error is noted when reading is over, and what is called a violation is one. -/
structure Valid (s : Session) : Prop where
  ended_eq : (s.phase = .closing ∨ s.phase = .leaving ∨ s.phase = .gone) ∨ s.ended = none
  violated : ∀ e, s.phase = .violated e → e.isProtocolViolation = true

variable {s s' : Session} {stop : Signal} {usable : Bool} {r r' : Region} {stats stats' : Stats}

theorem Valid.ended_eq_none (hs : s.Valid)
    (hp : ¬ (s.phase = .closing ∨ s.phase = .leaving ∨ s.phase = .gone)) : s.ended = none :=
  hs.ended_eq.resolve_left hp

theorem hasBroken_of_none (h : s.ended = none) : s.hasBroken = false := by
  rw [hasBroken, h]

theorem view_finish (s : Session) (e : Frame.Error) :
    (s.finish e).view = ⟨true, false, e.isProtocolViolation, true, []⟩ := by
  cases e <;> rfl

/-- A poll of the reader leads on, to a frame, to the end, or to a violation that is still to be
counted. -/
theorem read_cases (s : Session) :
    ∃ reader source, let s' := { s with connection := { s.connection with reader, source } }
      s.read = { s' with phase := .checking } ∨
      (∃ payload, s.read = { s' with phase := .receiving payload }) ∨
      (∃ e, e.isProtocolViolation = false ∧ s.read = s'.finish e) ∨
      (∃ e, e.isProtocolViolation = true ∧ s.read = { s' with phase := .violated e }) := by
  unfold read
  cases s.connection.reader.poll s.connection.source with
  | mk answer behind =>
    obtain ⟨reader, source⟩ := behind
    refine ⟨reader, source, ?_⟩
    cases answer with
    | ok found =>
      cases found with
      | none => exact .inl rfl
      | some frame => exact .inr (.inl ⟨frame.payload, rfl⟩)
    | error e =>
      dsimp only
      split
      · exact .inl rfl
      · split
        · rename_i hdisconnect
          have hviolation := Frame.Error.not_isProtocolViolation hdisconnect
          exact .inr (.inr (.inl ⟨e, hviolation, rfl⟩))
        · split
          · rename_i hviolation
            exact .inr (.inr (.inr ⟨e, hviolation, rfl⟩))
          · rename_i hviolation
            exact .inr (.inr (.inl ⟨e, Bool.eq_false_iff.mpr hviolation, rfl⟩))

theorem route_cases (r : Region) (t : Thread) (stream : StreamId) :
    (∃ c, Router.route r t stream = (.ok (.found c), r)) ∨
    Router.route r t stream = (.ok .notFound, r) ∨
    (∃ e, Router.route r t stream = (.error e, r)) := by
  have hfind : Subsystem.findChannel r t ⟨stream, .input⟩ =
      (r.findChannel t ⟨stream, .input⟩, r) := rfl
  unfold Router.route
  rw [hfind]
  rcases findChannel_cases r t ⟨stream, .input⟩ with ⟨_, h⟩ | ⟨_, _, h⟩ | ⟨_, _, h⟩
  · rw [h]
    exact .inr (.inr ⟨_, rfl⟩)
  · rw [h]
    exact .inr (.inl rfl)
  · rw [h]
    exact .inl ⟨_, rfl⟩

theorem submit_ledger (r : Region) (t : Thread) (c : Channel) (b : Buffer) :
    (r.submit t c b).2.ledger.given = r.ledger.given ∧
      (r.submit t c b).2.ledger.returned = r.ledger.returned + 1 := by
  rcases submit_cases r t c b with ⟨_, h⟩ | ⟨_, _, h⟩ | ⟨_, _, _, _, h⟩ | ⟨_, _, _, _, h⟩ <;>
  · rw [h]
    simp [Ledger.given, Ledger.returned, record, setRing, Ledger.record]
    omega

/-- What a step of a connection can do to the region and to the counters, and how that shows. -/
inductive Effect (s s' : Session) (r : Region) (stats : Stats) : Region → Stats → Prop
  | quiet (hv : s'.view = s.view) : Effect s s' r stats r stats
  | register (hs : s.isRegistered = false) (hv : s'.view = { s.view with registered := true }) :
    Effect s s' r stats (r.register s.connection.thread) stats
  | receive (hs : s.isHandling = false) (hv : s'.view = { s.view with handling := true }) :
    Effect s s' r stats r (stats.count .frameReceived)
  | acquire {b : Buffer} (hs : s.holding = []) (hv : s'.view = { s.view with holding := [b] }) :
    Effect s s' r stats (r.record .acquired) stats
  | submit {b : Buffer} (c : Channel) (hs : s.holding = [b])
    (hv : s'.view = { s.view with holding := [] }) :
    Effect s s' r stats (r.submit s.connection.thread c b).2 stats
  | release {b : Buffer} (hs : s.holding = [b]) (hv : s'.view = { s.view with holding := [] }) :
    Effect s s' r stats (r.record .released) stats
  | count (verdict : Verdict) (hs : s.isHandling = true)
    (hv : s'.view = { s.view with handling := false }) :
    Effect s s' r stats r (stats.count verdict.event)
  | violate (hs : s.hasBroken = false) (hv : s'.view = { s.view with broken := true }) :
    Effect s s' r stats r (stats.count .protocolError)
  | close (hs : s.isServed = true) (hv : s'.view = { s.view with served := false }) :
    Effect s s' r stats r (stats.count .connectionClosed)
  | leave (hs : s.isRegistered = true) (hv : s'.view = { s.view with registered := false }) :
    Effect s s' r stats (r.unregister s.connection.thread) stats

theorem step_effect (hs : s.Valid) (stop : Signal) (usable : Bool) (r : Region) (stats : Stats) :
    Effect s (s.step stop usable r stats).1 r stats (s.step stop usable r stats).2.1
      (s.step stop usable r stats).2.2 := by
  unfold step
  cases hp : s.phase with
  | starting =>
    refine .register (by simp [isRegistered, hp]) ?_
    simp [isServed, isHandling, hasBroken, isRegistered, holding, hp]
  | configuring =>
    refine .quiet ?_
    cases usable <;> simp [isServed, isHandling, hasBroken, isRegistered, holding, hp]
  | checking =>
    refine .quiet ?_
    cases stop.requested <;> simp [isServed, isHandling, hasBroken, isRegistered, holding, hp]
  | reading =>
    have hsound : s.hasBroken = false := hasBroken_of_none (hs.ended_eq_none (by simp [hp]))
    refine .quiet ?_
    obtain ⟨reader, source, h | ⟨payload, h⟩ | ⟨e, he, h⟩ | ⟨e, _, h⟩⟩ := read_cases s
    · simp [h, isServed, isHandling, hasBroken, isRegistered, holding, hp]
    · simp [h, isServed, isHandling, hasBroken, isRegistered, holding, hp]
    · rw [h, view_finish, he]
      simp [isServed, isHandling, hsound, isRegistered, holding, hp]
    · simp [h, isServed, isHandling, hasBroken, isRegistered, holding, hp]
  | receiving payload =>
    refine .receive (by simp [isHandling, hp]) ?_
    simp [isServed, isHandling, hasBroken, isRegistered, holding, hp]
  | deserializing payload =>
    rcases deserialize_cases r s.connection.thread payload with ⟨e, _, h⟩ | ⟨b, _, _, _, h⟩
    · simp only [h]
      refine .quiet ?_
      simp [isServed, isHandling, hasBroken, isRegistered, holding, hp]
    · simp only [h]
      refine .acquire (b := b) (by simp [holding, hp]) ?_
      simp [isServed, isHandling, hasBroken, isRegistered, holding, hp]
  | routing b =>
    rcases route_cases r s.connection.thread b.stream with ⟨c, h⟩ | h | ⟨e, h⟩
    · simp only [h]
      refine .quiet ?_
      simp [isServed, isHandling, hasBroken, isRegistered, holding, hp]
    · simp only [h]
      refine .quiet ?_
      simp [isServed, isHandling, hasBroken, isRegistered, holding, hp]
    · simp only [h]
      refine .quiet ?_
      simp [isServed, isHandling, hasBroken, isRegistered, holding, hp]
  | submitting c b =>
    have hregion : ∀ verdict : Verdict, Effect s { s with phase := .counting verdict } r stats
        (r.submit s.connection.thread c b).2 stats := by
      intro verdict
      refine .submit c (by simp [holding, hp]) ?_
      simp [isServed, isHandling, hasBroken, isRegistered, holding, hp]
    cases hsubmit : r.submit s.connection.thread c b with
    | mk answer behind =>
      simp only [hsubmit] at hregion ⊢
      cases answer with
      | ok _ => exact hregion .dispatched
      | error _ => exact hregion .submitFailed
  | releasing b verdict =>
    refine .release (b := b) (by simp [holding, hp]) ?_
    simp [isServed, isHandling, hasBroken, isRegistered, holding, hp]
  | counting verdict =>
    refine .count verdict (by simp [isHandling, hp]) ?_
    simp [isServed, isHandling, hasBroken, isRegistered, holding, hp]
  | violated e =>
    have hsound : s.hasBroken = false := hasBroken_of_none (hs.ended_eq_none (by simp [hp]))
    refine .violate hsound ?_
    rw [view_finish, hs.violated e hp]
    simp [isServed, isHandling, isRegistered, holding, hp]
  | closing =>
    refine .close (by simp [isServed, hp]) ?_
    simp [isServed, isHandling, hasBroken, isRegistered, holding, hp]
  | leaving =>
    refine .leave (by simp [isRegistered, hp]) ?_
    simp [isServed, isHandling, hasBroken, isRegistered, holding, hp]
  | gone => exact .quiet rfl

theorem Valid.of_none (hended : s.ended = none) (hp : ∀ e, s.phase ≠ .violated e) : s.Valid :=
  ⟨.inr hended, fun e h => absurd h (hp e)⟩

theorem Valid.of_closing (hp : s.phase = .closing ∨ s.phase = .leaving ∨ s.phase = .gone) :
    s.Valid := by
  refine ⟨.inl hp, ?_⟩
  intro e he
  simp [he] at hp

theorem Valid.step (hs : s.Valid) (stop : Signal) (usable : Bool) (r : Region) (stats : Stats) :
    (s.step stop usable r stats).1.Valid := by
  have hended := hs.ended_eq_none
  unfold Session.step
  cases hp : s.phase with
  | configuring =>
    refine .of_none (hended (by simp [hp])) ?_
    cases usable <;> simp
  | checking =>
    refine .of_none (hended (by simp [hp])) ?_
    cases stop.requested <;> simp
  | reading =>
    have hnone := hended (by simp [hp])
    obtain ⟨reader, source, h | ⟨payload, h⟩ | ⟨e, _, h⟩ | ⟨e, he, h⟩⟩ := read_cases s
    · rw [h]
      exact .of_none hnone (by simp)
    · rw [h]
      exact .of_none hnone (by simp)
    · rw [h]
      exact .of_closing (.inl rfl)
    · rw [h]
      refine ⟨.inr hnone, ?_⟩
      rintro e' h'
      cases h'
      exact he
  | deserializing payload =>
    dsimp only
    split <;> exact .of_none (hended (by simp [hp])) (by simp)
  | routing b =>
    dsimp only
    split <;> exact .of_none (hended (by simp [hp])) (by simp)
  | submitting c b =>
    dsimp only
    split <;> exact .of_none (hended (by simp [hp])) (by simp)
  | violated e => exact .of_closing (.inl rfl)
  | closing => exact .of_closing (.inr (.inl rfl))
  | leaving => exact .of_closing (.inr (.inr rfl))
  | gone => exact hs
  | _ => exact .of_none (hended (by simp [hp])) (by simp)

theorem step_thread (s : Session) (stop : Signal) (usable : Bool) (r : Region) (stats : Stats) :
    (s.step stop usable r stats).1.connection.thread = s.connection.thread := by
  unfold step
  cases s.phase with
  | reading =>
    obtain ⟨reader, source, h | ⟨payload, h⟩ | ⟨e, _, h⟩ | ⟨e, he, h⟩⟩ := read_cases s <;>
      simp [h, finish]
  | deserializing payload =>
    dsimp only
    split <;> rfl
  | routing b =>
    dsimp only
    split <;> rfl
  | submitting c b =>
    dsimp only
    split <;> rfl
  | _ => rfl

theorem phase_of_isGone (h : s.isGone = true) : s.phase = .gone := by
  unfold isGone at h
  split at h
  · assumption
  · contradiction

theorem isGone_step (h : s.isGone = true) (stop : Signal) (usable : Bool) (r : Region)
    (stats : Stats) : (s.step stop usable r stats).1.isGone = true := by
  unfold step
  rw [phase_of_isGone h]
  exact h

theorem settled_of_isGone (h : s.isGone = true) :
    s.isServed = false ∧ s.isHandling = false ∧ s.isRegistered = false ∧ s.holding = [] := by
  simp [isServed, isHandling, isRegistered, holding, phase_of_isGone h]

namespace Effect

/-- A connection touches the counters of connections and frames only, and makes each change of them
good in its own phase. -/
theorem served (h : Effect s s' r stats r' stats') :
    stats'.connectionsAccepted = stats.connectionsAccepted ∧
    stats'.connectionsClosed + s'.isServed.toNat = stats.connectionsClosed + s.isServed.toNat := by
  cases h with
  | count verdict _ _ => cases verdict <;> simp_all [Stats.count, Verdict.event]
  | _ => simp_all [Stats.count]

theorem handling (h : Effect s s' r stats r' stats') :
    stats'.framesReceived + stats.framesDispatched + stats.framesDropped + s.isHandling.toNat =
      stats.framesReceived + stats'.framesDispatched + stats'.framesDropped +
        s'.isHandling.toNat := by
  cases h with
  | count verdict _ _ =>
    cases verdict <;> simp_all [Stats.count, Verdict.event, Stats.framesDropped] <;> omega
  | receive _ _ => simp_all [Stats.count, Stats.framesDropped]; omega
  | _ => simp_all [Stats.count, Stats.framesDropped]

theorem broken (h : Effect s s' r stats r' stats') :
    stats'.protocolErrors + s.hasBroken.toNat = stats.protocolErrors + s'.hasBroken.toNat := by
  cases h with
  | count verdict _ _ => cases verdict <;> simp_all [Stats.count, Verdict.event]
  | _ => simp_all [Stats.count]

theorem attempts (h : Effect s s' r stats r' stats') :
    stats'.attempts = stats.attempts ∧ stats'.buffersReleased = stats.buffersReleased := by
  cases h with
  | count verdict _ _ => cases verdict <;> exact ⟨rfl, rfl⟩
  | _ => exact ⟨rfl, rfl⟩

theorem ledger (h : Effect s s' r stats r' stats') :
    r'.ledger.given + r.ledger.returned + s.holding.length =
      r.ledger.given + r'.ledger.returned + s'.holding.length ∧
    r'.ledger.leaked = r.ledger.leaked := by
  cases h with
  | @submit b c hs hv =>
    obtain ⟨hgiven, hreturned⟩ := submit_ledger r s.connection.thread c b
    have hleaked := (Steady.submit r s.connection.thread c b).leaked_eq
    have hnone : s'.holding = [] := congrArg View.holding hv
    rw [hgiven, hreturned, hs, hnone]
    refine ⟨?_, hleaked⟩
    simp only [List.length_singleton, List.length_nil]
    omega
  | acquire hs hv =>
    have hone : s'.holding = [_] := congrArg View.holding hv
    rw [hs, hone]
    refine ⟨?_, rfl⟩
    simp only [record_ledger, Ledger.record, Ledger.given, Ledger.returned, List.length_singleton,
      List.length_nil]
    omega
  | release hs hv =>
    have hnone : s'.holding = [] := congrArg View.holding hv
    rw [hs, hnone]
    refine ⟨?_, rfl⟩
    simp only [record_ledger, Ledger.record, Ledger.given, Ledger.returned, List.length_singleton,
      List.length_nil]
    omega
  | quiet hv | register _ hv | receive _ hv | count _ _ hv | violate _ hv | close _ hv
  | leave _ hv =>
    have hsame : s'.holding = s.holding := congrArg View.holding hv
    rw [hsame]
    exact ⟨rfl, rfl⟩

/-- A connection only adds to rings. -/
theorem parkedAt_prefix (h : Effect s s' r stats r' stats') (c : Channel) :
    r.parkedAt c <+: r'.parkedAt c := by
  cases h with
  | @submit b channel _ _ =>
    rcases submit_cases r s.connection.thread channel b with
      ⟨_, h⟩ | ⟨_, _, h⟩ | ⟨_, _, _, _, h⟩ | ⟨ring, _, hr, _, h⟩
    · exact h ▸ List.prefix_rfl
    · exact h ▸ List.prefix_rfl
    · exact h ▸ List.prefix_rfl
    · rw [h, record_parkedAt, parkedAt_park hr]
      split
      · rename_i hc
        exact hc ▸ List.prefix_append _ _
      · exact List.prefix_rfl
  | _ => exact List.prefix_rfl

theorem registered_of_ne (h : Effect s s' r stats r' stats') {t : Thread}
    (ht : t ≠ s.connection.thread) : t ∈ r'.registered ↔ t ∈ r.registered := by
  cases h with
  | register _ _ => exact mem_register.trans (or_iff_right ht)
  | leave _ _ => exact mem_unregister.trans (and_iff_left ht)
  | submit c _ _ => rw [(Steady.submit _ _ _ _).registered_eq]
  | _ => exact Iff.rfl

/-- If its thread is registered then either that shows, or nothing about it has changed. -/
theorem registered_thread (h : Effect s s' r stats r' stats')
    (ht : s.connection.thread ∈ r'.registered) :
    s'.isRegistered = true ∨
      (s.connection.thread ∈ r.registered ∧ s'.isRegistered = s.isRegistered) := by
  cases h with
  | register _ hv => exact .inl (congrArg View.registered hv)
  | leave _ _ => exact absurd rfl (mem_unregister.mp ht).2
  | submit c _ hv =>
    rw [(Steady.submit _ _ _ _).registered_eq] at ht
    exact .inr ⟨ht, congrArg View.registered hv⟩
  | quiet hv | receive _ hv | acquire _ hv | release _ hv | count _ _ hv | violate _ hv
  | close _ hv => exact .inr ⟨ht, congrArg View.registered hv⟩

end Effect

end Session

namespace Sender

def owes (s : Sender) : Bool :=
  match s.phase with
  | .forwarding _ _ _ _ .releasing | .forwarding _ _ _ _ .counting => true
  | _ => false

def isRegistered (s : Sender) : Bool :=
  match s.phase with
  | .starting | .gone => false
  | _ => true

def holding (s : Sender) : List Buffer :=
  match s.phase with
  | .forwarding _ _ behind _ .counting => behind
  | .forwarding _ b behind _ _ => b :: behind
  | _ => []

structure View where
  owes : Bool
  registered : Bool
  holding : List Buffer

@[simp] def view (s : Sender) : View := ⟨s.owes, s.isRegistered, s.holding⟩

variable {s s' : Sender} {r r' : Region} {stats stats' : Stats}

/-- What a step of the egress thread can do to the region and to the counters, and how that shows. -/
inductive Effect (s s' : Sender) (r : Region) (stats : Stats) : Region → Stats → Prop
  | quiet (hv : s'.view = s.view) : Effect s s' r stats r stats
  | register (hs : s.isRegistered = false) (hv : s'.view = { s.view with registered := true }) :
    Effect s s' r stats (r.register egressThread) stats
  | handOut (c : Channel) (hs : s.holding = [])
    (hv : s'.view = { s.view with holding := (r.handOut c s.egress.batch).1 }) :
    Effect s s' r stats (r.handOut c s.egress.batch).2 stats
  | attempt (fate : Fate) (hs : s.owes = false) (hv : s'.view = { s.view with owes := true }) :
    Effect s s' r stats r (stats.count fate.event)
  | release {b : Buffer} {behind : List Buffer} (hs : s.holding = b :: behind)
    (hv : s'.view = { s.view with holding := behind }) :
    Effect s s' r stats (r.record .released) stats
  | settle (hs : s.owes = true) (hv : s'.view = { s.view with owes := false }) :
    Effect s s' r stats r (stats.count .bufferReleased)
  | leave (hs : s.isRegistered = true) (hv : s'.view = { s.view with registered := false }) :
    Effect s s' r stats (r.unregister egressThread) stats

/-- A pass begins unless no final pass is left or the thread is not registered. -/
theorem poll_cases (s : Sender) (r : Region) :
    (s.final = some 0 ∧ s.poll r = { s with phase := .leaving }) ∨
    (s.final ≠ some 0 ∧ egressThread ∈ r.registered ∧ s.poll r = { s with
      egress := { s.egress with backlog := false }, handled := 0, phase := .visiting r.outputs }) ∨
    (s.final ≠ some 0 ∧ egressThread ∉ r.registered ∧ s.poll r = { s with
      egress := { s.egress with backlog := false }, handled := 0
      phase := if s.final.isSome then .leaving else .deciding }) := by
  unfold poll
  by_cases hf : s.final = some 0
  · exact .inl ⟨hf, if_pos hf⟩
  · by_cases ht : egressThread ∈ r.registered
    · rw [checkRegistered_of_mem ht]
      exact .inr (.inl ⟨hf, ht, if_neg hf⟩)
    · rw [checkRegistered_of_not_mem ht]
      exact .inr (.inr ⟨hf, ht, if_neg hf⟩)

theorem forward_effect {c : Channel} {b : Buffer} {behind : List Buffer} {rest : List Channel}
    {stage : Stage} (hp : s.phase = .forwarding c b behind rest stage) (r : Region) (stats : Stats) :
    Effect s (s.forward c b behind rest r stats stage).1 r stats
      (s.forward c b behind rest r stats stage).2.1
      (s.forward c b behind rest r stats stage).2.2 := by
  cases stage with
  | serializing =>
    unfold forward
    dsimp only
    split
    · refine .quiet ?_
      simp [owes, isRegistered, holding, hp]
    · refine .quiet ?_
      simp [owes, isRegistered, holding, hp]
    · refine .quiet ?_
      simp [owes, isRegistered, holding, hp]
  | sending n =>
    refine .quiet ?_
    simp [forward, owes, isRegistered, holding, hp]
  | tallying fate =>
    refine .attempt fate (by simp [owes, hp]) ?_
    simp [forward, owes, isRegistered, holding, hp]
  | releasing =>
    have hs : s.holding = b :: behind := by simp [holding, hp]
    refine .release hs ?_
    simp [forward, owes, isRegistered, holding, hp]
  | counting =>
    refine .settle (by simp [owes, hp]) ?_
    cases behind <;> simp [forward, next, owes, isRegistered, holding, hp]

theorem step_effect (s : Sender) (stop : Signal) (r : Region) (stats : Stats) :
    Effect s (s.step stop r stats).1 r stats (s.step stop r stats).2.1 (s.step stop r stats).2.2 := by
  unfold step
  cases hp : s.phase with
  | starting =>
    refine .register (by simp [isRegistered, hp]) ?_
    simp [owes, isRegistered, holding, hp]
  | polling =>
    refine .quiet ?_
    rcases poll_cases s r with ⟨_, h⟩ | ⟨_, _, h⟩ | ⟨_, _, h⟩
    · simp [h, owes, isRegistered, holding, hp]
    · simp [h, owes, isRegistered, holding, hp]
    · cases hf : s.final.isSome <;> simp [h, hf, owes, isRegistered, holding, hp]
  | visiting rest =>
    cases rest with
    | nil =>
      refine .quiet ?_
      dsimp only
      unfold complete
      split
      · simp [owes, isRegistered, holding, hp]
      · split <;> simp [owes, isRegistered, holding, hp]
    | cons c rest =>
      refine .handOut c (by simp [holding, hp]) ?_
      dsimp only
      cases (r.handOut c s.egress.batch).1 <;>
        simp [take, owes, isRegistered, holding, hp]
  | forwarding c b behind rest stage => exact forward_effect hp r stats
  | deciding =>
    refine .quiet ?_
    dsimp only
    split <;> simp [resume, owes, isRegistered, holding, hp]
  | waiting =>
    refine .quiet ?_
    simp [resume, owes, isRegistered, holding, hp]
  | leaving =>
    refine .leave (by simp [isRegistered, hp]) ?_
    simp [owes, isRegistered, holding, hp]
  | gone => exact .quiet rfl

namespace Effect

/-- The egress thread touches the counters of attempts and returns only. -/
theorem attempts (h : Effect s s' r stats r' stats') :
    stats'.attempts + stats.buffersReleased + s.owes.toNat =
      stats.attempts + stats'.buffersReleased + s'.owes.toNat := by
  cases h with
  | attempt fate _ _ => cases fate <;> simp_all [Stats.count, Fate.event, Stats.attempts] <;> omega
  | settle _ _ => simp_all [Stats.count, Stats.attempts]; omega
  | _ => simp_all [Stats.attempts]

theorem rest (h : Effect s s' r stats r' stats') :
    stats'.connectionsAccepted = stats.connectionsAccepted ∧
    stats'.connectionsClosed = stats.connectionsClosed ∧
    stats'.protocolErrors = stats.protocolErrors ∧
    stats'.framesReceived = stats.framesReceived ∧
    stats'.framesDispatched = stats.framesDispatched ∧
    stats'.framesDropped = stats.framesDropped := by
  cases h with
  | attempt fate _ _ => cases fate <;> exact ⟨rfl, rfl, rfl, rfl, rfl, rfl⟩
  | _ => exact ⟨rfl, rfl, rfl, rfl, rfl, rfl⟩

theorem ledger (h : Effect s s' r stats r' stats') :
    r'.ledger.given + r.ledger.returned + s.holding.length =
      r.ledger.given + r'.ledger.returned + s'.holding.length ∧
    r'.ledger.leaked = r.ledger.leaked := by
  cases h with
  | handOut c hs hv =>
    have hbatch : s'.holding = (r.handOut c s.egress.batch).1 := congrArg View.holding hv
    obtain ⟨rings, hr, _⟩ := handOut_snd r c s.egress.batch
    rw [hs, hbatch, handOut_fst, hr]
    refine ⟨?_, rfl⟩
    simp only [Ledger.record, Ledger.given, Ledger.returned, List.length_nil]
    omega
  | release hs hv =>
    have hbehind : s'.holding = _ := congrArg View.holding hv
    rw [hs, hbehind]
    refine ⟨?_, rfl⟩
    simp only [record_ledger, Ledger.record, Ledger.given, Ledger.returned, List.length_cons]
    omega
  | quiet hv | register _ hv | attempt _ _ hv | settle _ hv | leave _ hv =>
    have hsame : s'.holding = s.holding := congrArg View.holding hv
    rw [hsame]
    exact ⟨rfl, rfl⟩

theorem registered_of_ne (h : Effect s s' r stats r' stats') {t : Thread} (ht : t ≠ egressThread) :
    t ∈ r'.registered ↔ t ∈ r.registered := by
  cases h with
  | register _ _ => exact mem_register.trans (or_iff_right ht)
  | leave _ _ => exact mem_unregister.trans (and_iff_left ht)
  | handOut c _ _ => rw [(Steady.handOut _ _ _).registered_eq]
  | _ => exact Iff.rfl

/-- It shows whether the egress thread is registered. -/
theorem registered_thread (h : Effect s s' r stats r' stats')
    (ht : egressThread ∈ r.registered ↔ s.isRegistered = true) :
    egressThread ∈ r'.registered ↔ s'.isRegistered = true := by
  cases h with
  | register _ hv =>
    have hshows : s'.isRegistered = true := congrArg View.registered hv
    exact iff_of_true (mem_register.mpr (.inl rfl)) hshows
  | leave _ hv =>
    have hshows : s'.isRegistered = false := congrArg View.registered hv
    refine iff_of_false (fun h => (mem_unregister.mp h).2 rfl) ?_
    rw [hshows]
    exact Bool.false_ne_true
  | handOut c _ hv =>
    have hshows : s'.isRegistered = s.isRegistered := congrArg View.registered hv
    rw [(Steady.handOut _ _ _).registered_eq, hshows, ht]
  | quiet hv | attempt _ _ hv | release _ hv | settle _ hv =>
    have hshows : s'.isRegistered = s.isRegistered := congrArg View.registered hv
    rw [hshows]
    exact ht

end Effect

end Sender

end Bridge

end StreamRelay
