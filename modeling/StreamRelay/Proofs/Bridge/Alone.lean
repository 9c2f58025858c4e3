import Mathlib.Logic.Relation
import StreamRelay.Proofs.Bridge.Effects
import StreamRelay.Proofs.Egress.Pass

/-!
# Threads on their own

A thread that nobody disturbs goes step by step through what the relay does as a whole: the thread of
a connection serves it, the egress thread makes its passes, and the accepting thread sweeps its
workers.
-/

namespace StreamRelay.Bridge
open Relation

namespace Session

variable {stop : Signal} {r : Region} {stats : Stats}

abbrev Alone (stop : Signal) :
    Session × Region × Stats → Session × Region × Stats → Prop :=
  ReflTransGen fun a b => a.1.step stop true a.2.1 a.2.2 = b

theorem alone_step {s : Session} {b : Session × Region × Stats}
    (h : s.step stop true r stats = b) : Alone stop (s, r, stats) b := .single h

variable (stop r stats)

theorem alone_handle (s : Session) (payload : Bytes) :
    Alone stop ({ s with phase := .deserializing payload }, r, stats)
      ({ s with phase := .checking },
        (Ingress.handleFrame r stats s.connection.thread payload).2) := by
  have hdeserialize : Subsystem.deserialize r s.connection.thread payload =
      r.deserialize s.connection.thread payload := rfl
  unfold Ingress.handleFrame
  rw [hdeserialize]
  cases hd : r.deserialize s.connection.thread payload with
  | mk answer r₁ =>
    cases answer with
    | error e =>
      have hfill : Alone stop ({ s with phase := .deserializing payload }, r, stats)
          ({ s with phase := .counting .malformed }, r₁, stats) := alone_step (by simp [step, hd])
      exact hfill.trans (alone_step rfl)
    | ok b =>
      have hfill : Alone stop ({ s with phase := .deserializing payload }, r, stats)
          ({ s with phase := .routing b }, r₁, stats) := alone_step (by simp [step, hd])
      refine hfill.trans ?_
      dsimp only
      cases hr : Router.route r₁ s.connection.thread b.stream with
      | mk answer r₂ =>
        cases answer with
        | error e =>
          have hroute : Alone stop ({ s with phase := .routing b }, r₁, stats)
              ({ s with phase := .releasing b .lookupFailed }, r₂, stats) :=
            alone_step (by simp [step, hr])
          exact (hroute.trans (alone_step rfl)).trans (alone_step rfl)
        | ok route =>
          cases route with
          | notFound =>
            have hroute : Alone stop ({ s with phase := .routing b }, r₁, stats)
                ({ s with phase := .releasing b .unknownStream }, r₂, stats) :=
              alone_step (by simp [step, hr])
            exact (hroute.trans (alone_step rfl)).trans (alone_step rfl)
          | found c =>
            have hroute : Alone stop ({ s with phase := .routing b }, r₁, stats)
                ({ s with phase := .submitting c b }, r₂, stats) :=
              alone_step (by simp [step, hr])
            have hsubmit : Subsystem.submit r₂ s.connection.thread c b =
                r₂.submit s.connection.thread c b := rfl
            refine hroute.trans ?_
            dsimp only
            rw [hsubmit]
            cases hs : r₂.submit s.connection.thread c b with
            | mk answer r₃ =>
              cases answer with
              | ok _ =>
                have hpark : Alone stop ({ s with phase := .submitting c b }, r₂, stats)
                    ({ s with phase := .counting .dispatched }, r₃, stats) :=
                  alone_step (by simp [step, hs])
                exact hpark.trans (alone_step rfl)
              | error e =>
                have hpark : Alone stop ({ s with phase := .submitting c b }, r₂, stats)
                    ({ s with phase := .counting .submitFailed }, r₃, stats) :=
                  alone_step (by simp [step, hs])
                exact hpark.trans (alone_step rfl)

/-- A turn of the connection, which stays open or is about to be closed. -/
theorem alone_turn (c : Ingress.Connection) (ended : Option Frame.Error) :
    ∃ ended', Alone stop ({ connection := c, phase := .reading, ended }, r, stats)
      ({ connection := (c.turn r stats).2.1
         phase := if (c.turn r stats).1 then .checking else .closing, ended := ended' },
        (c.turn r stats).2.2) := by
  cases hp : c.reader.poll c.source with
  | mk answer behind =>
    obtain ⟨reader, source⟩ := behind
    have hread : ∀ s, ({ connection := c, phase := .reading, ended } : Session).read = s →
        Alone stop ({ connection := c, phase := .reading, ended }, r, stats) (s, r, stats) :=
      fun s hs => alone_step (by simp [step, hs])
    cases answer with
    | ok found =>
      cases found with
      | none =>
        refine ⟨ended, ?_⟩
        simp only [Ingress.Connection.turn, hp, if_true]
        exact hread _ (by simp [read, hp])
      | some frame =>
        refine ⟨ended, ?_⟩
        have hframe := hread { connection := { c with reader, source }
                               phase := .receiving frame.payload, ended } (by simp [read, hp])
        have hhandle := alone_handle stop r (stats.count .frameReceived)
          { connection := { c with reader, source }, ended } frame.payload
        simp only [Ingress.Connection.turn, hp, if_true]
        exact (hframe.trans (alone_step rfl)).trans hhandle
    | error e =>
      cases ht : e.isTimeout with
      | true =>
        refine ⟨ended, ?_⟩
        simp only [Ingress.Connection.turn, hp, ht, if_true]
        exact hread _ (by simp [read, hp, ht])
      | false =>
        cases hv : e.isProtocolViolation with
        | true =>
          have hd : e.isDisconnect = false := by
            by_contra hd
            have hnot := Frame.Error.not_isProtocolViolation (Bool.not_eq_false _ ▸ hd)
            rw [hv] at hnot
            contradiction
          have hviolated := hread { connection := { c with reader, source }
                                    phase := .violated e, ended } (by simp [read, hp, ht, hd, hv])
          refine ⟨some e, ?_⟩
          simp only [Ingress.Connection.turn, hp, ht, hv, if_true, Bool.false_eq_true, if_false]
          exact hviolated.trans (alone_step rfl)
        | false =>
          refine ⟨some e, ?_⟩
          simp only [Ingress.Connection.turn, hp, ht, hv, Bool.false_eq_true, if_false]
          exact hread _ (by cases hd : e.isDisconnect <;> simp [read, hp, ht, hd, hv, finish])

/-- Turns, with a look at the stop signal in front of each. -/
theorem alone_turns (hstop : stop.requested = false) (wait : Bool) (bound : Nat)
    (c : Ingress.Connection) (ended : Option Frame.Error) :
    ∃ ended', Alone stop ({ connection := c, phase := .checking, ended }, r, stats)
      ({ connection := (c.turns wait bound r stats).2.1
         phase := if (c.turns wait bound r stats).1 then .checking else .closing, ended := ended' },
        (c.turns wait bound r stats).2.2) := by
  induction bound generalizing c r stats ended with
  | zero => exact ⟨ended, .refl⟩
  | succ bound ih =>
    have hcheck : Alone stop ({ connection := c, phase := .checking, ended }, r, stats)
        ({ connection := c, phase := .reading, ended }, r, stats) :=
      alone_step (by simp [step, hstop])
    obtain ⟨ended₁, hturn⟩ := alone_turn stop r stats c ended
    rw [Ingress.Connection.turns]
    split
    · exact ⟨ended, .refl⟩
    · cases ht : c.turn r stats with
      | mk goes behind =>
        obtain ⟨c₁, r₁, stats₁⟩ := behind
        rw [ht] at hturn
        cases goes with
        | true =>
          obtain ⟨ended', hrest⟩ := ih r₁ stats₁ c₁ ended₁
          exact ⟨ended', (hcheck.trans hturn).trans hrest⟩
        | false => exact ⟨ended₁, hcheck.trans hturn⟩

/-- A connection that was accepted is served until it has ended, or waits for what may arrive. -/
theorem alone_serve (hstop : stop.requested = false) (wait : Bool) (c : Ingress.Connection)
    {left : Option Ingress.Connection} {r' : Region} {stats' : Stats}
    (h : c.serve wait r stats = (left, r', stats')) :
    ∃ c' ended, (∀ held, left = some held → c' = held) ∧
      Alone stop ({ connection := c }, r, stats.count .connectionAccepted)
        ({ connection := c', phase := if left.isSome then .checking else .gone, ended },
          r', stats') := by
  have haccept : c.accept r stats =
      (true, r.register c.thread, stats.count .connectionAccepted) := rfl
  have hstart : Alone stop ({ connection := c }, r, stats.count .connectionAccepted)
      ({ connection := c, phase := .checking }, r.register c.thread,
        stats.count .connectionAccepted) :=
    (alone_step rfl).trans (alone_step rfl)
  obtain ⟨ended, hturns⟩ := alone_turns stop (r.register c.thread)
    (stats.count .connectionAccepted) hstop wait (c.maxTurns + 1) c none
  rw [Ingress.Connection.serve, haccept] at h
  dsimp only at h
  cases ht : c.turns wait (c.maxTurns + 1) (r.register c.thread)
      (stats.count .connectionAccepted) with
  | mk goes behind =>
    obtain ⟨c₁, r₁, stats₁⟩ := behind
    rw [ht] at h hturns
    cases goes with
    | true =>
      cases h
      exact ⟨c₁, ended, fun held h => Option.some.inj h, hstart.trans hturns⟩
    | false =>
      have hclose : Alone stop ({ connection := c₁, phase := .closing, ended }, r₁, stats₁)
          ({ connection := c₁, phase := .gone, ended }, r₁.unregister c₁.thread,
            stats₁.count .connectionClosed) :=
        (alone_step rfl).trans (alone_step rfl)
      cases h
      exact ⟨c₁, ended, nofun, (hstart.trans hturns).trans hclose⟩

/-- A connection that waits is closed when ingress is told to stop. -/
theorem alone_close (hstop : stop.requested = true) (c : Ingress.Connection)
    (ended : Option Frame.Error) :
    Alone stop ({ connection := c, phase := .checking, ended }, r, stats)
      ({ connection := c, phase := .gone, ended }, c.close r stats) := by
  have hcheck : Alone stop ({ connection := c, phase := .checking, ended }, r, stats)
      ({ connection := c, phase := .closing, ended }, r, stats) :=
    alone_step (by simp [step, hstop])
  exact (hcheck.trans (alone_step rfl)).trans (alone_step rfl)

end Session

namespace Sender

variable {stop : Signal} {r : Region} {stats : Stats}

abbrev Alone (stop : Signal) : Sender × Region × Stats → Sender × Region × Stats → Prop :=
  ReflTransGen fun a b => a.1.step stop a.2.1 a.2.2 = b

theorem alone_step {s : Sender} {b : Sender × Region × Stats} (h : s.step stop r stats = b) :
    Alone stop (s, r, stats) b := .single h

variable (stop r stats)

/-- One buffer is forwarded, which is one attempt. -/
theorem alone_forward (s : Sender) (c : Channel) (b : Buffer) (behind : List Buffer)
    (rest : List Channel) :
    Alone stop ({ s with phase := .forwarding c b behind rest .serializing }, r, stats)
      ({ s with
          egress := (Egress.forward egressThread b r s.egress stats).2.1
          phase := next c rest behind
          attempted := s.attempted ++ [(c, b)] },
        (Egress.forward egressThread b r s.egress stats).1.release,
        (Egress.forward egressThread b r s.egress stats).2.2.count .bufferReleased) := by
  have htally : ∀ (egress : Egress) (fate : Fate),
      Alone stop
        ({ s with egress, phase := .forwarding c b behind rest (.tallying fate) }, r, stats)
        ({ s with egress, phase := next c rest behind, attempted := s.attempted ++ [(c, b)] },
          r.release, (stats.count fate.event).count .bufferReleased) := fun egress fate =>
    ((alone_step rfl).trans (alone_step rfl)).trans (alone_step rfl)
  have hserialize : Subsystem.serialize r egressThread b s.egress.scratch =
      ((r.serialize egressThread b s.egress.scratch).1,
        (r.serialize egressThread b s.egress.scratch).2, r) := rfl
  unfold Egress.forward
  rw [hserialize]
  cases hs : r.serialize egressThread b s.egress.scratch with
  | mk answer scratch =>
    have hfail : (∀ n, answer ≠ .ok (n + 1)) →
        Alone stop ({ s with phase := .forwarding c b behind rest .serializing }, r, stats)
          ({ s with
              egress := { s.egress with scratch }
              phase := .forwarding c b behind rest (.tallying .unserialized) }, r, stats) := by
      intro hanswer
      refine alone_step ?_
      rcases answer with e | n
      · simp [step, forward, hs]
      · cases n with
        | zero => simp [step, forward, hs]
        | succ n => exact absurd rfl (hanswer n)
    rcases answer with e | n
    · exact (hfail (by simp)).trans (htally { s.egress with scratch } .unserialized)
    · cases n with
      | zero => exact (hfail (by simp)).trans (htally { s.egress with scratch } .unserialized)
      | succ n =>
        have hserialized :
            Alone stop ({ s with phase := .forwarding c b behind rest .serializing }, r, stats)
              ({ s with
                  egress := { s.egress with scratch }
                  phase := .forwarding c b behind rest (.sending (n + 1)) }, r, stats) :=
          alone_step (by simp [step, forward, hs])
        refine hserialized.trans ?_
        dsimp only
        cases hsend : s.egress.sink.send (scratch.take (n + 1)) with
        | mk answer sink =>
          cases answer with
          | ok size =>
            have hsent : Alone stop
                ({ s with
                    egress := { s.egress with scratch }
                    phase := .forwarding c b behind rest (.sending (n + 1)) }, r, stats)
                ({ s with
                    egress := { s.egress with scratch, sink }
                    phase := .forwarding c b behind rest (.tallying .sent) }, r, stats) :=
              alone_step (by simp [step, forward, hsend, Except.isOk, Except.toBool])
            exact hsent.trans (htally { s.egress with scratch, sink } .sent)
          | error e =>
            have hsent : Alone stop
                ({ s with
                    egress := { s.egress with scratch }
                    phase := .forwarding c b behind rest (.sending (n + 1)) }, r, stats)
                ({ s with
                    egress := { s.egress with scratch, sink }
                    phase := .forwarding c b behind rest (.tallying .sendFailed) }, r, stats) :=
              alone_step (by simp [step, forward, hsend, Except.isOk, Except.toBool])
            exact hsent.trans (htally { s.egress with scratch, sink } .sendFailed)

/-- The buffers of a turn are forwarded in order, and each of them is attempted once. -/
theorem alone_forwardAll (s : Sender) (c : Channel) (batch : List Buffer) (rest : List Channel) :
    Alone stop ({ s with phase := next c rest batch }, r, stats)
      ({ s with
          egress := (Egress.forwardAll egressThread batch (r, s.egress, stats)).2.1
          phase := .visiting rest
          attempted := s.attempted ++ batch.map (c, ·) },
        (Egress.forwardAll egressThread batch (r, s.egress, stats)).1,
        (Egress.forwardAll egressThread batch (r, s.egress, stats)).2.2) := by
  induction batch generalizing s r stats with
  | nil =>
    rw [List.map_nil, List.append_nil]
    exact .refl
  | cons b behind ih =>
    have hfirst := alone_forward stop r stats s c b behind rest
    have hrest := ih (Egress.forward egressThread b r s.egress stats).1.release
      ((Egress.forward egressThread b r s.egress stats).2.2.count .bufferReleased)
      { s with
        egress := (Egress.forward egressThread b r s.egress stats).2.1
        attempted := s.attempted ++ [(c, b)] }
    rw [List.append_assoc] at hrest
    exact hfirst.trans hrest

/-- The batch size stays as it is. -/
theorem forwardAll_batch (batch : List Buffer) (r : Region) (e : Egress) (stats : Stats) :
    (Egress.forwardAll egressThread batch (r, e, stats)).2.1.batch = e.batch := by
  induction batch generalizing r e stats with
  | nil => rfl
  | cons b rest ih =>
    have hfirst : (Egress.forward egressThread b r e stats).2.1.batch = e.batch := by
      unfold Egress.forward
      split
      · rfl
      · rfl
      · split <;> rfl
    exact (ih _ _ _).trans hfirst

/-- The turns of some rings. -/
theorem alone_visiting (s : Sender) (cs : List Channel) :
    ∃ attempted, Alone stop ({ s with phase := .visiting cs }, r, stats)
      ({ s with
          egress := (Region.pollRings s.egress.batch (Egress.handler egressThread) cs
            (r, s.egress, stats)).2.2.1
          phase := .visiting []
          handled := s.handled + (Region.pollRings s.egress.batch (Egress.handler egressThread) cs
            (r, s.egress, stats)).1
          attempted },
        (Region.pollRings s.egress.batch (Egress.handler egressThread) cs
          (r, s.egress, stats)).2.1,
        (Region.pollRings s.egress.batch (Egress.handler egressThread) cs
          (r, s.egress, stats)).2.2.2) := by
  induction cs generalizing s r stats with
  | nil => exact ⟨s.attempted, .refl⟩
  | cons c cs ih =>
    cases hh : r.handOut c s.egress.batch with
    | mk batch r₁ =>
      have hturn : Alone stop ({ s with phase := .visiting (c :: cs) }, r, stats)
          (take { s with phase := .visiting (c :: cs) } c cs batch, r₁, stats) :=
        alone_step (by simp [step, hh])
      cases batch with
      | nil =>
        obtain ⟨attempted, hrest⟩ := ih r₁ stats s
        refine ⟨attempted, ?_⟩
        simp only [Region.pollRings, hh, List.isEmpty_nil, if_true]
        exact hturn.trans hrest
      | cons b behind =>
        let backlog := s.egress.backlog || s.egress.batch ≤ (b :: behind).length
        let sent := Egress.forwardAll egressThread (b :: behind)
          (r₁, { s.egress with backlog }, stats)
        have hbatch : sent.2.1.batch = s.egress.batch := forwardAll_batch _ _ _ _
        have hsent := alone_forwardAll stop r₁ stats
          { s with egress := { s.egress with backlog }
                   handled := s.handled + (b :: behind).length } c (b :: behind) cs
        obtain ⟨attempted, hrest⟩ := ih sent.1 sent.2.2
          { s with egress := sent.2.1, handled := s.handled + (b :: behind).length
                   attempted := s.attempted ++ (b :: behind).map (c, ·) }
        refine ⟨attempted, ?_⟩
        simp only [hbatch, Nat.add_assoc] at hrest
        simp only [Region.pollRings, hh, List.isEmpty_cons, Bool.false_eq_true, if_false]
        exact (hturn.trans hsent).trans hrest

/-- A poll of the output rings, after which the thread goes on as the outcome says. -/
theorem alone_drain (s : Sender) (hf : s.final ≠ some 0) (e' : Egress) (r' : Region)
    (stats' : Stats) :
    (∀ n, Egress.drainOnce egressThread r s.egress stats = (.ok n, r', e', stats') →
      ∃ attempted, Alone stop ({ s with phase := .polling }, r, stats)
        (complete { s with egress := e', phase := .visiting [], handled := n, attempted },
          r', stats')) ∧
    (∀ error, Egress.drainOnce egressThread r s.egress stats = (.error error, r', e', stats') →
      { e' with backlog := false } = e' ∧ Alone stop ({ s with phase := .polling }, r, stats)
        ({ s with
            egress := e', handled := 0
            phase := if s.final.isSome then .leaving else .deciding }, r', stats')) := by
  have hpoll : Egress.drainOnce egressThread r s.egress stats =
      r.poll egressThread s.egress.batch (Egress.handler egressThread)
        ({ s.egress with backlog := false }, stats) := rfl
  rw [hpoll, Region.poll]
  have hbegin : Alone stop ({ s with phase := .polling }, r, stats)
      (poll { s with phase := .polling } r, r, stats) := alone_step rfl
  rcases poll_cases { s with phase := .polling } r with ⟨h0, _⟩ | ⟨_, ht, hs⟩ | ⟨_, ht, hs⟩
  · exact absurd h0 hf
  · rw [Region.checkRegistered_of_mem ht]
    rw [hs] at hbegin
    refine ⟨?_, by simp⟩
    intro n h
    obtain ⟨attempted, hturns⟩ := alone_visiting stop r stats
      { s with egress := { s.egress with backlog := false }, handled := 0 } r.outputs
    cases hp : Region.pollRings s.egress.batch (Egress.handler egressThread) r.outputs
        (r, { s.egress with backlog := false }, stats) with
    | mk count state =>
      obtain ⟨r₁, e₁, stats₁⟩ := state
      simp only [hp, Nat.zero_add] at h hturns
      cases h
      have hend : Alone stop
          ({ s with egress := e', phase := .visiting [], handled := n, attempted }, r', stats')
          (complete { s with egress := e', phase := .visiting [], handled := n, attempted },
            r', stats') := alone_step rfl
      exact ⟨attempted, (hbegin.trans hturns).trans hend⟩
  · rw [Region.checkRegistered_of_not_mem ht]
    rw [hs] at hbegin
    refine ⟨by simp, ?_⟩
    intro error h
    cases h
    exact ⟨rfl, hbegin⟩

/-- A pass before the thread saw the request to stop. -/
theorem alone_pass (s : Sender) (hf : s.final = none) :
    ∃ handled attempted, Alone stop ({ s with phase := .polling }, r, stats)
      ({ s with
          egress := (Egress.pass egressThread r s.egress stats).2.1
          phase := .deciding, handled, attempted },
        (Egress.pass egressThread r s.egress stats).1,
        (Egress.pass egressThread r s.egress stats).2.2) := by
  have hsome : s.final ≠ some 0 := by simp [hf]
  unfold Egress.pass
  cases hd : Egress.drainOnce egressThread r s.egress stats with
  | mk answer state =>
    obtain ⟨r₁, e₁, stats₁⟩ := state
    obtain ⟨hok, herror⟩ := alone_drain stop r stats s hsome e₁ r₁ stats₁
    cases answer with
    | ok n =>
      obtain ⟨attempted, hpass⟩ := hok n hd
      refine ⟨n, attempted, ?_⟩
      simpa only [complete, hf] using hpass
    | error error =>
      obtain ⟨hbacklog, hpass⟩ := herror error hd
      refine ⟨0, s.attempted, ?_⟩
      simp only [hf, Option.isSome_none, Bool.false_eq_true, if_false] at hpass
      simpa only [hf, hbacklog] using hpass

/-- After a pass the thread looks at the request, at once or when it waited. -/
theorem alone_deciding (s : Sender) (hp : s.phase = .deciding) :
    Alone stop (s, r, stats) (s.resume stop, r, stats) := by
  cases hb : s.egress.backlog with
  | true => exact alone_step (by simp [step, hp, hb])
  | false =>
    have hwait : Alone stop (s, r, stats) ({ s with phase := .waiting }, r, stats) :=
      alone_step (by simp [step, hp, hb])
    exact hwait.trans (alone_step rfl)

/-- The final passes, as many as are left or until one handles nothing. -/
theorem alone_finalPasses (s : Sender) (left : Nat) (hf : s.final = some left) :
    ∃ final handled attempted, Alone stop ({ s with phase := .polling }, r, stats)
      ({ egress := (Egress.finalPasses egressThread left r s.egress stats).2.1
         phase := .leaving, final, handled, attempted },
        (Egress.finalPasses egressThread left r s.egress stats).1,
        (Egress.finalPasses egressThread left r s.egress stats).2.2) := by
  induction left generalizing s r stats with
  | zero =>
    refine ⟨some 0, s.handled, s.attempted, alone_step ?_⟩
    simp [step, poll, hf, Egress.finalPasses]
  | succ left ih =>
    have hsome : s.final ≠ some 0 := by simp [hf]
    unfold Egress.finalPasses
    cases hd : Egress.drainOnce egressThread r s.egress stats with
    | mk answer state =>
      obtain ⟨r₁, e₁, stats₁⟩ := state
      obtain ⟨hok, herror⟩ := alone_drain stop r stats s hsome e₁ r₁ stats₁
      cases answer with
      | ok n =>
        obtain ⟨attempted, hpass⟩ := hok n hd
        cases n with
        | zero =>
          refine ⟨s.final, 0, attempted, ?_⟩
          simpa [complete, hf] using hpass
        | succ n =>
          let next : Sender :=
            { s with egress := e₁, final := some left, handled := n + 1, attempted }
          have hgoes : Alone stop ({ s with phase := .polling }, r, stats)
              ({ next with phase := .polling }, r₁, stats₁) := by
            simpa [complete, hf] using hpass
          obtain ⟨final, handled, attempted', hrest⟩ := ih r₁ stats₁ next rfl
          exact ⟨final, handled, attempted', hgoes.trans hrest⟩
      | error error =>
        obtain ⟨_, hpass⟩ := herror error hd
        refine ⟨s.final, 0, s.attempted, ?_⟩
        simpa [hf] using hpass

/-- The whole life of the thread when the stop was requested before. -/
theorem alone_run (hstop : stop.requested = true) (e : Egress) :
    ∃ final handled attempted, Alone stop ({ egress := e }, r, stats)
      ({ egress := (Egress.run egressThread r e stats).2.1
         phase := .gone, final, handled, attempted },
        (Egress.run egressThread r e stats).1, (Egress.run egressThread r e stats).2.2) := by
  have hstart : Alone stop ({ egress := e }, r, stats)
      ({ egress := e, phase := .polling }, r.register egressThread, stats) := alone_step rfl
  obtain ⟨handled, attempted, hpass⟩ := alone_pass stop (r.register egressThread) stats
    { egress := e } rfl
  have hrun : Egress.run egressThread r e stats =
      let p := Egress.pass egressThread (r.register egressThread) e stats
      let f := Egress.finalPasses egressThread Egress.maxFinalPasses p.1 p.2.1 p.2.2
      (f.1.unregister egressThread, f.2.1, f.2.2) := rfl
  cases hp : Egress.pass egressThread (r.register egressThread) e stats with
  | mk r₁ state =>
    obtain ⟨e₁, stats₁⟩ := state
    simp only [hp] at hpass hrun
    obtain ⟨final, handled', attempted', hfinal⟩ := alone_finalPasses stop r₁ stats₁
      { egress := e₁, final := some Egress.maxFinalPasses, handled, attempted }
      Egress.maxFinalPasses rfl
    have hsee := alone_deciding stop r₁ stats₁
      { egress := e₁, phase := .deciding, handled, attempted } rfl
    rw [resume, if_pos hstop] at hsee
    rw [hrun]
    exact ⟨final, handled', attempted',
      (((hstart.trans hpass).trans hsee).trans hfinal).trans (alone_step rfl)⟩

end Sender

abbrev Moment.AcceptorAlone (arrival : Option Frame.Source) : Moment → Moment → Prop :=
  ReflTransGen fun m m' => m.stepAcceptor arrival = m'

/-- A sweep joins the workers that are gone, and looks at the places in the order that is known. -/
theorem Moment.alone_sweep (arrival : Option Frame.Source) (m : Moment) (place : Nat)
    (hm : m.acceptor = .sweeping place) :
    AcceptorAlone arrival m
      { m with
        acceptor := .checking
        workers := (Workers.sweepFrom m.isGone place m.workers).1
        joined := m.joined ++ (Workers.sweepFrom m.isGone place m.workers).2 } := by
  generalize hfinished : m.isGone = finished
  generalize hworkers : m.workers = workers
  induction place, workers using Workers.sweepFrom.induct finished generalizing m with
  | case1 place workers h hgone left joined hrest ih =>
    have hjoin : m.stepAcceptor arrival = { m with
        workers := Workers.swapRemove workers place, joined := m.joined ++ [workers[place]] } := by
      simp [stepAcceptor, hm, hworkers, hfinished, h, hgone]
    have hgoes := ih (m.stepAcceptor arrival) (by rw [hjoin, hm]) (by rw [hjoin]; exact hfinished)
      (by rw [hjoin])
    rw [Workers.sweepFrom, dif_pos h, if_pos hgone]
    refine .head rfl ?_
    rw [hjoin] at hgoes ⊢
    simpa using hgoes
  | case2 place workers h hgone ih =>
    have hpass : m.stepAcceptor arrival = { m with acceptor := .sweeping (place + 1) } := by
      simp [stepAcceptor, hm, hworkers, hfinished, h, hgone]
    have hgoes := ih (m.stepAcceptor arrival) (by rw [hpass]) (by rw [hpass]; exact hfinished)
      (by rw [hpass]; exact hworkers)
    rw [Workers.sweepFrom, dif_pos h, if_neg hgone]
    refine .head rfl ?_
    rw [hpass] at hgoes ⊢
    exact hgoes
  | case3 place workers h =>
    rw [Workers.sweepFrom, dif_neg h]
    refine .single ?_
    have hnone : workers[place]? = none := List.getElem?_eq_none (Nat.le_of_not_lt h)
    simp [stepAcceptor, hm, hworkers, hnone]

/-- It joins all its workers, once they are gone, and ends. -/
theorem Moment.alone_join (arrival : Option Frame.Source) (m : Moment) (hm : m.acceptor = .joining)
    (hgone : ∀ place ∈ m.workers, m.isGone place = true) :
    AcceptorAlone arrival m
      { m with acceptor := .gone, workers := [], joined := m.joined ++ m.workers } := by
  generalize hw : m.workers = workers
  induction workers generalizing m with
  | nil =>
    refine .single ?_
    rw [List.append_nil]
    simp [stepAcceptor, hm, hw]
  | cons place workers ih =>
    rw [hw] at hgone
    obtain ⟨hfirst, hrest⟩ := List.forall_mem_cons.mp hgone
    have hpop : m.stepAcceptor arrival = { m with workers, joined := m.joined ++ [place] } := by
      simp [stepAcceptor, hm, hw, hfirst]
    have hgoes := ih { m with workers, joined := m.joined ++ [place] } hm hrest rfl
    rw [List.append_assoc] at hgoes
    exact .head hpop hgoes

/-- Steps that it makes undisturbed are a run. -/
theorem Moment.AcceptorAlone.run_eq {arrival : Option Frame.Source} {m m' : Moment}
    (h : AcceptorAlone arrival m m') :
    ∃ n, m.run ((List.replicate n arrival).map .acceptor) = m' := by
  induction h with
  | refl => exact ⟨0, rfl⟩
  | tail _ hstep ih =>
    obtain ⟨n, hrun⟩ := ih
    refine ⟨n + 1, ?_⟩
    rw [List.replicate_succ', List.map_append, run_append]
    exact (congrArg (stepAcceptor · arrival) hrun).trans hstep

end StreamRelay.Bridge
