import StreamRelay.Proofs.Bridge.Accounting
import StreamRelay.Proofs.Bridge.Alone

/-!
# The bridge as a run of its threads

What a bridge does in one piece, its threads can do step by step: it is started, it serves a
connection and sweeps its workers, it drains the output rings, and it stops. So every bridge,
between two of its activities, is a moment of a run.
-/

namespace StreamRelay.Bridge
open Region Relation

namespace Moment

abbrev Leads : Moment → Moment → Prop :=
  ReflTransGen fun m m' => ∃ move, move.IsOutside ∧ m.move move = m'

theorem leads_run {m m' : Moment} (h : m.Leads m') :
    ∃ moves, (∀ move ∈ moves, move.IsOutside) ∧ m.run moves = m' := by
  induction h with
  | refl => exact ⟨[], nofun, rfl⟩
  | tail _ hmove ih =>
    obtain ⟨moves, hmoves, hrun⟩ := ih
    obtain ⟨move, hout, hmove⟩ := hmove
    refine ⟨moves ++ [move], ?_, ?_⟩
    · rw [List.forall_mem_append, List.forall_mem_singleton]
      exact ⟨hmoves, hout⟩
    · rw [run_append]
      exact (congrArg (Moment.move · move) hrun).trans hmove

theorem leads_acceptor (m : Moment) (arrival : Option Frame.Source) :
    m.Leads (m.stepAcceptor arrival) := .single ⟨.acceptor arrival, trivial, rfl⟩

theorem leads_stopper (m : Moment) : m.Leads m.stepStopper := .single ⟨.stopper, trivial, rfl⟩

def withSession (m : Moment) (place : Nat) (s : Session × Region × Stats) : Moment :=
  { m with
    usage := { m.usage with region := s.2.1 }, stats := s.2.2
    sessions := m.sessions.set place s.1 }

def withSender (m : Moment) (s : Sender × Region × Stats) : Moment :=
  { m with usage := { m.usage with region := s.2.1 }, stats := s.2.2, sender := s.1 }

theorem leads_session {m : Moment} {place : Nat} {s : Session} {s' : Session × Region × Stats}
    (hs : m.sessions[place]? = some s)
    (h : Session.Alone m.ingressStop (s, m.usage.region, m.stats) s') :
    m.Leads (m.withSession place s') := by
  obtain ⟨hplace, hget⟩ := List.getElem?_eq_some_iff.mp hs
  have hstep : ∀ a b : Session × Region × Stats, a.1.step m.ingressStop true a.2.1 a.2.2 = b →
      (m.withSession place a).move (.session place true) = m.withSession place b := by
    rintro a b rfl
    have ha : (m.sessions.set place a.1)[place]? = some a.1 := List.getElem?_set_self hplace
    simp [move, stepSession, withSession, ha, List.set_set]
  have hlift : (m.withSession place (s, m.usage.region, m.stats)).Leads (m.withSession place s') :=
    ReflTransGen.lift (m.withSession place)
      (fun a b hab => ⟨.session place true, trivial, hstep a b hab⟩) _ _ h
  have hstart : m.withSession place (s, m.usage.region, m.stats) = m := by
    rw [withSession, ← hget, List.set_getElem_self]
  rwa [hstart] at hlift

theorem leads_sender {m : Moment} {s' : Sender × Region × Stats}
    (h : Sender.Alone m.egressStop (m.sender, m.usage.region, m.stats) s') :
    m.Leads (m.withSender s') := by
  have hstep : ∀ a b : Sender × Region × Stats, a.1.step m.egressStop a.2.1 a.2.2 = b →
      (m.withSender a).move .sender = m.withSender b := by
    rintro a b rfl
    rfl
  exact ReflTransGen.lift m.withSender (fun a b hab => ⟨.sender, trivial, hstep a b hab⟩) _ _ h

theorem leads_acceptors {m m' : Moment} {arrival : Option Frame.Source}
    (h : AcceptorAlone arrival m m') : m.Leads m' :=
  ReflTransGen.mono (fun _ _ hab => ⟨.acceptor arrival, trivial, hab⟩) _ _ h

end Moment

def Session.Leaves (s : Session) : Option Ingress.Connection → Prop
  | some connection => ∃ ended, s = { connection, phase := .checking, ended }
  | none => s.isGone = true

theorem Session.Leaves.isGone_eq {s : Session} {left : Option Ingress.Connection}
    (h : s.Leaves left) : s.isGone = left.isNone := by
  cases left with
  | some connection =>
    obtain ⟨ended, rfl⟩ := h
    rfl
  | none => exact h

namespace Worker

def place (w : Worker) : Nat := w.number - 1

def IsAt (w : Worker) (sessions : List Session) : Prop :=
  w.number = w.place + 1 ∧ ∃ s, sessions[w.place]? = some s ∧ s.Leaves w.connection

variable {w : Worker} {sessions sessions' : List Session}

theorem IsAt.place_lt (h : w.IsAt sessions) : w.place < sessions.length := by
  obtain ⟨_, s, hs, _⟩ := h
  exact (List.getElem?_eq_some_iff.mp hs).1

theorem IsAt.of_same (h : w.IsAt sessions) (hs : sessions'[w.place]? = sessions[w.place]?) :
    w.IsAt sessions' := by
  unfold IsAt
  rw [hs]
  exact h

theorem IsAt.isFinished_eq (h : w.IsAt sessions) :
    sessions[w.place]?.any Session.isGone = w.isFinished := by
  obtain ⟨_, s, hs, hleaves⟩ := h
  rw [hs, isFinished, ← hleaves.isGone_eq]
  rfl

end Worker

/-- A bridge between two activities is this moment of a run. -/
structure Shows (b : Bridge Region) (m : Moment) : Prop where
  region_eq : m.usage.region = b.system
  stats_eq : m.stats = b.stats
  limits_eq : m.limits = b.settings.frameConfig
  egress_eq : m.sender.egress = b.egress
  draining : b.draining = true → m.sender.phase = .deciding ∧ m.sender.final = none
  drained : b.draining = false → m.sender.phase = .gone
  accepted_eq : m.sessions.length = b.accepted
  ingressStop_eq : m.ingressStop = b.ingressStop
  egressStop_eq : m.egressStop = b.egressStop
  workers_eq : m.workers = b.workers.map Worker.place
  nodup : m.workers.Nodup
  joined_eq : b.joined = m.joined.map (· + 1)
  served : ∀ w ∈ b.workers, w.IsAt m.sessions

def Moment.IsBetween (m : Moment) : Prop :=
  (m.ingressStop.requested = false ∧ m.egressStop.requested = false ∧ m.acceptor = .checking ∧
    m.stopper = .idle) ∨
  (m.ingressStop.requested = true ∧ m.acceptor = .gone ∧ m.stopper = .done)

variable {b : Bridge Region} {m : Moment}

/-- The egress thread has done nothing. -/
theorem Shows.rest (h : b.Shows m) : m.withSender (m.sender, b.system, b.stats) = m := by
  rw [Moment.withSender, ← h.region_eq, ← h.stats_eq]

theorem Shows.pass (h : b.Shows m) (hstop : m.egressStop.requested = false) :
    ∃ sender, let m' := m.withSender (sender, b.pass.system, b.pass.stats)
      m.Leads m' ∧ b.pass.Shows m' := by
  cases hd : b.draining with
  | false =>
    have hsame : b.pass = b := by
      rw [Bridge.pass, hd, if_neg Bool.false_ne_true]
    refine ⟨m.sender, ?_⟩
    rw [hsame, h.rest]
    exact ⟨.refl, h⟩
  | true =>
    obtain ⟨hphase, hfinal⟩ := h.draining hd
    have hdecide := Sender.alone_deciding m.egressStop m.usage.region m.stats m.sender hphase
    rw [Sender.resume, hstop, if_neg Bool.false_ne_true] at hdecide
    obtain ⟨handled, attempted, hpass⟩ := Sender.alone_pass m.egressStop m.usage.region m.stats
      { m.sender with final := none } rfl
    have hleads := Moment.leads_sender (hdecide.trans hpass)
    have hb : b.pass = { b with
        system := (Egress.pass egressThread b.system b.egress b.stats).1
        egress := (Egress.pass egressThread b.system b.egress b.stats).2.1
        stats := (Egress.pass egressThread b.system b.egress b.stats).2.2 } := by
      rw [Bridge.pass, hd, if_pos rfl]
    rw [h.region_eq, h.stats_eq, h.egress_eq] at hleads
    rw [hb]
    refine ⟨_, hleads, ?_⟩
    exact { h with
      region_eq := rfl, stats_eq := rfl, egress_eq := rfl
      draining := fun _ => ⟨rfl, rfl⟩
      drained := fun hno => absurd (hd.symm.trans hno) (by decide) }

theorem drain_succ (b : Bridge Region) (bound : Nat) :
    b.drain (bound + 1) = if b.pass.egress.backlog then b.pass.drain bound else b.pass := by
  cases hd : b.draining with
  | false =>
    have hpass : b.pass = b := by
      rw [Bridge.pass, hd, if_neg Bool.false_ne_true]
    have hdrain : ∀ n, b.drain n = b := by
      intro n
      rw [Bridge.drain, hd, if_neg Bool.false_ne_true]
    rw [hpass, hdrain, hdrain, ite_self]
  | true =>
    cases hp : Egress.pass egressThread b.system b.egress b.stats with
    | mk system behind =>
      obtain ⟨egress, stats⟩ := behind
      have hpass : b.pass = { b with system, egress, stats } := by
        rw [Bridge.pass, hd, if_pos rfl, hp]
      rw [hpass, Bridge.drain, hd, if_pos rfl, Egress.passes, hp]
      dsimp only
      split <;> rfl

theorem Shows.drain (h : b.Shows m) (hstop : m.egressStop.requested = false) (bound : Nat) :
    ∃ sender, let m' := m.withSender (sender, (b.drain bound).system, (b.drain bound).stats)
      m.Leads m' ∧ (b.drain bound).Shows m' := by
  induction bound generalizing b m with
  | zero =>
    have hsame : b.drain 0 = b := by
      rw [Bridge.drain]
      split <;> rfl
    refine ⟨m.sender, ?_⟩
    rw [hsame, h.rest]
    exact ⟨.refl, h⟩
  | succ bound ih =>
    obtain ⟨sender, hleads, hpass⟩ := h.pass hstop
    rw [drain_succ]
    split
    · obtain ⟨sender', hleads', hdrain⟩ := ih hpass hstop
      exact ⟨sender', hleads.trans hleads', hdrain⟩
    · exact ⟨sender, hleads, hpass⟩

/-- A sweep of the accepting thread is one of the bridge. -/
theorem Shows.sweep (h : b.Shows m) (ha : m.acceptor = .sweeping 0) :
    ∃ workers joined, m.Leads { m with acceptor := .checking, workers, joined } ∧
      b.sweep.Shows { m with acceptor := .checking, workers, joined } := by
  have hleads := Moment.leads_acceptors (Moment.alone_sweep none m 0 ha)
  have hsame : ∀ w ∈ b.workers, m.isGone w.place = w.isFinished := fun w hw =>
    (h.served w hw).isFinished_eq
  have hswept := Workers.sweepFrom_map Worker.place 0 b.workers hsame
  rw [← h.workers_eq] at hswept
  have hperm := Workers.sweepFrom_perm Worker.isFinished 0 b.workers
  refine ⟨_, _, hleads, ?_⟩
  rw [hswept]
  have hleft : ∀ w ∈ (Workers.sweepFrom Worker.isFinished 0 b.workers).1, w ∈ b.workers :=
    fun w hw => hperm.subset (List.mem_append_left _ hw)
  have hjoined : ∀ w ∈ (Workers.sweepFrom Worker.isFinished 0 b.workers).2, w ∈ b.workers :=
    fun w hw => hperm.subset (List.mem_append_right _ hw)
  refine { h with workers_eq := rfl, nodup := ?_, joined_eq := ?_, served := ?_ }
  · have hnodup := h.nodup
    rw [h.workers_eq, ← (hperm.map Worker.place).nodup_iff, List.map_append] at hnodup
    exact (List.nodup_append.mp hnodup).1
  · have hnumbers : (Workers.sweepFrom Worker.isFinished 0 b.workers).2.map (·.number) =
        ((Workers.sweepFrom Worker.isFinished 0 b.workers).2.map Worker.place).map (· + 1) := by
      rw [List.map_map]
      exact List.map_congr_left fun w hw => (h.served w (hjoined w hw)).1
    dsimp only [Bridge.sweep, Workers.sweep]
    rw [List.map_append, hnumbers, h.joined_eq]
  · exact fun w hw => h.served w (hleft w hw)

/-- A connection that was accepted has got the next place. -/
theorem Shows.append (h : b.Shows m) {left : Option Ingress.Connection} {s : Session}
    (hs : s.Leaves left) (region : Region) (stats : Stats) :
    Shows
      { b with
        system := region, stats, accepted := b.accepted + 1
        workers := b.workers ++ [{ number := b.accepted + 1, connection := left }] }
      { m with
        usage := { m.usage with region }, stats, sessions := m.sessions ++ [s]
        workers := m.workers ++ [m.sessions.length] } := by
  refine { h with
    region_eq := rfl, stats_eq := rfl, accepted_eq := ?_, workers_eq := ?_, nodup := ?_
    served := ?_ }
  · rw [List.length_append, h.accepted_eq]
    rfl
  · rw [List.map_append, h.workers_eq, h.accepted_eq]
    rfl
  · refine List.nodup_append.mpr ⟨h.nodup, List.pairwise_singleton _ _, ?_⟩
    intro place hmem last hlast
    obtain rfl := List.mem_singleton.mp hlast
    rw [h.workers_eq] at hmem
    obtain ⟨w, hw, rfl⟩ := List.mem_map.mp hmem
    exact (h.served w hw).place_lt.ne
  · intro w hw
    rcases List.mem_append.mp hw with hw | hw
    · have hat := h.served w hw
      exact hat.of_same (List.getElem?_append_left hat.place_lt)
    · obtain rfl := List.mem_singleton.mp hw
      have hget : (m.sessions ++ [s])[b.accepted]? = some s := by
        rw [← h.accepted_eq]
        exact List.getElem?_concat_length
      exact ⟨rfl, s, hget, hs⟩

/-- A connection is accepted and served, and the workers are swept. -/
theorem Shows.serve (h : b.Shows m) (ha : m.acceptor = .checking)
    (hstop : m.ingressStop.requested = false) (chunks : List Bytes) (held : Bool) :
    ∃ sessions workers joined, let m' := { m with
        usage := { m.usage with region := (b.serve chunks held).system }
        stats := (b.serve chunks held).stats, acceptor := .checking, sessions, workers, joined }
      m.Leads m' ∧ (b.serve chunks held).Shows m' := by
  let source := Frame.Source.ofArrivals
    (chunks.filter (!·.isEmpty) |>.map Frame.ReadOutcome.bytes)
  let connection : Ingress.Connection :=
    { thread := connectionThread (b.accepted + 1)
      reader := { config := b.settings.frameConfig }, source }
  let accepted : Moment :=
    { m with
      acceptor := .sweeping 0, stats := m.stats.count .connectionAccepted
      sessions := m.sessions ++ [{ connection }], workers := m.workers ++ [m.sessions.length] }
  have haccept : m.Leads accepted := by
    have hready : m.stepAcceptor none = { m with acceptor := .accepting } := by
      simp [Moment.stepAcceptor, ha, hstop]
    have harrival : (m.stepAcceptor none).stepAcceptor (some source) = accepted := by
      rw [hready]
      simp only [Moment.stepAcceptor, h.accepted_eq, h.limits_eq, accepted, connection]
    rw [← harrival]
    exact (m.leads_acceptor none).trans (Moment.leads_acceptor _ _)
  cases hserve : connection.serve held b.system b.stats with
  | mk left behind =>
    obtain ⟨region, stats⟩ := behind
    obtain ⟨c, ended, hleft, halone⟩ := Session.alone_serve m.ingressStop b.system b.stats hstop
      held connection hserve
    have hplace : accepted.sessions[m.sessions.length]? = some { connection } :=
      List.getElem?_concat_length
    rw [← h.region_eq, ← h.stats_eq] at halone
    have hserved := Moment.leads_session hplace halone
    have hset : ∀ s, accepted.sessions.set m.sessions.length s = m.sessions ++ [s] := by
      intro s
      rw [List.set_append_right _ _ (Nat.le_refl _), Nat.sub_self]
      rfl
    rw [Moment.withSession, hset] at hserved
    let s : Session :=
      { connection := c, phase := if left.isSome then .checking else .gone, ended }
    have hs : s.Leaves left := by
      cases left with
      | some connection =>
        obtain rfl := hleft connection rfl
        exact ⟨ended, rfl⟩
      | none => rfl
    have hshows := h.append hs region stats
    have hserve' : b.serve chunks held = Bridge.sweep
        { b with
          system := region, stats, accepted := b.accepted + 1
          workers := b.workers ++ [{ number := b.accepted + 1, connection := left }] } := by
      have hunfold : b.serve chunks held = Bridge.sweep
          { b with
            system := (connection.serve held b.system b.stats).2.1
            stats := (connection.serve held b.system b.stats).2.2, accepted := b.accepted + 1
            workers := b.workers ++ [{
              number := b.accepted + 1
              connection := (connection.serve held b.system b.stats).1 }] } := rfl
      rw [hunfold, hserve]
    obtain ⟨workers, joined, hsweep, hswept⟩ :=
      Shows.sweep (m := { accepted with
        usage := { m.usage with region }, stats, sessions := m.sessions ++ [s] })
        { hshows with } rfl
    rw [hserve']
    exact ⟨_, workers, joined, (haccept.trans hserved).trans hsweep, hswept⟩

def closed (workers : List Worker) (s : Region × Stats) : Region × Stats :=
  (workers.filterMap (·.connection)).foldl (fun s connection => connection.close s.1 s.2) s

/-- Once ingress is told to stop, every connection that is still served is closed. -/
theorem leads_closed (workers : List Worker) (m : Moment) (hstop : m.ingressStop.requested = true)
    (hn : (workers.map Worker.place).Nodup) (hat : ∀ w ∈ workers, w.IsAt m.sessions) :
    ∃ sessions, sessions.length = m.sessions.length ∧
      (∀ place, m.isGone place = true → sessions[place]?.any Session.isGone = true) ∧
      (∀ w ∈ workers, sessions[w.place]?.any Session.isGone = true) ∧
      m.Leads { m with
        usage := { m.usage with region := (closed workers (m.usage.region, m.stats)).1 }
        stats := (closed workers (m.usage.region, m.stats)).2, sessions } := by
  induction workers generalizing m with
  | nil => exact ⟨m.sessions, rfl, fun _ h => h, nofun, .refl⟩
  | cons w workers ih =>
    obtain ⟨hplace, hn⟩ := List.nodup_cons.mp hn
    obtain ⟨hw, hat⟩ := List.forall_mem_cons.mp hat
    cases hc : w.connection with
    | none =>
      have hgone : m.isGone w.place = true := by
        have hfinished := hw.isFinished_eq
        rwa [Worker.isFinished, hc] at hfinished
      have hclosed : ∀ s, closed (w :: workers) s = closed workers s := by
        intro s
        rw [closed, List.filterMap_cons_none hc, closed]
      obtain ⟨sessions, hlength, hkept, hall, hleads⟩ := ih m hstop hn hat
      rw [hclosed]
      exact ⟨sessions, hlength, hkept, List.forall_mem_cons.mpr ⟨hkept _ hgone, hall⟩, hleads⟩
    | some connection =>
      have hclosed : ∀ s, closed (w :: workers) s =
          closed workers (connection.close s.1 s.2) := by
        intro s
        rw [closed, List.filterMap_cons_some hc, List.foldl_cons, closed]
      have hlt := hw.place_lt
      obtain ⟨_, before, hs, hleaves⟩ := hw
      rw [hc] at hleaves
      obtain ⟨ended, rfl⟩ := hleaves
      let s : Session := { connection, phase := .gone, ended }
      have hclose := Moment.leads_session hs
        (Session.alone_close m.ingressStop m.usage.region m.stats hstop connection ended)
      have hothers : ∀ other ∈ workers, other.IsAt (m.sessions.set w.place s) := by
        intro other hother
        have hne : w.place ≠ other.place := fun heq =>
          hplace (heq ▸ List.mem_map_of_mem hother)
        exact (hat other hother).of_same (List.getElem?_set_ne hne)
      obtain ⟨sessions, hlength, hkept, hall, hleads⟩ := ih
        (m.withSession w.place (s, connection.close m.usage.region m.stats)) hstop hn hothers
      have hgone : (m.sessions.set w.place s)[w.place]?.any Session.isGone = true := by
        rw [List.getElem?_set_self hlt]
        rfl
      rw [hclosed]
      refine ⟨sessions, ?_, ?_, ?_, hclose.trans hleads⟩
      · rw [hlength]
        exact List.length_set
      · intro place hp
        refine hkept place ?_
        by_cases heq : w.place = place
        · exact heq ▸ hgone
        · exact (congrArg _ (List.getElem?_set_ne heq)).trans hp
      · exact List.forall_mem_cons.mpr ⟨hkept _ hgone, hall⟩

theorem Shows.closeAll (h : b.Shows m) (ha : m.acceptor = .joining)
    (hstop : m.ingressStop.requested = true) :
    ∃ sessions joined, let m' := { m with
        usage := { m.usage with region := b.closeAll.system }
        stats := b.closeAll.stats, acceptor := .gone, sessions, workers := [], joined }
      m.Leads m' ∧ b.closeAll.Shows m' := by
  have hplaces : (b.workers.map Worker.place).Nodup := h.workers_eq ▸ h.nodup
  obtain ⟨sessions, hlength, _, hgone, hclose⟩ := leads_closed b.workers m hstop hplaces h.served
  rw [h.region_eq, h.stats_eq] at hclose
  have hall : ∀ place ∈ m.workers, sessions[place]?.any Session.isGone = true := by
    intro place hmem
    rw [h.workers_eq] at hmem
    obtain ⟨w, hw, rfl⟩ := List.mem_map.mp hmem
    exact hgone w hw
  have hjoin := Moment.leads_acceptors (Moment.alone_join none { m with
    usage := { m.usage with region := (closed b.workers (b.system, b.stats)).1 }
    stats := (closed b.workers (b.system, b.stats)).2, sessions } ha hall)
  refine ⟨sessions, m.joined ++ m.workers, hclose.trans hjoin, ?_⟩
  have hnumbers : b.workers.map (·.number) = m.workers.map (· + 1) := by
    rw [h.workers_eq, List.map_map]
    exact List.map_congr_left fun w hw => (h.served w hw).1
  refine { h with
    region_eq := rfl, stats_eq := rfl, accepted_eq := ?_, workers_eq := rfl, nodup := .nil
    joined_eq := ?_, served := nofun }
  · exact hlength.trans h.accepted_eq
  · rw [List.map_append, ← hnumbers, ← h.joined_eq]
    rfl

theorem Shows.finish (h : b.Shows m) (hstop : m.egressStop.requested = true) :
    ∃ sender, let m' := m.withSender (sender, b.finish.system, b.finish.stats)
      m.Leads m' ∧ sender.phase = .gone ∧ b.finish.Shows m' := by
  cases hd : b.draining with
  | false =>
    have hsame : b.finish = b := by
      rw [Bridge.finish, hd, if_neg Bool.false_ne_true]
    refine ⟨m.sender, ?_⟩
    rw [hsame, h.rest]
    exact ⟨.refl, h.drained hd, h⟩
  | true =>
    obtain ⟨hphase, _⟩ := h.draining hd
    have hdecide := Sender.alone_deciding m.egressStop m.usage.region m.stats m.sender hphase
    rw [Sender.resume, if_pos hstop] at hdecide
    obtain ⟨final, handled, attempted, hpasses⟩ := Sender.alone_finalPasses m.egressStop
      m.usage.region m.stats { m.sender with final := some Egress.maxFinalPasses }
      Egress.maxFinalPasses rfl
    have hleads := Moment.leads_sender
      ((hdecide.trans hpasses).trans (Sender.alone_step rfl))
    have hb : b.finish = { b with
        system := Region.unregister (Egress.finalPasses egressThread Egress.maxFinalPasses b.system
          b.egress b.stats).1 egressThread
        egress := (Egress.finalPasses egressThread Egress.maxFinalPasses b.system b.egress
          b.stats).2.1
        stats := (Egress.finalPasses egressThread Egress.maxFinalPasses b.system b.egress
          b.stats).2.2
        draining := false } := by
      rw [Bridge.finish, hd, if_pos rfl]
      rfl
    rw [h.region_eq, h.stats_eq, h.egress_eq] at hleads
    rw [hb]
    refine ⟨_, hleads, rfl, ?_⟩
    exact { h with
      region_eq := rfl, stats_eq := rfl, egress_eq := rfl
      draining := fun hyes => absurd hyes Bool.false_ne_true
      drained := fun _ => rfl }

/-- Ingress is stopped and joined, and then egress. -/
theorem Shows.stop (h : b.Shows m) (ha : m.acceptor = .checking) (hs : m.stopper = .idle) :
    ∃ m', m.Leads m' ∧ m'.IsBetween ∧ b.stop.Shows m' ∧
      m'.usage = { m.usage with region := b.stop.system } := by
  let b₁ : Bridge Region := { b with ingressStop := b.ingressStop.trigger }
  let m₁ : Moment :=
    { m with
      ingressStop := m.ingressStop.trigger, acceptor := .joining, stopper := .joiningIngress }
  have h₁ : b₁.Shows m₁ := { h with ingressStop_eq := rfl }
  have htell : m.Leads m₁ := by
    have hstopper : m.stepStopper =
        { m with ingressStop := m.ingressStop.trigger, stopper := .joiningIngress } := by
      simp [Moment.stepStopper, hs]
    have hacceptor : m.stepStopper.stepAcceptor none = m₁ := by
      rw [hstopper]
      simp [Moment.stepAcceptor, ha, Signal.trigger, m₁]
    rw [← hacceptor]
    exact m.leads_stopper.trans (Moment.leads_acceptor _ none)
  obtain ⟨sessions, joined, hclose, h₂⟩ := h₁.closeAll rfl rfl
  let m₃ : Moment := { m₁ with
    usage := { m₁.usage with region := b₁.closeAll.system }, stats := b₁.closeAll.stats
    acceptor := .gone, sessions, workers := [], joined
    egressStop := m.egressStop.trigger, stopper := .joiningEgress }
  have h₃ : Shows { b₁.closeAll with egressStop := b.egressStop.trigger } m₃ :=
    { h₂ with egressStop_eq := rfl }
  have htold : Moment.Leads { m₃ with egressStop := m.egressStop, stopper := .joiningIngress } m₃ :=
    (Moment.leads_stopper _).trans (Moment.leads_stopper _)
  obtain ⟨sender, hfinish, hgone, h₄⟩ := h₃.finish rfl
  let m₄ := m₃.withSender (sender, b.stop.system, b.stop.stats)
  have hdone : m₄.stepStopper = { m₄ with stopper := .done } := by
    simp [Moment.stepStopper, m₄, m₃, Moment.withSender, hgone]
  have hlast := m₄.leads_stopper
  rw [hdone] at hlast
  exact ⟨_, (((htell.trans hclose).trans htold).trans hfinish).trans hlast, .inr ⟨rfl, rfl, rfl⟩,
    { h₄ with }, rfl⟩

/-- What can become of a bridge that was started over a region, and of what other callers do to the
region meanwhile. -/
inductive Lives (settings : Settings) (sink : DatagramSink) (region : Region) :
    Bridge Region → Usage → Prop
  | start {host host' : Host} {b : Bridge Region}
    (h : Bridge.start host settings sink region = .ok (b, host')) :
    Lives settings sink region b { region := b.system }
  | call {b : Bridge Region} {u : Usage} {operation : Usage.Operation}
    (h : Lives settings sink region b u) (hout : (Moment.Move.call operation).IsOutside) :
    Lives settings sink region { b with system := (u.operate operation).region }
      (u.operate operation)
  | drain {b : Bridge Region} {u : Usage} (h : Lives settings sink region b u) (bound : Nat)
    (hstop : b.egressStop.requested = false) :
    Lives settings sink region (b.drain bound) { u with region := (b.drain bound).system }
  | serve {b : Bridge Region} {u : Usage} (h : Lives settings sink region b u)
    (hstop : b.ingressStop.requested = false) (chunks : List Bytes) (held : Bool) :
    Lives settings sink region (b.serve chunks held)
      { u with region := (b.serve chunks held).system }
  | stop {b : Bridge Region} {u : Usage} (h : Lives settings sink region b u)
    (hstop : b.ingressStop.requested = false) :
    Lives settings sink region b.stop { u with region := b.stop.system }

theorem start_eq_ok {settings : Settings} {sink : DatagramSink} {region : Region}
    {host host' : Host} (h : Bridge.start host settings sink region = .ok (b, host')) :
    ∃ listen, b = Bridge.pass {
      settings, listen, system := region.register egressThread
      egress := Egress.of sink settings.maxFrame settings.egressBatch, draining := true } := by
  have hregister : Subsystem.register region egressThread =
      (.ok (), region.register egressThread) := rfl
  simp only [Bridge.start, bind, Except.bind, hregister] at h
  split at h
  · contradiction
  · split at h
    · contradiction
    · cases h
      exact ⟨_, rfl⟩

/-- A bridge that was started has made its first pass. -/
theorem shows_start {settings : Settings} {sink : DatagramSink} {region : Region}
    {host host' : Host} (h : Bridge.start host settings sink region = .ok (b, host')) :
    ∃ sender, let m' := (Moment.start settings sink region).withSender (sender, b.system, b.stats)
      (Moment.start settings sink region).Leads m' ∧ b.Shows m' := by
  obtain ⟨listen, rfl⟩ := start_eq_ok h
  have hregister : Sender.Alone {}
      ({ egress := Egress.of sink settings.maxFrame settings.egressBatch }, region, {})
      ({ egress := Egress.of sink settings.maxFrame settings.egressBatch, phase := .polling },
        region.register egressThread, {}) := Sender.alone_step rfl
  obtain ⟨handled, attempted, hpass⟩ := Sender.alone_pass {} (region.register egressThread) {}
    { egress := Egress.of sink settings.maxFrame settings.egressBatch } rfl
  refine ⟨_, Moment.leads_sender (hregister.trans hpass), ?_⟩
  exact ⟨rfl, rfl, rfl, rfl, fun _ => ⟨rfl, rfl⟩, nofun, rfl, rfl, rfl, rfl, .nil, rfl, nofun⟩

theorem Lives.leads {settings : Settings} {sink : DatagramSink} {region : Region} {u : Usage}
    (h : Lives settings sink region b u) :
    ∃ m, (Moment.start settings sink region).Leads m ∧ m.IsBetween ∧ b.Shows m ∧ m.usage = u := by
  induction h with
  | start h =>
    obtain ⟨sender, hleads, hshows⟩ := shows_start h
    exact ⟨_, hleads, .inl ⟨rfl, rfl, rfl, rfl⟩, hshows, rfl⟩
  | call h hout ih =>
    obtain ⟨m, hleads, hbetween, hshows, rfl⟩ := ih
    have hcall : m.Leads (m.move (.call _)) := .single ⟨_, hout, rfl⟩
    exact ⟨_, hleads.trans hcall, hbetween, { hshows with region_eq := rfl }, rfl⟩
  | drain h bound hstop ih =>
    obtain ⟨m, hleads, hbetween, hshows, rfl⟩ := ih
    obtain ⟨sender, hdrain, hshows'⟩ := hshows.drain (hshows.egressStop_eq ▸ hstop) bound
    exact ⟨_, hleads.trans hdrain, hbetween, hshows', rfl⟩
  | serve h hstop chunks held ih =>
    obtain ⟨m, hleads, hbetween, hshows, rfl⟩ := ih
    rw [← hshows.ingressStop_eq] at hstop
    obtain ⟨_, hegress, ha, hs⟩ := hbetween.resolve_right fun h => by simp [hstop] at h
    obtain ⟨sessions, workers, joined, hserve, hshows'⟩ := hshows.serve ha hstop chunks held
    exact ⟨_, hleads.trans hserve, .inl ⟨hstop, hegress, rfl, hs⟩, hshows', rfl⟩
  | stop h hstop ih =>
    obtain ⟨m, hleads, hbetween, hshows, rfl⟩ := ih
    rw [← hshows.ingressStop_eq] at hstop
    obtain ⟨_, hegress, ha, hs⟩ := hbetween.resolve_right fun h => by simp [hstop] at h
    obtain ⟨m', hstops, hbetween', hshows', husage⟩ := hshows.stop ha hs
    exact ⟨m', hleads.trans hstops, hbetween', hshows', husage⟩

/-- Every bridge, between two of its activities, is a moment of a run of its threads. -/
theorem Lives.shows {settings : Settings} {sink : DatagramSink} {region : Region} {u : Usage}
    (h : Lives settings sink region b u) :
    ∃ moves, (∀ move ∈ moves, move.IsOutside) ∧
      let m := (Moment.start settings sink region).run moves
      m.IsBetween ∧ b.Shows m ∧ m.usage = u := by
  obtain ⟨m, hleads, hm⟩ := h.leads
  obtain ⟨moves, hout, rfl⟩ := Moment.leads_run hleads
  exact ⟨moves, hout, hm⟩

end StreamRelay.Bridge
