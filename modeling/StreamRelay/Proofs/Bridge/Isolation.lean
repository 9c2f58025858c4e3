import Mathlib.Data.List.Infix
import StreamRelay.Proofs.Bridge.Alone
import StreamRelay.Proofs.Bridge.Omission

/-!
# Isolation

A connection that never dispatches a frame can be taken out of a run. What is left is a run too: all
other threads make the same moves in the same order and find what they found before. Only the
accepting thread sweeps and joins its workers at other times, as it has one worker less.
-/

namespace StreamRelay.Bridge
open Region

instance (phase : Session.Phase) : Decidable (phase = .counting .dispatched) :=
  match phase with
  | .counting verdict =>
    decidable_of_iff (verdict = .dispatched)
      ⟨congrArg Session.Phase.counting, Session.Phase.counting.inj⟩
  | .starting | .configuring | .checking | .reading | .receiving _ | .deserializing _ | .routing _
  | .submitting _ _ | .releasing _ _ | .violated _ | .closing | .leaving | .gone => isFalse nofun

def Acceptor.settled : Acceptor → Acceptor
  | .sweeping _ => .checking
  | acceptor => acceptor

namespace Moment

variable {m m' : Moment} {place : Nat}

/-- A moment of a run, and the one of the run without the connection at `place`, which is `a` by now
and had these events counted. -/
structure Apart (place : Nat) (a : Session) (events : List Event) (m m' : Moment) : Prop where
  own : m.sessions[place]? = some a
  sessions_eq : m'.sessions = Session.renumbered (m.sessions.eraseIdx place)
  present : ∃ g : Presence, m.usage = m'.usage.alongside g ∧ g.held = a.holding.length ∧
    ∀ t, (∀ n, t ≠ connectionThread n) → (t ∈ g.registered ↔ t ∈ m'.usage.region.registered)
  stats_eq : m.stats = (m'.stats.count .connectionAccepted).countAll events
  sender_eq : m'.sender = m.sender
  acceptor_eq : m'.acceptor = m.acceptor.settled
  stopper_eq : m'.stopper = m.stopper
  limits_eq : m'.limits = m.limits
  ingressStop_eq : m'.ingressStop = m.ingressStop
  egressStop_eq : m'.egressStop = m.egressStop

variable {a : Session} {events : List Event}

/-- What both runs count does not change the difference. -/
theorem Apart.countAll (h : Apart place a events m m') (more : List Event) :
    m.stats.countAll more =
      ((m'.stats.countAll more).count .connectionAccepted).countAll events := by
  rw [h.stats_eq, Stats.countAll_comm, Stats.countAll_count]

theorem Apart.place_lt (h : Apart place a events m m') : place < m.sessions.length :=
  (List.getElem?_eq_some_iff.mp h.own).1

theorem Apart.length_eq (h : Apart place a events m m') :
    m'.sessions.length + 1 = m.sessions.length := by
  have hlt := h.place_lt
  rw [h.sessions_eq, Session.renumbered, List.length_mapIdx, List.length_eraseIdx, if_pos hlt]
  omega

theorem Apart.getElem? (h : Apart place a events m m') {other : Nat} (hother : other ≠ place) :
    m'.sessions[shift place other]? =
      m.sessions[other]?.map (·.onThread (connectionThread (shift place other + 1))) := by
  rw [h.sessions_eq, Session.getElem?_renumbered_eraseIdx hother]

/-- What the accepting thread does with its workers does not matter. -/
theorem Apart.of_acceptor (h : Apart place a events m m') {acceptor acceptor' : Acceptor}
    (ha : acceptor' = acceptor.settled) (workers joined workers' joined' : List Nat) :
    Apart place a events { m with acceptor, workers, joined }
      { m' with acceptor := acceptor', workers := workers', joined := joined' } :=
  { h with acceptor_eq := ha }

theorem Apart.call (h : Apart place a events m m') {operation : Usage.Operation}
    (hout : (Move.call operation).IsOutside) :
    Apart place a events (m.move (.call operation)) (m'.move (.call operation)) := by
  obtain ⟨g, husage, hheld, hg⟩ := h.present
  have hthread : ∀ t, operation.thread? = some t → ∀ n, t ≠ connectionThread n := by
    intro t ht n heq
    exact hout.2 n (heq ▸ ht)
  obtain ⟨threads, hoperate, hthreads⟩ := m'.usage.operate_present g operation hg hthread
  refine { h with present := ⟨{ g with registered := threads }, ?_, hheld, hthreads⟩ }
  change m.usage.operate operation = _
  rw [husage]
  exact hoperate

theorem Apart.session (h : Apart place a events m m') (hm : m.Attended) (hm' : m'.Attended)
    {other : Nat} (hother : other ≠ place) (usable : Bool) :
    Apart place a events (m.stepSession other usable)
      (m'.stepSession (shift place other) usable) := by
  have hget := h.getElem? hother
  cases hs : m.sessions[other]? with
  | none =>
    rw [hs] at hget
    rw [stepSession_of_none hs, stepSession_of_none hget]
    exact h
  | some s =>
    let t := connectionThread (shift place other + 1)
    let s' := s.onThread t
    have hs' : m'.sessions[shift place other]? = some s' := by
      rw [hget, hs]
      rfl
    obtain ⟨g, husage, hheld, hg⟩ := h.present
    have hthread := hm.threads_eq other s hs
    have hhere : s.isRegistered = true → s.connection.thread ∈ g.registered := by
      intro hregistered
      have hmem := hm.attended other s hs hregistered
      rwa [← hthread, husage] at hmem
    -- the step of `s` is that of `s'`, with the connection at `place` as one user more
    have hstep : s.step m.ingressStop usable m.usage.region m.stats =
        (s'.onThread s.connection.thread).step m'.ingressStop usable
          (m'.usage.region.alongside g) m.stats := by
      rw [h.ingressStop_eq, husage]
      rfl
    obtain ⟨hsession, threads, hregion, hthreads⟩ := s'.step_onThread s.connection.thread g
      m'.ingressStop usable m'.usage.region m'.stats m.stats
      (hm'.attended (shift place other) s' hs') hhere
    have hvalid := hm'.accounts.valid s' (List.mem_of_getElem? hs')
    have heffect := Session.step_effect hvalid m'.ingressStop usable m'.usage.region m'.stats
    rw [stepSession_of_some hs, stepSession_of_some hs', hstep]
    refine { h with own := ?_, sessions_eq := ?_, present := ?_, stats_eq := ?_ }
    · dsimp only
      rw [List.getElem?_set_ne hother, h.own]
    · dsimp only
      have hstays : (s'.step m'.ingressStop usable m'.usage.region m'.stats).1.connection.thread =
          t := s'.step_thread _ _ _ _
      rw [hsession, Session.renumbered_eraseIdx_set hother, h.sessions_eq]
      exact congrArg _ (Session.onThread_of_eq hstays).symm
    · refine ⟨{ g with registered := threads }, ?_, hheld, ?_⟩
      · dsimp only
        rw [hregion, husage]
        rfl
      · intro u hu
        have hne : u ≠ s.connection.thread := by
          rw [hthread]
          exact hu _
        exact ((hthreads u hne).trans (hg u hu)).trans (heffect.registered_of_ne (hu _)).symm
    · dsimp only
      rw [Session.step_counted, Session.step_counted]
      exact h.countAll s.phase.counted

theorem Apart.sender (h : Apart place a events m m') :
    Apart place a events m.stepSender m'.stepSender := by
  obtain ⟨g, husage, hheld, hg⟩ := h.present
  have hegress : ∀ n, egressThread ≠ connectionThread n := fun n =>
    (connectionThread_ne_egressThread n).symm
  have hstep : m.sender.step m.egressStop m.usage.region m.stats =
      m'.sender.step m'.egressStop (m'.usage.region.alongside g) m.stats := by
    rw [h.sender_eq, h.egressStop_eq, husage]
    rfl
  obtain ⟨hsender, threads, hregion, hthreads, hthread⟩ := m'.sender.step_alongside g
    m'.egressStop m'.usage.region m'.stats m.stats (hg egressThread hegress)
  have heffect := m'.sender.step_effect m'.egressStop m'.usage.region m'.stats
  unfold stepSender
  rw [hstep]
  refine { h with present := ?_, stats_eq := ?_, sender_eq := hsender.symm }
  · refine ⟨{ g with registered := threads }, ?_, hheld, ?_⟩
    · dsimp only
      rw [hregion, husage]
      rfl
    · intro u hu
      by_cases hsame : u = egressThread
      · rw [hsame]
        exact hthread
      · exact ((hthreads u hsame).trans (hg u hu)).trans (heffect.registered_of_ne hsame).symm
  · dsimp only
    rw [Sender.step_counted, Sender.step_counted]
    exact h.countAll m'.sender.phase.counted

theorem Apart.stopper (h : Apart place a events m m') :
    Apart place a events m.stepStopper m'.stepStopper := by
  unfold stepStopper
  rw [h.stopper_eq]
  cases hs : m.stopper with
  | idle =>
    exact { h with stopper_eq := rfl, ingressStop_eq := congrArg Signal.trigger h.ingressStop_eq }
  | joiningIngress =>
    rw [h.acceptor_eq]
    cases ha : m.acceptor with
    | gone => exact { h with stopper_eq := rfl, acceptor_eq := rfl }
    | _ => exact h
  | stoppingEgress =>
    exact { h with stopper_eq := rfl, egressStop_eq := congrArg Signal.trigger h.egressStop_eq }
  | joiningEgress =>
    rw [h.sender_eq]
    dsimp only
    split
    · exact { h with stopper_eq := rfl, sender_eq := rfl }
    · exact h
  | done => exact h

/-- The others do not notice a step of the connection unless it has just dispatched a frame. -/
theorem Apart.own_step (h : Apart place a events m m') (hm : m.Attended) (usable : Bool)
    (hnext : ∀ a', (m.stepSession place usable).sessions[place]? = some a' →
      a'.phase ≠ .counting .dispatched) :
    ∃ a', Apart place a' (events ++ a.phase.counted) (m.stepSession place usable) m' := by
  obtain ⟨g, husage, hheld, hg⟩ := h.present
  have hregion : m.usage.region = m'.usage.region.alongside g := congrArg Usage.region husage
  rw [stepSession_of_some h.own, hregion] at hnext ⊢
  dsimp only at hnext ⊢
  rw [List.getElem?_set_self h.place_lt] at hnext
  obtain ⟨g', hregion', hheld', hg'⟩ := a.step_present m.ingressStop usable m'.usage.region m.stats
    hheld (hnext _ rfl)
  refine ⟨_, { h with
    own := List.getElem?_set_self h.place_lt, sessions_eq := ?_, present := ?_, stats_eq := ?_ }⟩
  · rw [List.eraseIdx_set_eq]
    exact h.sessions_eq
  · refine ⟨g', ?_, hheld', ?_⟩
    · dsimp only
      rw [hregion', husage]
      rfl
    · intro t ht
      have hne : t ≠ a.connection.thread := by
        rw [hm.threads_eq place a h.own]
        exact ht _
      exact (hg' t hne).trans (hg t ht)
  · dsimp only
    rw [Session.step_counted, h.stats_eq, Stats.countAll_append]

theorem run_acceptors (m : Moment) (arrival : Option Frame.Source)
    (arrivals : List (Option Frame.Source)) :
    m.run ((arrival :: arrivals).map .acceptor) =
      (m.stepAcceptor arrival).run (arrivals.map .acceptor) := rfl

theorem nobody_sublist (n : Nat) (arrival : Option Frame.Source) :
    (List.replicate n none).reduceOption.Sublist arrival.toList := by
  rw [List.reduceOption_replicate_none]
  exact List.nil_sublist _

theorem exists_settled (hm : m.acceptor = .sweeping 0) :
    ∃ n workers joined, m.run ((List.replicate n none).map .acceptor) =
      { m with acceptor := .checking, workers, joined } := by
  obtain ⟨n, hrun⟩ := (alone_sweep none m 0 hm).run_eq
  exact ⟨n, _, _, hrun⟩

theorem exists_joined (hm : m.Attended) (ha : m.acceptor = .joining)
    (hgone : ∀ s ∈ m.sessions, s.isGone = true) :
    ∃ n workers joined, m.run ((List.replicate n none).map .acceptor) =
      { m with acceptor := .gone, workers, joined } := by
  have hworkers : ∀ worker ∈ m.workers, m.isGone worker = true := by
    intro worker hworker
    have hlt := hm.workers_lt worker hworker
    rw [isGone, List.getElem?_eq_getElem hlt]
    exact hgone _ (List.getElem_mem hlt)
  obtain ⟨n, hrun⟩ := (alone_join none m ha hworkers).run_eq
  exact ⟨n, _, _, hrun⟩

theorem stepAcceptor_sweeping {worker : Nat} (ha : m.acceptor = .sweeping worker)
    (arrival : Option Frame.Source) :
    ∃ acceptor workers joined, acceptor.settled = .checking ∧
      m.stepAcceptor arrival = { m with acceptor, workers, joined } := by
  unfold stepAcceptor
  rw [ha]
  dsimp only
  split
  · exact ⟨.checking, _, _, rfl, rfl⟩
  · split
    · exact ⟨.sweeping worker, _, _, rfl, rfl⟩
    · exact ⟨.sweeping (worker + 1), _, _, rfl, rfl⟩

theorem Apart.accept (h : Apart place a events m m') (source : Frame.Source)
    (acceptor : Acceptor) (workers joined workers' joined' : List Nat) :
    Apart place a events
      { m with
        acceptor, workers, joined, stats := m.stats.count .connectionAccepted
        sessions := m.sessions ++ [{ connection := {
          thread := connectionThread (m.sessions.length + 1), reader := { config := m.limits }
          source } }] }
      { m' with
        acceptor := acceptor.settled, workers := workers', joined := joined'
        stats := m'.stats.count .connectionAccepted
        sessions := m'.sessions ++ [{ connection := {
          thread := connectionThread (m'.sessions.length + 1), reader := { config := m'.limits }
          source } }] } := by
  refine { h with own := ?_, sessions_eq := ?_, stats_eq := ?_, acceptor_eq := rfl }
  · exact (List.getElem?_append_left h.place_lt).trans h.own
  · dsimp only
    rw [Session.renumbered_eraseIdx_append h.place_lt, h.sessions_eq, ← h.length_eq, h.limits_eq,
      h.sessions_eq]
    rfl
  · exact h.countAll [.connectionAccepted]

/-- For each step of the accepting thread, that of the other run makes some, and a whole sweep at
once. -/
theorem Apart.acceptor (h : Apart place a events m m') (hm : m.Attended) (hm' : m'.Attended)
    (arrival : Option Frame.Source) :
    ∃ arrivals : List _, arrivals.reduceOption.Sublist arrival.toList ∧
      Apart place a events (m.stepAcceptor arrival) (m'.run (arrivals.map .acceptor)) := by
  have ha' := h.acceptor_eq
  cases ha : m.acceptor with
  | checking =>
    rw [ha] at ha'
    have hsame : (if m'.ingressStop.requested then Acceptor.joining else .accepting) =
        (if m.ingressStop.requested then Acceptor.joining else .accepting).settled := by
      rw [h.ingressStop_eq]
      split <;> rfl
    refine ⟨[none], List.nil_sublist _, ?_⟩
    rw [run_acceptors, stepAcceptor_checking ha, stepAcceptor_checking ha']
    exact h.of_acceptor hsame _ _ _ _
  | accepting =>
    rw [ha] at ha'
    cases arrival with
    | none =>
      obtain ⟨n, workers, joined, hrun⟩ := exists_settled (m := m'.stepAcceptor none)
        (by rw [stepAcceptor_none ha'])
      refine ⟨List.replicate (n + 1) none, nobody_sublist _ _, ?_⟩
      rw [List.replicate_succ, run_acceptors, hrun, stepAcceptor_none ha, stepAcceptor_none ha']
      exact h.of_acceptor rfl _ _ _ _
    | some source =>
      obtain ⟨n, workers, joined, hrun⟩ :=
        exists_settled (m := m'.stepAcceptor (some source)) (by rw [stepAcceptor_some ha'])
      refine ⟨some source :: List.replicate n none, ?_, ?_⟩
      · rw [List.reduceOption_cons_of_some, List.reduceOption_replicate_none]
        exact .refl _
      · rw [run_acceptors, hrun, stepAcceptor_some ha, stepAcceptor_some ha']
        exact h.accept source (.sweeping 0) _ _ _ _
  | sweeping worker =>
    obtain ⟨acceptor, workers, joined, hsettled, hstep⟩ := stepAcceptor_sweeping ha arrival
    refine ⟨[], List.nil_sublist _, ?_⟩
    rw [ha] at ha'
    rw [hstep]
    exact { h with acceptor_eq := ha'.trans hsettled.symm }
  | joining =>
    obtain ⟨acceptor, workers, joined, hnext, hstep⟩ := stepAcceptor_joining ha arrival
    rw [ha] at ha'
    rcases hnext with rfl | rfl
    · refine ⟨[], List.nil_sublist _, ?_⟩
      rw [hstep]
      exact { h with acceptor_eq := ha' }
    · -- everybody has gone, so the other run joins its workers too
      have hsupervised := hm.supervised.acceptor arrival
      rw [hstep] at hsupervised
      have hgone : ∀ s ∈ m'.sessions, s.isGone = true := by
        intro s hs
        rw [h.sessions_eq] at hs
        obtain ⟨s', hs', hphase⟩ := Session.mem_renumbered_eraseIdx hs
        have hgone' := hsupervised.sessions_gone rfl s' hs'
        rwa [Session.isGone, hphase] at hgone'
      obtain ⟨n, workers', joined', hrun⟩ := exists_joined hm' ha' hgone
      refine ⟨List.replicate n none, nobody_sublist _ _, ?_⟩
      rw [hstep, hrun]
      exact h.of_acceptor rfl _ _ _ _
  | gone =>
    refine ⟨[], List.nil_sublist _, ?_⟩
    rw [stepAcceptor_of_gone ha]
    exact h

/-- One move of the run, and what is left of it. -/
theorem Apart.move (h : Apart place a events m m') (hm : m.Attended) (hm' : m'.Attended)
    {move : Move} (hout : move.IsOutside)
    (hnext : ∀ a', (m.move move).sessions[place]? = some a' → a'.phase ≠ .counting .dispatched) :
    ∃ a' moves', Omits place m m' [move] moves' ∧
      Apart place a' (events ++ (found place m move).flatMap Session.Phase.counted) (m.move move)
        (m'.run moves') := by
  have hkept : found place m move = [] → ∀ {n : Moment}, Apart place a events (m.move move) n →
      Apart place a (events ++ (found place m move).flatMap Session.Phase.counted)
        (m.move move) n := by
    intro hfound n hn
    rw [hfound, List.flatMap_nil, List.append_nil]
    exact hn
  cases move with
  | call operation =>
    have homits := Omits.of_same place m m' hout rfl fun _ _ => rfl
    exact ⟨a, _, homits, hkept rfl (h.call hout)⟩
  | acceptor arrival =>
    obtain ⟨arrivals, harrivals, hstep⟩ := h.acceptor hm hm' arrival
    exact ⟨a, _, .acceptor place m m' harrivals, hkept rfl hstep⟩
  | session other usable =>
    by_cases hother : other = place
    · subst hother
      obtain ⟨a', hstep⟩ := h.own_step hm usable hnext
      refine ⟨a', [], .own other m m' usable, ?_⟩
      rw [found, if_pos rfl, h.own, Option.map_some, Option.toList_some, List.flatMap_singleton]
      exact hstep
    · have hget : ∀ another, another ≠ place →
          m'.sessions[shift place another]?.map Session.phase =
            m.sessions[another]?.map Session.phase := by
        intro another hanother
        rw [h.getElem? hanother, Option.map_map]
        rfl
      have homits := Omits.session hother usable hget
      exact ⟨a, _, homits, hkept (if_neg hother) (h.session hm hm' hother usable)⟩
  | sender =>
    have homits := Omits.of_same place m m' hout rfl fun _ _ => rfl
    exact ⟨a, _, homits, hkept rfl h.sender⟩
  | stopper =>
    have homits := Omits.of_same place m m' hout rfl fun _ _ => rfl
    exact ⟨a, _, homits, hkept rfl h.stopper⟩

def Refused (place : Nat) (m : Moment) (moves : List Move) : Prop :=
  ∀ front, front <+: moves → ∀ s, (m.run front).sessions[place]? = some s →
    s.phase ≠ .counting .dispatched

instance (place : Nat) (m : Moment) (moves : List Move) : Decidable (Refused place m moves) :=
  decidable_of_iff (∀ front ∈ moves.inits, ∀ s ∈ (m.run front).sessions[place]?,
    s.phase ≠ .counting .dispatched) (by simp only [List.mem_inits, Option.mem_def, Refused])

theorem Refused.tail {move : Move} {moves : List Move} (h : Refused place m (move :: moves)) :
    Refused place (m.move move) moves := by
  intro front hfront
  exact h (move :: front) ((List.prefix_cons_inj move).mpr hfront)

theorem Refused.head {move : Move} {moves : List Move} (h : Refused place m (move :: moves)) :
    ∀ s, (m.move move).sessions[place]? = some s → s.phase ≠ .counting .dispatched :=
  h.tail [] List.nil_prefix

theorem Apart.run (h : Apart place a events m m') (hm : m.Attended) (hm' : m'.Attended)
    {moves : List Move} (hout : ∀ move ∈ moves, move.IsOutside) (hrefused : Refused place m moves) :
    ∃ a' moves', Omits place m m' moves moves' ∧
      Apart place a' (events ++ (trail place m moves).flatMap Session.Phase.counted) (m.run moves)
        (m'.run moves') := by
  induction moves generalizing m m' a events with
  | nil =>
    refine ⟨a, [], ⟨nofun, rfl, .refl _, fun _ _ => rfl⟩, ?_⟩
    rw [trail, List.flatMap_nil, List.append_nil]
    exact h
  | cons move moves ih =>
    obtain ⟨hmove, hmoves⟩ := List.forall_mem_cons.mp hout
    obtain ⟨a₁, front, homits, hstep⟩ := h.move hm hm' hmove hrefused.head
    obtain ⟨a', back, homits', hrest⟩ :=
      ih hstep (hm.move hmove) (hm'.run homits.outside) hmoves hrefused.tail
    refine ⟨a', front ++ back, homits.append homits', ?_⟩
    rw [List.append_assoc, ← List.flatMap_append] at hrest
    rw [run_append]
    exact hrest

theorem stepAcceptor_sessions (ha : m.acceptor ≠ .accepting) (arrival : Option Frame.Source) :
    (m.stepAcceptor arrival).sessions = m.sessions := by
  cases hacceptor : m.acceptor with
  | checking => rw [stepAcceptor_checking hacceptor]
  | accepting => contradiction
  | sweeping worker =>
    obtain ⟨_, _, _, _, hstep⟩ := stepAcceptor_sweeping hacceptor arrival
    rw [hstep]
  | joining =>
    obtain ⟨_, _, _, _, hstep⟩ := stepAcceptor_joining hacceptor arrival
    rw [hstep]
  | gone => rw [stepAcceptor_of_gone hacceptor]

/-- The connection is accepted: nothing tells the two runs apart but the count. -/
theorem Apart.accepted (hm : m.Attended) (s : Session) (hs : s.holding = []) (acceptor : Acceptor)
    (workers joined workers' joined' : List Nat) :
    Apart m.sessions.length s []
      { m with
        acceptor, workers, joined, stats := m.stats.count .connectionAccepted
        sessions := m.sessions ++ [s] }
      { m with acceptor := acceptor.settled, workers := workers', joined := joined' } where
  own := List.getElem?_concat_length
  sessions_eq := by
    rw [List.eraseIdx_append_of_length_le (Nat.le_refl _), Nat.sub_self, List.eraseIdx_cons_zero,
      List.append_nil, Session.renumbered_of_threads hm.threads_eq]
  present := by
    refine ⟨{ registered := m.usage.region.registered }, rfl, ?_, fun _ _ => Iff.rfl⟩
    rw [hs, List.length_nil]
  stats_eq := rfl
  sender_eq := rfl
  acceptor_eq := rfl
  stopper_eq := rfl
  limits_eq := rfl
  ingressStop_eq := rfl
  egressStop_eq := rfl

/-- Until the connection is accepted, the run without it is the same. -/
theorem exists_apart (hm : m.Attended) (hplace : m.sessions.length ≤ place) {move : Move}
    (hout : move.IsOutside) :
    ∃ moves', Omits place m m [move] moves' ∧
      ((m.run moves' = m.move move ∧ (m.move move).sessions.length ≤ place) ∨
        ∃ a, Apart place a [] (m.move move) (m.run moves')) := by
  cases move with
  | call operation =>
    exact ⟨_, .of_same place m m hout rfl fun _ _ => rfl, .inl ⟨rfl, hplace⟩⟩
  | acceptor arrival =>
    by_cases hlength : (m.stepAcceptor arrival).sessions.length ≤ place
    · have harrivals : [arrival].reduceOption.Sublist arrival.toList := by
        rw [List.reduceOption_singleton]
      exact ⟨_, .acceptor place m m harrivals, .inl ⟨rfl, hlength⟩⟩
    · have ha : m.acceptor = .accepting := by
        by_contra ha
        rw [stepAcceptor_sessions ha] at hlength
        contradiction
      cases arrival with
      | none =>
        rw [stepAcceptor_none ha] at hlength
        contradiction
      | some source =>
        rw [stepAcceptor_some ha, List.length_append, List.length_singleton] at hlength
        obtain rfl : m.sessions.length = place := by omega
        obtain ⟨n, workers, joined, hrun⟩ := exists_settled (m := m.stepAcceptor none)
          (by rw [stepAcceptor_none ha])
        let s : Session := { connection := {
          thread := connectionThread (m.sessions.length + 1), reader := { config := m.limits }
          source } }
        refine ⟨_, .acceptor _ m m (nobody_sublist (n + 1) _), .inr ⟨s, ?_⟩⟩
        rw [List.replicate_succ, run_acceptors, hrun, Moment.move, stepAcceptor_none ha,
          stepAcceptor_some ha]
        exact .accepted hm s rfl (.sweeping 0) _ _ _ _
  | session other usable =>
    have hlength := (stepSession_length m other usable).trans_le hplace
    by_cases hother : other = place
    · subst hother
      have hnone : m.sessions[other]? = none := List.getElem?_eq_none hplace
      exact ⟨_, .own other m m usable, .inl ⟨(stepSession_of_none hnone usable).symm, hlength⟩⟩
    · have hget : ∀ another, another ≠ place →
          m.sessions[shift place another]?.map Session.phase =
            m.sessions[another]?.map Session.phase :=
        fun another hanother => congrArg _ (getElem?_shift hplace hanother)
      exact ⟨_, .session hother usable hget, .inl ⟨stepSession_shift hplace hother usable, hlength⟩⟩
  | sender => exact ⟨_, .of_same place m m hout rfl fun _ _ => rfl, .inl ⟨rfl, hplace⟩⟩
  | stopper =>
    refine ⟨_, .of_same place m m hout rfl fun _ _ => rfl, .inl ⟨rfl, ?_⟩⟩
    obtain ⟨_, _, _, h⟩ := stepStopper_eq m
    rw [Moment.move, h]
    exact hplace

theorem run_apart (hm : m.Attended) (hplace : m.sessions.length ≤ place) {moves : List Move}
    (hout : ∀ move ∈ moves, move.IsOutside) (hrefused : Refused place m moves)
    (ha : (m.run moves).sessions[place]? = some a) :
    ∃ moves', Omits place m m moves moves' ∧
      Apart place a ((trail place m moves).flatMap Session.Phase.counted) (m.run moves)
        (m.run moves') := by
  induction moves generalizing m with
  | nil =>
    have hlt := (List.getElem?_eq_some_iff.mp ha).1
    exact absurd hplace (Nat.not_le_of_lt hlt)
  | cons move moves ih =>
    obtain ⟨hmove, hmoves⟩ := List.forall_mem_cons.mp hout
    have hnone : found place m move = [] := by
      cases move with
      | session other usable =>
        rw [found, List.getElem?_eq_none hplace]
        exact ite_self _
      | _ => rfl
    obtain ⟨front, homits, ⟨hsame, hplace'⟩ | ⟨a₁, hstep⟩⟩ := exists_apart hm hplace hmove
    · obtain ⟨back, homits', hrest⟩ := ih (hm.move hmove) hplace' hmoves hrefused.tail ha
      refine ⟨front ++ back, homits.append (hsame ▸ homits'), ?_⟩
      rw [run_append, hsame, trail, hnone]
      exact hrest
    · obtain ⟨a', back, homits', hrest⟩ :=
        hstep.run (hm.move hmove) (hm.run homits.outside) hmoves hrefused.tail
      obtain rfl : a' = a := Option.some.inj (hrest.own.symm.trans ha)
      refine ⟨front ++ back, homits.append homits', ?_⟩
      rw [run_append, trail, hnone]
      exact hrest

/-- A connection none of whose frames is dispatched can be taken out of any run. There is a run of
the same moves of all other threads, which find every other connection in the same phases, so it
gets the same frames with the same outcomes. At its end these connections and the egress side are
the same, with all datagrams that were sent, and the region and what callers hold, but for who is
registered and for the buffers that the refused connection acquired and released. The counters have
besides what that connection caused. -/
theorem run_isolates {c : Config} {region : Region} (hr : ofConfig c = .ok region)
    (settings : Settings) (sink : DatagramSink) {moves : List Move}
    (hout : ∀ move ∈ moves, move.IsOutside) {place : Nat} {a : Session}
    (ha : ((start settings sink region).run moves).sessions[place]? = some a)
    (hrefused : Refused place (start settings sink region) moves) :
    let m₀ := start settings sink region
    let m := m₀.run moves
    let events := (trail place m₀ moves).flatMap Session.Phase.counted
    ∃ moves', let m' := m₀.run moves'
      Omits place m₀ m₀ moves moves' ∧
      m'.sessions = Session.renumbered (m.sessions.eraseIdx place) ∧
      m'.sender = m.sender ∧ m'.stopper = m.stopper ∧ m'.acceptor = m.acceptor.settled ∧
      (∃ g : Presence, m.usage = m'.usage.alongside g ∧ g.held = a.holding.length ∧
        ∀ t, (∀ n, t ≠ connectionThread n) →
          (t ∈ g.registered ↔ t ∈ m'.usage.region.registered)) ∧
      m.stats = (m'.stats.count .connectionAccepted).countAll events ∧
      ∀ e ∈ events, e ∈ [Event.connectionClosed, .protocolError, .frameReceived, .droppedMalformed,
        .droppedUnknownStream, .droppedSubmitFailed, .droppedLookupFailed] := by
  intro m₀ m events
  have hm : m₀.Attended := .start hr settings sink
  obtain ⟨moves', homits, hrest⟩ := run_apart hm (Nat.zero_le place) hout hrefused ha
  refine ⟨moves', homits, hrest.sessions_eq, hrest.sender_eq, hrest.stopper_eq, hrest.acceptor_eq,
    hrest.present, hrest.stats_eq, ?_⟩
  intro e he
  obtain ⟨phase, hphase, hcounted⟩ := List.mem_flatMap.mp he
  obtain ⟨front, hfront, s, hs, rfl⟩ := mem_trail hphase
  exact Session.mem_counted (hrefused front hfront s hs) hcounted

/-- Two peers connect. The frame of the first one is for a stream without a channel, and what
follows is too long; that of the second one is sent on. Their threads take turns. -/
def intruding : List Move :=
  let stranger := Frame.Source.ofArrivals
    [.bytes (Frame.wire (List.replicate 16 1 ++ [9])), .bytes [255, 255]]
  let guest := Frame.Source.ofArrivals [.bytes (Frame.wire (StreamId.nil.bytes ++ [9]))]
  preparing ++ [.acceptor none, .acceptor (some stranger), .acceptor none, .acceptor none,
    .acceptor none, .acceptor (some guest)] ++
    (List.replicate 14 [Move.session 0 true, .session 1 true]).flatten ++ List.replicate 8 .sender

theorem intruding_outside : ∀ move ∈ intruding, move.IsOutside := by
  intro move hmove
  simp only [intruding, List.mem_append, List.mem_cons, List.not_mem_nil, or_false,
    List.mem_flatten, List.mem_replicate] at hmove
  by_cases hprepared : move ∈ preparing
  · exact preparing_outside move hprepared
  · cases move with
    | call operation =>
      simp [hprepared] at hmove
    | _ => trivial

def vacant : Moment := start {} { description := "sink" } { config := Usage.tight }

theorem run_isolates_intruding :
    ∃ moves', Omits 0 vacant vacant intruding moves' ∧
      (vacant.run moves').sessions.length = 1 ∧
      (vacant.run moves').sender.egress.sink.sent = [StreamId.nil.bytes ++ [9]] ∧
      (vacant.run moves').stats = {
        connectionsAccepted := 1, connectionsClosed := 1, framesReceived := 1, framesDispatched := 1
        datagramsSent := 1, buffersReleased := 1 } := by
  have hlength : (vacant.run intruding).sessions.length = 2 := by decide +kernel
  have hstranger : (vacant.run intruding).sessions[0]? = some (vacant.run intruding).sessions[0] :=
    List.getElem?_eq_getElem _
  have hevents : (trail 0 vacant intruding).flatMap Session.Phase.counted =
      [.frameReceived, .droppedUnknownStream, .protocolError, .connectionClosed] := by
    decide +kernel
  have hcounters : (vacant.run intruding).stats = {
      connectionsAccepted := 2, connectionsClosed := 2, protocolErrors := 1, framesReceived := 2
      framesDispatched := 1, droppedUnknownStream := 1, datagramsSent := 1
      buffersReleased := 1 } := by
    decide +kernel
  have hdatagrams :
      (vacant.run intruding).sender.egress.sink.sent = [StreamId.nil.bytes ++ [9]] := by
    decide +kernel
  have hrefused : Refused 0 vacant intruding := by decide +kernel
  have hisolates := run_isolates (c := Usage.tight) rfl {} { description := "sink" }
    intruding_outside hstranger hrefused
  rw [← vacant] at hisolates
  dsimp only at hisolates
  rw [hevents, hcounters] at hisolates
  obtain ⟨moves', homits, hsessions, hsender, _, _, _, hstats, _⟩ := hisolates
  refine ⟨moves', homits, ?_, ?_, ?_⟩
  · rw [hsessions, Session.renumbered, List.length_mapIdx, List.length_eraseIdx, hlength]
    rfl
  · rw [hsender]
    exact hdatagrams
  · generalize (vacant.run moves').stats = stats at hstats ⊢
    cases stats
    simpa [Stats.countAll, Stats.count, eq_comm] using hstats

end Moment

end StreamRelay.Bridge
