import StreamRelay.Proofs.Bridge.Effects
import StreamRelay.Proofs.Bridge.Workers

/-!
# The accounts of a running bridge

Whatever order the threads of a bridge take their steps in, its counters tell what the threads are
doing: how many connections are being served, how many of them have a frame in their hands, whether
the egress thread owes the count of a returned buffer, and which connections broke the format. Once
all threads are joined nothing is outstanding.
-/

namespace StreamRelay.Bridge.Moment
open Region

variable {m : Moment}

theorem stepAcceptor_checking (ha : m.acceptor = .checking) (arrival : Option Frame.Source) :
    m.stepAcceptor arrival =
      { m with acceptor := if m.ingressStop.requested then .joining else .accepting } := by
  simp only [stepAcceptor, ha]

theorem stepAcceptor_none (ha : m.acceptor = .accepting) :
    m.stepAcceptor none = { m with acceptor := .sweeping 0 } := by
  simp only [stepAcceptor, ha]

theorem stepAcceptor_some (ha : m.acceptor = .accepting) (source : Frame.Source) :
    m.stepAcceptor (some source) =
      { m with
        acceptor := .sweeping 0
        stats := m.stats.count .connectionAccepted
        sessions := m.sessions ++ [{ connection := {
          thread := connectionThread (m.sessions.length + 1), reader := { config := m.limits }
          source } }]
        workers := m.workers ++ [m.sessions.length] } := by
  simp only [stepAcceptor, ha]

theorem stepAcceptor_joining (ha : m.acceptor = .joining) (arrival : Option Frame.Source) :
    ∃ acceptor workers joined, (acceptor = .joining ∨ acceptor = .gone) ∧
      m.stepAcceptor arrival = { m with acceptor, workers, joined } := by
  unfold stepAcceptor
  rw [ha]
  dsimp only
  split
  · exact ⟨.gone, _, _, .inr rfl, rfl⟩
  · split
    · exact ⟨.joining, _, _, .inl rfl, rfl⟩
    · exact ⟨.joining, _, _, .inl rfl, by rw [← ha]⟩

theorem stepAcceptor_of_gone (ha : m.acceptor = .gone) (arrival : Option Frame.Source) :
    m.stepAcceptor arrival = m := by
  simp only [stepAcceptor, ha]

theorem stepAcceptor_cases (m : Moment) (arrival : Option Frame.Source) :
    (∃ acceptor workers joined, m.stepAcceptor arrival = { m with acceptor, workers, joined }) ∨
    (∃ source, m.stepAcceptor arrival = { m with
      acceptor := .sweeping 0
      stats := m.stats.count .connectionAccepted
      sessions := m.sessions ++ [{ connection := {
        thread := connectionThread (m.sessions.length + 1), reader := { config := m.limits }
        source } }]
      workers := m.workers ++ [m.sessions.length] }) := by
  unfold stepAcceptor
  cases m.acceptor with
  | checking => exact .inl ⟨_, _, _, rfl⟩
  | accepting =>
    cases arrival with
    | none => exact .inl ⟨_, _, _, rfl⟩
    | some source => exact .inr ⟨source, rfl⟩
  | sweeping place =>
    dsimp only
    split
    · exact .inl ⟨_, _, _, rfl⟩
    · split <;> exact .inl ⟨_, _, _, rfl⟩
  | joining =>
    dsimp only
    split
    · exact .inl ⟨_, _, _, rfl⟩
    · split <;> exact .inl ⟨_, _, _, rfl⟩
  | gone => exact .inl ⟨_, _, _, rfl⟩

theorem stepStopper_eq (m : Moment) :
    ∃ stopper ingressStop egressStop,
      m.stepStopper = { m with stopper, ingressStop, egressStop } := by
  unfold stepStopper
  split
  · exact ⟨_, _, _, rfl⟩
  · split <;> exact ⟨_, _, _, rfl⟩
  · exact ⟨_, _, _, rfl⟩
  · split <;> exact ⟨_, _, _, rfl⟩
  · exact ⟨_, _, _, rfl⟩

/-- What holds at first, and is kept by every move of a kind, holds after any such moves. -/
theorem run_induct {P : Moment → Prop} {Q : Move → Prop}
    (step : ∀ m move, Q move → P m → P (m.move move)) {moves : List Move}
    (hmoves : ∀ move ∈ moves, Q move) (hm : P m) : P (m.run moves) := by
  induction moves generalizing m with
  | nil => exact hm
  | cons move moves ih =>
    obtain ⟨hmove, hmoves⟩ := List.forall_mem_cons.mp hmoves
    exact ih hmoves (step m move hmove hm)

theorem stepSession_of_some {place : Nat} {s : Session} (h : m.sessions[place]? = some s)
    (usable : Bool) :
    m.stepSession place usable =
      let after := s.step m.ingressStop usable m.usage.region m.stats
      { m with
        usage := { m.usage with region := after.2.1 }
        stats := after.2.2
        sessions := m.sessions.set place after.1 } := by
  rw [stepSession, h]

theorem stepSession_of_none {place : Nat} (h : m.sessions[place]? = none) (usable : Bool) :
    m.stepSession place usable = m := by
  rw [stepSession, h]

theorem stepSession_length (m : Moment) (other : Nat) (usable : Bool) :
    (m.stepSession other usable).sessions.length = m.sessions.length := by
  cases hs : m.sessions[other]? with
  | none => rw [stepSession_of_none hs]
  | some s =>
    rw [stepSession_of_some hs]
    exact List.length_set

/-- A step of a connection replaces it among the sessions, with the effect that it has. -/
theorem stepSession_cases (hv : ∀ s ∈ m.sessions, s.Valid) (place : Nat) (usable : Bool) :
    m.stepSession place usable = m ∨
    (∃ front s s' back region stats, m.sessions = front ++ s :: back ∧ s'.Valid ∧
      s'.connection.thread = s.connection.thread ∧
      Session.Effect s s' m.usage.region m.stats region stats ∧
      m.stepSession place usable = { m with
        usage := { m.usage with region }, stats, sessions := front ++ s' :: back }) := by
  unfold stepSession
  cases hs : m.sessions[place]? with
  | none => exact .inl rfl
  | some s =>
    obtain ⟨hplace, hget⟩ := List.getElem?_eq_some_iff.mp hs
    have hvalid := hv s (List.mem_of_getElem? hs)
    have hold : m.sessions = m.sessions.take place ++ s :: m.sessions.drop (place + 1) := by
      rw [← hget, ← List.drop_eq_getElem_cons hplace, List.take_append_drop]
    have hset : ∀ s', m.sessions.set place s' =
        m.sessions.take place ++ s' :: m.sessions.drop (place + 1) := by
      intro s'
      rw [List.set_eq_take_append_cons_drop, if_pos hplace]
    refine .inr ⟨_, s, _, _, _, _, hold, hvalid.step m.ingressStop usable m.usage.region m.stats,
      s.step_thread _ _ _ _, Session.step_effect hvalid _ _ _ _, ?_⟩
    rw [← hset]

theorem stepSender_eq (m : Moment) :
    ∃ sender region stats, Sender.Effect m.sender sender m.usage.region m.stats region stats ∧
      m.stepSender = { m with usage := { m.usage with region }, stats, sender } :=
  ⟨_, _, _, m.sender.step_effect m.egressStop m.usage.region m.stats, rfl⟩

def holding (m : Moment) : List Buffer := m.sessions.flatMap Session.holding ++ m.sender.holding

structure Accounts (m : Moment) : Prop where
  valid : ∀ s ∈ m.sessions, s.Valid
  accepted : m.stats.connectionsAccepted = m.sessions.length
  served : m.stats.connectionsAccepted =
    m.stats.connectionsClosed + m.sessions.countP Session.isServed
  handling : m.stats.framesReceived = m.stats.framesDispatched + m.stats.framesDropped +
    m.sessions.countP Session.isHandling
  broken : m.stats.protocolErrors = m.sessions.countP Session.hasBroken
  attempts : m.stats.attempts = m.stats.buffersReleased + m.sender.owes.toNat
  ledger : m.usage.region.ledger.given + m.usage.refusals =
    m.usage.region.ledger.returned + m.usage.held.length + m.holding.length

theorem Accounts.start {c : Config} {region : Region} (h : ofConfig c = .ok region)
    (settings : Settings) (sink : DatagramSink) : (start settings sink region).Accounts := by
  obtain ⟨rfl, _, _⟩ := ofConfig_eq_ok h
  exact ⟨by simp [Moment.start], rfl, rfl, rfl, rfl, rfl, rfl⟩

theorem Accounts.call (hm : m.Accounts) (operation : Usage.Operation) :
    (m.move (.call operation)).Accounts where
  valid := hm.valid
  accepted := hm.accepted
  served := hm.served
  handling := hm.handling
  broken := hm.broken
  attempts := hm.attempts
  ledger := by
    have hchange := (Usage.operate_step m.usage operation).callers_change
    have hold := hm.ledger
    have hsame : (m.move (.call operation)).holding = m.holding := rfl
    rw [hsame]
    simp only [move]
    omega

theorem Accounts.acceptor (hm : m.Accounts) (arrival : Option Frame.Source) :
    (m.stepAcceptor arrival).Accounts := by
  rcases stepAcceptor_cases m arrival with ⟨acceptor, workers, joined, h⟩ | ⟨source, h⟩
  · rw [h]
    exact ⟨hm.valid, hm.accepted, hm.served, hm.handling, hm.broken, hm.attempts, hm.ledger⟩
  · rw [h]
    refine ⟨?_, ?_, ?_, ?_, ?_, hm.attempts, ?_⟩
    · intro s hs
      rcases List.mem_append.mp hs with hs | hs
      · exact hm.valid s hs
      · obtain rfl := List.mem_singleton.mp hs
        exact .of_none rfl (by simp)
    · simp only [List.length_append, List.length_singleton, Stats.count, hm.accepted]
    · simp only [List.countP_append, List.countP_singleton, Session.isServed, if_true, Stats.count,
        hm.served]
      omega
    · simpa [List.countP_append, Session.isHandling, Stats.count, Stats.framesDropped]
        using hm.handling
    · simpa [List.countP_append, Session.hasBroken, Stats.count] using hm.broken
    · simpa [holding, Session.holding] using hm.ledger

theorem Accounts.stopper (hm : m.Accounts) : m.stepStopper.Accounts := by
  obtain ⟨stopper, ingressStop, egressStop, h⟩ := stepStopper_eq m
  rw [h]
  exact ⟨hm.valid, hm.accepted, hm.served, hm.handling, hm.broken, hm.attempts, hm.ledger⟩

theorem countP_middle (p : Session → Bool) (front : List Session) (s : Session)
    (back : List Session) :
    (front ++ s :: back).countP p = front.countP p + back.countP p + (p s).toNat := by
  have hone : (if p s then 1 else 0) = (p s).toNat := by cases p s <;> rfl
  rw [List.countP_append, List.countP_cons, hone, Nat.add_assoc]

theorem Accounts.session (hm : m.Accounts) (place : Nat) (usable : Bool) :
    (m.stepSession place usable).Accounts := by
  rcases stepSession_cases hm.valid place usable with
    h | ⟨front, s, s', back, region, stats, hold, hvalid, _, heffect, h⟩
  · rw [h]
    exact hm
  · obtain ⟨valid, accepted, served, handling, broken, attempts, ledger⟩ := hm
    obtain ⟨haccepted, hclosed⟩ := heffect.served
    rw [h]
    rw [hold, countP_middle] at served handling broken
    refine ⟨?_, ?_, ?_, ?_, ?_, ?_, ?_⟩
    · intro other hother
      rw [hold] at valid
      simp only [List.mem_append, List.mem_cons] at hother valid
      rcases hother with hother | rfl | hother
      · exact valid other (.inl hother)
      · exact hvalid
      · exact valid other (.inr (.inr hother))
    · simp only [hold, List.length_append, List.length_cons] at accepted ⊢
      omega
    · rw [countP_middle]
      dsimp only
      omega
    · have hframes := heffect.handling
      rw [countP_middle]
      dsimp only
      omega
    · have hbroken := heffect.broken
      rw [countP_middle]
      dsimp only
      omega
    · obtain ⟨hattempts, hreleased⟩ := heffect.attempts
      dsimp only
      omega
    · have hledger := heffect.ledger.1
      simp only [holding, hold, List.flatMap_append, List.flatMap_cons, List.length_append,
        Usage.refusals] at ledger ⊢
      omega

theorem Accounts.sender (hm : m.Accounts) : m.stepSender.Accounts := by
  obtain ⟨sender, region, stats, heffect, h⟩ := stepSender_eq m
  obtain ⟨haccepted, hclosed, hbroken, hreceived, hdispatched, hdropped⟩ := heffect.rest
  obtain ⟨valid, accepted, served, handling, broken, attempts, ledger⟩ := hm
  rw [h]
  refine ⟨valid, haccepted.trans accepted, ?_, ?_, ?_, ?_, ?_⟩
  · dsimp only
    omega
  · dsimp only
    omega
  · dsimp only
    omega
  · have hattempts := heffect.attempts
    dsimp only
    omega
  · have hledger := heffect.ledger.1
    simp only [holding, List.length_append, Usage.refusals] at ledger ⊢
    omega

theorem Accounts.move (hm : m.Accounts) (move : Move) : (m.move move).Accounts := by
  cases move with
  | call operation => exact hm.call operation
  | acceptor arrival => exact hm.acceptor arrival
  | session place usable => exact hm.session place usable
  | sender => exact hm.sender
  | stopper => exact hm.stopper

/-- Whoever is not joined can be waited for: a thread that has not ended is among the workers, and
the stop goes on only when the accepting thread, and then the egress thread, has ended. -/
structure Supervised (m : Moment) : Prop where
  workers : ∀ place s, m.sessions[place]? = some s → s.isGone = true ∨ place ∈ m.workers
  accepting : m.acceptor = .gone → m.workers = []
  ingress : m.stopper = .idle ∨ m.stopper = .joiningIngress ∨ m.acceptor = .gone
  egress : m.stopper = .done → m.sender.phase = .gone

theorem Supervised.start (settings : Settings) (sink : DatagramSink) (region : Region) :
    (start settings sink region).Supervised where
  workers place s hs := by simp [Moment.start] at hs
  accepting h := by cases h
  ingress := .inl rfl
  egress h := by cases h

/-- Once a thread was found to have ended, it need not be among the workers. -/
theorem Supervised.rest (hm : m.Supervised) {worker : Nat} (hworker : m.isGone worker = true)
    {workers : List Nat} (hrest : ∀ place ∈ m.workers, place = worker ∨ place ∈ workers)
    (place : Nat) (s : Session) (hs : m.sessions[place]? = some s) :
    s.isGone = true ∨ place ∈ workers := by
  rcases hm.workers place s hs with h | h
  · exact .inl h
  · rcases hrest place h with rfl | h
    · rw [isGone, hs] at hworker
      exact .inl hworker
    · exact .inr h

theorem Supervised.acceptor (hm : m.Supervised) (arrival : Option Frame.Source) :
    (m.stepAcceptor arrival).Supervised := by
  -- the accepting thread is at work, so the stop has not got beyond it
  have hrunning : m.acceptor ≠ .gone → ∀ next : Acceptor,
      m.stopper = .idle ∨ m.stopper = .joiningIngress ∨ next = .gone :=
    fun h _ => hm.ingress.imp_right (Or.imp_right (absurd · h))
  unfold stepAcceptor
  cases ha : m.acceptor with
  | checking =>
    have hstopper := hrunning (by simp [ha])
    refine ⟨hm.workers, ?_, hstopper _, hm.egress⟩
    dsimp only
    split <;> exact fun h => by cases h
  | accepting =>
    have hstopper := hrunning (by simp [ha])
    cases arrival with
    | none => exact ⟨hm.workers, (fun h => by cases h), hstopper _, hm.egress⟩
    | some source =>
      refine ⟨?_, (fun h => by cases h), hstopper _, hm.egress⟩
      intro place s hs
      dsimp only at hs ⊢
      rw [List.mem_append, List.mem_singleton]
      rcases Nat.lt_or_ge place m.sessions.length with hplace | hplace
      · rw [List.getElem?_append_left hplace] at hs
        exact (hm.workers place s hs).imp_right Or.inl
      · have hlt := (List.getElem?_eq_some_iff.mp hs).1
        rw [List.length_append, List.length_singleton] at hlt
        exact .inr (.inr (by omega))
  | sweeping place =>
    have hstopper := hrunning (by simp [ha])
    dsimp only
    split
    · exact ⟨hm.workers, (fun h => by cases h), hstopper _, hm.egress⟩
    · rename_i worker hplace
      split
      · rename_i hworker
        have hrest := hm.rest hworker fun _ h => Workers.mem_swapRemove hplace h
        exact ⟨hrest, (fun h => by simp at h), hstopper _, hm.egress⟩
      · exact ⟨hm.workers, (fun h => by cases h), hstopper _, hm.egress⟩
  | joining =>
    have hstopper := hrunning (by simp [ha])
    dsimp only
    split
    · rename_i hnone
      exact ⟨hm.workers, fun _ => hnone, .inr (.inr rfl), hm.egress⟩
    · rename_i worker rest hworkers
      split
      · rename_i hworker
        have hrest := hm.rest hworker fun _ h => List.mem_cons.mp (hworkers ▸ h)
        exact ⟨hrest, (fun h => by simp at h), hstopper _, hm.egress⟩
      · exact hm
  | gone => exact hm

theorem Supervised.stopper (hm : m.Supervised) : m.stepStopper.Supervised := by
  have hingress := hm.ingress
  unfold stepStopper
  cases hs : m.stopper with
  | idle => exact ⟨hm.workers, hm.accepting, .inr (.inl rfl), fun h => by cases h⟩
  | joiningIngress =>
    dsimp only
    split
    · rename_i hgone
      exact ⟨hm.workers, hm.accepting, .inr (.inr hgone), fun h => by cases h⟩
    · exact hm
  | stoppingEgress =>
    simp only [hs, reduceCtorEq, false_or] at hingress
    exact ⟨hm.workers, hm.accepting, .inr (.inr hingress), fun h => by cases h⟩
  | joiningEgress =>
    simp only [hs, reduceCtorEq, false_or] at hingress
    dsimp only
    split
    · rename_i hgone
      exact ⟨hm.workers, hm.accepting, .inr (.inr hingress), fun _ => hgone⟩
    · exact hm
  | done => exact hm

theorem Supervised.session (hm : m.Supervised) (place : Nat) (usable : Bool) :
    (m.stepSession place usable).Supervised := by
  unfold stepSession
  cases hplace : m.sessions[place]? with
  | none => exact hm
  | some s =>
    refine ⟨?_, hm.accepting, hm.ingress, hm.egress⟩
    intro other s' hs'
    dsimp only at hs' ⊢
    rw [List.getElem?_set] at hs'
    split at hs'
    · rename_i hsame
      split at hs'
      · cases hs'
        rw [← hsame]
        exact (hm.workers place s hplace).imp_left fun h => Session.isGone_step h _ _ _ _
      · contradiction
    · exact hm.workers other s' hs'

theorem Supervised.sender (hm : m.Supervised) : m.stepSender.Supervised := by
  refine ⟨hm.workers, hm.accepting, hm.ingress, ?_⟩
  intro hdone
  have hgone := hm.egress hdone
  simp [stepSender, Sender.step, hgone]

theorem Supervised.move (hm : m.Supervised) (move : Move) : (m.move move).Supervised := by
  cases move with
  | call operation => exact ⟨hm.workers, hm.accepting, hm.ingress, hm.egress⟩
  | acceptor arrival => exact hm.acceptor arrival
  | session place usable => exact hm.session place usable
  | sender => exact hm.sender
  | stopper => exact hm.stopper

/-- Once ingress has stopped, the threads of all connections have ended. -/
theorem Supervised.sessions_gone (hm : m.Supervised) (ha : m.acceptor = .gone) :
    ∀ s ∈ m.sessions, s.isGone = true := by
  intro s hs
  obtain ⟨place, hplace⟩ := List.mem_iff_getElem?.mp hs
  have hworkers := hm.workers place s hplace
  rw [hm.accepting ha] at hworkers
  exact hworkers.resolve_right List.not_mem_nil

/-- After the stop all threads have ended. -/
theorem Supervised.gone (hm : m.Supervised) (hdone : m.stopper = .done) :
    (∀ s ∈ m.sessions, s.isGone = true) ∧ m.sender.phase = .gone := by
  have hingress := hm.ingress
  simp only [hdone, reduceCtorEq, false_or] at hingress
  exact ⟨hm.sessions_gone hingress, hm.egress hdone⟩

/-- A caller outside the bridge is not one of its threads. -/
def Move.IsOutside : Move → Prop
  | .call operation => operation.thread? ≠ some egressThread ∧
      ∀ n, operation.thread? ≠ some (connectionThread n)
  | _ => True

/-- The egress thread is registered from its first to its last step, and the thread of a connection
only between its own. -/
structure Registered (m : Moment) : Prop where
  threads : ∀ s ∈ m.sessions, ∃ n, s.connection.thread = connectionThread n
  egress : egressThread ∈ m.usage.region.registered ↔ m.sender.isRegistered = true
  sessions : ∀ n, connectionThread n ∈ m.usage.region.registered →
    ∃ s ∈ m.sessions, s.isRegistered = true ∧ s.connection.thread = connectionThread n

theorem connectionThread_ne {t : Thread} (ht : t.name.toList.head? ≠ some 'c') (n : Nat) :
    connectionThread n ≠ t := by
  rintro rfl
  refine ht ?_
  simp only [connectionThread, String.toList_append, List.head?_append]
  rfl

theorem connectionThread_ne_egressThread (n : Nat) : connectionThread n ≠ egressThread :=
  connectionThread_ne (by decide) n

theorem Registered.start {c : Config} {region : Region} (h : ofConfig c = .ok region)
    (settings : Settings) (sink : DatagramSink) : (start settings sink region).Registered := by
  obtain ⟨rfl, _, _⟩ := ofConfig_eq_ok h
  refine ⟨?_, ?_, ?_⟩
  · simp [Moment.start]
  · simp [Moment.start, Sender.isRegistered]
  · simp [Moment.start]

theorem Registered.call (hm : m.Registered) {operation : Usage.Operation}
    (hout : (Move.call operation).IsOutside) : (m.move (.call operation)).Registered := by
  obtain ⟨hegress, hsessions⟩ := hout
  refine ⟨hm.threads, ?_, ?_⟩
  · exact (Usage.mem_registered_operate m.usage hegress).trans hm.egress
  · intro n hn
    exact hm.sessions n ((Usage.mem_registered_operate m.usage (hsessions n)).mp hn)

theorem Registered.acceptor (hm : m.Registered) (arrival : Option Frame.Source) :
    (m.stepAcceptor arrival).Registered := by
  rcases stepAcceptor_cases m arrival with ⟨acceptor, workers, joined, h⟩ | ⟨source, h⟩
  · rw [h]
    exact ⟨hm.threads, hm.egress, hm.sessions⟩
  · rw [h]
    refine ⟨?_, hm.egress, ?_⟩
    · intro s hs
      rcases List.mem_append.mp hs with hs | hs
      · exact hm.threads s hs
      · obtain rfl := List.mem_singleton.mp hs
        exact ⟨_, rfl⟩
    · intro n hn
      obtain ⟨s, hs, hshows⟩ := hm.sessions n hn
      exact ⟨s, List.mem_append_left _ hs, hshows⟩

theorem Registered.session (hm : m.Registered) (hv : ∀ s ∈ m.sessions, s.Valid) (place : Nat)
    (usable : Bool) : (m.stepSession place usable).Registered := by
  rcases stepSession_cases hv place usable with
    h | ⟨front, s, s', back, region, stats, hold, hvalid, hthread, heffect, h⟩
  · rw [h]
    exact hm
  · obtain ⟨threads, egress, sessions⟩ := hm
    rw [hold] at threads sessions
    simp only [List.mem_append, List.mem_cons] at threads sessions
    obtain ⟨number, hnumber⟩ := threads s (.inr (.inl rfl))
    rw [h]
    refine ⟨?_, ?_, ?_⟩
    · intro other hother
      simp only [List.mem_append, List.mem_cons] at hother
      rcases hother with hother | rfl | hother
      · exact threads other (.inl hother)
      · exact ⟨number, hthread.trans hnumber⟩
      · exact threads other (.inr (.inr hother))
    · have hne : egressThread ≠ s.connection.thread := by
        rw [hnumber]
        exact (connectionThread_ne_egressThread number).symm
      exact (heffect.registered_of_ne hne).trans egress
    · intro n hn
      dsimp only at hn ⊢
      -- it shows in another connection as before, or in this one
      have hkept : connectionThread n ∈ m.usage.region.registered →
          (connectionThread n = s.connection.thread → s'.isRegistered = s.isRegistered) →
          ∃ other ∈ front ++ s' :: back, other.isRegistered = true ∧
            other.connection.thread = connectionThread n := by
        intro hn hsame
        obtain ⟨other, hother, hshows, hn⟩ := sessions n hn
        simp only [List.mem_append, List.mem_cons]
        rcases hother with hother | rfl | hother
        · exact ⟨other, .inl hother, hshows, hn⟩
        · exact ⟨s', .inr (.inl rfl), (hsame hn.symm).trans hshows, hthread.trans hn⟩
        · exact ⟨other, .inr (.inr hother), hshows, hn⟩
      by_cases hs : connectionThread n = s.connection.thread
      · rw [hs] at hn hkept ⊢
        rcases heffect.registered_thread hn with hshows | ⟨hn, hsame⟩
        · exact ⟨s', by simp, hshows, hthread⟩
        · exact hkept hn fun _ => hsame
      · exact hkept ((heffect.registered_of_ne hs).mp hn) fun h => absurd h hs

theorem Registered.sender (hm : m.Registered) : m.stepSender.Registered := by
  obtain ⟨sender, region, stats, heffect, h⟩ := stepSender_eq m
  rw [h]
  refine ⟨hm.threads, heffect.registered_thread hm.egress, ?_⟩
  intro n hn
  have hne := connectionThread_ne_egressThread n
  exact hm.sessions n ((heffect.registered_of_ne hne).mp hn)

theorem Registered.stopper (hm : m.Registered) : m.stepStopper.Registered := by
  obtain ⟨stopper, ingressStop, egressStop, h⟩ := stepStopper_eq m
  rw [h]
  exact ⟨hm.threads, hm.egress, hm.sessions⟩

theorem Registered.move (hm : m.Registered) (hv : ∀ s ∈ m.sessions, s.Valid) {move : Move}
    (hout : move.IsOutside) : (m.move move).Registered := by
  cases move with
  | call operation => exact hm.call hout
  | acceptor arrival => exact hm.acceptor arrival
  | session place usable => exact hm.session hv place usable
  | sender => exact hm.sender
  | stopper => exact hm.stopper

def Move.isDrop : Move → Bool
  | .call operation => operation.isDrop
  | _ => false

/-- The bridge itself loses no buffer. -/
theorem move_leaked (hv : ∀ s ∈ m.sessions, s.Valid) {move : Move} (hd : move.isDrop = false) :
    (m.move move).usage.region.ledger.leaked = m.usage.region.ledger.leaked := by
  cases move with
  | call operation => exact Usage.operate_leaked m.usage hd
  | acceptor arrival =>
    rcases stepAcceptor_cases m arrival with ⟨_, _, _, h⟩ | ⟨_, h⟩
    · rw [Moment.move, h]
    · rw [Moment.move, h]
  | session place usable =>
    rcases stepSession_cases hv place usable with h | ⟨_, _, _, _, _, _, _, _, _, heffect, h⟩
    · rw [Moment.move, h]
    · rw [Moment.move, h]
      exact heffect.ledger.2
  | sender =>
    obtain ⟨_, _, _, heffect, h⟩ := stepSender_eq m
    rw [Moment.move, h]
    exact heffect.ledger.2
  | stopper =>
    obtain ⟨_, _, _, h⟩ := stepStopper_eq m
    rw [Moment.move, h]

structure Orderly (m : Moment) : Prop where
  accounts : m.Accounts
  supervised : m.Supervised
  registered : m.Registered

theorem Orderly.move (hm : m.Orderly) {move : Move} (hout : move.IsOutside) :
    (m.move move).Orderly :=
  ⟨hm.accounts.move move, hm.supervised.move move, hm.registered.move hm.accounts.valid hout⟩

theorem Orderly.run (hm : m.Orderly) {moves : List Move}
    (hout : ∀ move ∈ moves, move.IsOutside) : (m.run moves).Orderly :=
  run_induct (fun _ _ hmove hm => hm.move hmove) hout hm

theorem Orderly.start {c : Config} {region : Region} (hr : ofConfig c = .ok region)
    (settings : Settings) (sink : DatagramSink) : (start settings sink region).Orderly :=
  ⟨.start hr settings sink, .start settings sink region, .start hr settings sink⟩

theorem run_leaked {c : Config} {region : Region} (hr : ofConfig c = .ok region)
    (settings : Settings) (sink : DatagramSink) {moves : List Move}
    (hd : ∀ move ∈ moves, move.isDrop = false) :
    ((start settings sink region).run moves).usage.region.ledger.leaked = 0 := by
  have hboth : ((start settings sink region).run moves).Accounts ∧
      ((start settings sink region).run moves).usage.region.ledger.leaked = 0 := by
    refine run_induct (P := fun m => m.Accounts ∧ m.usage.region.ledger.leaked = 0) ?_ hd ?_
    · intro m move hmove ⟨haccounts, hleaked⟩
      exact ⟨haccounts.move move, (move_leaked haccounts.valid hmove).trans hleaked⟩
    · obtain ⟨rfl, _, _⟩ := ofConfig_eq_ok hr
      exact ⟨.start hr settings sink, rfl⟩
  exact hboth.2

theorem countP_of_isGone {p : Session → Bool} (hp : ∀ s : Session, s.isGone = true → p s = false)
    (hgone : ∀ s ∈ m.sessions, s.isGone = true) : m.sessions.countP p = 0 := by
  rw [List.countP_eq_zero]
  intro s hs
  rw [hp s (hgone s hs)]
  exact Bool.false_ne_true

/-- When all threads have ended nothing is in progress. -/
theorem Orderly.settled (hm : m.Orderly) (hdone : m.stopper = .done) :
    m.sessions.countP Session.isServed = 0 ∧ m.sessions.countP Session.isHandling = 0 ∧
    m.sender.owes = false ∧ m.holding = [] ∧ egressThread ∉ m.usage.region.registered ∧
    ∀ n, connectionThread n ∉ m.usage.region.registered := by
  obtain ⟨hsessions, hsender⟩ := hm.supervised.gone hdone
  refine ⟨?_, ?_, ?_, ?_, ?_, ?_⟩
  · exact countP_of_isGone (fun s hs => (Session.settled_of_isGone hs).1) hsessions
  · exact countP_of_isGone (fun s hs => (Session.settled_of_isGone hs).2.1) hsessions
  · simp [Sender.owes, hsender]
  · have hempty : m.sessions.flatMap Session.holding = [] :=
      List.flatMap_eq_nil_iff.mpr fun s hs => (Session.settled_of_isGone (hsessions s hs)).2.2.2
    simp [holding, Sender.holding, hempty, hsender]
  · rw [hm.registered.egress]
    simp [Sender.isRegistered, hsender]
  · intro n hn
    obtain ⟨s, hs, hshows, _⟩ := hm.registered.sessions n hn
    rw [(Session.settled_of_isGone (hsessions s hs)).2.2.1] at hshows
    contradiction

/-- At every moment of every run, the counters tell how many connections are served, how many have a
frame in their hands, whether the egress thread owes the count of a return, and how many connections
were ended by a breach of the format; the ledger tells how many buffers the bridge and its callers
hold, and none is lost unless a caller drops it. After the stop nothing is in progress, the bridge
holds no buffer, and none of its threads is registered. -/
theorem run_accounts {c : Config} {region : Region} (hr : ofConfig c = .ok region)
    (settings : Settings) (sink : DatagramSink) (moves : List Move)
    (hout : ∀ move ∈ moves, move.IsOutside) :
    let m := (start settings sink region).run moves
    m.stats.connectionsAccepted = m.sessions.length ∧
    m.stats.connectionsAccepted =
      m.stats.connectionsClosed + m.sessions.countP Session.isServed ∧
    m.stats.framesReceived = m.stats.framesDispatched + m.stats.framesDropped +
      m.sessions.countP Session.isHandling ∧
    m.stats.datagramsSent + m.stats.sendFailures + m.stats.serializeFailures =
      m.stats.buffersReleased + m.sender.owes.toNat ∧
    m.stats.protocolErrors = m.sessions.countP Session.hasBroken ∧
    m.usage.region.ledger.given + m.usage.refusals =
      m.usage.region.ledger.returned + m.usage.held.length + m.holding.length ∧
    ((∀ move ∈ moves, move.isDrop = false) → m.usage.region.ledger.leaked = 0) ∧
    (m.stopper = .done →
      m.stats.connectionsAccepted = m.stats.connectionsClosed ∧
      m.stats.framesReceived = m.stats.framesDispatched + m.stats.framesDropped ∧
      m.stats.datagramsSent + m.stats.sendFailures + m.stats.serializeFailures =
        m.stats.buffersReleased ∧
      m.holding = [] ∧ egressThread ∉ m.usage.region.registered ∧
      ∀ n, connectionThread n ∉ m.usage.region.registered) := by
  intro m
  have hm : m.Orderly := (Orderly.start hr settings sink).run hout
  obtain ⟨_, haccepted, hserved, hhandling, hbroken, hattempts, hledger⟩ := hm.accounts
  unfold Stats.attempts at hattempts
  refine ⟨haccepted, hserved, hhandling, hattempts, hbroken, hledger, ?_, ?_⟩
  · intro hd
    exact run_leaked hr settings sink hd
  · intro hdone
    obtain ⟨hnone, hidle, howes, hholding, hregistered⟩ := hm.settled hdone
    rw [hnone] at hserved
    rw [hidle] at hhandling
    rw [howes] at hattempts
    exact ⟨hserved, hhandling, hattempts, hholding, hregistered⟩

def preparing : List Move :=
  let t : Thread := { name := "main" }
  [.call (.register t), .call (.create ⟨.nil, .input⟩ (some 1)),
    .call (.create ⟨.nil, .output⟩ (some 1)), .call (.link .nil .nil)]

theorem Move.isOutside_of_main {operation : Usage.Operation}
    (h : ∀ t, operation.thread? = some t → t = { name := "main" }) :
    (Move.call operation).IsOutside := by
  refine ⟨?_, ?_⟩
  · intro ht
    exact absurd (h _ ht) (by decide)
  · intro n ht
    exact connectionThread_ne (by decide) n (h _ ht)

theorem preparing_outside : ∀ move ∈ preparing, move.IsOutside := by
  intro move hmove
  simp only [preparing, List.mem_cons, List.not_mem_nil, or_false] at hmove
  rcases hmove with rfl | rfl | rfl | rfl <;>
  · refine Move.isOutside_of_main ?_
    rintro t ⟨⟩
    try rfl

/-- A peer sends a frame, and then announces a payload that is too long; the bridge is stopped
afterwards. -/
def breaching : List Move :=
  let arrivals := Frame.Source.ofArrivals
    [.bytes (Frame.wire (StreamId.nil.bytes ++ [9])), .bytes [255, 255]]
  preparing ++ [.acceptor none, .acceptor (some arrivals)] ++ List.replicate 14 (.session 0 true) ++
    List.replicate 11 .sender ++ .stopper :: List.replicate 4 (.acceptor none) ++
    [.stopper, .stopper] ++ List.replicate 14 .sender ++ [.stopper]

theorem breaching_outside : ∀ move ∈ breaching, move.IsOutside := by
  intro move hmove
  simp only [breaching, List.mem_append, List.mem_cons, List.not_mem_nil, or_false,
    List.mem_replicate] at hmove
  by_cases hprepared : move ∈ preparing
  · exact preparing_outside move hprepared
  · cases move with
    | call operation => simp [hprepared] at hmove
    | _ => trivial

def breached : Moment :=
  run (start {} { description := "sink" } { config := Usage.tight }) breaching

theorem run_accounts_breached :
    breached.stats.connectionsClosed = 1 ∧ breached.stats.protocolErrors = 1 ∧
    breached.stats.buffersReleased = 1 ∧ breached.usage.region.ledger.leaked = 0 ∧
    breached.holding = [] ∧ egressThread ∉ breached.usage.region.registered := by
  have hdone : breached.stopper = .done := by decide +kernel
  have hdrop : ∀ move ∈ breaching, move.isDrop = false := by decide
  have hstats : breached.stats = {
      connectionsAccepted := 1, connectionsClosed := 1, protocolErrors := 1, framesReceived := 1
      framesDispatched := 1, datagramsSent := 1, buffersReleased := 1 } := by decide +kernel
  have haccounts := run_accounts (c := Usage.tight) rfl {} { description := "sink" } breaching
    breaching_outside
  rw [← breached] at haccounts
  obtain ⟨_, _, _, _, _, _, hleaked, hstopped⟩ := haccounts
  obtain ⟨_, _, _, hholding, hegress, _⟩ := hstopped hdone
  rw [hstats]
  exact ⟨rfl, rfl, rfl, hleaked hdrop, hholding, hegress⟩

end StreamRelay.Bridge.Moment
