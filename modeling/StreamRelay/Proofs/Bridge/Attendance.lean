import StreamRelay.Proofs.Bridge.Accounting

/-!
# Connections on their threads

Each connection of a running bridge has a thread of its own, which is registered while it works. The
number of the thread is that of the connection, and no two numbers have the same name.
-/

namespace StreamRelay.Bridge
open Region

theorem connectionThread_inj {i j : Nat} (h : connectionThread i = connectionThread j) : i = j := by
  have hname : toString "connection-" ++ toString i = toString "connection-" ++ toString j :=
    congrArg Thread.name h
  have hrepr : Nat.repr i = Nat.repr j := (String.append_right_inj _).mp hname
  have hdigits := congrArg String.toList hrepr
  rw [Nat.toList_repr, Nat.toList_repr] at hdigits
  have hvalue := congrArg (fun digits => Nat.ofDigitChars 10 digits 0) hdigits
  simpa only [Nat.ofDigitChars_ten_toDigits] using hvalue

namespace Session

variable {s s' : Session} {r r' : Region} {stats stats' : Stats}

/-- A step leaves its thread registered unless it leaves. -/
theorem Effect.attended (h : Effect s s' r stats r' stats')
    (hr : s.isRegistered = true → s.connection.thread ∈ r.registered)
    (hs : s'.isRegistered = true) : s.connection.thread ∈ r'.registered := by
  cases h with
  | register _ _ => exact mem_register.mpr (.inl rfl)
  | leave _ hv =>
    have hshows : s'.isRegistered = false := congrArg View.registered hv
    rw [hshows] at hs
    contradiction
  | submit c _ hv =>
    have hshows : s'.isRegistered = s.isRegistered := congrArg View.registered hv
    rw [(Steady.submit _ _ _ _).registered_eq]
    exact hr (hshows ▸ hs)
  | quiet hv | receive _ hv | acquire _ hv | release _ hv | count _ _ hv | violate _ hv
  | close _ hv =>
    have hshows : s'.isRegistered = s.isRegistered := congrArg View.registered hv
    exact hr (hshows ▸ hs)

end Session

namespace Moment

variable {m : Moment}

/-- The threads of the connections are numbered by their places and registered as long as that
shows, and only connections are waited for. -/
structure Attended (m : Moment) : Prop extends m.Orderly where
  threads_eq : ∀ place s, m.sessions[place]? = some s →
    s.connection.thread = connectionThread (place + 1)
  attended : ∀ place s, m.sessions[place]? = some s → s.isRegistered = true →
    connectionThread (place + 1) ∈ m.usage.region.registered
  workers_lt : ∀ worker ∈ m.workers, worker < m.sessions.length

theorem Attended.start {c : Config} {region : Region} (hr : ofConfig c = .ok region)
    (settings : Settings) (sink : DatagramSink) : (start settings sink region).Attended := by
  refine ⟨.start hr settings sink, ?_, ?_, ?_⟩
  · intro place s hs
    simp [Moment.start] at hs
  · intro place s hs
    simp [Moment.start] at hs
  · intro worker hworker
    simp [Moment.start] at hworker

theorem stepAcceptor_workers (m : Moment) (arrival : Option Frame.Source) :
    (m.stepAcceptor arrival).workers ⊆ m.workers ∨
      (m.stepAcceptor arrival).workers = m.workers ++ [m.sessions.length] ∧
        (m.stepAcceptor arrival).sessions.length = m.sessions.length + 1 := by
  unfold stepAcceptor
  cases m.acceptor with
  | checking => exact .inl (List.Subset.refl _)
  | accepting =>
    cases arrival with
    | none => exact .inl (List.Subset.refl _)
    | some source => exact .inr ⟨rfl, by simp⟩
  | sweeping place =>
    left
    dsimp only
    split
    · exact List.Subset.refl _
    · rename_i worker hworker
      split
      · exact fun other h => (Workers.swapRemove_perm hworker).subset (List.mem_cons_of_mem _ h)
      · exact List.Subset.refl _
  | joining =>
    left
    dsimp only
    split
    · exact List.Subset.refl _
    · rename_i worker rest hworkers
      split
      · exact fun other h => hworkers ▸ List.mem_cons_of_mem _ h
      · exact List.Subset.refl _
  | gone => exact .inl (List.Subset.refl _)

theorem Attended.acceptor (hm : m.Attended) (arrival : Option Frame.Source) :
    (m.stepAcceptor arrival).Attended := by
  have hout : (Move.acceptor arrival).IsOutside := trivial
  have horderly : (m.stepAcceptor arrival).Orderly := hm.toOrderly.move hout
  have hsessions : m.sessions.length ≤ (m.stepAcceptor arrival).sessions.length := by
    rcases stepAcceptor_cases m arrival with ⟨_, _, _, h⟩ | ⟨_, h⟩ <;> simp [h]
  have hworkers : ∀ worker ∈ (m.stepAcceptor arrival).workers,
      worker < (m.stepAcceptor arrival).sessions.length := by
    intro worker hworker
    rcases stepAcceptor_workers m arrival with h | ⟨h, hlength⟩
    · have := hm.workers_lt worker (h hworker)
      omega
    · rw [h, List.mem_append, List.mem_singleton] at hworker
      rcases hworker with hworker | rfl
      · have := hm.workers_lt worker hworker
        omega
      · omega
  rcases stepAcceptor_cases m arrival with ⟨acceptor, workers, joined, h⟩ | ⟨source, h⟩
  · refine ⟨horderly, ?_, ?_, hworkers⟩
    · rw [h]
      exact hm.threads_eq
    · rw [h]
      exact hm.attended
  · refine ⟨horderly, ?_, ?_, hworkers⟩
    · intro place s hs
      rw [h] at hs
      rcases Nat.lt_trichotomy place m.sessions.length with hplace | rfl | hplace
      · rw [List.getElem?_append_left hplace] at hs
        exact hm.threads_eq place s hs
      · rw [List.getElem?_concat_length] at hs
        cases hs
        rfl
      · rw [List.getElem?_eq_none (by simp; omega)] at hs
        contradiction
    · intro place s hs hregistered
      rw [h] at hs ⊢
      rcases Nat.lt_trichotomy place m.sessions.length with hplace | rfl | hplace
      · rw [List.getElem?_append_left hplace] at hs
        exact hm.attended place s hs hregistered
      · rw [List.getElem?_concat_length] at hs
        cases hs
        contradiction
      · rw [List.getElem?_eq_none (by simp; omega)] at hs
        contradiction

theorem Attended.session (hm : m.Attended) (place : Nat) (usable : Bool) :
    (m.stepSession place usable).Attended := by
  have hout : (Move.session place usable).IsOutside := trivial
  have horderly : (m.stepSession place usable).Orderly := hm.toOrderly.move hout
  cases hplace : m.sessions[place]? with
  | none =>
    rw [stepSession_of_none hplace]
    exact hm
  | some s =>
    have hvalid := hm.accounts.valid s (List.mem_of_getElem? hplace)
    have heffect := Session.step_effect hvalid m.ingressStop usable m.usage.region m.stats
    have hthread := hm.threads_eq place s hplace
    have hlt := (List.getElem?_eq_some_iff.mp hplace).1
    have hworkers := hm.workers_lt
    rw [stepSession_of_some hplace] at horderly
    rw [stepSession_of_some hplace]
    refine ⟨horderly, ?_, ?_, ?_⟩
    · intro other s' hs'
      dsimp only at hs'
      by_cases hsame : place = other
      · subst hsame
        rw [List.getElem?_set_self hlt] at hs'
        cases hs'
        rw [Session.step_thread, hthread]
      · rw [List.getElem?_set_ne hsame] at hs'
        exact hm.threads_eq other s' hs'
    · intro other s' hs' hregistered
      dsimp only at hs' ⊢
      by_cases hsame : place = other
      · subst hsame
        rw [List.getElem?_set_self hlt] at hs'
        cases hs'
        rw [← hthread]
        refine heffect.attended ?_ hregistered
        intro hs
        rw [hthread]
        exact hm.attended place s hplace hs
      · rw [List.getElem?_set_ne hsame] at hs'
        have hne : connectionThread (other + 1) ≠ s.connection.thread := by
          intro h
          rw [hthread] at h
          have := connectionThread_inj h
          omega
        exact (heffect.registered_of_ne hne).mpr (hm.attended other s' hs' hregistered)
    · simpa using hworkers

theorem Attended.move (hm : m.Attended) {move : Move} (hout : move.IsOutside) :
    (m.move move).Attended := by
  have horderly := hm.toOrderly.move hout
  cases move with
  | call operation =>
    refine ⟨horderly, hm.threads_eq, ?_, hm.workers_lt⟩
    intro place s hs hregistered
    exact (Usage.mem_registered_operate m.usage (hout.2 _)).mpr (hm.attended place s hs hregistered)
  | acceptor arrival => exact hm.acceptor arrival
  | session place usable => exact hm.session place usable
  | sender =>
    obtain ⟨sender, region, stats, heffect, h⟩ := stepSender_eq m
    rw [Moment.move, h] at horderly ⊢
    refine ⟨horderly, hm.threads_eq, ?_, hm.workers_lt⟩
    intro place s hs hregistered
    have hne := connectionThread_ne_egressThread (place + 1)
    exact (heffect.registered_of_ne hne).mpr (hm.attended place s hs hregistered)
  | stopper =>
    obtain ⟨stopper, ingressStop, egressStop, h⟩ := stepStopper_eq m
    rw [Moment.move, h] at horderly ⊢
    exact ⟨horderly, hm.threads_eq, hm.attended, hm.workers_lt⟩

theorem Attended.run (hm : m.Attended) {moves : List Move}
    (hout : ∀ move ∈ moves, move.IsOutside) : (m.run moves).Attended :=
  run_induct (fun _ _ hmove hm => hm.move hmove) hout hm

end Moment

end StreamRelay.Bridge
