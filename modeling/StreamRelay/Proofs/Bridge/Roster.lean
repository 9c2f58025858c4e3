import StreamRelay.Proofs.Bridge.Activities

/-!
# Every thread is joined once

The accepting thread, apart from what the other threads do: it sees a request to stop, connections
that come with or without a thread for them, and which threads have ended. Whatever it sees, it loses
no thread and joins none twice. A sweep comes to its end after one look at each of its workers, and
once it is told to stop and the threads have ended it joins all of them.
-/

namespace StreamRelay.Bridge

/-- What comes of looking for a connection. A connection may have come for which no thread could be
started. -/
inductive Arrival
  | nobody
  | unserved
  | served
  deriving DecidableEq

/-- What the accepting thread sees at one of its steps: whether it is to stop, who comes, and which
threads have ended. -/
structure Sight where
  stop : Bool
  arrival : Arrival
  ended : Nat → Bool

def Sight.IsFinal (sight : Sight) : Prop := sight.stop = true ∧ ∀ worker, sight.ended worker = true

structure Roster where
  acceptor : Acceptor := .checking
  accepted : Nat := 0
  started : List Nat := []
  workers : List Nat := []
  joined : List Nat := []

namespace Roster

def accept (r : Roster) : Arrival → Roster
  | .nobody => r
  | .unserved => { r with accepted := r.accepted + 1 }
  | .served => { r with
      accepted := r.accepted + 1
      started := r.started ++ [r.accepted]
      workers := r.workers ++ [r.accepted] }

def step (r : Roster) (sight : Sight) : Roster :=
  match r.acceptor with
  | .checking => { r with acceptor := if sight.stop then .joining else .accepting }
  | .accepting => { r.accept sight.arrival with acceptor := .sweeping 0 }
  | .sweeping place =>
    match r.workers[place]? with
    | none => { r with acceptor := .checking }
    | some worker =>
      -- Another worker is at this place then, so the sweep stays there.
      if sight.ended worker then
        { r with workers := Workers.swapRemove r.workers place, joined := r.joined ++ [worker] }
      else { r with acceptor := .sweeping (place + 1) }
  | .joining =>
    -- The thread waits for each worker in turn.
    match r.workers with
    | [] => { r with acceptor := .gone }
    | worker :: rest =>
      if sight.ended worker then { r with workers := rest, joined := r.joined ++ [worker] } else r
  | .gone => r

def run (r : Roster) (sights : List Sight) : Roster := sights.foldl step r

variable {r : Roster} {sight : Sight} {sights : List Sight} {place : Nat}

theorem step_behind (ha : r.acceptor = .sweeping place) (hplace : r.workers.length ≤ place)
    (sight : Sight) : r.step sight = { r with acceptor := .checking } := by
  simp only [step, ha, List.getElem?_eq_none hplace]

theorem step_ended (ha : r.acceptor = .sweeping place) (hplace : place < r.workers.length)
    (hended : sight.ended r.workers[place] = true) :
    r.step sight = { r with
      workers := Workers.swapRemove r.workers place
      joined := r.joined ++ [r.workers[place]] } := by
  simp only [step, ha, List.getElem?_eq_getElem hplace, hended, if_true]

theorem step_working (ha : r.acceptor = .sweeping place) (hplace : place < r.workers.length)
    (hended : sight.ended r.workers[place] = false) :
    r.step sight = { r with acceptor := .sweeping (place + 1) } := by
  simp only [step, ha, List.getElem?_eq_getElem hplace, hended, Bool.false_eq_true, if_false]

/-- A sweep is at its end after one step for each worker that it has not looked at, and one more,
even if threads end meanwhile. -/
theorem run_sweeping (ha : r.acceptor = .sweeping place)
    (hlength : sights.length = r.workers.length - place + 1) :
    (r.run sights).acceptor = .checking := by
  -- Either step leaves one worker less from the place on.
  induction sights generalizing r place with
  | nil => contradiction
  | cons sight sights ih =>
    rw [List.length_cons, Nat.add_right_cancel_iff] at hlength
    rcases Nat.lt_or_ge place r.workers.length with hplace | hplace
    · cases hended : sight.ended r.workers[place] with
      | true =>
        have hstep := step_ended ha hplace hended
        have ha' : (r.step sight).acceptor = .sweeping place := by
          rw [hstep, ha]
        refine ih ha' ?_
        rw [hstep, hlength, Workers.length_swapRemove]
        omega
      | false =>
        have hstep := step_working ha hplace hended
        have ha' : (r.step sight).acceptor = .sweeping (place + 1) := by
          rw [hstep]
        refine ih ha' ?_
        rw [hstep, hlength]
        dsimp only
        omega
    · rw [Nat.sub_eq_zero_of_le hplace] at hlength
      obtain rfl := List.eq_nil_of_length_eq_zero hlength
      have hstep := step_behind ha hplace sight
      exact congrArg acceptor hstep

/-- While no thread ends a sweep joins the workers that the bridge joins, in the same order. -/
theorem run_sweepFrom (ha : r.acceptor = .sweeping place) (sight : Sight) :
    r.run (List.replicate (r.workers.length - place + 1) sight) = { r with
      acceptor := .checking
      workers := (Workers.sweepFrom sight.ended place r.workers).1
      joined := r.joined ++ (Workers.sweepFrom sight.ended place r.workers).2 } := by
  generalize hworkers : r.workers = workers
  induction place, workers using Workers.sweepFrom.induct sight.ended generalizing r with
  | case1 place workers h hended left joined hrest ih =>
    subst hworkers
    have hstep := step_ended ha h hended
    have hlength : r.workers.length - place =
        (Workers.swapRemove r.workers place).length - place + 1 := by
      rw [Workers.length_swapRemove]
      omega
    have hgoes := ih (r := r.step sight) (by rw [hstep, ha]) (by rw [hstep])
    rw [Workers.sweepFrom, dif_pos h, if_pos hended, hlength]
    change (r.step sight).run (List.replicate _ sight) = _
    rw [hgoes, hstep]
    simp
  | case2 place workers h hended ih =>
    subst hworkers
    have hstep := step_working ha h (Bool.eq_false_iff.mpr hended)
    have hlength : r.workers.length - place = r.workers.length - (place + 1) + 1 := by
      omega
    have hgoes := ih (r := r.step sight) (by rw [hstep]) (by rw [hstep])
    rw [Workers.sweepFrom, dif_pos h, if_neg hended, hlength]
    change (r.step sight).run (List.replicate _ sight) = _
    rw [hgoes, hstep]
  | case3 place workers h =>
    subst hworkers
    have hplace := Nat.le_of_not_lt h
    have hstep := step_behind ha hplace sight
    rw [Workers.sweepFrom, dif_neg h, Nat.sub_eq_zero_of_le hplace, List.append_nil]
    exact hstep

/-- The last worker comes to the place of the one that is taken out, and is looked at there. -/
example : (run { acceptor := .sweeping 0, workers := [4, 0, 1, 2] }
    (List.replicate 5 ⟨false, .nobody, (· < 3)⟩)).joined = [0, 2, 1] := rfl

/-- A step starts a thread, joins one that has ended, or leaves them all as they are. -/
theorem step_cases (r : Roster) (sight : Sight) :
    (∃ acceptor accepted, r.accepted ≤ accepted ∧
      (acceptor = .gone → r.acceptor = .gone ∨ r.workers = []) ∧
      r.step sight = { r with acceptor, accepted }) ∨
    r.step sight = { r with
      acceptor := .sweeping 0, accepted := r.accepted + 1
      started := r.started ++ [r.accepted], workers := r.workers ++ [r.accepted] } ∨
    (∃ worker workers, (worker :: workers).Perm r.workers ∧ sight.ended worker = true ∧
      r.acceptor ≠ .gone ∧ r.step sight = { r with workers, joined := r.joined ++ [worker] }) := by
  unfold step
  split
  · rename_i ha
    refine .inl ⟨_, r.accepted, Nat.le_refl _, ?_, rfl⟩
    intro h
    split at h <;> contradiction
  · cases sight.arrival with
    | nobody => exact .inl ⟨.sweeping 0, r.accepted, Nat.le_refl _, nofun, rfl⟩
    | unserved => exact .inl ⟨.sweeping 0, r.accepted + 1, Nat.le_succ _, nofun, rfl⟩
    | served => exact .inr (.inl rfl)
  · rename_i place ha
    split
    · exact .inl ⟨.checking, r.accepted, Nat.le_refl _, nofun, rfl⟩
    · rename_i worker hworker
      split
      · rename_i hended
        exact .inr (.inr ⟨worker, _, Workers.swapRemove_perm hworker, hended, by simp [ha], rfl⟩)
      · exact .inl ⟨.sweeping (place + 1), r.accepted, Nat.le_refl _, nofun, rfl⟩
  · rename_i ha
    split
    · rename_i hnone
      exact .inl ⟨_, r.accepted, Nat.le_refl _, fun _ => .inr hnone, rfl⟩
    · rename_i worker rest hworkers
      split
      · rename_i hended
        exact .inr (.inr ⟨worker, rest, .of_eq hworkers.symm, hended, by simp [ha], rfl⟩)
      · exact .inl ⟨r.acceptor, r.accepted, Nat.le_refl _, fun h => .inl h, rfl⟩
  · exact .inl ⟨r.acceptor, r.accepted, Nat.le_refl _, fun h => .inl h, rfl⟩

/-- Every thread that was started is joined or waited for, and only once; at the end nobody is
waited for. -/
structure Kept (r : Roster) : Prop where
  perm : (r.joined ++ r.workers).Perm r.started
  nodup : r.started.Nodup
  started_lt : ∀ number ∈ r.started, number < r.accepted
  gone : r.acceptor = .gone → r.workers = []

theorem Kept.start : ({} : Roster).Kept := ⟨.nil, .nil, nofun, nofun⟩

theorem Kept.step (h : r.Kept) (sight : Sight) : (r.step sight).Kept := by
  rcases step_cases r sight with
    ⟨acceptor, accepted, hle, hgone, hstep⟩ | hstep | ⟨worker, workers, hperm, _, hgone, hstep⟩
  · rw [hstep]
    refine ⟨h.perm, h.nodup, ?_, ?_⟩
    · intro number hnumber
      exact Nat.lt_of_lt_of_le (h.started_lt number hnumber) hle
    · intro ha
      exact (hgone ha).elim h.gone id
  · rw [hstep]
    refine ⟨?_, ?_, ?_, nofun⟩
    · dsimp only
      rw [← List.append_assoc]
      exact h.perm.append_right _
    · refine List.nodup_append.mpr ⟨h.nodup, List.pairwise_singleton _ _, ?_⟩
      intro number hnumber last hlast
      obtain rfl := List.mem_singleton.mp hlast
      exact (h.started_lt number hnumber).ne
    · intro number hnumber
      rcases List.mem_append.mp hnumber with hnumber | hnumber
      · exact Nat.lt_succ_of_lt (h.started_lt number hnumber)
      · obtain rfl := List.mem_singleton.mp hnumber
        exact Nat.lt_succ_self _
  · rw [hstep]
    refine ⟨?_, h.nodup, h.started_lt, fun ha => absurd ha hgone⟩
    dsimp only
    rw [List.append_assoc]
    exact (hperm.append_left r.joined).trans h.perm

theorem Kept.run (h : r.Kept) (sights : List Sight) : (r.run sights).Kept := by
  induction sights generalizing r with
  | nil => exact h
  | cons sight sights ih => exact ih (h.step sight)

/-- Once the accepting thread has ended, every thread that was started is joined. -/
theorem Kept.joined_perm (h : r.Kept) (ha : r.acceptor = .gone) : r.joined.Perm r.started := by
  have hperm := h.perm
  rwa [h.gone ha, List.append_nil] at hperm

/-- Nobody is joined who was not seen to have ended. -/
theorem mem_joined_run {worker : Nat} (h : worker ∈ (r.run sights).joined) :
    worker ∈ r.joined ∨ ∃ sight ∈ sights, sight.ended worker = true := by
  induction sights generalizing r with
  | nil => exact .inl h
  | cons sight sights ih =>
    rcases ih h with hjoined | ⟨later, hlater, hended⟩
    · rcases step_cases r sight with
        ⟨_, _, _, _, hstep⟩ | hstep | ⟨last, _, _, hended, _, hstep⟩
      · rw [hstep] at hjoined
        exact .inl hjoined
      · rw [hstep] at hjoined
        exact .inl hjoined
      · rw [hstep] at hjoined
        rcases List.mem_append.mp hjoined with hjoined | hjoined
        · exact .inl hjoined
        · obtain rfl := List.mem_singleton.mp hjoined
          exact .inr ⟨sight, List.mem_cons_self, hended⟩
    · exact .inr ⟨later, List.mem_cons_of_mem _ hlater, hended⟩

def remaining (r : Roster) : Nat :=
  match r.acceptor with
  | .checking => r.workers.length + 2
  | .accepting => 2 * r.workers.length + 6
  | .sweeping place => (r.workers.length - place) + r.workers.length + 3
  | .joining => r.workers.length + 1
  | .gone => 0

theorem remaining_le (r : Roster) : r.remaining ≤ 2 * r.workers.length + 6 := by
  unfold remaining
  split <;> omega

theorem remaining_step (hsight : Sight.IsFinal sight) (hgone : r.acceptor ≠ .gone) :
    (r.step sight).remaining < r.remaining := by
  obtain ⟨hstop, hended⟩ := hsight
  -- A last connection may come while the stop is requested, and its thread counts too.
  cases ha : r.acceptor with
  | checking => simp [step, remaining, ha, hstop]
  | accepting =>
    cases hs : sight.arrival <;> simp [step, remaining, accept, ha, hs] <;> omega
  | sweeping place =>
    rcases Nat.lt_or_ge place r.workers.length with hplace | hplace
    · rw [step_ended ha hplace (hended _)]
      simp only [remaining, ha, Workers.length_swapRemove]
      omega
    · rw [step_behind ha hplace]
      simp only [remaining, ha]
      omega
  | joining =>
    cases hw : r.workers with
    | nil => simp [step, remaining, ha, hw]
    | cons worker rest => simp [step, remaining, ha, hw, hended]
  | gone => contradiction

theorem step_of_gone (ha : r.acceptor = .gone) (sight : Sight) : r.step sight = r := by
  simp only [step, ha]

/-- Told to stop, the accepting thread comes to its end when the others have. -/
theorem run_gone (hsights : ∀ sight ∈ sights, Sight.IsFinal sight)
    (hlength : r.remaining ≤ sights.length) : (r.run sights).acceptor = .gone := by
  induction sights generalizing r with
  | nil =>
    by_contra hgone
    have hfinal : Sight.IsFinal ⟨true, .nobody, fun _ => true⟩ := ⟨rfl, fun _ => rfl⟩
    have hless := remaining_step hfinal hgone
    exact Nat.not_lt_zero _ (Nat.lt_of_lt_of_le hless hlength)
  | cons sight sights ih =>
    obtain ⟨hsight, hsights⟩ := List.forall_mem_cons.mp hsights
    rw [List.length_cons] at hlength
    refine ih (r := r.step sight) hsights ?_
    by_cases hgone : r.acceptor = .gone
    · rw [step_of_gone hgone, remaining, hgone]
      exact Nat.zero_le _
    · have hless := remaining_step hsight hgone
      omega

end Roster

namespace Moment

def roster (m : Moment) : Roster where
  acceptor := m.acceptor
  accepted := m.sessions.length
  started := List.range m.sessions.length
  workers := m.workers
  joined := m.joined

def sight (m : Moment) (arrival : Option Frame.Source) : Sight where
  stop := m.ingressStop.requested
  arrival := if arrival.isSome then .served else .nobody
  ended := m.isGone

theorem roster_stepAcceptor (m : Moment) (arrival : Option Frame.Source) :
    (m.stepAcceptor arrival).roster = m.roster.step (m.sight arrival) := by
  unfold stepAcceptor
  cases ha : m.acceptor with
  | checking =>
    cases hs : m.ingressStop.requested <;> simp [roster, Roster.step, sight, ha, hs]
  | accepting =>
    cases arrival with
    | none => simp [roster, Roster.step, Roster.accept, sight, ha]
    | some source => simp [roster, Roster.step, Roster.accept, sight, ha, List.range_succ]
  | sweeping place =>
    dsimp only
    split
    · rename_i hnone
      simp [roster, Roster.step, ha, hnone]
    · rename_i worker hworker
      split <;> simp_all [roster, Roster.step, sight]
  | joining =>
    dsimp only
    split
    · rename_i hnone
      simp [roster, Roster.step, ha, hnone]
    · rename_i worker rest hworkers
      split <;> simp_all [roster, Roster.step, sight]
  | gone => simp [roster, Roster.step, ha]

/-- Only its own steps change what the accepting thread has to do with. -/
theorem roster_move (m : Moment) (move : Move) :
    (m.move move).roster = m.roster ∨ ∃ sight, (m.move move).roster = m.roster.step sight := by
  cases move with
  | call operation => exact .inl rfl
  | acceptor arrival => exact .inr ⟨_, roster_stepAcceptor m arrival⟩
  | session place usable =>
    left
    have hlength := stepSession_length m place usable
    cases hs : m.sessions[place]? with
    | none => rw [move, stepSession_of_none hs]
    | some s =>
      rw [stepSession_of_some hs] at hlength
      rw [move, stepSession_of_some hs, roster, roster]
      dsimp only at hlength ⊢
      rw [hlength]
  | sender => exact .inl rfl
  | stopper =>
    obtain ⟨stopper, ingressStop, egressStop, h⟩ := stepStopper_eq m
    rw [move, h]
    exact .inl rfl

theorem roster_run (m : Moment) (moves : List Move) :
    ∃ sights, (m.run moves).roster = m.roster.run sights := by
  induction moves generalizing m with
  | nil => exact ⟨[], rfl⟩
  | cons move moves ih =>
    obtain ⟨sights, hrun⟩ := ih (m.move move)
    rcases m.roster_move move with h | ⟨sight, h⟩
    · exact ⟨sights, h ▸ hrun⟩
    · exact ⟨sight :: sights, hrun.trans (congrArg (Roster.run · sights) h)⟩

theorem roster_kept (settings : Settings) (sink : DatagramSink) (region : Region)
    (moves : List Move) : ((start settings sink region).run moves).roster.Kept := by
  obtain ⟨sights, hrun⟩ := (start settings sink region).roster_run moves
  rw [hrun]
  exact Roster.Kept.start.run sights

end Moment

/-- A bridge has joined the threads of its connections or waits for them, and after the stop it waits
for none. -/
theorem Lives.joined_perm {settings : Settings} {sink : DatagramSink} {region : Region}
    {b : Bridge Region} {u : Usage} (h : Lives settings sink region b u) :
    (b.joined ++ b.workers.map (·.number)).Perm ((List.range b.accepted).map (· + 1)) ∧
      (b.ingressStop.requested = true → b.workers = []) := by
  obtain ⟨moves, _, hbetween, hshows, _⟩ := h.shows
  have hkept := Moment.roster_kept settings sink region moves
  have hnumbers : b.workers.map (·.number) = (b.workers.map Worker.place).map (· + 1) := by
    rw [List.map_map]
    exact List.map_congr_left fun w hw => (hshows.served w hw).1
  constructor
  · rw [hnumbers, hshows.joined_eq, ← hshows.workers_eq, ← hshows.accepted_eq, ← List.map_append]
    exact hkept.perm.map _
  · intro hstop
    rw [← hshows.ingressStop_eq] at hstop
    rcases hbetween with ⟨hnot, _⟩ | ⟨_, hgone, _⟩
    · rw [hnot] at hstop
      contradiction
    · have hnone := hkept.gone hgone
      exact List.map_eq_nil_iff.mp (hshows.workers_eq.symm.trans hnone)

/-- No thread of a connection is lost or joined twice. A sweep joins those that have ended and leaves
the others, and it comes to its end even if more of them end meanwhile. Whatever the accepting thread
has seen, the threads that were started are those that it has joined, all of them ended, and those
that it waits for; at its end it has joined all, and the end comes when it is told to stop and the
threads have ended. So it is in every run of the threads of a bridge, and in the life of a bridge. -/
theorem Roster.joined_exact :
    (∀ (α : Type) (finished : α → Bool) (xs : List α),
      (Workers.sweep finished xs).2.Perm (xs.filter finished) ∧
      (Workers.sweep finished xs).1.Perm (xs.filter fun x => !finished x)) ∧
    (∀ r : Roster, r.acceptor = .sweeping 0 →
      (∀ sights : List Sight, sights.length = r.workers.length + 1 →
        (r.run sights).acceptor = .checking) ∧
      ∀ sight : Sight, r.run (List.replicate (r.workers.length + 1) sight) = { r with
        acceptor := .checking
        workers := (Workers.sweep sight.ended r.workers).1
        joined := r.joined ++ (Workers.sweep sight.ended r.workers).2 }) ∧
    (∀ sights : List Sight, let r := ({} : Roster).run sights
      (r.joined ++ r.workers).Perm r.started ∧ r.started.Nodup ∧
      (∀ worker ∈ r.joined, ∃ sight ∈ sights, sight.ended worker = true) ∧
      (r.acceptor = .gone → r.joined.Perm r.started) ∧
      ∀ after : List Sight, (∀ sight ∈ after, sight.IsFinal) →
        2 * r.workers.length + 6 ≤ after.length → (r.run after).acceptor = .gone) ∧
    (∀ (settings : Settings) (sink : DatagramSink) (region : Region) (moves : List Moment.Move),
      let m := (Moment.start settings sink region).run moves
      (m.joined ++ m.workers).Perm (List.range m.sessions.length) ∧
      (m.acceptor = .gone → m.joined.Perm (List.range m.sessions.length))) ∧
    (∀ (settings : Settings) (sink : DatagramSink) (region : Region) (b : Bridge Region)
        (u : Usage), Lives settings sink region b u →
        let numbers := (List.range b.accepted).map (· + 1)
        (b.joined ++ b.workers.map (·.number)).Perm numbers ∧
        (b.ingressStop.requested = true → b.joined.Perm numbers)) := by
  refine ⟨fun _ => Workers.sweep_perm_filter, ?sweeps, ?runs, ?moments, ?lives⟩
  case sweeps =>
    intro r ha
    exact ⟨fun _ => run_sweeping ha, run_sweepFrom ha⟩
  case runs =>
    intro sights r
    have hkept : r.Kept := Kept.start.run sights
    refine ⟨hkept.perm, hkept.nodup, ?_, hkept.joined_perm, ?_⟩
    · intro worker hworker
      exact (mem_joined_run hworker).resolve_left List.not_mem_nil
    · intro after hafter hlength
      exact run_gone hafter (r.remaining_le.trans hlength)
  case moments =>
    intro settings sink region moves m
    have hkept := Moment.roster_kept settings sink region moves
    exact ⟨hkept.perm, hkept.joined_perm⟩
  case lives =>
    intro settings sink region b u h numbers
    obtain ⟨hperm, hstopped⟩ := h.joined_perm
    refine ⟨hperm, ?_⟩
    intro hstop
    rwa [hstopped hstop, List.map_nil, List.append_nil] at hperm

end StreamRelay.Bridge
