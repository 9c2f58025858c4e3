import StreamRelay.Proofs.Bridge.Accounting
import StreamRelay.Proofs.Region.Fifo

/-!
# The final drain

When ingress has stopped, nothing but other callers puts messages into output rings. Once the egress
thread sees the request to stop it makes up to `Egress.maxFinalPasses` passes. A pass takes a whole
batch from every ring that has one, so a ring that is not empty at the end has lost that many
batches; and every message that left a ring was attempted once or went to another caller.
-/

namespace StreamRelay.Bridge
open Region

namespace Sender

variable {s : Sender} {c : Channel} {length batch : Nat} {w : List Bytes} {r : Region}

/-- The bodies of a channel that were handed out and not attempted yet. -/
def inHand (s : Sender) (c : Channel) : List Bytes :=
  match s.phase with
  | .forwarding d b behind _ stage =>
    if d = c then
      match stage with
      | .releasing | .counting => behind.map (·.body)
      | _ => b.body :: behind.map (·.body)
    else []
  | _ => []

def attemptedFrom (s : Sender) (c : Channel) : List Bytes :=
  s.attempted.filterMap fun p => if p.1 = c then some p.2.body else none

def got (s : Sender) (c : Channel) : List Bytes := s.attemptedFrom c ++ s.inHand c

theorem got_forward {d : Channel} {b : Buffer} {behind : List Buffer} {rest : List Channel}
    {stage : Stage} (hp : s.phase = .forwarding d b behind rest stage) (c : Channel) (r : Region)
    (stats : Stats) : (s.forward d b behind rest r stats stage).1.got c = s.got c := by
  cases stage with
  | serializing =>
    unfold forward
    dsimp only
    split <;> simp [got, attemptedFrom, inHand, hp]
  | sending n => simp [forward, got, attemptedFrom, inHand, hp]
  | tallying fate =>
    by_cases hd : d = c <;> simp [forward, got, attemptedFrom, inHand, hp, hd]
  | releasing => simp [forward, got, attemptedFrom, inHand, hp]
  | counting => cases behind <;> simp [forward, next, got, attemptedFrom, inHand, hp]

theorem got_take {d : Channel} {rest : List Channel} (hp : s.phase = .visiting (d :: rest))
    (batch : List Buffer) (c : Channel) :
    (s.take d rest batch).got c = s.got c ++ if d = c then batch.map (·.body) else [] := by
  cases batch <;> simp [take, got, attemptedFrom, inHand, hp]

/-- With a buffer in hand nothing is taken out of a ring. -/
theorem forward_parkedAt (d : Channel) (b : Buffer) (behind : List Buffer) (rest : List Channel)
    (r : Region) (stats : Stats) (stage : Stage) (c : Channel) :
    (s.forward d b behind rest r stats stage).2.1.parkedAt c = r.parkedAt c := by
  cases stage with
  | serializing =>
    unfold forward
    dsimp only
    split <;> rfl
  | _ => rfl

/-- What a step of the egress thread takes out of a ring, the egress thread has got. -/
theorem step_got (s : Sender) (stop : Signal) (r : Region) (stats : Stats) (c : Channel) :
    ∃ sent, (s.step stop r stats).1.got c = s.got c ++ sent ∧
      (r.parkedAt c).map (·.body) =
        sent ++ ((s.step stop r stats).2.1.parkedAt c).map (·.body) := by
  unfold step
  cases hp : s.phase with
  | starting =>
    refine ⟨[], ?_, rfl⟩
    simp [got, attemptedFrom, inHand, hp]
  | polling =>
    refine ⟨[], ?_, rfl⟩
    rcases poll_cases s r with ⟨_, h⟩ | ⟨_, _, h⟩ | ⟨_, _, h⟩
    · simp [h, got, attemptedFrom, inHand, hp]
    · simp [h, got, attemptedFrom, inHand, hp]
    · cases hf : s.final.isSome <;> simp [h, hf, got, attemptedFrom, inHand, hp]
  | visiting rest =>
    cases rest with
    | nil =>
      refine ⟨[], ?_, rfl⟩
      dsimp only
      unfold complete
      split
      · simp [got, attemptedFrom, inHand, hp]
      · split <;> simp [got, attemptedFrom, inHand, hp]
    | cons d rest =>
      refine ⟨_, got_take hp _ c, ?_⟩
      dsimp only
      rw [parkedAt_handOut, handOut_fst]
      by_cases hd : d = c
      · rw [if_pos hd, if_pos hd, hd, ← List.map_append, List.take_append_drop]
      · rw [if_neg hd, if_neg hd, List.nil_append]
  | forwarding d b behind rest stage =>
    refine ⟨[], ?_, ?_⟩
    · rw [List.append_nil]
      exact got_forward hp c r stats
    · dsimp only
      rw [forward_parkedAt, List.nil_append]
  | deciding =>
    refine ⟨[], ?_, rfl⟩
    dsimp only
    split <;> simp [resume, got, attemptedFrom, inHand, hp]
  | waiting =>
    refine ⟨[], ?_, rfl⟩
    simp [resume, got, attemptedFrom, inHand, hp]
  | leaving =>
    refine ⟨[], ?_, rfl⟩
    simp [got, attemptedFrom, inHand, hp]
  | gone => exact ⟨[], (List.append_nil _).symm, rfl⟩

def toVisit? (s : Sender) : Option (List Channel) :=
  match s.phase with
  | .visiting rest | .forwarding _ _ _ rest _ => some rest
  | _ => none

/-- The state of a pass stays as it is while a buffer is in hand. -/
theorem forward_kept {d : Channel} {b : Buffer} {behind : List Buffer} {rest : List Channel}
    {stage : Stage} (hp : s.phase = .forwarding d b behind rest stage) (r : Region)
    (stats : Stats) :
    (s.forward d b behind rest r stats stage).1.toVisit? = some rest ∧
    (s.forward d b behind rest r stats stage).1.final = s.final ∧
    (s.forward d b behind rest r stats stage).1.handled = s.handled ∧
    (s.forward d b behind rest r stats stage).1.egress.batch = s.egress.batch := by
  cases stage with
  | serializing =>
    unfold forward
    dsimp only
    split <;> exact ⟨rfl, rfl, rfl, rfl⟩
  | counting => cases behind <;> exact ⟨rfl, rfl, rfl, rfl⟩
  | _ => exact ⟨rfl, rfl, rfl, rfl⟩

theorem step_batch (s : Sender) (stop : Signal) (r : Region) (stats : Stats) :
    (s.step stop r stats).1.egress.batch = s.egress.batch := by
  unfold step
  cases hp : s.phase with
  | polling =>
    dsimp only
    rcases poll_cases s r with ⟨_, h⟩ | ⟨_, _, h⟩ | ⟨_, _, h⟩ <;> rw [h]
  | visiting rest =>
    cases rest with
    | nil =>
      dsimp only
      unfold complete
      split
      · rfl
      · split <;> rfl
    | cons d rest =>
      dsimp only
      cases (r.handOut d s.egress.batch).1 <;> rfl
  | forwarding d b behind rest stage => exact (forward_kept hp r stats).2.2.2
  | deciding =>
    dsimp only
    split <;> rfl
  | _ => rfl

/-- A ring that held this many bodies is empty, or has lost a batch for each of these passes. -/
def Drained (length batch passes : Nat) (w : List Bytes) : Prop :=
  w = [] ∨ w.length + passes * batch ≤ length

theorem Drained.shrink {passes : Nat} {taken w' : List Bytes} (h : Drained length batch passes w)
    (hw : w = taken ++ w') : Drained length batch passes w' := by
  rcases h with h | h
  · rw [hw, List.append_eq_nil_iff] at h
    exact .inl h.2
  · rw [hw, List.length_append] at h
    exact .inr (by omega)

theorem Drained.drop {passes : Nat} (h : Drained length batch passes w) :
    Drained length batch (passes + 1) (w.drop batch) := by
  rcases h with h | h
  · exact .inl (by rw [h, List.drop_nil])
  · by_cases hlong : w.length ≤ batch
    · exact .inl (List.drop_eq_nil_of_le hlong)
    · refine .inr ?_
      rw [List.length_drop, Nat.succ_mul]
      omega

/-- How far the final drain of a ring has got when `w` is parked in it. In each final pass the turn of
the ring takes a batch; a pass that handled nothing has found it empty. -/
structure Draining (s : Sender) (c : Channel) (length batch : Nat) (w : List Bytes) : Prop where
  batch_eq : s.egress.batch = batch
  length_le : w.length ≤ length
  left_le : ∀ left, s.final = some left → left ≤ Egress.maxFinalPasses
  starting : s.phase = .starting → s.final = none
  polling : ∀ left, s.final = some left → s.phase = .polling →
    Drained length batch (Egress.maxFinalPasses - left) w
  visiting : ∀ left rest, s.final = some left → s.toVisit? = some rest → 0 < left ∧
    ((c ∈ rest ∧ Drained length batch (Egress.maxFinalPasses - left) w) ∨
      (Drained length batch (Egress.maxFinalPasses - left + 1) w ∧ (s.handled = 0 → w = [])))
  leaving : s.phase = .leaving ∨ s.phase = .gone → Drained length batch Egress.maxFinalPasses w

namespace Draining

/-- Other callers can only take something out of the ring. -/
theorem shrink {taken w' : List Bytes} (h : s.Draining c length batch w) (hw : w = taken ++ w') :
    s.Draining c length batch w' where
  batch_eq := h.batch_eq
  length_le := by
    have hle := h.length_le
    rw [hw, List.length_append] at hle
    omega
  left_le := h.left_le
  starting := h.starting
  polling left hl hp := (h.polling left hl hp).shrink hw
  visiting left rest hl hr := by
    obtain ⟨hleft, hrest⟩ := h.visiting left rest hl hr
    refine ⟨hleft, hrest.imp (And.imp_right (·.shrink hw)) ?_⟩
    rintro ⟨hdrained, hnone⟩
    refine ⟨hdrained.shrink hw, fun h0 => ?_⟩
    have hempty := hnone h0
    rw [hw, List.append_eq_nil_iff] at hempty
    exact hempty.2
  leaving hp := (h.leaving hp).shrink hw

/-- Before the request was seen. -/
theorem of_none (hbatch : s.egress.batch = batch) (hfinal : s.final = none)
    (hp : ¬ (s.phase = .leaving ∨ s.phase = .gone)) (hw : w.length ≤ length) :
    s.Draining c length batch w := by
  refine ⟨hbatch, hw, ?_, fun _ => hfinal, ?_, ?_, fun h => absurd h hp⟩
  · simp [hfinal]
  · simp [hfinal]
  · simp [hfinal]

/-- During a pass the phase is one of two. -/
theorem of_toVisit {rest : List Channel} (hv : s.toVisit? = some rest)
    (hbatch : s.egress.batch = batch) (hw : w.length ≤ length)
    (hleft : ∀ left, s.final = some left → left ≤ Egress.maxFinalPasses ∧ 0 < left ∧
      ((c ∈ rest ∧ Drained length batch (Egress.maxFinalPasses - left) w) ∨
        (Drained length batch (Egress.maxFinalPasses - left + 1) w ∧ (s.handled = 0 → w = [])))) :
    s.Draining c length batch w := by
  have hphase : s.phase ≠ .starting ∧ s.phase ≠ .polling ∧ s.phase ≠ .leaving ∧
      s.phase ≠ .gone := by
    refine ⟨?_, ?_, ?_, ?_⟩ <;>
    · intro hp
      simp [toVisit?, hp] at hv
  obtain ⟨hstarting, hpolling, hleaving, hgone⟩ := hphase
  refine ⟨hbatch, hw, fun left hl => (hleft left hl).1, fun h => absurd h hstarting,
    fun _ _ h => absurd h hpolling, ?_, fun h => (h.elim hleaving hgone).elim⟩
  intro left rest' hl hr
  rw [hv] at hr
  cases hr
  exact (hleft left hl).2

/-- A turn of the ring takes a batch. -/
theorem turn (hb : 0 < batch) {d : Channel} {rest : List Channel}
    (h : s.Draining c length batch ((r.parkedAt c).map (·.body)))
    (hp : s.phase = .visiting (d :: rest)) :
    (s.take d rest (r.handOut d batch).1).Draining c length batch
      (((r.handOut d batch).2.parkedAt c).map (·.body)) := by
  have hv : (s.take d rest (r.handOut d batch).1).toVisit? = some rest := by
    cases (r.handOut d batch).1 <;> rfl
  have hfinal : (s.take d rest (r.handOut d batch).1).final = s.final := by
    cases (r.handOut d batch).1 <;> rfl
  have hbatch : (s.take d rest (r.handOut d batch).1).egress.batch = batch := by
    cases (r.handOut d batch).1 <;> exact h.batch_eq
  have hhandled : (s.take d rest (r.handOut d batch).1).handled =
      s.handled + (r.handOut d batch).1.length := by
    cases (r.handOut d batch).1 <;> rfl
  have hparked : ((r.handOut d batch).2.parkedAt c).map (·.body) =
      if d = c then ((r.parkedAt c).map (·.body)).drop batch else (r.parkedAt c).map (·.body) := by
    rw [parkedAt_handOut]
    split
    · rename_i hd
      rw [hd, List.map_drop]
    · rfl
  have hlength := h.length_le
  rw [hparked]
  refine of_toVisit hv hbatch ?_ ?_
  · split
    · rw [List.length_drop]
      omega
    · exact hlength
  intro left hl
  rw [hfinal] at hl
  obtain ⟨hleft, hdrained⟩ := h.visiting left (d :: rest) hl (by simp [toVisit?, hp])
  refine ⟨h.left_le left hl, hleft, ?_⟩
  by_cases hd : d = c
  · rw [if_pos hd]
    refine .inr ⟨?_, ?_⟩
    · rcases hdrained with ⟨_, hdrained⟩ | ⟨hdrained, _⟩
      · exact hdrained.drop
      · exact hdrained.shrink (List.take_append_drop batch _).symm
    · intro h0
      rw [hhandled, handOut_fst, hd] at h0
      have hnone : (r.parkedAt c).take batch = [] := List.eq_nil_of_length_eq_zero (by omega)
      rcases List.take_eq_nil_iff.mp hnone with hzero | hempty
      · omega
      · simp [hempty]
  · rw [if_neg hd]
    rcases hdrained with ⟨hmem, hdrained⟩ | ⟨hdrained, hnone⟩
    · have hrest := (List.mem_cons.mp hmem).resolve_left fun h => hd h.symm
      exact .inl ⟨hrest, hdrained⟩
    · exact .inr ⟨hdrained, fun h0 => hnone (by omega)⟩

/-- A pass that is over leads to the next one, unless it handled nothing. -/
theorem complete {w : List Bytes} (h : s.Draining c length batch w) (hp : s.phase = .visiting []) :
    s.complete.Draining c length batch w := by
  unfold Sender.complete
  cases hf : s.final with
  | none => exact .of_none h.batch_eq rfl (by simp) h.length_le
  | some left =>
    obtain ⟨hleft, hdrained⟩ := h.visiting left [] hf (by simp [toVisit?, hp])
    obtain ⟨hdrained, hnone⟩ := hdrained.resolve_left fun h => List.not_mem_nil h.1
    have hle := h.left_le left hf
    dsimp only
    split
    · rename_i h0
      refine ⟨h.batch_eq, h.length_le, ?_, nofun, nofun, nofun, ?_⟩
      · rintro left' h'
        cases h'
        exact hle
      · intro _
        exact .inl (hnone h0)
    · refine ⟨h.batch_eq, h.length_le, ?_, nofun, ?_, nofun, nofun⟩
      · rintro left' h'
        cases h'
        omega
      · rintro left' h' _
        cases h'
        have hnext : Egress.maxFinalPasses - (left - 1) = Egress.maxFinalPasses - left + 1 := by
          omega
        rw [hnext]
        exact hdrained

/-- No final pass was made when the request is seen. -/
theorem resume (hbatch : s.egress.batch = batch) (hw : w.length ≤ length) (stop : Signal) :
    (s.resume stop).Draining c length batch w := by
  unfold Sender.resume
  split
  · refine ⟨hbatch, hw, ?_, by simp, ?_, by simp [toVisit?], by simp⟩
    · rintro left h
      cases h
      exact Nat.le_refl _
    · rintro left h _
      cases h
      refine .inr ?_
      rw [Nat.sub_self, Nat.zero_mul]
      exact hw
  · exact .of_none hbatch rfl (by simp) hw

theorem step (hb : 0 < batch) (hc : c.direction = .output)
    (h : s.Draining c length batch ((r.parkedAt c).map (·.body)))
    (ht : s.isRegistered = true → egressThread ∈ r.registered) (stop : Signal) (stats : Stats) :
    (s.step stop r stats).1.Draining c length batch
      (((s.step stop r stats).2.1.parkedAt c).map (·.body)) := by
  have hbatch := h.batch_eq
  have hlength := h.length_le
  unfold Sender.step
  cases hp : s.phase with
  | starting => exact .of_none hbatch (h.starting hp) (by simp) hlength
  | polling =>
    rcases poll_cases s r with ⟨hf, hs⟩ | ⟨hf, _, hs⟩ | ⟨_, hno, _⟩
    · have hdrained := h.polling 0 hf hp
      dsimp only
      rw [hs]
      exact ⟨hbatch, hlength, h.left_le, by simp, by simp, by simp [toVisit?], fun _ => hdrained⟩
    · dsimp only
      rw [hs]
      refine of_toVisit rfl hbatch hlength ?_
      intro left hl
      have hdrained := h.polling left hl hp
      have hleft : 0 < left := Nat.pos_of_ne_zero fun h0 => hf (hl.trans (congrArg some h0))
      refine ⟨h.left_le left hl, hleft, ?_⟩
      by_cases hmem : c ∈ r.outputs
      · exact .inl ⟨hmem, hdrained⟩
      · have hring : r.ring? c = none := by
          simpa [mem_outputs_iff, hc] using hmem
        have hnone : (r.parkedAt c).map (·.body) = [] := by
          rw [parkedAt_of_none hring, List.map_nil]
        exact .inr ⟨.inl hnone, fun _ => hnone⟩
    · exact absurd (ht (by simp [isRegistered, hp])) hno
  | visiting rest =>
    cases rest with
    | nil => exact h.complete hp
    | cons d rest =>
      dsimp only
      rw [hbatch]
      exact h.turn hb hp
  | forwarding d b behind rest stage =>
    obtain ⟨hvisit, hfinal, hhandled, hsame⟩ := forward_kept hp r stats
    dsimp only
    rw [forward_parkedAt]
    refine of_toVisit hvisit (hsame.trans hbatch) hlength ?_
    intro left hl
    rw [hfinal] at hl
    rw [hhandled]
    exact ⟨h.left_le left hl, h.visiting left rest hl (by simp [toVisit?, hp])⟩
  | deciding =>
    dsimp only
    split
    · exact .resume hbatch hlength stop
    · exact ⟨hbatch, hlength, h.left_le, by simp, by simp, by simp [toVisit?], by simp⟩
  | waiting => exact .resume hbatch hlength stop
  | leaving =>
    have hdrained := h.leaving (.inl hp)
    exact ⟨hbatch, hlength, h.left_le, by simp, by simp, by simp [toVisit?], fun _ => hdrained⟩
  | gone => exact h

end Draining

structure Timely (s : Sender) (stop : Signal) : Prop where
  requested : s.final ≠ none → stop.requested = true
  leaving : s.phase = .leaving ∨ s.phase = .gone → s.final ≠ none

theorem Timely.resume (s : Sender) (stop : Signal) : (s.resume stop).Timely stop := by
  refine ⟨?_, nofun⟩
  unfold Sender.resume
  split
  · exact fun _ => ‹_›
  · exact fun h => absurd rfl h

theorem Timely.step {stop : Signal} (hs : s.Timely stop) (r : Region) (stats : Stats) :
    (s.step stop r stats).1.Timely stop := by
  unfold Sender.step
  cases hp : s.phase with
  | starting => exact ⟨hs.requested, nofun⟩
  | polling =>
    dsimp only
    rcases poll_cases s r with ⟨hf, h⟩ | ⟨_, _, h⟩ | ⟨_, _, h⟩
    · rw [h]
      exact ⟨hs.requested, fun _ => by simp [hf]⟩
    · rw [h]
      exact ⟨hs.requested, nofun⟩
    · rw [h]
      refine ⟨hs.requested, ?_⟩
      cases hf : s.final <;> simp
  | visiting rest =>
    cases rest with
    | nil =>
      dsimp only
      unfold complete
      cases hf : s.final with
      | none => exact ⟨fun h => absurd rfl h, nofun⟩
      | some left =>
        have hrequested := hs.requested (by simp [hf])
        dsimp only
        split <;> exact ⟨fun _ => hrequested, by simp⟩
    | cons d rest =>
      dsimp only
      cases (r.handOut d s.egress.batch).1 <;> exact ⟨hs.requested, nofun⟩
  | forwarding d b behind rest stage =>
    obtain ⟨hvisit, hfinal, _, _⟩ := forward_kept hp r stats
    dsimp only
    refine ⟨hfinal ▸ hs.requested, ?_⟩
    rintro (h | h) <;> simp [toVisit?, h] at hvisit
  | deciding =>
    dsimp only
    split
    · exact .resume s stop
    · exact ⟨hs.requested, nofun⟩
  | waiting => exact .resume s stop
  | leaving => exact ⟨hs.requested, fun _ => hs.leaving (.inl hp)⟩
  | gone => exact hs

end Sender

namespace Moment

variable {m m₁ m₂ : Moment} {c : Channel} {moves : List Move}

/-- Egress is told to stop only after ingress has stopped. -/
structure Timely (m : Moment) : Prop where
  sender : m.sender.Timely m.egressStop
  stopping : m.stopper = .idle ∨ m.stopper = .joiningIngress ∨ m.stopper = .stoppingEgress →
    m.egressStop.requested = false

theorem Timely.start (settings : Settings) (sink : DatagramSink) (region : Region) :
    (start settings sink region).Timely :=
  ⟨⟨fun h => absurd rfl h, nofun⟩, fun _ => rfl⟩

theorem Timely.stopper (hm : m.Timely) : m.stepStopper.Timely := by
  unfold stepStopper
  cases hs : m.stopper with
  | idle => exact ⟨hm.sender, fun _ => hm.stopping (.inl hs)⟩
  | joiningIngress =>
    dsimp only
    split
    · exact ⟨hm.sender, fun _ => hm.stopping (.inr (.inl hs))⟩
    · exact hm
  | stoppingEgress => exact ⟨⟨fun _ => rfl, hm.sender.leaving⟩, nofun⟩
  | joiningEgress =>
    dsimp only
    split
    · exact ⟨hm.sender, nofun⟩
    · exact hm
  | done => exact hm

theorem Timely.move (hm : m.Timely) (move : Move) : (m.move move).Timely := by
  cases move with
  | call operation => exact ⟨hm.sender, hm.stopping⟩
  | acceptor arrival =>
    rcases stepAcceptor_cases m arrival with ⟨_, _, _, h⟩ | ⟨_, h⟩
    · rw [Moment.move, h]
      exact ⟨hm.sender, hm.stopping⟩
    · rw [Moment.move, h]
      exact ⟨hm.sender, hm.stopping⟩
  | session place usable =>
    rw [Moment.move, stepSession]
    split
    · exact hm
    · exact ⟨hm.sender, hm.stopping⟩
  | sender => exact ⟨hm.sender.step _ _, hm.stopping⟩
  | stopper => exact hm.stopper

/-- When ingress has stopped the egress thread has not been told to stop yet. -/
theorem Timely.final_eq_none (hm : m.Timely) (hs : m.stopper = .stoppingEgress) :
    m.sender.final = none := by
  by_contra hfinal
  have hrequested := hm.sender.requested hfinal
  rw [hm.stopping (.inr (.inr hs))] at hrequested
  contradiction

/-- Only the egress thread changes its state. -/
theorem sender_move (m : Moment) {move : Move} (h : move ≠ .sender) :
    (m.move move).sender = m.sender := by
  cases move with
  | call operation => rfl
  | acceptor arrival =>
    rcases stepAcceptor_cases m arrival with ⟨_, _, _, h⟩ | ⟨_, h⟩ <;> rw [Moment.move, h]
  | session place usable =>
    rw [Moment.move, stepSession]
    split <;> rfl
  | sender => exact absurd rfl h
  | stopper =>
    obtain ⟨_, _, _, h⟩ := stepStopper_eq m
    rw [Moment.move, h]

theorem run_timely (settings : Settings) (sink : DatagramSink) (region : Region)
    (moves : List Move) :
    ((start settings sink region).run moves).Timely ∧
      ((start settings sink region).run moves).sender.egress.batch = settings.egressBatch := by
  refine run_induct (Q := fun _ => True)
    (P := fun m => m.Timely ∧ m.sender.egress.batch = settings.egressBatch) ?_
    (fun _ _ => trivial) ⟨.start settings sink region, rfl⟩
  intro m move _ ⟨htimely, hbatch⟩
  refine ⟨htimely.move move, ?_⟩
  by_cases hs : move = .sender
  · rw [hs]
    exact (m.sender.step_batch _ _ _).trans hbatch
  · rw [sender_move m hs]
    exact hbatch

/-- Between two moments these bodies left the ring of a channel: some were handed out to the egress
thread, the others were taken by other callers. Nothing was put into the ring. -/
structure Gives (c : Channel) (m m' : Moment) (taken sent others : List Bytes) : Prop where
  waiting_eq : m.usage.waiting c = taken ++ m'.usage.waiting c
  got_eq : m'.sender.got c = m.sender.got c ++ sent
  pulled_eq : m'.usage.pulled c = m.usage.pulled c ++ others
  perm : taken.Perm (sent ++ others)

theorem Gives.of_same (hu : m₁.usage = m.usage) (hs : m₁.sender = m.sender) :
    Gives c m m₁ [] [] [] := by
  refine ⟨?_, ?_, ?_, .refl _⟩
  · rw [hu, List.nil_append]
  · rw [hs, List.append_nil]
  · rw [hu, List.append_nil]

theorem Gives.trans {taken₁ sent₁ others₁ taken₂ sent₂ others₂ : List Bytes}
    (h₁ : Gives c m m₁ taken₁ sent₁ others₁) (h₂ : Gives c m₁ m₂ taken₂ sent₂ others₂) :
    Gives c m m₂ (taken₁ ++ taken₂) (sent₁ ++ sent₂) (others₁ ++ others₂) where
  waiting_eq := by rw [h₁.waiting_eq, h₂.waiting_eq, List.append_assoc]
  got_eq := by rw [h₂.got_eq, h₁.got_eq, List.append_assoc]
  pulled_eq := by rw [h₂.pulled_eq, h₁.pulled_eq, List.append_assoc]
  perm := by
    refine (h₁.perm.append h₂.perm).trans ?_
    rw [List.append_assoc, List.append_assoc]
    refine List.Perm.append_left sent₁ ?_
    rw [← List.append_assoc, ← List.append_assoc]
    exact List.perm_append_comm.append_right others₂

/-- An operation of another caller that puts nothing into a ring. -/
theorem Gives.call {operation : Usage.Operation}
    (h : (m.usage.operate operation).pushed c = m.usage.pushed c) :
    ∃ taken, Gives c m (m.move (.call operation)) taken [] taken := by
  obtain ⟨news, hnews⟩ := (Usage.operate_step m.usage operation).follows
  have hpushed : (m.usage.operate operation).pushed c =
      m.usage.pushed c ++ news.filterMap (Happening.parkedFor c) := by
    rw [Usage.pushed, hnews.history_eq, List.filterMap_append]
    rfl
  rw [h] at hpushed
  have hnone := List.self_eq_append_right.mp hpushed
  have hqueue := hnews.queues c
  rw [hnone, List.append_nil] at hqueue
  refine ⟨_, hqueue, (List.append_nil _).symm, ?_, .refl _⟩
  have hhistory : (m.move (.call operation)).usage.history = m.usage.history ++ news :=
    hnews.history_eq
  rw [Usage.pulled, Usage.pulled, hhistory, List.filterMap_append]

/-- What stays of a ring shows whether a caller has put something into it. -/
theorem pushed_eq_of_suffix {operation : Usage.Operation}
    (h : (m.usage.operate operation).waiting c <:+ m.usage.waiting c) :
    (m.usage.operate operation).pushed c = m.usage.pushed c := by
  by_contra hpushed
  obtain ⟨news, hnews⟩ := (Usage.operate_step m.usage operation).follows
  have hpulled := Usage.pulled_operate_of_pushed hpushed
  have hqueue := hnews.queues c
  rw [Usage.pulled, hnews.history_eq, List.filterMap_append] at hpulled
  rw [Usage.pushed, hnews.history_eq, List.filterMap_append] at hpushed
  have hnone := List.self_eq_append_right.mp hpulled.symm
  rw [hnone, List.nil_append] at hqueue
  rw [← hqueue] at h
  have hle := h.length_le
  rw [List.length_append] at hle
  have hempty : news.filterMap (Happening.parkedFor c) = [] :=
    List.eq_nil_of_length_eq_zero (by omega)
  rw [hempty, List.append_nil] at hpushed
  exact hpushed rfl

theorem Gives.sender (c : Channel) (m : Moment) : ∃ sent, Gives c m m.stepSender sent sent [] := by
  obtain ⟨sent, hgot, hparked⟩ := m.sender.step_got m.egressStop m.usage.region m.stats c
  exact ⟨sent, hparked, hgot, (List.append_nil _).symm, by rw [List.append_nil]⟩

theorem Gives.session (hv : ∀ s ∈ m.sessions, s.Valid) {place : Nat} {usable : Bool}
    (h : (m.stepSession place usable).usage.waiting c <:+ m.usage.waiting c) :
    Gives c m (m.stepSession place usable) [] [] [] := by
  rcases stepSession_cases hv place usable with
    hs | ⟨_, _, _, _, region, stats, _, _, _, heffect, hs⟩
  · exact .of_same (congrArg usage hs) (congrArg Moment.sender hs)
  · rw [hs] at h ⊢
    have hadds : m.usage.waiting c <+: Usage.waiting { m.usage with region } c :=
      (heffect.parkedAt_prefix c).map _
    have hsame := hadds.eq_of_length (Nat.le_antisymm hadds.length_le h.length_le)
    exact ⟨hsame, (List.append_nil _).symm, (List.append_nil _).symm, .refl _⟩

/-- What was put into a ring stays on record. -/
theorem pushed_prefix_move (m : Moment) (move : Move) (c : Channel) :
    m.usage.pushed c <+: (m.move move).usage.pushed c := by
  have hsame : ∀ u : Usage, u.history = m.usage.history → m.usage.pushed c <+: u.pushed c := by
    intro u hu
    have heq : m.usage.pushed c = u.pushed c := by rw [Usage.pushed, Usage.pushed, hu]
    exact heq ▸ List.prefix_rfl
  cases move with
  | call operation =>
    obtain ⟨news, hnews⟩ := (Usage.operate_step m.usage operation).follows
    refine ⟨news.filterMap (Happening.parkedFor c), ?_⟩
    rw [Usage.pushed, ← List.filterMap_append, ← hnews.history_eq]
    rfl
  | acceptor arrival =>
    refine hsame _ ?_
    rcases stepAcceptor_cases m arrival with ⟨_, _, _, h⟩ | ⟨_, h⟩ <;> rw [Moment.move, h]
  | session place usable =>
    refine hsame _ ?_
    rw [Moment.move, stepSession]
    split <;> rfl
  | sender => exact hsame _ rfl
  | stopper =>
    refine hsame _ ?_
    obtain ⟨_, _, _, h⟩ := stepStopper_eq m
    rw [Moment.move, h]

theorem pushed_prefix_run (m : Moment) (moves : List Move) (c : Channel) :
    m.usage.pushed c <+: (m.run moves).usage.pushed c := by
  induction moves generalizing m with
  | nil => exact List.prefix_rfl
  | cons move moves ih => exact (pushed_prefix_move m move c).trans (ih _)

/-- What a move takes out of a ring, when it puts nothing into it. -/
theorem Gives.move (hv : ∀ s ∈ m.sessions, s.Valid) {move : Move}
    (h : (m.move move).usage.waiting c <:+ m.usage.waiting c) :
    ∃ taken sent others, Gives c m (m.move move) taken sent others := by
  cases move with
  | call operation =>
    obtain ⟨taken, hgives⟩ := Gives.call (pushed_eq_of_suffix h)
    exact ⟨taken, [], taken, hgives⟩
  | acceptor arrival =>
    refine ⟨[], [], [], ?_⟩
    rcases stepAcceptor_cases m arrival with ⟨_, _, _, hs⟩ | ⟨_, hs⟩ <;>
    · rw [Moment.move, hs]
      exact .of_same rfl rfl
  | session place usable => exact ⟨[], [], [], Gives.session hv h⟩
  | sender =>
    obtain ⟨sent, hgives⟩ := Gives.sender c m
    exact ⟨sent, sent, [], hgives⟩
  | stopper =>
    obtain ⟨_, _, _, hs⟩ := stepStopper_eq m
    refine ⟨[], [], [], ?_⟩
    rw [Moment.move, hs]
    exact .of_same rfl rfl

/-- Nothing is put into the ring of a channel by these moves. What is left in it after each of them is
the rest of what was there. -/
def Quiet (c : Channel) : Moment → List Move → Prop
  | _, [] => True
  | m, move :: moves =>
    (m.move move).usage.waiting c <:+ m.usage.waiting c ∧ Quiet c (m.move move) moves

/-- Ingress has stopped, so that only other callers, the egress thread and the stop go on. -/
theorem stepSession_of_gone (hgone : ∀ s ∈ m.sessions, s.isGone = true) (place : Nat)
    (usable : Bool) : m.stepSession place usable = m := by
  unfold stepSession
  cases hs : m.sessions[place]? with
  | none => rfl
  | some s =>
    have hp := Session.phase_of_isGone (hgone s (List.mem_of_getElem? hs))
    obtain ⟨hplace, hget⟩ := List.getElem?_eq_some_iff.mp hs
    have hset : m.sessions.set place s = m.sessions := by
      rw [← hget, List.set_getElem_self]
    simp only [Session.step, hp, hset]

/-- When ingress has stopped, only callers outside the bridge put something into a ring. -/
theorem quiet_of_pushed (hm : m.Supervised) (ha : m.acceptor = .gone) {moves : List Move}
    (h : (m.run moves).usage.pushed c = m.usage.pushed c) : Quiet c m moves := by
  induction moves generalizing m with
  | nil => trivial
  | cons move moves ih =>
    -- nothing was put into the ring in the end, so nothing by this move
    have hfirst := pushed_prefix_move m move c
    have hrest := pushed_prefix_run (m.move move) moves c
    have hend : ((m.move move).run moves).usage.pushed c = m.usage.pushed c := h
    rw [hend] at hrest
    have hsame : (m.move move).usage.pushed c = m.usage.pushed c :=
      (hfirst.eq_of_length (Nat.le_antisymm hfirst.length_le hrest.length_le)).symm
    have hstill : ∀ m₁ : Moment, m₁.usage = m.usage → m₁.usage.waiting c <:+ m.usage.waiting c :=
      fun m₁ h₁ => h₁ ▸ List.suffix_rfl
    have hmove : (m.move move).acceptor = .gone ∧
        (m.move move).usage.waiting c <:+ m.usage.waiting c := by
      cases move with
      | call operation =>
        obtain ⟨taken, hgives⟩ := Gives.call hsame
        exact ⟨ha, taken, hgives.waiting_eq.symm⟩
      | acceptor arrival =>
        have heq := stepAcceptor_of_gone ha arrival
        exact ⟨(congrArg acceptor heq).trans ha, hstill _ (congrArg usage heq)⟩
      | session place usable =>
        have heq := stepSession_of_gone (hm.sessions_gone ha) place usable
        exact ⟨(congrArg acceptor heq).trans ha, hstill _ (congrArg usage heq)⟩
      | sender =>
        obtain ⟨sent, hgives⟩ := Gives.sender c m
        exact ⟨ha, sent, hgives.waiting_eq.symm⟩
      | stopper =>
        obtain ⟨_, _, _, heq⟩ := stepStopper_eq m
        have husage : m.stepStopper.usage = m.usage := by rw [heq]
        exact ⟨(congrArg acceptor heq).trans ha, hstill _ husage⟩
    exact ⟨hmove.2, ih (hm.move move) hmove.1 (hend.trans hsame.symm)⟩

theorem Quiet.gives (h : Quiet c m moves) (hm : m.Orderly)
    (hout : ∀ move ∈ moves, move.IsOutside) :
    ∃ taken sent others, Gives c m (m.run moves) taken sent others := by
  induction moves generalizing m with
  | nil => exact ⟨[], [], [], .of_same rfl rfl⟩
  | cons move moves ih =>
    obtain ⟨hmove, hout⟩ := List.forall_mem_cons.mp hout
    obtain ⟨taken₁, sent₁, others₁, h₁⟩ := Gives.move hm.accounts.valid h.1
    obtain ⟨taken₂, sent₂, others₂, h₂⟩ := ih h.2 (hm.move hmove) hout
    exact ⟨_, _, _, h₁.trans h₂⟩

/-- What each step of the egress thread keeps, and what is kept when something leaves a ring, holds
as long as nothing is put into the ring. -/
theorem Quiet.keeps (h : Quiet c m moves) (hm : m.Orderly)
    (hout : ∀ move ∈ moves, move.IsOutside) {P : Sender → List Bytes → Prop}
    (hstep : ∀ (s : Sender) (r : Region) (stop : Signal) (stats : Stats),
      (s.isRegistered = true → egressThread ∈ r.registered) → P s ((r.parkedAt c).map (·.body)) →
        P (s.step stop r stats).1 (((s.step stop r stats).2.1.parkedAt c).map (·.body)))
    (hshrink : ∀ s taken w, P s (taken ++ w) → P s w) (hP : P m.sender (m.usage.waiting c)) :
    P (m.run moves).sender ((m.run moves).usage.waiting c) := by
  induction moves generalizing m with
  | nil => exact hP
  | cons move moves ih =>
    obtain ⟨hmove, hout⟩ := List.forall_mem_cons.mp hout
    refine ih h.2 (hm.move hmove) hout ?_
    by_cases hs : move = .sender
    · rw [hs]
      exact hstep _ _ _ _ hm.registered.egress.mpr hP
    · obtain ⟨taken, sent, others, hgives⟩ := Gives.move hm.accounts.valid h.1
      rw [sender_move m hs]
      exact hshrink _ taken _ (hgives.waiting_eq ▸ hP)

variable {length batch : Nat}

structure Draining (m : Moment) (c : Channel) (length batch : Nat) : Prop where
  orderly : m.Orderly
  sender : m.sender.Draining c length batch (m.usage.waiting c)

theorem Draining.run (hm : m.Draining c length batch) (hb : 0 < batch) (hc : c.direction = .output)
    {moves : List Move} (hout : ∀ move ∈ moves, move.IsOutside) (h : Quiet c m moves) :
    (m.run moves).Draining c length batch ∧
      ∃ taken sent others, Gives c m (m.run moves) taken sent others := by
  refine ⟨⟨hm.orderly.run hout, ?_⟩, h.gives hm.orderly hout⟩
  refine h.keeps (P := fun s w => s.Draining c length batch w) hm.orderly hout ?_ ?_ hm.sender
  · exact fun s r stop stats ht hs => hs.step hb hc ht stop stats
  · exact fun s taken w hs => hs.shrink rfl

/-- When the egress thread has ended, a ring is empty or has lost as many batches as there are final
passes. -/
theorem Draining.gone (hm : m.Draining c length batch) (hgone : m.sender.phase = .gone) :
    m.usage.waiting c = [] ∨
      (m.usage.waiting c).length + Egress.maxFinalPasses * batch ≤ length :=
  hm.sender.leaving (.inr hgone)

/-- Before the final passes have begun, consider an output ring that nobody puts a message into any
more. When the egress thread has ended, each message that was parked in it has been attempted once,
or another caller has taken it, or it is still parked, in which case a batch has left the ring in
each of the final passes; and what the egress thread had in its hands has been attempted. Egress is
told to stop before the final passes and when ingress has stopped, and from then on only callers
outside the bridge put messages into rings. -/
theorem run_drains {config : Config} {region : Region} (hr : ofConfig config = .ok region)
    (settings : Settings) (hbatch : 0 < settings.egressBatch) (sink : DatagramSink)
    (before after : List Move) (hout : ∀ move ∈ before ++ after, move.IsOutside) :
    let m := (start settings sink region).run before
    let m' := m.run after
    (m.stopper = .stoppingEgress → m.acceptor = .gone ∧ m.sender.final = none) ∧
    (m.acceptor = .gone → (∀ s ∈ m.sessions, s.isGone = true) ∧
      ∀ c, m'.usage.pushed c = m.usage.pushed c → Quiet c m after) ∧
    (m'.stopper = .done → m'.sender.phase = .gone) ∧
    ∀ o, m.sender.final = none → m'.sender.phase = .gone → Quiet ⟨o, .output⟩ m after →
      ∃ taken sent others,
        m.usage.waiting ⟨o, .output⟩ = taken ++ m'.usage.waiting ⟨o, .output⟩ ∧
        taken.Perm (sent ++ others) ∧
        m'.sender.attemptedFrom ⟨o, .output⟩ = m.sender.attemptedFrom ⟨o, .output⟩ ++
          m.sender.inHand ⟨o, .output⟩ ++ sent ∧
        m'.usage.pulled ⟨o, .output⟩ = m.usage.pulled ⟨o, .output⟩ ++ others ∧
        (m'.usage.waiting ⟨o, .output⟩ = [] ∨
          Egress.maxFinalPasses * settings.egressBatch ≤ taken.length) := by
  intro m m'
  rw [List.forall_mem_append] at hout
  have horderly : m.Orderly := (Orderly.start hr settings sink).run hout.1
  obtain ⟨htimely, hsize⟩ : m.Timely ∧ m.sender.egress.batch = settings.egressBatch :=
    run_timely settings sink region before
  refine ⟨?_, ?_, ?_, ?_⟩
  · intro hs
    have hingress := horderly.supervised.ingress
    simp only [hs, reduceCtorEq, false_or] at hingress
    exact ⟨hingress, htimely.final_eq_none hs⟩
  · intro ha
    exact ⟨horderly.supervised.sessions_gone ha, fun c => quiet_of_pushed horderly.supervised ha⟩
  · exact (horderly.run hout.2).supervised.egress
  · intro o hfinal hgone hquiet
    have hearly : ¬ (m.sender.phase = .leaving ∨ m.sender.phase = .gone) :=
      fun h => htimely.sender.leaving h hfinal
    have hm : m.Draining ⟨o, .output⟩ (m.usage.waiting ⟨o, .output⟩).length settings.egressBatch :=
      ⟨horderly, .of_none hsize hfinal hearly (Nat.le_refl _)⟩
    obtain ⟨hm', taken, sent, others, hgives⟩ := hm.run hbatch rfl hout.2 hquiet
    have hwaiting := hgives.waiting_eq
    have hgot := hgives.got_eq
    have hidle : m'.sender.inHand ⟨o, .output⟩ = [] := by
      rw [Sender.inHand, hgone]
    rw [Sender.got, Sender.got, hidle, List.append_nil] at hgot
    refine ⟨taken, sent, others, hwaiting, hgives.perm, hgot, hgives.pulled_eq, ?_⟩
    refine (hm'.gone hgone).imp_right fun hlost => ?_
    rw [hwaiting, List.length_append] at hlost
    omega

def broad : Config := { name := "broad", size := 66, slotSize := 1 }

def narrow : Settings := { maxFrame := 32, egressBatch := 1 }

def crowding : List Move :=
  let t : Thread := { name := "main" }
  [.call (.register t), .call (.create ⟨.nil, .output⟩ (some 66))] ++
    (List.range 66).map (fun n => .call (.publish t .nil [UInt8.ofNat n])) ++
    [.stopper, .acceptor none, .acceptor none, .stopper]

def finishing : List Move := .stopper :: List.replicate 524 .sender ++ [.stopper]

def crowded : Moment := run (start narrow { description := "sink" } { config := broad }) crowding

def finished : Moment := crowded.run finishing

theorem crowding_outside : ∀ move ∈ crowding ++ finishing, move.IsOutside := by
  intro move hmove
  cases move with
  | call operation =>
    refine Move.isOutside_of_main ?_
    intro t ht
    simp only [crowding, finishing, List.mem_append, List.mem_cons, List.mem_map, List.not_mem_nil,
      List.mem_replicate, reduceCtorEq, and_false, or_false, Move.call.injEq] at hmove
    rcases hmove with (rfl | rfl) | ⟨_, _, rfl⟩
    · exact (Option.some.inj ht).symm
    · cases ht
    · exact (Option.some.inj ht).symm
  | _ => trivial

theorem finished_waiting : finished.usage.waiting ⟨.nil, .output⟩ = [[65]] := by decide +kernel

theorem finished_history : finished.usage.history = crowded.usage.history := by decide +kernel

theorem finished_pushed (c : Channel) : finished.usage.pushed c = crowded.usage.pushed c := by
  rw [Usage.pushed, finished_history]
  rfl

theorem finished_stopper : crowded.stopper = .stoppingEgress ∧ finished.stopper = .done := by
  decide +kernel

theorem run_drains_crowded :
    ∃ taken, crowded.usage.waiting ⟨.nil, .output⟩ = taken ++ [[65]] ∧
      taken.Perm (finished.sender.attemptedFrom ⟨.nil, .output⟩) ∧ 64 ≤ taken.length := by
  have hr : ofConfig broad = .ok { config := broad } := rfl
  have hdrains := run_drains hr narrow (by decide) { description := "sink" } crowding finishing
    crowding_outside
  dsimp only at hdrains
  rw [← crowded, ← finished] at hdrains
  obtain ⟨hstopped, hingress, hdone, hrings⟩ := hdrains
  obtain ⟨ha, hfinal⟩ := hstopped finished_stopper.1
  have hquiet := (hingress ha).2 ⟨.nil, .output⟩ (finished_pushed _)
  obtain ⟨taken, sent, others, hwaiting, hperm, hattempted, hpulled, hlost⟩ :=
    hrings .nil hfinal (hdone finished_stopper.2) hquiet
  have hnone : crowded.sender.attemptedFrom ⟨.nil, .output⟩ ++
      crowded.sender.inHand ⟨.nil, .output⟩ = [] := by decide +kernel
  have hsame : finished.usage.pulled ⟨.nil, .output⟩ = crowded.usage.pulled ⟨.nil, .output⟩ := by
    rw [Usage.pulled, finished_history]
    rfl
  rw [hsame] at hpulled
  have hothers := List.self_eq_append_right.mp hpulled
  rw [hnone, List.nil_append] at hattempted
  rw [hothers, List.append_nil, ← hattempted] at hperm
  rw [finished_waiting] at hwaiting hlost
  refine ⟨taken, hwaiting, hperm, ?_⟩
  exact hlost.resolve_left (List.cons_ne_nil _ _)

/-- The egress thread can end while an output ring is not empty. -/
theorem not_run_empties :
    ¬ ∀ (config : Config) (region : Region) (settings : Settings) (sink : DatagramSink)
      (before after : List Move), ofConfig config = .ok region → 0 < settings.egressBatch →
      (∀ move ∈ before ++ after, move.IsOutside) →
      let m := (start settings sink region).run before
      let m' := m.run after
      m.stopper = .stoppingEgress → m'.stopper = .done →
      (∀ o, m'.usage.pushed ⟨o, .output⟩ = m.usage.pushed ⟨o, .output⟩) →
      ∀ o, m'.usage.waiting ⟨o, .output⟩ = [] := by
  intro h
  have hempty := h broad { config := broad } narrow { description := "sink" } crowding finishing rfl
    (by decide) crowding_outside finished_stopper.1 finished_stopper.2
    (fun _ => finished_pushed _) .nil
  rw [← crowded, ← finished, finished_waiting] at hempty
  contradiction

end Moment

end StreamRelay.Bridge
