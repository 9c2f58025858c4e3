import StreamRelay.Proofs.Bridge.Shutdown
import StreamRelay.Proofs.Egress.Rounds

/-!
# The backlog and the rest of the egress thread

Between two passes the egress thread rests, unless the last pass left a backlog. A ring that has a
batch leaves one, and any other ring is emptied by its turn. So when the thread comes to rest, nothing
is parked but what was put into a ring since the last pass began.
-/

namespace StreamRelay.Bridge
open Region

namespace Sender

variable {s : Sender} {c : Channel} {w : List Bytes} {r : Region}

/-- The egress thread waits for its interval, or for the request to stop, before the next pass. -/
def Resting (s : Sender) : Prop := s.phase = .waiting

/-- While a buffer is in hand the backlog stays as it is. -/
theorem forward_backlog (s : Sender) (d : Channel) (b : Buffer) (behind : List Buffer)
    (rest : List Channel) (r : Region) (stats : Stats) (stage : Stage) :
    (s.forward d b behind rest r stats stage).1.egress.backlog = s.egress.backlog := by
  cases stage with
  | serializing =>
    unfold forward
    dsimp only
    split <;> rfl
  | _ => rfl

/-- The ring of a channel, in which `w` is parked, does not escape the pass: its turn is to come, or
there is a backlog, or it is empty. -/
structure Watching (s : Sender) (c : Channel) (w : List Bytes) : Prop where
  visiting : ∀ rest, s.toVisit? = some rest → c ∈ rest ∨ s.egress.backlog = true ∨ w = []
  deciding : s.phase = .deciding → s.egress.backlog = true ∨ w = []
  waiting : s.phase = .waiting → w = []

namespace Watching

/-- Other callers can only take something out of the ring. -/
theorem shrink {taken w' : List Bytes} (h : s.Watching c w) (hw : w = taken ++ w') :
    s.Watching c w' := by
  have hnil : w = [] → w' = [] := by
    intro hempty
    rw [hw, List.append_eq_nil_iff] at hempty
    exact hempty.2
  exact ⟨fun rest hr => (h.visiting rest hr).imp_right (Or.imp_right hnil),
    fun hp => (h.deciding hp).imp_right hnil, fun hp => hnil (h.waiting hp)⟩

/-- Between the decision to make a pass and its first turn. -/
theorem of_phase (hv : s.toVisit? = none) (hp : s.phase ≠ .deciding ∧ s.phase ≠ .waiting) :
    s.Watching c w :=
  ⟨fun _ hr => absurd (hv.symm.trans hr) (by simp), fun h => absurd h hp.1,
    fun h => absurd h hp.2⟩

/-- During a pass. -/
theorem of_toVisit {rest : List Channel} (hv : s.toVisit? = some rest)
    (h : c ∈ rest ∨ s.egress.backlog = true ∨ w = []) : s.Watching c w := by
  refine ⟨?_, ?_, ?_⟩
  · intro rest' hr
    rw [hv] at hr
    cases hr
    exact h
  · intro hp
    simp [toVisit?, hp] at hv
  · intro hp
    simp [toVisit?, hp] at hv

/-- The turn of the ring leaves a backlog or nothing. -/
theorem turn (hb : 0 < s.egress.batch) {d : Channel} {rest : List Channel}
    (h : s.Watching c ((r.parkedAt c).map (·.body))) (hp : s.phase = .visiting (d :: rest)) :
    (s.take d rest (r.handOut d s.egress.batch).1).Watching c
      (((r.handOut d s.egress.batch).2.parkedAt c).map (·.body)) := by
  have hv : (s.take d rest (r.handOut d s.egress.batch).1).toVisit? = some rest := by
    cases (r.handOut d s.egress.batch).1 <;> rfl
  have hbacklog : (s.take d rest (r.handOut d s.egress.batch).1).egress.backlog =
      (s.egress.backlog || decide (s.egress.batch ≤ (r.handOut d s.egress.batch).1.length)) := by
    cases (r.handOut d s.egress.batch).1 with
    | nil => simp [take, Nat.pos_iff_ne_zero.mp hb]
    | cons b behind => rfl
  refine of_toVisit hv ?_
  rw [hbacklog, parkedAt_handOut, handOut_fst, Bool.or_eq_true, decide_eq_true_eq]
  by_cases hd : d = c
  · rw [if_pos hd, hd, List.length_take]
    rcases Nat.lt_or_ge (r.parkedAt c).length s.egress.batch with hlt | hle
    · exact .inr (.inr (by rw [List.drop_eq_nil_of_le (Nat.le_of_lt hlt), List.map_nil]))
    · exact .inr (.inl (.inr (by rw [Nat.min_eq_left hle])))
  · rw [if_neg hd]
    rcases h.visiting (d :: rest) (by simp [toVisit?, hp]) with hmem | hbacklog | hnil
    · exact .inl ((List.mem_cons.mp hmem).resolve_left fun h => hd h.symm)
    · exact .inr (.inl (.inl hbacklog))
    · exact .inr (.inr hnil)

theorem complete (h : s.Watching c w) (hp : s.phase = .visiting []) : s.complete.Watching c w := by
  unfold Sender.complete
  cases s.final with
  | none =>
    refine ⟨by simp [toVisit?], fun _ => ?_, by simp⟩
    exact (h.visiting [] (by simp [toVisit?, hp])).resolve_left List.not_mem_nil
  | some left =>
    dsimp only
    split <;> exact of_phase rfl (by simp)

theorem step (hb : 0 < s.egress.batch) (hc : c.direction = .output)
    (h : s.Watching c ((r.parkedAt c).map (·.body)))
    (ht : s.isRegistered = true → egressThread ∈ r.registered) (stop : Signal) (stats : Stats) :
    (s.step stop r stats).1.Watching c (((s.step stop r stats).2.1.parkedAt c).map (·.body)) := by
  unfold Sender.step
  cases hp : s.phase with
  | polling =>
    dsimp only
    rcases poll_cases s r with ⟨_, hs⟩ | ⟨_, _, hs⟩ | ⟨_, hno, _⟩
    · rw [hs]
      exact of_phase rfl (by simp)
    · rw [hs]
      refine of_toVisit rfl ?_
      by_cases hmem : c ∈ r.outputs
      · exact .inl hmem
      · have hring : r.ring? c = none := by
          simpa [mem_outputs_iff, hc] using hmem
        exact .inr (.inr (by rw [parkedAt_of_none hring, List.map_nil]))
    · exact absurd (ht (by simp [isRegistered, hp])) hno
  | visiting rest =>
    cases rest with
    | nil => exact h.complete hp
    | cons d rest => exact h.turn hb hp
  | forwarding d b behind rest stage =>
    obtain ⟨hvisit, _⟩ := forward_kept hp r stats
    dsimp only
    refine of_toVisit hvisit ?_
    rw [forward_parkedAt, forward_backlog]
    exact h.visiting rest (by simp [toVisit?, hp])
  | deciding =>
    dsimp only
    split
    · exact of_phase rfl (by simp [resume])
    · refine ⟨by simp [toVisit?], by simp, fun _ => ?_⟩
      exact (h.deciding hp).resolve_left ‹_›
  | waiting => exact of_phase rfl (by simp [resume])
  | gone => exact h
  | _ => exact of_phase rfl (by simp)

end Watching

end Sender

namespace Moment

/-- An output ring into which nothing was put since a pass began is empty when the egress thread
rests. -/
theorem waiting_of_resting {config : Config} {region : Region} (hr : ofConfig config = .ok region)
    {settings : Settings} (hbatch : 0 < settings.egressBatch) (sink : DatagramSink)
    {before after : List Move} (hout : ∀ move ∈ before ++ after, move.IsOutside) {o : StreamId} :
    let m := (start settings sink region).run before
    m.sender.phase = .polling → Quiet ⟨o, .output⟩ m after → (m.run after).sender.Resting →
      (m.run after).usage.waiting ⟨o, .output⟩ = [] := by
  intro m hpolling hquiet hresting
  rw [List.forall_mem_append] at hout
  have horderly : m.Orderly := (Orderly.start hr settings sink).run hout.1
  have hsize : m.sender.egress.batch = settings.egressBatch :=
    (run_timely settings sink region before).2
  have hstart : m.sender.Watching ⟨o, .output⟩ (m.usage.waiting ⟨o, .output⟩) := by
    refine .of_phase ?_ ?_
    · rw [Sender.toVisit?, hpolling]
    · simp [hpolling]
  obtain ⟨_, hwatching⟩ := hquiet.keeps horderly hout.2
    (P := fun s w => 0 < s.egress.batch ∧ s.Watching ⟨o, .output⟩ w)
    (fun s r stop stats ht hs =>
      ⟨(s.step_batch stop r stats).symm ▸ hs.1, hs.2.step hs.1 rfl ht stop stats⟩)
    (fun s taken w hs => ⟨hs.1, hs.2.shrink rfl⟩) ⟨hsize ▸ hbatch, hstart⟩
  exact hwatching.waiting hresting

/-- The egress thread by itself puts nothing into a ring. -/
theorem quiet_senders (c : Channel) (m : Moment) (count : Nat) :
    Quiet c m (List.replicate count .sender) := by
  induction count generalizing m with
  | zero => trivial
  | succ count ih =>
    obtain ⟨sent, hgives⟩ := Gives.sender c m
    exact ⟨⟨sent, hgives.waiting_eq.symm⟩, ih _⟩

end Moment

/-- A pass of a registered thread handles nothing exactly when no output ring has anything, leaves a
backlog exactly when some output ring had a whole batch, and otherwise has emptied them all. Passes
between which a ring is left alone take the oldest buffers of it, a batch apiece, and what passes
answer is what they take from all rings. So when the egress thread of a bridge rests, an output ring
is empty unless something was put into it since the last pass began. -/
theorem backlog_exact {c : Config} {u : Usage} (h : u.Reachable c) {t : Thread}
    (ht : t ∈ u.region.registered) (e : Egress) (hb : 0 < e.batch) (stats : Stats)
    (others : List (List Usage.Call)) :
    (∃ count after e' stats',
      Egress.drainOnce t u.region e stats = (.ok count, after, e', stats') ∧
      (count = 0 ↔ ∀ o, u.region.parkedAt ⟨o, .output⟩ = []) ∧
      (e'.backlog = true ↔ ∃ o, e.batch ≤ (u.region.parkedAt ⟨o, .output⟩).length) ∧
      (e'.backlog = false → ∀ o, after.parkedAt ⟨o, .output⟩ = [])) ∧
    (∀ o, Egress.Undisturbed t ⟨o, .output⟩ others (u, e, stats) →
      (Egress.rounds t others (u, e, stats)).2.1.region.parkedAt ⟨o, .output⟩ =
        (u.region.parkedAt ⟨o, .output⟩).drop (others.length * e.batch)) ∧
    ((∀ o, Egress.Undisturbed t ⟨o, .output⟩ others (u, e, stats)) →
      ∃ counts : List Nat, (Egress.rounds t others (u, e, stats)).1 = counts.map .ok ∧
        counts.length = others.length ∧
        counts.sum = (u.region.outputs.map fun c =>
          min (u.region.parkedAt c).length (others.length * e.batch)).sum) ∧
    (∀ (region : Region) (settings : Settings) (sink : DatagramSink) (before after : List Moment.Move),
      ofConfig c = .ok region → 0 < settings.egressBatch →
      (∀ move ∈ before ++ after, move.IsOutside) →
      let m := (Moment.start settings sink region).run before
      m.sender.phase = .polling → (m.run after).sender.Resting →
      ∀ o, Moment.Quiet ⟨o, .output⟩ m after →
        (m.run after).usage.region.parkedAt ⟨o, .output⟩ = []) := by
  refine ⟨?_, fun _ => Egress.rounds_parkedAt h.sound, Egress.rounds_answers h.sound, ?_⟩
  · obtain ⟨after, e', stats', hdrain, hemptied, _, hbacklog⟩ :=
      Egress.drainOnce_emptied h.sound.region ht e stats
    refine ⟨_, after, e', stats', hdrain, Egress.due_eq_zero_iff hb, ?_, ?_⟩
    · rw [hbacklog]
      exact Egress.any_hasBatch_iff hb
    · intro hnone o
      exact hemptied.nil_of_backlog hb (hbacklog.symm.trans hnone) o
  · intro region settings sink before after hr hbatch hout m hpolling hresting o hquiet
    exact List.map_eq_nil_iff.mp
      (Moment.waiting_of_resting hr hbatch sink hout hpolling hquiet hresting)

def awaiting : List Moment.Move :=
  let t : Thread := { name := "main" }
  [.call (.register t), .call (.create ⟨.nil, .output⟩ (some 1)), .call (.publish t .nil [7]),
    .sender]

def awaited : Moment :=
  (Moment.start Moment.narrow { description := "sink" } { config := { size := 6, slotSize := 2 } }).run
    awaiting

theorem awaiting_outside : ∀ move ∈ awaiting ++ .replicate 13 .sender, move.IsOutside := by
  intro move hmove
  cases move with
  | call operation =>
    refine Moment.Move.isOutside_of_main ?_
    intro t ht
    simp only [awaiting, List.mem_append, List.mem_cons, List.not_mem_nil, List.mem_replicate,
      reduceCtorEq, and_false, or_false, Moment.Move.call.injEq] at hmove
    rcases hmove with rfl | rfl | rfl
    · exact (Option.some.inj ht).symm
    · cases ht
    · exact (Option.some.inj ht).symm
  | _ => trivial

theorem awaited_polling : awaited.sender.phase = .polling := rfl

theorem awaited_resting : (awaited.run (.replicate 13 .sender)).sender.Resting := by rfl

/-- Passes of one buffer a ring over rings of two buffers and one, until one handles nothing; the
second one leaves a backlog, too. The egress thread of a bridge with a message for one pass makes two
before it rests. -/
theorem backlog_exact_mixed :
    let t : Thread := { name := "main" }
    let e : Egress := { sink := { description := "socket" }, scratch := [], batch := 1 }
    let others : List (List Usage.Call) :=
      [[], [.operate (.deserialize t (StreamId.nil.bytes ++ [4]))], []]
    (Egress.rounds t others (Egress.mixed, e, {})).1 = [.ok 2, .ok 1, .ok 0] ∧
    (Egress.rounds t others (Egress.mixed, e, {})).2.1.region.parkedAt ⟨.nil, .output⟩ = [] ∧
    awaited.usage.waiting ⟨.nil, .output⟩ = [[7]] ∧
    (awaited.run (.replicate 13 .sender)).usage.region.parkedAt ⟨.nil, .output⟩ = [] := by
  intro t e others
  have hreachable : Usage.Reachable { size := 6, slotSize := 2 } Egress.mixed :=
    ⟨_, Egress.mixing, rfl, rfl⟩
  have ht : t ∈ Egress.mixed.region.registered := by decide
  have hr : ofConfig { size := 6, slotSize := 2 } =
      .ok { config := { size := 6, slotSize := 2 } } := rfl
  obtain ⟨_, hparked, _, hrests⟩ := backlog_exact hreachable ht e Nat.one_pos {} others
  have hquiet : Egress.Undisturbed t ⟨.nil, .output⟩ others (Egress.mixed, e, {}) := by
    refine ⟨?_, ?_, ?_, ?_, ?_, ?_, trivial⟩ <;> decide +kernel
  have hnil := hparked .nil hquiet
  refine ⟨by decide +kernel, hnil.trans (by decide +kernel), by decide +kernel, ?_⟩
  exact hrests _ Moment.narrow _ awaiting _ hr (by decide) awaiting_outside awaited_polling
    awaited_resting .nil (Moment.quiet_senders _ _ 13)

end StreamRelay.Bridge
