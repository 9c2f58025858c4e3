import Mathlib.Algebra.BigOperators.Group.Finset.Basic
import StreamRelay.Proofs.Egress.Drain

/-!
# Passes one after another

A pass handles nothing only if nothing was parked, and it leaves a backlog if some ring held a whole
batch before it. Passes between which the output rings are left alone take from each ring a batch
apiece, until it is empty, whatever the other rings hold.
-/

namespace StreamRelay.Egress

variable {r r' : Region} {t : Thread} {max : Nat}

def due (r : Region) (most : Nat) : Nat :=
  (r.outputs.map fun c => min (r.parkedAt c).length most).sum

theorem length_taken (r : Region) (max : Nat) : (taken r max r.outputs).length = due r max := by
  rw [taken, List.length_flatMap, due]
  refine congrArg List.sum (List.map_congr_left fun c _ => ?_)
  rw [List.length_take, Nat.min_comm]

/-- A stream with something to send has an output ring. -/
theorem mem_outputs_of_parked {o : StreamId} (h : r.parkedAt ⟨o, .output⟩ ≠ []) :
    ⟨o, .output⟩ ∈ r.outputs := by
  rw [Region.mem_outputs_iff, Option.isSome_iff_ne_none]
  exact ⟨fun hnone => h (Region.parkedAt_of_none hnone), rfl⟩

theorem due_eq_zero_iff (hmax : 0 < max) :
    due r max = 0 ↔ ∀ o, r.parkedAt ⟨o, .output⟩ = [] := by
  rw [due, List.sum_eq_zero_iff]
  constructor
  · intro h o
    by_contra hne
    have hzero := h _ (List.mem_map_of_mem (mem_outputs_of_parked hne))
    have hlength : (r.parkedAt ⟨o, .output⟩).length ≠ 0 := fun h => hne (List.length_eq_zero_iff.mp h)
    omega
  · intro h n hn
    obtain ⟨c, hc, rfl⟩ := List.mem_map.mp hn
    rw [← Region.output_of_mem_outputs hc, h, List.length_nil, Nat.zero_min]

theorem any_hasBatch_iff (hmax : 0 < max) :
    r.outputs.any (hasBatch r max) = true ↔ ∃ o, max ≤ (r.parkedAt ⟨o, .output⟩).length := by
  simp only [List.any_eq_true, hasBatch, Bool.and_eq_true, decide_eq_true_eq]
  constructor
  · rintro ⟨c, hc, _, hfull⟩
    rw [← Region.output_of_mem_outputs hc] at hfull
    exact ⟨c.stream, hfull⟩
  · rintro ⟨o, hfull⟩
    refine ⟨_, mem_outputs_of_parked ?_, hmax, hfull⟩
    intro hnil
    rw [hnil, List.length_nil] at hfull
    omega

/-- A pass takes a batch from the ring of every stream. -/
theorem Emptied.parkedAt_output (h : Emptied r max r.outputs r') (o : StreamId) :
    r'.parkedAt ⟨o, .output⟩ = (r.parkedAt ⟨o, .output⟩).drop max := by
  by_cases hne : r.parkedAt ⟨o, .output⟩ = []
  · by_cases hmem : (⟨o, .output⟩ : Channel) ∈ r.outputs
    · exact h.served _ hmem
    · rw [h.kept _ hmem, hne, List.drop_nil]
  · exact h.served _ (mem_outputs_of_parked hne)

/-- What is due to one pass and then to more is due to all of them. -/
theorem Emptied.due_add (h : Emptied r max r.outputs r') (most : Nat) :
    due r max + due r' most = due r (max + most) := by
  have houtputs : r'.outputs = r.outputs := by
    rw [Region.outputs, h.channels_eq, Region.outputs]
  rw [due, due, due, houtputs, ← List.sum_map_add]
  refine congrArg List.sum (List.map_congr_left fun c hc => ?_)
  rw [h.served c hc, List.length_drop]
  omega

/-- Rings that are made meanwhile are empty, and so nothing more is due. -/
theorem due_congr (hs : r.Sound) (hs' : r'.Sound)
    (hrings : ∀ c, (r.ring? c).isSome → (r'.ring? c).isSome)
    (hparked : ∀ o, r'.parkedAt ⟨o, .output⟩ = r.parkedAt ⟨o, .output⟩) (most : Nat) :
    due r' most = due r most := by
  rw [due, due, ← List.sum_toFinset _ (outputs_nodup hs), ← List.sum_toFinset _ (outputs_nodup hs')]
  have hsame : ∀ c ∈ r'.outputs, r'.parkedAt c = r.parkedAt c := by
    intro c hc
    rw [← Region.output_of_mem_outputs hc, hparked]
  calc ∑ c ∈ r'.outputs.toFinset, min (r'.parkedAt c).length most
    _ = ∑ c ∈ r'.outputs.toFinset, min (r.parkedAt c).length most := by
      refine Finset.sum_congr rfl fun c hc => ?_
      rw [hsame c (List.mem_toFinset.mp hc)]
    _ = ∑ c ∈ r.outputs.toFinset, min (r.parkedAt c).length most := by
      refine (Finset.sum_subset ?_ ?_).symm
      · intro c hc
        rw [List.mem_toFinset, Region.mem_outputs_iff] at hc ⊢
        exact ⟨hrings c hc.1, hc.2⟩
      · intro c hc hno
        rw [List.mem_toFinset, Region.mem_outputs_iff] at hc hno
        have hnone : r.ring? c = none := by
          simpa using fun h => hno ⟨h, hc.2⟩
        rw [Region.parkedAt_of_none hnone, List.length_nil, Nat.zero_min]

/-- Without a backlog a pass has emptied every output ring. -/
theorem Emptied.nil_of_backlog (h : Emptied r max r.outputs r') (hmax : 0 < max)
    (hbacklog : r.outputs.any (hasBatch r max) = false) (o : StreamId) :
    r'.parkedAt ⟨o, .output⟩ = [] := by
  have hnone : ¬ ∃ o, max ≤ (r.parkedAt ⟨o, .output⟩).length := by
    rw [← any_hasBatch_iff hmax, hbacklog]
    exact Bool.false_ne_true
  have hshort : (r.parkedAt ⟨o, .output⟩).length < max :=
    Nat.lt_of_not_le fun hle => hnone ⟨o, hle⟩
  rw [h.parkedAt_output, List.drop_eq_nil_of_le (Nat.le_of_lt hshort)]

/-- A pass answers with what was due, and tells whether a ring had a whole batch. -/
theorem drainOnce_emptied (hs : r.Sound) (ht : t ∈ r.registered) (e : Egress) (stats : Stats) :
    ∃ after e' stats', drainOnce t r e stats = (.ok (due r e.batch), after, e', stats') ∧
      Emptied r e.batch r.outputs after ∧ e'.batch = e.batch ∧
      e'.backlog = r.outputs.any (hasBatch r e.batch) := by
  rw [← length_taken]
  exact ⟨_, _, _, drainOnce_eq hs ht e stats, emptied_turns e.batch r.outputs (outputs_nodup hs) r,
    attemptAll_batch _ e stats, rfl⟩

def round (t : Thread) (calls : List Usage.Call) (s : Usage × Egress × Stats) :
    Except Region.Error Nat × Usage × Egress × Stats :=
  let u := s.1.performAll calls
  let (answer, region, e, stats) := drainOnce t u.region s.2.1 s.2.2
  (answer, { u with region }, e, stats)

def rounds (t : Thread) : List (List Usage.Call) → Usage × Egress × Stats →
    List (Except Region.Error Nat) × Usage × Egress × Stats
  | [], s => ([], s)
  | calls :: rest, s =>
    let (answer, s) := round t calls s
    let (answers, s) := rounds t rest s
    (answer :: answers, s)

/-- The calls before each pass leave the ring of a channel as it is, and the thread registered. -/
def Undisturbed (t : Thread) (c : Channel) : List (List Usage.Call) → Usage × Egress × Stats → Prop
  | [], _ => True
  | calls :: rest, s =>
    t ∈ (s.1.performAll calls).region.registered ∧
      (s.1.performAll calls).region.parkedAt c = s.1.region.parkedAt c ∧
      Undisturbed t c rest (round t calls s).2

variable {s : Usage × Egress × Stats} {others : List (List Usage.Call)}

/-- The pass of a round takes what the calls before it have left. -/
theorem round_emptied {calls : List Usage.Call} (hs : s.1.Sound)
    (ht : t ∈ (s.1.performAll calls).region.registered) :
    (round t calls s).1 = .ok (due (s.1.performAll calls).region s.2.1.batch) ∧
    Emptied (s.1.performAll calls).region s.2.1.batch (s.1.performAll calls).region.outputs
      (round t calls s).2.1.region ∧
    (round t calls s).2.2.1.batch = s.2.1.batch ∧ (round t calls s).2.1.Sound := by
  have hv : (s.1.performAll calls).Sound := (Usage.performAll_runs s.1 calls).sound hs
  obtain ⟨after, e, stats, hdrain, hemptied, hbatch, _⟩ :=
    drainOnce_emptied hv.region ht s.2.1 s.2.2
  have hsound : Usage.Sound { s.1.performAll calls with region := after } := by
    refine ⟨hemptied.sound hv.region, ?_, ?_⟩
    · exact fun b hb => hemptied.config_eq ▸ hv.held b hb
    · exact fun c hc => (hemptied.ring?_isSome_eq c).symm ▸ hv.handles c hc
  rw [round, hdrain]
  exact ⟨rfl, hemptied, hbatch, hsound⟩

/-- Each round takes a batch from a ring that is left alone. -/
theorem rounds_parkedAt (hs : s.1.Sound) {o : StreamId}
    (hquiet : Undisturbed t ⟨o, .output⟩ others s) :
    (rounds t others s).2.1.region.parkedAt ⟨o, .output⟩ =
      (s.1.region.parkedAt ⟨o, .output⟩).drop (others.length * s.2.1.batch) := by
  induction others generalizing s with
  | nil => rw [List.length_nil, Nat.zero_mul, List.drop_zero, rounds]
  | cons calls others ih =>
    obtain ⟨ht, hparked, hquiet⟩ := hquiet
    obtain ⟨_, hemptied, hbatch, hsound⟩ := round_emptied hs ht
    calc (rounds t (calls :: others) s).2.1.region.parkedAt ⟨o, .output⟩
      _ = (rounds t others (round t calls s).2).2.1.region.parkedAt ⟨o, .output⟩ := rfl
      _ = ((s.1.region.parkedAt ⟨o, .output⟩).drop s.2.1.batch).drop
            (others.length * s.2.1.batch) := by
        rw [ih hsound hquiet, hemptied.parkedAt_output, hparked, hbatch]
      _ = (s.1.region.parkedAt ⟨o, .output⟩).drop ((others.length + 1) * s.2.1.batch) := by
        rw [List.drop_drop, Nat.succ_mul, Nat.add_comm]

/-- What the passes answer comes to what is due from all rings together. -/
theorem rounds_answers (hs : s.1.Sound) (hquiet : ∀ o, Undisturbed t ⟨o, .output⟩ others s) :
    ∃ counts : List Nat, (rounds t others s).1 = counts.map .ok ∧
      counts.length = others.length ∧
      counts.sum = due s.1.region (others.length * s.2.1.batch) := by
  induction others generalizing s with
  | nil =>
    refine ⟨[], rfl, rfl, ?_⟩
    simp [due]
  | cons calls others ih =>
    let v := s.1.performAll calls
    have hruns := Usage.performAll_runs s.1 calls
    obtain ⟨hanswer, hemptied, hbatch, hsound⟩ := round_emptied hs (hquiet .nil).1
    obtain ⟨counts, hanswers, hlength, hsum⟩ := ih hsound fun o => (hquiet o).2.2
    have hsame : due v.region ((others.length + 1) * s.2.1.batch) =
        due s.1.region ((others.length + 1) * s.2.1.batch) :=
      due_congr hs.region (hruns.sound hs).region (fun _ => hruns.ring?_isSome)
        (fun o => (hquiet o).2.1) _
    refine ⟨due v.region s.2.1.batch :: counts, ?_, congrArg (· + 1) hlength, ?_⟩
    · calc (rounds t (calls :: others) s).1
        _ = (round t calls s).1 :: (rounds t others (round t calls s).2).1 := rfl
        _ = (due v.region s.2.1.batch :: counts).map .ok := by rw [hanswer, hanswers, List.map_cons]
    · rw [List.sum_cons, hsum, hbatch, hemptied.due_add, List.length_cons, ← hsame, Nat.succ_mul,
        Nat.add_comm]

end StreamRelay.Egress
