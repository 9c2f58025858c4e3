import StreamRelay.Proofs.Egress.Attempts

/-!
# Passes over a region

A pass of a registered thread takes the oldest buffers of every output ring, up to the batch size,
attempts to send each of them once, and returns them all. What a ring keeps, what is attempted and
in which order, and what the counters say afterwards is determined by what was parked before.
-/

namespace StreamRelay

namespace Egress

variable {r : Region} {t : Thread}

def handler (t : Thread) : Region.Handler Region (Egress × Stats) :=
  fun _ batch (r, e, stats) =>
    forwardAll t batch (r, { e with backlog := e.backlog || e.batch ≤ batch.length }, stats)

def taken (r : Region) (max : Nat) (cs : List Channel) : List Buffer :=
  cs.flatMap fun c => (r.parkedAt c).take max

/-- The turns of some rings; what a turn takes is returned before the next one. -/
def turns (max : Nat) : List Channel → Region → Region
  | [], r => r
  | c :: cs, r =>
    turns max cs ((r.handOut c max).2.record .released ((r.parkedAt c).take max).length)

/-- A ring has a whole batch, and so its turn leaves a backlog. -/
def hasBatch (r : Region) (max : Nat) (c : Channel) : Bool :=
  0 < max && max ≤ (r.parkedAt c).length

theorem hasBatch_of_nil {max : Nat} {c : Channel} (h : (r.parkedAt c).take max = []) :
    hasBatch r max c = false := by
  rcases List.take_eq_nil_iff.mp h with h | h
  · simp [hasBatch, h]
  · simp [hasBatch, h, Nat.pos_iff_ne_zero]

theorem hasBatch_of_ne_nil {max : Nat} {c : Channel} (h : (r.parkedAt c).take max ≠ []) :
    hasBatch r max c = decide (max ≤ ((r.parkedAt c).take max).length) := by
  have hmax : 0 < max := by
    rcases Nat.eq_zero_or_pos max with rfl | hmax
    · exact absurd List.take_zero h
    · exact hmax
  simp [hasBatch, hmax]

structure Emptied (r : Region) (max : Nat) (cs : List Channel) (r' : Region) : Prop
    extends Region.Moved r r' where
  served : ∀ c ∈ cs, r'.parkedAt c = (r.parkedAt c).drop max
  kept : ∀ c, c ∉ cs → r'.parkedAt c = r.parkedAt c
  ledger_eq : r'.ledger = (r.ledger.record .handedOut (taken r max cs).length).record .released
    (taken r max cs).length

namespace Emptied

variable {r₁ r₂ : Region} {max : Nat} {cs₁ cs₂ : List Channel}

theorem none (r : Region) (max : Nat) : Emptied r max [] r :=
  ⟨.refl r, fun _ h => absurd h List.not_mem_nil, fun _ _ => rfl, rfl⟩

theorem turn (r : Region) (max : Nat) (c : Channel) :
    Emptied r max [c] ((r.handOut c max).2.record .released ((r.parkedAt c).take max).length) := by
  have htaken : taken r max [c] = (r.parkedAt c).take max := List.append_nil _
  refine ⟨(Region.Moved.handOut r c max).record _ _, ?_, ?_, ?_⟩
  · intro other h
    obtain rfl := List.mem_singleton.mp h
    rw [Region.record_parkedAt, Region.parkedAt_handOut, if_pos rfl]
  · intro other h
    have hc : c ≠ other := fun hc => h (List.mem_singleton.mpr hc.symm)
    rw [Region.record_parkedAt, Region.parkedAt_handOut, if_neg hc]
  · obtain ⟨rings, hr, _⟩ := Region.handOut_snd r c max
    rw [htaken, hr]
    rfl

/-- Rings with turns later are as before until then. -/
theorem taken_eq (h : Emptied r max cs₁ r₁) (hd : cs₁.Disjoint cs₂) :
    taken r₁ max cs₂ = taken r max cs₂ := by
  unfold taken
  refine List.flatMap_congr fun c hc => ?_
  rw [h.kept c fun h => hd h hc]

theorem any_hasBatch_eq (h : Emptied r max cs₁ r₁) (hd : cs₁.Disjoint cs₂) :
    cs₂.any (hasBatch r₁ max) = cs₂.any (hasBatch r max) := by
  rw [Bool.eq_iff_iff, List.any_eq_true, List.any_eq_true]
  refine exists_congr fun c => and_congr_right fun hc => ?_
  unfold hasBatch
  rw [h.kept c fun h => hd h hc]

theorem trans (h₁ : Emptied r max cs₁ r₁) (h₂ : Emptied r₁ max cs₂ r₂) (hd : cs₁.Disjoint cs₂) :
    Emptied r max (cs₁ ++ cs₂) r₂ := by
  have htaken : taken r max (cs₁ ++ cs₂) = taken r max cs₁ ++ taken r₁ max cs₂ := by
    rw [h₁.taken_eq hd]
    exact List.flatMap_append
  refine ⟨h₁.toMoved.trans h₂.toMoved, ?_, ?_, ?_⟩
  · intro c h
    rcases List.mem_append.mp h with h | h
    · rw [h₂.kept c fun hc => hd h hc, h₁.served c h]
    · rw [h₂.served c h, h₁.kept c fun hc => hd hc h]
  · intro c h
    rw [List.mem_append, not_or] at h
    rw [h₂.kept c h.2, h₁.kept c h.1]
  · rw [h₂.ledger_eq, h₁.ledger_eq, htaken, List.length_append]
    simp [Region.Ledger.record, Nat.add_assoc]

end Emptied

theorem emptied_turns (max : Nat) (cs : List Channel) (hcs : cs.Nodup) (r : Region) :
    Emptied r max cs (turns max cs r) := by
  induction cs generalizing r with
  | nil => exact .none r max
  | cons c cs ih =>
    obtain ⟨hc, hcs⟩ := List.nodup_cons.mp hcs
    have hd : [c].Disjoint cs := by simpa using hc
    exact (Emptied.turn r max c).trans (ih hcs _) hd

/-- The turns of some rings: the buffers that they take are attempted in order. -/
theorem pollRings_eq (ht : t ∈ r.registered) {max : Nat} (cs : List Channel) (hcs : cs.Nodup)
    (e : Egress) (he : e.batch = max) (stats : Stats) :
    Region.pollRings max (handler t) cs (r, e, stats) =
      ((taken r max cs).length, turns max cs r,
        { (attemptAll (taken r max cs) (e, stats)).1 with
          backlog := e.backlog || cs.any (hasBatch r max) },
        (attemptAll (taken r max cs) (e, stats)).2) := by
  induction cs generalizing r e stats with
  | nil => simp [Region.pollRings, taken, attemptAll, turns]
  | cons c cs ih =>
    obtain ⟨hc, hcs⟩ := List.nodup_cons.mp hcs
    have hd : [c].Disjoint cs := by simpa using hc
    have hfirst := Emptied.turn r max c
    have hbatch := Region.handOut_fst r c max
    have htaken : taken r max (c :: cs) = (r.parkedAt c).take max ++ taken r max cs := rfl
    rw [turns]
    cases hh : r.handOut c max with
    | mk batch behind =>
      rw [hh] at hfirst hbatch
      dsimp only at hfirst hbatch
      rw [← hbatch] at hfirst htaken ⊢
      have ht' : t ∈ (behind.record .released batch.length).registered := by
        rw [hfirst.registered_eq]
        exact ht
      simp only [Region.pollRings, hh]
      split
      · rename_i hempty
        obtain rfl := List.isEmpty_iff.mp hempty
        have hc : hasBatch r max c = false := hasBatch_of_nil hbatch.symm
        have heq := ih ht' hcs e he stats
        rw [hfirst.any_hasBatch_eq hd, hfirst.taken_eq hd] at heq
        rw [htaken, List.nil_append, List.any_cons, hc, Bool.false_or]
        exact heq
      · rename_i hne
        have hc : hasBatch r max c = decide (e.batch ≤ batch.length) := by
          rw [hbatch] at hne
          rw [hbatch, he]
          exact hasBatch_of_ne_nil fun h => hne (List.isEmpty_iff.mpr h)
        let backlog := e.backlog || decide (e.batch ≤ batch.length)
        let e' := (attemptAll batch (e, stats)).1
        let stats' := (attemptAll batch (e, stats)).2
        have hsent : handler t c.stream batch (behind, e, stats) =
            (behind.record .released batch.length, { e' with backlog }, stats') := by
          have htb : t ∈ behind.registered := ht'
          have hforward := forwardAll_eq htb batch { e with backlog } stats
          rw [attemptAll_backlog] at hforward
          exact hforward
        have hrest : attemptAll (batch ++ taken r max cs) (e, stats) =
            attemptAll (taken r max cs) (e', stats') := attemptAll_append _ _ _
        have he' : ({ e' with backlog } : Egress).batch = max :=
          (attemptAll_batch batch e stats).trans he
        have heq := ih ht' hcs { e' with backlog } he' stats'
        rw [hfirst.any_hasBatch_eq hd, hfirst.taken_eq hd, attemptAll_backlog] at heq
        rw [hsent, heq, htaken, hrest, List.length_append, List.any_cons, hc, ← Bool.or_assoc]

theorem outputs_nodup (hs : r.Sound) : r.outputs.Nodup := hs.distinct.filter _

/-- Of the buffers that the turns of some rings take, those of one stream are what its own ring has
to give. -/
theorem taken_filter (hs : r.Sound) (max : Nat) (o : StreamId) (cs : List Channel) (hcs : cs.Nodup)
    (hout : ∀ c ∈ cs, c.direction = .output) :
    (taken r max cs).filter (·.stream = o) =
      if ⟨o, .output⟩ ∈ cs then (r.parkedAt ⟨o, .output⟩).take max else [] := by
  induction cs with
  | nil => rfl
  | cons c cs ih =>
    obtain ⟨hc, hcs⟩ := List.nodup_cons.mp hcs
    have ⟨hdirection, hout⟩ := List.forall_mem_cons.mp hout
    have hrest := ih hcs hout
    have hcarry : ∀ b ∈ (r.parkedAt c).take max, b.stream = c.stream := fun b hb =>
      (hs.fitting_parkedAt (List.mem_of_mem_take hb)).1
    have htaken : taken r max (c :: cs) = (r.parkedAt c).take max ++ taken r max cs := rfl
    rw [htaken, List.filter_append, hrest]
    by_cases ho : c.stream = o
    · have hchannel : c = ⟨o, .output⟩ := congrArg₂ Channel.mk ho hdirection
      have hall : ((r.parkedAt c).take max).filter (·.stream = o) = (r.parkedAt c).take max :=
        List.filter_eq_self.mpr fun b hb => decide_eq_true ((hcarry b hb).trans ho)
      rw [hall, ← hchannel, if_neg hc, if_pos List.mem_cons_self, List.append_nil]
    · have hnone : ((r.parkedAt c).take max).filter (·.stream = o) = [] := by
        refine List.filter_eq_nil_iff.mpr ?_
        intro b hb
        rw [decide_eq_true_eq, hcarry b hb]
        exact ho
      have hchannel : (⟨o, .output⟩ : Channel) ≠ c := fun h => ho (congrArg Channel.stream h).symm
      have hmem : (⟨o, .output⟩ : Channel) ∈ c :: cs ↔ (⟨o, .output⟩ : Channel) ∈ cs := by
        rw [List.mem_cons, or_iff_right hchannel]
      rw [hnone, List.nil_append, if_congr hmem rfl rfl]

theorem taken_outputs_filter (hs : r.Sound) (max : Nat) (o : StreamId) :
    (taken r max r.outputs).filter (·.stream = o) = (r.parkedAt ⟨o, .output⟩).take max := by
  have hout : ∀ c ∈ r.outputs, c.direction = .output := fun _ hc => (Region.mem_outputs_iff.mp hc).2
  rw [taken_filter hs max o r.outputs (outputs_nodup hs) hout]
  split
  · rfl
  · rename_i hno
    have hring : r.ring? ⟨o, .output⟩ = none := by
      simpa [Region.mem_outputs_iff] using hno
    rw [Region.parkedAt_of_none hring, List.take_nil]

/-- A pass over all output rings handles what they have to give, and tells whether a ring had a
whole batch. -/
theorem drainOnce_eq (hs : r.Sound) (ht : t ∈ r.registered) (e : Egress) (stats : Stats) :
    drainOnce t r e stats =
      (.ok (taken r e.batch r.outputs).length, turns e.batch r.outputs r,
        { (attemptAll (taken r e.batch r.outputs) (e, stats)).1 with
          backlog := r.outputs.any (hasBatch r e.batch) },
        (attemptAll (taken r e.batch r.outputs) (e, stats)).2) := by
  have heq := pollRings_eq ht r.outputs (outputs_nodup hs) { e with backlog := false } rfl stats
  rw [attemptAll_backlog, Bool.false_or] at heq
  have hpoll : drainOnce t r e stats =
      r.poll t e.batch (handler t) ({ e with backlog := false }, stats) := rfl
  rw [hpoll, Region.poll, Region.checkRegistered_of_mem ht]
  dsimp only
  rw [heq]

theorem pass_eq (hs : r.Sound) (ht : t ∈ r.registered) (e : Egress) (stats : Stats) :
    ∃ r', Emptied r e.batch r.outputs r' ∧
      pass t r e stats =
        (r', { (attemptAll (taken r e.batch r.outputs) (e, stats)).1 with
            backlog := r.outputs.any (hasBatch r e.batch) },
          (attemptAll (taken r e.batch r.outputs) (e, stats)).2) := by
  refine ⟨_, emptied_turns e.batch r.outputs (outputs_nodup hs) r, ?_⟩
  rw [pass, drainOnce_eq hs ht]

end Egress

end StreamRelay
