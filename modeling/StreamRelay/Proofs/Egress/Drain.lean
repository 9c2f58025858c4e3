import StreamRelay.Proofs.Egress.Pass
import StreamRelay.Proofs.Region.Order

/-!
# What a pass sends

A pass gives the sink the message of every buffer that it takes and that has room in the scratch
area, the output rings by ascending stream and each from its oldest buffer on. Nothing of what the
scratch area held before is sent, and every buffer is back in the region afterwards.
-/

namespace StreamRelay

namespace Usage

variable {u : Usage} {c : Region.Config}

theorem performAll_append (u : Usage) (front back : List Call) :
    u.performAll (front ++ back) = (u.performAll front).performAll back := by
  induction front generalizing u with
  | nil => rfl
  | cons call front ih => exact ih _

theorem Reachable.performAll (h : Reachable c u) (calls : List Call) :
    Reachable c (u.performAll calls) := by
  obtain ⟨region, before, hregion, rfl⟩ := h
  exact ⟨region, before ++ calls, hregion, (performAll_append _ _ _).symm⟩

/-- A caller releases what was handed out to it last. -/
theorem performAll_release (u : Usage) {held batch : List Buffer} (h : u.held = held ++ batch) :
    u.performAll (List.replicate batch.length (.operate (.release held.length))) =
      { u with region := u.region.record .released batch.length, held } := by
  induction batch generalizing u with
  | nil =>
    rw [List.append_nil] at h
    cases u
    cases h
    rfl
  | cons b rest ih =>
    have hfound : u.held[held.length]? = some b := by simp [h]
    have hleft : u.held.eraseIdx held.length = held ++ rest := by
      rw [h, List.eraseIdx_append_of_length_le (Nat.le_refl _), Nat.sub_self,
        List.eraseIdx_cons_zero]
    have hfirst : u.operate (.release held.length) =
        { u with region := u.region.release, held := held ++ rest } := by
      simp only [operate, hfound, hleft]
    have hrecord : (u.region.release).record .released rest.length =
        u.region.record .released (rest.length + 1) := by
      rw [Region.release, Egress.record_record, Nat.add_comm]
    rw [List.length_cons, List.replicate_succ, Usage.performAll, perform, hfirst, ih _ rfl]
    dsimp only
    rw [hrecord]

/-- The turns of some output rings are turns in a poll of a caller who releases each buffer. -/
theorem performAll_turns (max : Nat) (cs : List Channel) (hcs : ∀ c ∈ cs, c.direction = .output)
    (u : Usage) :
    ∃ calls, (u.performAll calls).region = Egress.turns max cs u.region ∧
      (u.performAll calls).held = u.held := by
  induction cs generalizing u with
  | nil => exact ⟨[], rfl, rfl⟩
  | cons channel cs ih =>
    obtain ⟨houtput, hcs⟩ := List.forall_mem_cons.mp hcs
    let batch := (u.region.parkedAt channel).take max
    let v := u.operate (.turn channel max)
    have hv : v.region = (u.region.handOut channel max).2 ∧ v.held = u.held ++ batch := by
      simp only [v, operate, if_pos houtput, receive, Region.handOut_fst, batch, and_self]
    let first : List Call := .operate (.turn channel max) ::
      List.replicate batch.length (.operate (.release u.held.length))
    have hfirst : u.performAll first =
        { v with region := v.region.record .released batch.length, held := u.held } :=
      performAll_release v hv.2
    obtain ⟨calls, hregion, hheld⟩ := ih hcs (u.performAll first)
    refine ⟨first ++ calls, ?_, ?_⟩
    · rw [performAll_append, hregion, hfirst, hv.1]
      rfl
    · rw [performAll_append, hheld, hfirst]

end Usage

namespace Egress

theorem messages_taken {r : Region} (hs : r.Sound) (room max : Nat) (cs : List Channel) :
    messages room (taken r max cs) = cs.flatMap fun c =>
      (((r.parkedAt c).take max).filter fun b => StreamId.size + b.body.length ≤ room).map
        fun b => c.stream.bytes ++ b.body := by
  unfold messages taken
  rw [List.filter_flatMap, List.map_flatMap]
  refine List.flatMap_congr fun c _ => ?_
  have hfits : ((r.parkedAt c).take max).filter (fun b => b.encode.length ≤ room) =
      ((r.parkedAt c).take max).filter fun b => StreamId.size + b.body.length ≤ room := by
    simp only [Envelope.length_encode]
  rw [hfits]
  refine List.map_congr_left fun b hb => ?_
  have hparked := List.mem_of_mem_take (List.mem_filter.mp hb).1
  rw [Envelope.encode, (hs.fitting_parkedAt hparked).1]

/-- One pass of a registered thread over a region in use. Whatever the scratch area holds, the sink
gets the id of the ring and the body of each buffer that is taken and has room, the rings by
ascending stream and each from the front. Each buffer that is taken is counted once, as sent, failed
or without room, and returned once. -/
theorem drainOnce_exact {c : Region.Config} {u : Usage} (h : Usage.Reachable c u) {t : Thread}
    (ht : t ∈ u.region.registered) (sink : DatagramSink) (room batch : Nat) (backlog : Bool)
    (stats : Stats) :
    let r := u.region
    let buffers := taken r batch r.outputs
    let offered := r.outputs.flatMap fun c =>
      (((r.parkedAt c).take batch).filter fun b => StreamId.size + b.body.length ≤ room).map
        fun b => c.stream.bytes ++ b.body
    let answers := sink.answers offered
    ∃ after,
      (∀ scratch : Bytes, scratch.length = room → ∃ area : Bytes, area.length = room ∧
        drainOnce t r ⟨sink, scratch, batch, backlog⟩ stats =
          (.ok buffers.length, after,
            ⟨sink.offer offered, area, batch, r.outputs.any (hasBatch r batch)⟩,
            { stats with
              datagramsSent := stats.datagramsSent + answers.countP Except.isOk
              sendFailures := stats.sendFailures + answers.countP (!·.isOk)
              serializeFailures := stats.serializeFailures +
                buffers.countP fun b => room < StreamId.size + b.body.length
              buffersReleased := stats.buffersReleased + buffers.length })) ∧
      (r.outputs.map (·.stream.bytes)).Pairwise (· < ·) ∧
      (sink.offer offered).sent =
        sink.sent ++ ((offered.zip answers).filter (·.2.isOk)).map (·.1) ∧
      answers.countP Except.isOk + answers.countP (!·.isOk) +
        (buffers.countP fun b => room < StreamId.size + b.body.length) = buffers.length ∧
      Emptied r batch r.outputs after ∧
      after.ledger.released = r.ledger.released + buffers.length ∧
      after.ledger.outstanding = r.ledger.outstanding ∧
      ∃ v, Usage.Reachable c v ∧ v.region = after ∧ v.held = u.held := by
  intro r buffers offered answers
  have hs : r.Sound := h.sound.region
  have hoffered : offered = messages room buffers := (messages_taken hs room batch _).symm
  have hlong : (buffers.countP fun b => room < StreamId.size + b.body.length) =
      buffers.countP (room < ·.encode.length) := by
    simp only [Envelope.length_encode]
  have hemptied := emptied_turns batch r.outputs (outputs_nodup hs) r
  have hledger := hemptied.ledger_eq
  refine ⟨turns batch r.outputs r, ?_, h.outputs_ascending, sink.offer_sent offered, ?_, hemptied,
    ?_, ?_, ?_⟩
  · intro scratch hscratch
    let e : Egress := ⟨sink, scratch, batch, backlog⟩
    have hdrain := drainOnce_eq hs ht e stats
    obtain ⟨hlength, hsink⟩ := attemptAll_sink buffers e stats
    have hcounts := attemptAll_counts buffers e stats
    have hbatch := attemptAll_batch buffers e stats
    have hroom : e.scratch.length = room := hscratch
    have htaken : taken r e.batch r.outputs = buffers := rfl
    rw [hroom] at hlength hsink
    simp only [hroom, ← hoffered, ← hlong] at hcounts hsink
    rw [htaken] at hdrain
    cases hall : attemptAll buffers (e, stats) with
    | mk e' stats' =>
      rw [hall] at hdrain hlength hsink hcounts hbatch
      refine ⟨e'.scratch, hlength, hdrain.trans ?_⟩
      dsimp only at hsink hcounts hbatch
      dsimp only
      rw [hsink, hcounts, hbatch]
  · have hcalls : answers.length = offered.length := sink.length_answers offered
    have hboth := List.length_eq_countP_add_countP Except.isOk (l := answers)
    have hmessages := length_messages room buffers
    simp only [Bool.not_eq_true, Bool.decide_eq_false] at hboth
    rw [← hoffered] at hmessages
    rw [hlong]
    omega
  · rw [hledger]
    rfl
  · rw [hledger]
    simp only [Region.Ledger.outstanding, Region.Ledger.record]
    omega
  · have houtput : ∀ c ∈ r.outputs, c.direction = .output :=
      fun _ hc => (Region.mem_outputs_iff.mp hc).2
    obtain ⟨calls, hregion, hheld⟩ := Usage.performAll_turns batch r.outputs houtput u
    exact ⟨u.performAll calls, h.performAll calls, hregion, hheld⟩

/-- Two streams of which the one with the larger id is made first. A message of the other one is too
long for a scratch area of seventeen bytes. -/
def mixing : List Usage.Call :=
  let t : Thread := { name := "main" }
  let high : StreamId := ⟨List.replicate 16 255, rfl⟩
  [.operate (.register t), .operate (.create ⟨high, .output⟩ (some 1)),
    .operate (.create ⟨.nil, .output⟩ (some 2)), .operate (.publish t high [5]),
    .operate (.publish t .nil [7]), .operate (.publish t .nil [8, 9])]

def mixed : Usage := Usage.performAll { region := { config := { size := 6, slotSize := 2 } } } mixing

/-- The first datagram fails, the long message is passed over, and the scratch area is not empty. -/
theorem drainOnce_exact_mixed :
    let t : Thread := { name := "main" }
    let sink : DatagramSink :=
      { description := "socket", coming := [some (.io ⟨.brokenPipe, "broken pipe"⟩)] }
    t ∈ mixed.region.registered ∧
    ∃ after area sink', sink'.sent = [List.replicate 16 255 ++ [5]] ∧
      drainOnce t mixed.region ⟨sink, List.replicate 17 1, 2, false⟩ {} =
        (.ok 3, after, ⟨sink', area, 2, true⟩,
          { datagramsSent := 1, sendFailures := 1, serializeFailures := 1, buffersReleased := 3 }) ∧
      after.ledger.outstanding = 0 := by
  intro t sink
  have hreachable : Usage.Reachable { size := 6, slotSize := 2 } mixed := ⟨_, mixing, rfl, rfl⟩
  have ht : t ∈ mixed.region.registered := by decide
  obtain ⟨after, hdrain, _, hsent, _, _, _, houtstanding, _⟩ :=
    drainOnce_exact hreachable ht sink 17 2 false {}
  obtain ⟨area, _, hdrain⟩ := hdrain (List.replicate 17 1) rfl
  exact ⟨ht, after, area, _, hsent, hdrain, houtstanding⟩

end Egress

end StreamRelay
