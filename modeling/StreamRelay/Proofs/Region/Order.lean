import StreamRelay.Proofs.Region.Soundness

/-!
# The order of the rings

The rings of a region in use stand in the order of their channels, since a new ring is inserted in
front of the first that comes later and no ring is ever moved. So the output rings come by ascending
stream, each stream once.
-/

namespace StreamRelay

namespace StreamId

variable {a b c : StreamId}

theorem le_iff : a.le b = true ↔ a.bytes ≤ b.bytes := by
  unfold le
  exact decide_eq_true_iff

theorem le_trans (hab : a.le b = true) (hbc : b.le c = true) : a.le c = true :=
  le_iff.mpr (List.le_trans (le_iff.mp hab) (le_iff.mp hbc))

theorem le_of_not_le (h : ¬ a.le b = true) : b.le a = true := by
  rw [le_iff] at h
  exact le_iff.mpr ((List.le_total a.bytes b.bytes).resolve_left h)

theorem le_antisymm (hab : a.le b = true) (hba : b.le a = true) : a = b :=
  eq_of_bytes (List.le_antisymm (le_iff.mp hab) (le_iff.mp hba))

end StreamId

namespace Channel

variable {a b c : Channel}

theorem before_of_stream_eq (h : a.stream = b.stream) :
    a.before b = true ↔ a.direction = .input ∧ b.direction = .output := by
  simp [before, h]

theorem before_of_stream_ne (h : a.stream ≠ b.stream) :
    a.before b = true ↔ a.stream.le b.stream = true := by
  simp [before, h]

theorem before_trans (hab : a.before b = true) (hbc : b.before c = true) : a.before c = true := by
  by_cases hsame : a.stream = b.stream
  · -- then `b` is an output, so `c` is of a later stream
    obtain ⟨_, hb⟩ := (before_of_stream_eq hsame).mp hab
    have hlater : b.stream ≠ c.stream := by
      intro h
      obtain ⟨hinput, _⟩ := (before_of_stream_eq h).mp hbc
      rw [hb] at hinput
      contradiction
    have hle := (before_of_stream_ne hlater).mp hbc
    rw [← hsame] at hlater hle
    exact (before_of_stream_ne hlater).mpr hle
  · have hle := (before_of_stream_ne hsame).mp hab
    by_cases hnext : b.stream = c.stream
    · rw [hnext] at hsame hle
      exact (before_of_stream_ne hsame).mpr hle
    · have hle' := (before_of_stream_ne hnext).mp hbc
      have hne : a.stream ≠ c.stream := by
        intro h
        rw [← h] at hle'
        exact hsame (StreamId.le_antisymm hle hle')
      exact (before_of_stream_ne hne).mpr (StreamId.le_trans hle hle')

theorem before_of_not_before (hne : a ≠ b) (h : ¬ a.before b = true) : b.before a = true := by
  by_cases hsame : a.stream = b.stream
  · rw [before_of_stream_eq hsame] at h
    rw [before_of_stream_eq hsame.symm]
    have hdirection : a.direction ≠ b.direction := by
      intro hd
      exact hne (congrArg₂ mk hsame hd)
    cases ha : a.direction <;> cases hb : b.direction <;> simp_all
  · rw [before_of_stream_ne hsame] at h
    exact (before_of_stream_ne (Ne.symm hsame)).mpr (StreamId.le_of_not_le h)

end Channel

namespace Region

def InOrder (rings : List Ring) : Prop :=
  (rings.map (·.channel)).Pairwise fun a b => a.before b = true

theorem InOrder.insertRing {rings : List Ring} (h : InOrder rings) {ring : Ring}
    (hnew : ring.channel ∉ rings.map (·.channel)) : InOrder (insertRing ring rings) := by
  induction rings with
  | nil => exact List.pairwise_singleton _ _
  | cons next rest ih =>
    obtain ⟨hnext, hrest⟩ := List.pairwise_cons.mp h
    rw [List.map_cons, List.mem_cons, not_or] at hnew
    rw [Region.insertRing]
    by_cases hbefore : ring.channel.before next.channel = true
    · rw [if_pos hbefore]
      refine List.pairwise_cons.mpr ⟨?_, h⟩
      intro c hc
      rcases List.mem_cons.mp hc with rfl | hc
      · exact hbefore
      · exact Channel.before_trans hbefore (hnext c hc)
    · rw [if_neg hbefore]
      refine List.pairwise_cons.mpr ⟨?_, ih hrest hnew.2⟩
      intro c hc
      have hc : c ∈ (ring :: rest).map (·.channel) := ((insertRing_perm ring rest).map _).mem_iff.mp hc
      rcases List.mem_cons.mp hc with rfl | hc
      · exact Channel.before_of_not_before hnew.1 hbefore
      · exact hnext c hc

end Region

namespace Usage
open Region

variable {u v : Usage}

theorem Step.inOrder (h : Step u v) (ho : InOrder u.region.rings) : InOrder v.region.rings := by
  have hset : ∀ ring, InOrder (u.region.setRing ring).rings := by
    intro ring
    unfold InOrder
    rw [map_channel_setRing]
    exact ho
  cases h with
  | creation _ hc _ =>
    refine ho.insertRing ?_
    rw [← ring?_isSome_iff, hc]
    exact Bool.false_ne_true
  | publication _ _ _ => exact hset _
  | consumption _ _ => exact hset _
  | submission _ _ _ _ => exact hset _
  | handing _ _ _ => exact hset _
  | _ => exact ho

theorem Reachable.inOrder {c : Config} (h : Reachable c u) : InOrder u.region.rings := by
  refine Reachable.induct (P := fun u => InOrder u.region.rings) ?_ ?_ h
  · intro region hregion
    obtain ⟨rfl, _⟩ := ofConfig_eq_ok hregion
    exact List.Pairwise.nil
  · intro u v ho hstep
    exact hstep.inOrder ho

/-- The output rings come by ascending stream. -/
theorem Reachable.outputs_ascending {c : Config} (h : Reachable c u) :
    (u.region.outputs.map (·.stream.bytes)).Pairwise (· < ·) := by
  refine List.pairwise_map.mpr ?_
  refine List.Pairwise.imp_of_mem ?_ (h.inOrder.filter _)
  intro a b ha hb hbefore
  have houtput : a.direction = .output := (mem_outputs_iff.mp ha).2
  have hne : a.stream ≠ b.stream := by
    intro hsame
    obtain ⟨hinput, _⟩ := (Channel.before_of_stream_eq hsame).mp hbefore
    rw [houtput] at hinput
    contradiction
  have hle := StreamId.le_iff.mp ((Channel.before_of_stream_ne hne).mp hbefore)
  exact Std.lt_of_le_of_ne hle fun h => hne (StreamId.eq_of_bytes h)

end Usage

end StreamRelay
