import StreamRelay.Ingress
import StreamRelay.Proofs.Region.Soundness

/-!
# Handling a frame

A registered thread that hands the payload of a frame to a sound region meets one of four outcomes,
each of which fixes the answer, the region and the counter.
-/

namespace StreamRelay

namespace Router
open Region

variable {r : Region} {t : Thread}

theorem route_of_mem (ht : t ∈ r.registered) (stream : StreamId) :
    route r t stream =
      (.ok (if (r.ring? ⟨stream, .input⟩).isSome then .found ⟨stream, .input⟩ else .notFound), r) := by
  have hfind : Subsystem.findChannel r t ⟨stream, .input⟩ =
      (r.findChannel t ⟨stream, .input⟩, r) := rfl
  rcases findChannel_cases r t ⟨stream, .input⟩ with ⟨hn, _⟩ | ⟨_, hr, h⟩ | ⟨_, hr, h⟩
  · exact absurd ht hn
  · rw [route, hfind, h, hr]
    rfl
  · rw [route, hfind, h, hr]
    rfl

end Router

namespace Ingress
open Region

variable {r : Region} {t : Thread} {payload : Bytes} {stats : Stats}

inductive Handles (r : Region) (payload : Bytes) (stats : Stats) : Outcome × Region × Stats → Prop
  | malformed (h : ∀ b, Envelope.split? payload = some b → r.config.slotSize < b.body.length) :
    Handles r payload stats (.malformed, r, stats.count .droppedMalformed)
  | unknown {b : Buffer} (hs : Envelope.split? payload = some b)
    (hb : b.body.length ≤ r.config.slotSize) (hr : r.ring? ⟨b.stream, .input⟩ = none) :
    Handles r payload stats (.unknownStream b.stream, (r.record .acquired).record .released,
      stats.count .droppedUnknownStream)
  | full {b : Buffer} {ring : Ring} (hs : Envelope.split? payload = some b)
    (hb : b.body.length ≤ r.config.slotSize) (hi : (r.ring? ⟨b.stream, .input⟩).isSome)
    (hr : r.ring? (r.target ⟨b.stream, .input⟩) = some ring)
    (hfull : ring.capacity ≤ ring.parked.length) :
    Handles r payload stats (.rejected b.stream, (r.record .acquired).record .released,
      stats.count .droppedSubmitFailed)
  | dispatched {b : Buffer} {ring : Ring} (hs : Envelope.split? payload = some b)
    (hb : b.body.length ≤ r.config.slotSize) (hi : (r.ring? ⟨b.stream, .input⟩).isSome)
    (hr : r.ring? (r.target ⟨b.stream, .input⟩) = some ring)
    (hroom : ring.parked.length < ring.capacity) :
    Handles r payload stats (.dispatched b.stream,
      ((r.record .acquired).setRing (ring.park b)).record .submitted,
      stats.count .frameDispatched)

/-- A submission finds the ring that takes it. -/
theorem handleFrame_handles (hs : r.Sound) (ht : t ∈ r.registered) (payload : Bytes)
    (stats : Stats) : Handles r payload stats (handleFrame r stats t payload) := by
  have hdeserialize : Subsystem.deserialize r t payload = r.deserialize t payload := rfl
  unfold handleFrame
  rw [hdeserialize]
  rcases deserialize_cases r t payload with ⟨e, hbad, h⟩ | ⟨b, _, hsplit, hb, h⟩
  · rw [h]
    exact .malformed (hbad ht)
  · have ht' : t ∈ (r.record .acquired).registered := ht
    have hroute := Router.route_of_mem ht' b.stream
    rw [record_ring?] at hroute
    rw [h]
    dsimp only
    rw [hroute]
    by_cases hi : (r.ring? ⟨b.stream, .input⟩).isSome
    · rw [if_pos hi]
      have htarget := hs.target_isSome hi
      have hsame : (r.record .acquired).target ⟨b.stream, .input⟩ = r.target ⟨b.stream, .input⟩ :=
        rfl
      have hsubmit : Subsystem.submit (r.record .acquired) t ⟨b.stream, .input⟩ b =
          (r.record .acquired).submit t ⟨b.stream, .input⟩ b := rfl
      dsimp only
      rw [hsubmit]
      rcases submit_cases (r.record .acquired) t ⟨b.stream, .input⟩ b with ⟨hn, _⟩ | ⟨_, hr, _⟩ |
        ⟨ring, _, hr, hfull, h⟩ | ⟨ring, _, hr, hroom, h⟩
      · exact absurd ht' hn
      · rw [record_ring?, hsame] at hr
        rw [hr] at htarget
        contradiction
      · rw [h]
        exact .full hsplit hb hi hr hfull
      · rw [h]
        exact .dispatched hsplit hb hi hr hroom
    · rw [if_neg hi]
      exact .unknown hsplit hb (by simpa using hi)

theorem Handles.moved {result : Outcome × Region × Stats} (h : Handles r payload stats result) :
    Moved r result.2.1 := by
  cases h with
  | malformed _ => exact .refl r
  | unknown _ _ _ => exact ((Moved.refl r).record _ _).record _ _
  | full _ _ _ _ _ => exact ((Moved.refl r).record _ _).record _ _
  | dispatched _ hb _ hr hroom =>
    have hacquired : Moved r (r.record .acquired) := (Moved.refl r).record _ _
    exact (hacquired.trans (.park (r := r.record .acquired) hr hroom hb)).record _ _

end Ingress

end StreamRelay
