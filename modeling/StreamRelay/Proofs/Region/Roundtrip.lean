import StreamRelay.Proofs.Egress.Attempts
import StreamRelay.Proofs.Region.Fifo

/-!
# From a message to a buffer and back

A buffer is written to an area as the message that it was made of, if there is room for it. A buffer
that was submitted to an output ring keeps its place among the others until its turn, and is then
written as a message of the stream of the ring, which is as long.
-/

namespace StreamRelay

namespace Envelope

/-- Every registered thread writes the buffer as this message to an area that has room for it, and
what the area holds behind the message stays. A smaller area stays as it is. -/
def SerializesAs (b : Buffer) (raw : Bytes) : Prop :=
  ∀ (r : Region) (t : Thread), t ∈ r.registered → ∀ area : Bytes,
    r.serialize t b area =
      if raw.length ≤ area.length then (.ok raw.length, raw ++ area.drop raw.length)
      else (.error (.scratchTooSmall raw.length area.length), area)

theorem serializesAs_encode (b : Buffer) : b.SerializesAs b.encode := by
  intro r t ht area
  rw [Egress.serialize_of_registered ht]
  by_cases hroom : area.length < b.encode.length
  · rw [if_pos hroom, if_neg (Nat.not_le.mpr hroom)]
  · rw [if_neg hroom, if_pos (Nat.not_lt.mp hroom)]

end Envelope

namespace Region

variable {r : Region} {t : Thread} {raw : Bytes}

/-- A message becomes a buffer if it has an id and its body fits a slot. -/
theorem deserialize_isOk_iff (ht : t ∈ r.registered) :
    (∃ b, (r.deserialize t raw).1 = .ok b) ↔
      StreamId.size ≤ raw.length ∧ raw.length ≤ StreamId.size + r.config.slotSize := by
  rcases deserialize_cases r t raw with ⟨e, hbad, h⟩ | ⟨b, _, hs, hfits, h⟩
  · rw [h]
    refine iff_of_false nofun ?_
    rintro ⟨hlong, hshort⟩
    cases hs : Envelope.split? raw with
    | none =>
      have := Envelope.split?_eq_none hs
      omega
    | some b =>
      have hbody := hbad ht b hs
      rw [(Envelope.split?_eq_some hs).1, Envelope.length_encode] at hshort
      omega
  · rw [h]
    refine iff_of_true ⟨b, rfl⟩ ?_
    rw [(Envelope.split?_eq_some hs).1, Envelope.length_encode]
    omega

theorem deserialize_eq_ok {b : Buffer} (h : (r.deserialize t raw).1 = .ok b) :
    raw = b.encode ∧ b.body = raw.drop StreamId.size := by
  rcases deserialize_cases r t raw with ⟨e, _, hd⟩ | ⟨b', _, hs, _, hd⟩
  · rw [hd] at h
    contradiction
  · rw [hd] at h
    cases h
    exact Envelope.split?_eq_some hs

end Region

namespace Usage
open Region Happening

variable {u v w : Usage} {c : Channel} {b : Buffer} {body : Bytes} {place : Nat}

/-- A submission that succeeds puts the body behind all others. -/
theorem waiting_submit {t : Thread} {channel : Channel} {position : Nat}
    (hb : u.held[position]? = some b) (hc : channel ∈ u.handles)
    (hok : (u.region.submit t channel b).1 = .ok ()) :
    (u.operate (.submit t channel position)).waiting (u.region.target channel) =
        u.waiting (u.region.target channel) ++ [b.body] ∧
      (u.operate (.submit t channel position)).pulled (u.region.target channel) =
        u.pulled (u.region.target channel) := by
  rcases submit_cases u.region t channel b with
    ⟨_, h⟩ | ⟨_, _, h⟩ | ⟨_, _, _, _, h⟩ | ⟨ring, _, hr, _, h⟩
  · rw [h] at hok
    contradiction
  · rw [h] at hok
    contradiction
  · rw [h] at hok
    contradiction
  · simp only [operate, hb, if_pos hc, h]
    constructor
    · unfold waiting
      dsimp only
      rw [record_parkedAt, parkedAt_park hr, if_pos rfl, List.map_append, List.map_singleton,
        parkedAt_of_ring? hr]
    · unfold pulled
      rw [List.filterMap_append]
      exact List.append_nil _

/-- A body moves up by one place for each one that is taken out of its ring. -/
theorem Runs.waiting_getElem? (h : Runs v w) (hplace : (v.waiting c)[place]? = some body)
    (hgone : (w.pulled c).length - (v.pulled c).length ≤ place) :
    (w.waiting c)[place - ((w.pulled c).length - (v.pulled c).length)]? = some body := by
  obtain ⟨news, hnews⟩ := h.follows
  have hpulled : w.pulled c = v.pulled c ++ news.filterMap (takenFrom c) := by
    rw [pulled, hnews.history_eq, List.filterMap_append]
    rfl
  rw [hpulled, List.length_append, Nat.add_sub_cancel_left] at hgone ⊢
  obtain ⟨hlength, _⟩ := List.getElem?_eq_some_iff.mp hplace
  calc (w.waiting c)[place - (news.filterMap (takenFrom c)).length]?
    _ = (news.filterMap (takenFrom c) ++ w.waiting c)[place]? :=
      (List.getElem?_append_right hgone).symm
    _ = (v.waiting c ++ news.filterMap (parkedFor c))[place]? := by rw [hnews.queues]
    _ = some body := (List.getElem?_append_left hlength).trans hplace

/-- The turn of a ring gives callers what is parked in it, as buffers of its stream. -/
theorem held_turn (hs : u.Sound) {s : StreamId} {max : Nat}
    (hplace : (u.waiting ⟨s, .output⟩)[place]? = some body) (hmax : place < max) :
    (u.operate (.turn ⟨s, .output⟩ max)).held[u.held.length + place]? = some ⟨s, body⟩ := by
  rw [waiting, List.getElem?_map] at hplace
  obtain ⟨b, hb, hbody⟩ := Option.map_eq_some_iff.mp hplace
  have hstream : b.stream = s := (hs.region.fitting_parkedAt (List.mem_of_getElem? hb)).1
  have hheld : (u.operate (.turn ⟨s, .output⟩ max)).held =
      u.held ++ (u.region.parkedAt ⟨s, .output⟩).take max := by
    rw [operate, if_pos rfl, ← handOut_fst]
    rfl
  rw [hheld, List.getElem?_append_right (Nat.le_add_right _ _), Nat.add_sub_cancel_left,
    List.getElem?_take_of_lt hmax, hb, ← hstream, ← hbody]

end Usage

/-- A message becomes a buffer exactly if it is as long as an id and at most a slot longer, and the
buffer is written back as this message. Once it was submitted to the ring of an output stream, and
before it was taken out, it comes in the turn of the ring after those that were ahead of it. From
then on it is written as a message of that stream, of the same length. -/
theorem deserialize_serialize {r : Region} {t : Thread} (ht : t ∈ r.registered) (raw : Bytes) :
    ((∃ b, (r.deserialize t raw).1 = .ok b) ↔
      StreamId.size ≤ raw.length ∧ raw.length ≤ StreamId.size + r.config.slotSize) ∧
    ∀ b, (r.deserialize t raw).1 = .ok b → b.SerializesAs raw ∧
      ∀ (c : Region.Config) (u : Usage) (other : Thread) (channel : Channel) (position : Nat)
        (s : StreamId) (calls : List Usage.Call) (max : Nat),
        u.Reachable c → u.held[position]? = some b → channel ∈ u.handles →
        u.region.target channel = ⟨s, .output⟩ → (u.region.submit other channel b).1 = .ok () →
        let w := (u.operate (.submit other channel position)).performAll calls
        let ahead := (u.waiting ⟨s, .output⟩).length
        let gone := (w.pulled ⟨s, .output⟩).length - (u.pulled ⟨s, .output⟩).length
        gone ≤ ahead → ahead - gone < max →
        ∃ b', (w.operate (.turn ⟨s, .output⟩ max)).held[w.held.length + (ahead - gone)]? = some b' ∧
          b'.SerializesAs (s.bytes ++ raw.drop StreamId.size) ∧
          (s.bytes ++ raw.drop StreamId.size).length = raw.length := by
  refine ⟨Region.deserialize_isOk_iff ht, ?_⟩
  intro b hb
  obtain ⟨hraw, hbody⟩ := Region.deserialize_eq_ok hb
  refine ⟨hraw ▸ b.serializesAs_encode, ?_⟩
  intro c u other channel position s calls max hu hheld hhandle htarget hok w ahead gone hgone hmax
  let v := u.operate (.submit other channel position)
  obtain ⟨hwaiting, hpulled⟩ := Usage.waiting_submit hheld hhandle hok
  rw [htarget] at hwaiting hpulled
  have hplace : (v.waiting ⟨s, .output⟩)[ahead]? = some b.body := by
    rw [hwaiting]
    exact List.getElem?_concat_length
  have hruns : Usage.Runs v w := Usage.performAll_runs v calls
  have hsound : w.Sound :=
    hruns.sound ((Usage.operate_step u _).sound hu.sound)
  have hlater := hruns.waiting_getElem? hplace (hpulled.symm ▸ hgone)
  rw [hpulled] at hlater
  refine ⟨⟨s, b.body⟩, Usage.held_turn hsound hlater hmax, ?_, ?_⟩
  · rw [← hbody]
    exact Envelope.serializesAs_encode ⟨s, b.body⟩
  · rw [← hbody, hraw, Envelope.length_encode, List.length_append, s.length_eq]
    rfl

namespace Usage

def fives : StreamId := ⟨List.replicate 16 5, rfl⟩

/-- An input stream is linked to an output stream that has a body already. A message that just fits
is taken up. -/
def posting : List Call :=
  let t : Thread := { name := "main" }
  [.operate (.register t), .operate (.create ⟨.nil, .input⟩ (some 1)),
    .operate (.create ⟨fives, .output⟩ (some 2)), .operate (.link .nil fives),
    .operate (.find t ⟨.nil, .input⟩), .operate (.publish t fives [8]),
    .operate (.deserialize t (StreamId.nil.bytes ++ [9]))]

def posted : Usage :=
  performAll { region := { config := { name := "post", size := 3, slotSize := 1 } } } posting

/-- The body ahead is taken out, and then the buffer gets its turn. It is written as a message of the
output stream to an area with a byte to spare, and not to one of sixteen bytes. -/
theorem deserialize_serialize_posted :
    let t : Thread := { name := "main" }
    let b : Buffer := ⟨.nil, [9]⟩
    let turn : Operation := .turn ⟨fives, .output⟩ 1
    let u := (posted.operate (.submit t ⟨.nil, .input⟩ 0)).operate turn
    (∃ b, (posted.region.deserialize t (StreamId.nil.bytes ++ [9])).1 = .ok b) ∧
    b.SerializesAs (StreamId.nil.bytes ++ [9]) ∧
    ∃ b', (u.operate turn).held[1]? = some b' ∧
      posted.region.serialize t b' (List.replicate 18 1) = (.ok 17, fives.bytes ++ [9, 1]) ∧
      posted.region.serialize t b' (List.replicate 16 1) =
        (.error (.scratchTooSmall 17 16), List.replicate 16 1) := by
  intro t b turn u
  have hreachable : posted.Reachable { name := "post", size := 3, slotSize := 1 } :=
    ⟨_, posting, rfl, rfl⟩
  have ht : t ∈ posted.region.registered := List.mem_singleton.mpr rfl
  obtain ⟨hiff, hback⟩ := deserialize_serialize ht (StreamId.nil.bytes ++ [9])
  have hb : (posted.region.deserialize t (StreamId.nil.bytes ++ [9])).1 = .ok b := by decide +kernel
  obtain ⟨hwritten, hturn⟩ := hback b hb
  obtain ⟨b', hheld, hwritten', _⟩ := hturn _ posted t ⟨.nil, .input⟩ 0 fives [.operate turn] 1
    hreachable (by decide +kernel) (by decide +kernel) (by decide +kernel) (by decide +kernel)
    (by decide +kernel) (by decide +kernel)
  refine ⟨hiff.mpr (by decide), hwritten, b', ?_, ?_, ?_⟩
  · have hplace : u.held.length + ((posted.waiting ⟨fives, .output⟩).length -
        ((u.pulled ⟨fives, .output⟩).length - (posted.pulled ⟨fives, .output⟩).length)) = 1 := by
      decide +kernel
    rw [← hplace]
    exact hheld
  · exact hwritten' posted.region t ht (List.replicate 18 1)
  · exact hwritten' posted.region t ht (List.replicate 16 1)

end Usage

end StreamRelay
