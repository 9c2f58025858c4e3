import Mathlib.Data.List.Nodup
import StreamRelay.Proofs.Egress.Drain
import StreamRelay.Proofs.Ingress.Handling

/-!
# The outcome of a frame

Which outcome the handling of a payload has is decided by the region that it meets, and the outcome
fixes what is left: one counter, the entries of the ledger, and the one ring that has a message more
if there is one. A slot that was taken for the message is not checked out any more.
-/

namespace StreamRelay

namespace Envelope

theorem split?_encode (b : Envelope) : split? b.encode = some b := by
  cases hs : split? b.encode with
  | none =>
    have hshort := split?_eq_none hs
    rw [length_encode] at hshort
    omega
  | some other =>
    obtain ⟨hencode, _⟩ := split?_eq_some hs
    have hstream : other.stream = b.stream :=
      bytes_prefix_encode_iff.mp (hencode ▸ List.prefix_append _ _)
    rw [encode, encode, hstream] at hencode
    have hbody : other.body = b.body := (List.append_cancel_left hencode).symm
    cases other
    cases hstream
    cases hbody
    rfl

end Envelope

namespace Region

def Addresses (r : Region) (payload : Bytes) (id : StreamId) : Prop :=
  ∃ body : Bytes, payload = id.bytes ++ body ∧ body.length ≤ r.config.slotSize

/-- The channel whose ring takes the messages for a stream: the output to which it is linked, or
else its input. -/
def taker (r : Region) (id : StreamId) : Channel :=
  match r.linked? id with
  | some output => ⟨output, .output⟩
  | none => ⟨id, .input⟩

def Lacks (r : Region) (id : StreamId) : Prop := r.ring? ⟨id, .input⟩ = none

def Refuses (r : Region) (id : StreamId) : Prop :=
  (r.ring? ⟨id, .input⟩).isSome ∧
    ∃ ring, r.ring? (r.taker id) = some ring ∧ ring.capacity ≤ ring.parked.length

def Takes (r : Region) (id : StreamId) : Prop :=
  (r.ring? ⟨id, .input⟩).isSome ∧
    ∃ ring, r.ring? (r.taker id) = some ring ∧ ring.parked.length < ring.capacity

def ringsWith (r : Region) (c : Channel) (body : Bytes) : List Ring :=
  r.rings.map fun ring =>
    if ring.channel = c then { ring with parked := ring.parked ++ [⟨c.stream, body⟩] } else ring

variable {r : Region} {payload : Bytes}

theorem addresses_iff {id : StreamId} :
    r.Addresses payload id ↔ ∃ b, Envelope.split? payload = some b ∧ b.stream = id ∧
      b.body.length ≤ r.config.slotSize := by
  constructor
  · rintro ⟨body, rfl, hfits⟩
    exact ⟨⟨id, body⟩, Envelope.split?_encode ⟨id, body⟩, rfl, hfits⟩
  · rintro ⟨b, hsplit, rfl, hfits⟩
    exact ⟨b.body, (Envelope.split?_eq_some hsplit).1, hfits⟩

section
variable {b : Buffer} {P : StreamId → Prop}

/-- The stream that a payload names is the only one. -/
theorem eq_stream_iff (hs : Envelope.split? payload = some b)
    (hb : b.body.length ≤ r.config.slotSize) (hP : P b.stream) (id : StreamId) :
    b.stream = id ↔ r.Addresses payload id ∧ P id := by
  rw [addresses_iff]
  constructor
  · rintro rfl
    exact ⟨⟨b, hs, rfl, hb⟩, hP⟩
  · rintro ⟨⟨other, hother, rfl, _⟩, _⟩
    rw [Option.some.inj (hs.symm.trans hother)]

theorem not_stream (hs : Envelope.split? payload = some b) (hP : ¬ P b.stream) (id : StreamId) :
    ¬ (r.Addresses payload id ∧ P id) := by
  rw [addresses_iff]
  rintro ⟨⟨other, hother, rfl, _⟩, h⟩
  rw [Option.some.inj (hs.symm.trans hother)] at hP
  exact hP h

end

theorem not_addresses (h : ∀ b, Envelope.split? payload = some b →
    r.config.slotSize < b.body.length) (id : StreamId) : ¬ r.Addresses payload id := by
  rw [addresses_iff]
  rintro ⟨b, hs, _, hb⟩
  have := h b hs
  omega

theorem Sound.setRing_park (hs : r.Sound) {c : Channel} {ring : Ring} (hr : r.ring? c = some ring)
    (b : Buffer) : r.setRing (ring.park b) = { r with rings := r.ringsWith c b.body } := by
  have hc := ring?_channel hr
  unfold Region.setRing ringsWith
  congr 1
  refine List.map_congr_left fun old hold => ?_
  rw [Ring.park_channel, hc]
  split
  · rename_i hsame
    have hone := List.inj_on_of_nodup_map hs.distinct hold (ring?_mem hr) (hsame.trans hc.symm)
    rw [hone, Ring.park, hc]
  · rfl

/-- What a registered thread submits is parked, or released for want of room. -/
theorem submit_snd {t : Thread} {c : Channel} {ring : Ring} (ht : t ∈ r.registered)
    (hr : r.ring? (r.target c) = some ring) (b : Buffer) :
    (r.submit t c b).2 =
      if ring.capacity ≤ ring.parked.length then r.record .released
      else (r.setRing (ring.park b)).record .submitted := by
  rcases submit_cases r t c b with ⟨hn, _⟩ | ⟨_, hnone, _⟩ | ⟨other, _, hother, hfull, h⟩ |
    ⟨other, _, hother, hroom, h⟩
  · exact absurd ht hn
  · rw [hr] at hnone
    contradiction
  · obtain rfl := Option.some.inj (hr.symm.trans hother)
    rw [h, if_pos hfull]
  · obtain rfl := Option.some.inj (hr.symm.trans hother)
    rw [h, if_neg (Nat.not_le.mpr hroom)]

end Region

namespace Ingress

namespace Outcome

def event : Outcome → Event
  | .dispatched _ => .frameDispatched
  | .malformed => .droppedMalformed
  | .unknownStream _ => .droppedUnknownStream
  | .rejected _ => .droppedSubmitFailed

def entries : Outcome → List Region.Entry
  | .dispatched _ => [.acquired, .submitted]
  | .malformed => []
  | .unknownStream _ => [.acquired, .released]
  | .rejected _ => [.acquired, .released]

def rings (r : Region) (payload : Bytes) : Outcome → List Ring
  | .dispatched id => r.ringsWith (r.taker id) (payload.drop StreamId.size)
  | _ => r.rings

def calls (t : Thread) (payload : Bytes) (before : Nat) (o : Outcome) : List Usage.Call :=
  .operate (.deserialize t payload) :: match o with
    | .malformed => []
    | .unknownStream id => [.operate (.find t ⟨id, .input⟩), .operate (.release before)]
    | .rejected id | .dispatched id =>
      [.operate (.find t ⟨id, .input⟩), .operate (.submit t ⟨id, .input⟩ before)]

end Outcome

end Ingress

namespace Usage

variable {u : Usage} {t : Thread} {raw : Bytes} {c : Channel} {b : Buffer}

theorem operate_deserialize (ht : t ∈ u.region.registered) (hs : Envelope.split? raw = some b)
    (hb : b.body.length ≤ u.region.config.slotSize) :
    u.operate (.deserialize t raw) =
      { u with region := u.region.record .acquired, held := u.held ++ [b] } := by
  rcases Region.deserialize_cases u.region t raw with ⟨e, hbad, _⟩ | ⟨other, _, hother, _, h⟩
  · have hlong := hbad ht b hs
    omega
  · obtain rfl := Option.some.inj (hs.symm.trans hother)
    simp only [operate, h]

theorem operate_deserialize_of_misfit (hlong : ∀ b, Envelope.split? raw = some b →
      u.region.config.slotSize < b.body.length) : u.operate (.deserialize t raw) = u := by
  rcases Region.deserialize_cases u.region t raw with ⟨e, _, h⟩ | ⟨b, _, hb, hfits, _⟩
  · simp only [operate, h]
  · have := hlong b hb
    omega

theorem operate_find (ht : t ∈ u.region.registered) (hc : (u.region.ring? c).isSome) :
    u.operate (.find t c) = { u with handles := c :: u.handles } := by
  rcases Region.findChannel_cases u.region t c with ⟨hn, _⟩ | ⟨_, hr, _⟩ | ⟨_, _, h⟩
  · exact absurd ht hn
  · simp [hr] at hc
  · simp only [operate, h]

theorem operate_find_of_none (ht : t ∈ u.region.registered) (hc : u.region.ring? c = none) :
    u.operate (.find t c) = u := by
  rcases Region.findChannel_cases u.region t c with ⟨hn, _⟩ | ⟨_, _, h⟩ | ⟨_, hr, _⟩
  · exact absurd ht hn
  · simp only [operate, h]
  · simp [hc] at hr

/-- A buffer that was got last is given away, whatever the answer. -/
theorem operate_submit_last {held : List Buffer} (h : u.held = held ++ [b]) (hc : c ∈ u.handles) :
    (u.operate (.submit t c held.length)).region = (u.region.submit t c b).2 ∧
      (u.operate (.submit t c held.length)).held = held := by
  have hfound : u.held[held.length]? = some b := by simp [h]
  have hleft : u.held.eraseIdx held.length = held := by
    simp [h, List.eraseIdx_append_of_length_le]
  rcases hsubmit : u.region.submit t c b with ⟨answer, region⟩
  cases answer <;> simp only [operate, hfound, if_pos hc, hsubmit, hleft, and_self]

end Usage

namespace Ingress
open Region

structure Outcome.Due (r : Region) (payload : Bytes) (o : Outcome) : Prop where
  malformed_iff : o = .malformed ↔
    payload.length < StreamId.size ∨ r.config.slotSize < payload.length - StreamId.size
  unknownStream_iff : ∀ id, o = .unknownStream id ↔ r.Addresses payload id ∧ r.Lacks id
  rejected_iff : ∀ id, o = .rejected id ↔ r.Addresses payload id ∧ r.Refuses id
  dispatched_iff : ∀ id, o = .dispatched id ↔ r.Addresses payload id ∧ r.Takes id

variable {r : Region} {t : Thread} {payload : Bytes} {stats : Stats}

theorem fits_of_split {b : Buffer} (hs : Envelope.split? payload = some b)
    (hb : b.body.length ≤ r.config.slotSize) :
    ¬ (payload.length < StreamId.size ∨ r.config.slotSize < payload.length - StreamId.size) := by
  rw [(Envelope.split?_eq_some hs).1, Envelope.length_encode]
  omega

theorem misfits_of_split (h : ∀ b, Envelope.split? payload = some b →
      r.config.slotSize < b.body.length) :
    payload.length < StreamId.size ∨ r.config.slotSize < payload.length - StreamId.size := by
  cases hs : Envelope.split? payload with
  | none => exact .inl (Envelope.split?_eq_none hs)
  | some b =>
    have hlong := h b hs
    rw [(Envelope.split?_eq_some hs).1, Envelope.length_encode]
    omega

theorem Handles.due {result : Outcome × Region × Stats} (h : Handles r payload stats result) :
    result.1.Due r payload := by
  cases h with
  | malformed hlong =>
    have hno := not_addresses hlong
    exact ⟨by simp [misfits_of_split hlong], by simp [hno], by simp [hno], by simp [hno]⟩
  | @unknown b hs hb hr =>
    have hlacks : r.Lacks b.stream := hr
    have hrefuses : ¬ r.Refuses b.stream := by simp [Refuses, hr]
    have htakes : ¬ r.Takes b.stream := by simp [Takes, hr]
    refine ⟨by simp [fits_of_split hs hb], ?_, ?_, ?_⟩
    · simpa using eq_stream_iff hs hb hlacks
    · simpa using not_stream hs hrefuses
    · simpa using not_stream hs htakes
  | @full b ring hs hb hi hr hfull =>
    have hr : r.ring? (r.taker b.stream) = some ring := hr
    have hlacks : ¬ r.Lacks b.stream := by simpa [Lacks, Option.isSome_iff_ne_none] using hi
    have hrefuses : r.Refuses b.stream := ⟨hi, ring, hr, hfull⟩
    have htakes : ¬ r.Takes b.stream := by simp [Takes, hr, hfull]
    refine ⟨by simp [fits_of_split hs hb], ?_, ?_, ?_⟩
    · simpa using not_stream hs hlacks
    · simpa using eq_stream_iff hs hb hrefuses
    · simpa using not_stream hs htakes
  | @dispatched b ring hs hb hi hr hroom =>
    have hr : r.ring? (r.taker b.stream) = some ring := hr
    have hlacks : ¬ r.Lacks b.stream := by simpa [Lacks, Option.isSome_iff_ne_none] using hi
    have hrefuses : ¬ r.Refuses b.stream := by simp [Refuses, hr, hroom]
    have htakes : r.Takes b.stream := ⟨hi, ring, hr, hroom⟩
    refine ⟨by simp [fits_of_split hs hb], ?_, ?_, ?_⟩
    · simpa using not_stream hs hlacks
    · simpa using not_stream hs hrefuses
    · simpa using eq_stream_iff hs hb htakes

/-- What an outcome leaves. -/
theorem Handles.leaves {result : Outcome × Region × Stats} (hs : r.Sound)
    (h : Handles r payload stats result) :
    result = (result.1,
      { r with rings := result.1.rings r payload
               ledger := result.1.entries.foldl (fun l e => l.record e) r.ledger },
      stats.count result.1.event) := by
  cases h with
  | malformed _ => rfl
  | unknown _ _ _ => rfl
  | full _ _ _ _ _ => rfl
  | @dispatched b ring hsplit _ _ hr _ =>
    rw [(hs.record .acquired 1).setRing_park hr b, (Envelope.split?_eq_some hsplit).2]
    rfl

section
variable {u : Usage} {b : Buffer}

/-- The calls for a message that is submitted. -/
theorem performAll_submit {ring : Ring} (ht : t ∈ u.region.registered)
    (hs : Envelope.split? payload = some b) (hb : b.body.length ≤ u.region.config.slotSize)
    (hi : (u.region.ring? ⟨b.stream, .input⟩).isSome)
    (hr : u.region.ring? (u.region.target ⟨b.stream, .input⟩) = some ring) :
    let v := u.performAll (Outcome.calls t payload u.held.length (.dispatched b.stream))
    v.region = (if ring.capacity ≤ ring.parked.length then
        (u.region.record .acquired).record .released
      else ((u.region.record .acquired).setRing (ring.park b)).record .submitted) ∧
    v.held = u.held := by
  let c : Channel := ⟨b.stream, .input⟩
  let taken : Usage := { u with region := u.region.record .acquired, held := u.held ++ [b] }
  let found : Usage := { taken with handles := c :: u.handles }
  have hfind : taken.operate (.find t c) = found := Usage.operate_find ht hi
  have ht' : t ∈ found.region.registered := ht
  have hr' : found.region.ring? (found.region.target c) = some ring := hr
  have hcalls : u.performAll (Outcome.calls t payload u.held.length (.dispatched b.stream)) =
      ((u.operate (.deserialize t payload)).operate (.find t c)).operate
        (.submit t c u.held.length) := rfl
  have hheld : found.held = u.held ++ [b] := rfl
  have hc : c ∈ found.handles := List.mem_cons_self
  obtain ⟨hregion, hleft⟩ := Usage.operate_submit_last (t := t) hheld hc
  rw [hcalls, Usage.operate_deserialize ht hs hb, hfind]
  exact ⟨hregion.trans (submit_snd ht' hr' b), hleft⟩

/-- A caller that makes the calls gets the same region, and has the same buffers as before. -/
theorem Handles.performAll {result : Outcome × Region × Stats} (ht : t ∈ u.region.registered)
    (h : Handles u.region payload stats result) :
    let v := u.performAll (result.1.calls t payload u.held.length)
    v.region = result.2.1 ∧ v.held = u.held := by
  cases h with
  | malformed hlong =>
    have hcall : u.operate (.deserialize t payload) = u :=
      Usage.operate_deserialize_of_misfit hlong
    exact ⟨congrArg Usage.region hcall, congrArg Usage.held hcall⟩
  | @unknown b hs hb hr =>
    let taken : Usage := { u with region := u.region.record .acquired, held := u.held ++ [b] }
    have hfind : taken.operate (.find t ⟨b.stream, .input⟩) = taken :=
      Usage.operate_find_of_none ht hr
    have hcalls : u.performAll (Outcome.calls t payload u.held.length (.unknownStream b.stream)) =
        ((u.operate (.deserialize t payload)).operate (.find t ⟨b.stream, .input⟩)).performAll
          (List.replicate [b].length (.operate (.release u.held.length))) := rfl
    have hheld : taken.held = u.held ++ [b] := rfl
    have hrelease := Usage.performAll_release taken hheld
    dsimp only
    rw [hcalls, Usage.operate_deserialize ht hs hb, hfind, hrelease]
    exact ⟨rfl, rfl⟩
  | full hs hb hi hr hfull =>
    have h := performAll_submit ht hs hb hi hr
    rwa [if_pos hfull] at h
  | dispatched hs hb hi hr hroom =>
    have h := performAll_submit ht hs hb hi hr
    rwa [if_neg (Nat.not_le.mpr hroom)] at h

end

/-- A registered thread hands a payload to a region in use. The region decides the outcome; it alone
is counted, and fixes what is entered in the ledger, which ring has a message more and that every
other ring and all else are as before. The calls that this takes leave the same buffers checked
out. -/
theorem handleFrame_exact {c : Config} {u : Usage} (h : Usage.Reachable c u) {t : Thread}
    (ht : t ∈ u.region.registered) (payload : Bytes) (stats : Stats) :
    let r := u.region
    let (outcome, after, counted) := handleFrame r stats t payload
    let v := u.performAll (outcome.calls t payload u.held.length)
    outcome.Due r payload ∧ counted = stats.count outcome.event ∧
      after = { r with
        rings := outcome.rings r payload
        ledger := outcome.entries.foldl (fun l e => l.record e) r.ledger } ∧
      v.region = after ∧ v.held = u.held := by
  intro r
  have hs : r.Sound := h.sound.region
  have hhandles := handleFrame_handles hs ht payload stats
  rcases hresult : handleFrame r stats t payload with ⟨outcome, after, counted⟩
  rw [hresult] at hhandles
  obtain ⟨_, hleaves⟩ := Prod.mk.inj (hhandles.leaves hs)
  obtain ⟨hafter, hcounted⟩ := Prod.mk.inj hleaves
  exact ⟨hhandles.due, hcounted, hafter, hhandles.performAll ht⟩

/-- The output ring to which the stream is linked is full, so a message for it is rejected; the
buffer that a caller holds meanwhile stays with it. -/
theorem handleFrame_exact_relayed :
    let t : Thread := { name := "main" }
    let r := Usage.relayed.region
    let payload := StreamId.nil.bytes ++ [3]
    t ∈ r.registered ∧ ∃ calls v, v = Usage.relayed.performAll calls ∧ v.held = Usage.relayed.held ∧
      handleFrame r {} t payload =
        (.rejected .nil, v.region, { droppedSubmitFailed := 1 }) ∧
      v.region.rings = r.rings ∧ v.region.ledger =
        { acquired := 2, submitted := 1, published := 1, handedOut := 1, released := 2 } := by
  intro t r payload
  have ht : t ∈ r.registered := by decide
  obtain ⟨hdue, hcounted, hafter, hregion, hheld⟩ :=
    handleFrame_exact Usage.relayed_reachable ht payload {}
  have hfull : r.Refuses .nil := ⟨rfl, _, rfl, by decide⟩
  have houtcome := (hdue.rejected_iff .nil).mpr ⟨⟨[3], rfl, by decide⟩, hfull⟩
  rw [houtcome] at hcounted hafter hregion hheld
  refine ⟨ht, _, _, rfl, hheld, ?_, ?_, ?_⟩
  · exact Prod.ext houtcome (Prod.ext hregion.symm hcounted)
  · rw [hregion, hafter]
    rfl
  · rw [hregion, hafter]
    rfl

end Ingress

end StreamRelay
