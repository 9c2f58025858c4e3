import StreamRelay.Proofs.Region.Rings

/-!
# What an operation can do

One statement for each operation on a region: which answers it gives, under which conditions, and
what the region is after each of them. Nothing else opens the operations.
-/

namespace StreamRelay

theorem StreamId.eq_of_bytes {a b : StreamId} (h : a.bytes = b.bytes) : a = b := by
  cases a
  cases b
  cases h
  rfl

namespace Envelope

@[simp] theorem length_encode (b : Envelope) :
    b.encode.length = StreamId.size + b.body.length := by
  rw [encode, List.length_append, b.stream.length_eq, StreamId.size]

/-- A message holds at least the id of its stream, so it is never empty. -/
theorem exists_length_encode (b : Envelope) : ∃ n, b.encode.length = n + 1 := by
  rw [length_encode, StreamId.size, Nat.add_comm]
  exact ⟨_, rfl⟩

/-- A message starts with the id of its stream and with no other one. -/
theorem bytes_prefix_encode_iff {id : StreamId} {b : Envelope} :
    id.bytes <+: b.encode ↔ b.stream = id := by
  constructor
  · intro h
    have hlength : id.bytes.length = b.stream.bytes.length := by
      rw [id.length_eq, b.stream.length_eq]
    have hfront := List.prefix_of_prefix_length_le h (List.prefix_append _ b.body) hlength.le
    exact (StreamId.eq_of_bytes (hfront.eq_of_length hlength)).symm
  · rintro rfl
    exact List.prefix_append _ _

theorem split?_eq_some {raw : Bytes} {b : Buffer} (h : split? raw = some b) :
    raw = b.encode ∧ b.body = raw.drop StreamId.size := by
  unfold split? StreamId.ofPrefix? at h
  split at h
  · cases h
    exact ⟨(List.take_append_drop 16 raw).symm, rfl⟩
  · contradiction

theorem split?_eq_none {raw : Bytes} (h : split? raw = none) : raw.length < StreamId.size := by
  unfold split? StreamId.ofPrefix? at h
  split at h
  · contradiction
  · rename_i hshort
    exact Nat.not_le.mp hshort

end Envelope

namespace Region

theorem checkRegistered_of_mem {r : Region} {t : Thread} (h : t ∈ r.registered) :
    r.checkRegistered t = .ok () := if_pos h

theorem checkRegistered_of_not_mem {r : Region} {t : Thread} (h : t ∉ r.registered) :
    r.checkRegistered t = .error (.threadNotRegistered t.name) := if_neg h

theorem mem_register {r : Region} {t other : Thread} :
    other ∈ (r.register t).registered ↔ other = t ∨ other ∈ r.registered := by
  unfold register
  dsimp only
  split
  · rename_i ht
    constructor
    · exact .inr
    · rintro (rfl | h)
      · exact ht
      · exact h
  · exact List.mem_cons

theorem mem_unregister {r : Region} {t other : Thread} :
    other ∈ (r.unregister t).registered ↔ other ∈ r.registered ∧ other ≠ t := by
  rw [unregister, List.mem_filter, decide_eq_true_eq]

theorem checkFits_of_le {r : Region} {size : Nat} (h : size ≤ r.config.slotSize) :
    r.checkFits size = .ok () := if_neg (Nat.not_lt.mpr h)

theorem checkFits_of_lt {r : Region} {size : Nat} (h : r.config.slotSize < size) :
    r.checkFits size = .error (.bufferOverflow size r.config.slotSize) := if_pos h

/-- A region made from a configuration is empty, and it has slots. -/
theorem ofConfig_eq_ok {c : Config} {r : Region} (h : ofConfig c = .ok r) :
    r = { config := c } ∧ 0 < c.slotSize ∧ 0 < c.totalSlots := by
  unfold ofConfig at h
  split at h
  · contradiction
  · split at h
    · contradiction
    · rename_i hs
      split at h
      · contradiction
      · rename_i ht
        cases h
        exact ⟨rfl, Nat.pos_of_ne_zero hs, Nat.pos_of_ne_zero ht⟩

theorem createWith_cases (r : Region) (c : Channel) (capacity : Nat) :
    (∃ e, r.createWith c capacity = some (.error e, r)) ∨ r.createWith c capacity = none ∨
    (0 < capacity ∧ r.ring? c = none ∧ capacity ≤ r.available ∧
      r.createWith c capacity = some (.ok (), { r with
        rings := insertRing ⟨c, capacity, []⟩ r.rings, reserved := r.reserved + capacity })) := by
  by_cases hn : capacity = 0
  · exact .inl ⟨_, by rw [createWith, if_pos hn]⟩
  by_cases hc : (r.ring? c).isSome
  · exact .inl ⟨_, by rw [createWith, if_neg hn, if_pos hc]⟩
  by_cases ha : r.available < capacity
  · exact .inl ⟨_, by rw [createWith, if_neg hn, if_neg hc, if_pos ha]⟩
  by_cases hm : maxRingCapacity < capacity
  · exact .inr (.inl (by rw [createWith, if_neg hn, if_neg hc, if_neg ha, if_pos hm]))
  · refine .inr (.inr ⟨Nat.pos_of_ne_zero hn, ?_, Nat.not_lt.mp ha, ?_⟩)
    · simpa using hc
    · rw [createWith, if_neg hn, if_neg hc, if_neg ha, if_neg hm]

theorem link_cases (r : Region) (source target : StreamId) :
    (∃ e, r.link source target = (.error e, r)) ∨
    ((r.ring? ⟨source, .input⟩).isSome ∧ (r.ring? ⟨target, .output⟩).isSome ∧
      r.link source target = (.ok (), { r with
        links := (source, target) :: r.links.filter (·.1 ≠ source) })) := by
  unfold link findRing
  cases hs : r.ring? ⟨source, .input⟩ with
  | none => exact .inl ⟨_, rfl⟩
  | some _ =>
    cases ht : r.ring? ⟨target, .output⟩ with
    | none => exact .inl ⟨_, rfl⟩
    | some _ => exact .inr ⟨rfl, rfl, rfl⟩

theorem findChannel_cases (r : Region) (t : Thread) (c : Channel) :
    (t ∉ r.registered ∧ r.findChannel t c = .error (.threadNotRegistered t.name)) ∨
    (t ∈ r.registered ∧ r.ring? c = none ∧ r.findChannel t c = .error (.channelNotFound c)) ∨
    (t ∈ r.registered ∧ (r.ring? c).isSome ∧ r.findChannel t c = .ok c) := by
  by_cases ht : t ∈ r.registered
  · cases hr : r.ring? c with
    | none =>
      refine .inr (.inl ⟨ht, rfl, ?_⟩)
      rw [findChannel, checkRegistered_of_mem ht, findRing_eq_error.mpr ⟨hr, rfl⟩]
      rfl
    | some ring =>
      refine .inr (.inr ⟨ht, rfl, ?_⟩)
      rw [findChannel, checkRegistered_of_mem ht, findRing_eq_ok.mpr hr, ← ring?_channel hr]
      rfl
  · refine .inl ⟨ht, ?_⟩
    rw [findChannel, checkRegistered_of_not_mem ht]
    rfl

theorem publish_cases (r : Region) (t : Thread) (stream : StreamId) (body : Bytes) :
    (∃ e, (∀ s n, e ≠ .ringFull s n) ∧ r.publish t stream body = (.error e, r)) ∨
    (∃ ring, r.ring? ⟨stream, .output⟩ = some ring ∧ ring.capacity ≤ ring.parked.length ∧
      r.publish t stream body =
        (.error (.ringFull stream ring.capacity), r.record .released)) ∨
    (∃ ring, t ∈ r.registered ∧ body.length ≤ r.config.slotSize ∧
      r.ring? ⟨stream, .output⟩ = some ring ∧ ring.parked.length < ring.capacity ∧
      r.publish t stream body =
        (.ok (), (r.setRing (ring.park ⟨stream, body⟩)).record .published)) := by
  unfold publish
  by_cases ht : t ∈ r.registered
  · rw [checkRegistered_of_mem ht]
    by_cases hb : body.length ≤ r.config.slotSize
    · rw [checkFits_of_le hb]
      cases hr : r.ring? ⟨stream, .output⟩ with
      | none =>
        rw [findRing_eq_error.mpr ⟨hr, rfl⟩]
        exact .inl ⟨_, by simp, rfl⟩
      | some ring =>
        rw [findRing_eq_ok.mpr hr]
        by_cases hroom : ring.parked.length < ring.capacity
        · refine .inr (.inr ⟨ring, ht, hb, rfl, hroom, ?_⟩)
          simp [bind, Except.bind, Ring.push?_of_room hroom]
        · have hfull := Nat.not_lt.mp hroom
          refine .inr (.inl ⟨ring, rfl, hfull, ?_⟩)
          simp [bind, Except.bind, Ring.push?_of_full hfull]
    · rw [checkFits_of_lt (Nat.not_le.mp hb)]
      exact .inl ⟨_, by simp, rfl⟩
  · rw [checkRegistered_of_not_mem ht]
    exact .inl ⟨_, by simp, rfl⟩

theorem takeInput_cases (r : Region) (t : Thread) (stream : StreamId) :
    (∃ e, r.takeInput t stream = (.error e, r)) ∨
    r.takeInput t stream = (.ok none, r) ∨
    (∃ ring b rest, t ∈ r.registered ∧ r.ring? ⟨stream, .input⟩ = some ring ∧
      ring.parked = b :: rest ∧ r.takeInput t stream =
        (.ok (some b.body), (r.setRing (ring.without 1)).record .consumed)) := by
  unfold takeInput
  by_cases ht : t ∈ r.registered
  · rw [checkRegistered_of_mem ht]
    cases hr : r.ring? ⟨stream, .input⟩ with
    | none =>
      rw [findRing_eq_error.mpr ⟨hr, rfl⟩]
      exact .inl ⟨_, rfl⟩
    | some ring =>
      rw [findRing_eq_ok.mpr hr]
      cases hp : ring.parked with
      | nil =>
        refine .inr (.inl ?_)
        simp [bind, Except.bind, hp]
      | cons b rest =>
        refine .inr (.inr ⟨ring, b, rest, ht, rfl, hp, ?_⟩)
        simp [bind, Except.bind, hp, Ring.without]
  · rw [checkRegistered_of_not_mem ht]
    exact .inl ⟨_, rfl⟩

theorem deserialize_cases (r : Region) (t : Thread) (raw : Bytes) :
    (∃ e, (t ∈ r.registered → ∀ b, Envelope.split? raw = some b →
        r.config.slotSize < b.body.length) ∧ r.deserialize t raw = (.error e, r)) ∨
    (∃ b, t ∈ r.registered ∧ Envelope.split? raw = some b ∧
      b.body.length ≤ r.config.slotSize ∧
      r.deserialize t raw = (.ok b, r.record .acquired)) := by
  unfold deserialize split
  by_cases ht : t ∈ r.registered
  · rw [checkRegistered_of_mem ht]
    cases hs : Envelope.split? raw with
    | none => exact .inl ⟨_, by simp, rfl⟩
    | some b =>
      by_cases hb : b.body.length ≤ r.config.slotSize
      · refine .inr ⟨b, ht, rfl, hb, ?_⟩
        simp [bind, Except.bind, checkFits_of_le hb, pure, Except.pure]
      · refine .inl ⟨.bufferOverflow b.body.length r.config.slotSize, ?_, ?_⟩
        · intro _ b' h
          cases h
          exact Nat.not_le.mp hb
        · simp [bind, Except.bind, checkFits_of_lt (Nat.not_le.mp hb)]
  · rw [checkRegistered_of_not_mem ht]
    exact .inl ⟨_, fun h => absurd h ht, rfl⟩

theorem submit_cases (r : Region) (t : Thread) (c : Channel) (b : Buffer) :
    (t ∉ r.registered ∧
      r.submit t c b = (.error (.threadNotRegistered t.name), r.record .released)) ∨
    (t ∈ r.registered ∧ r.ring? (r.target c) = none ∧
      r.submit t c b = (.error (.channelNotFound (r.target c)), r.record .released)) ∨
    (∃ ring, t ∈ r.registered ∧ r.ring? (r.target c) = some ring ∧
      ring.capacity ≤ ring.parked.length ∧ r.submit t c b =
        (.error (.ringFull (r.target c).stream ring.capacity), r.record .released)) ∨
    (∃ ring, t ∈ r.registered ∧ r.ring? (r.target c) = some ring ∧
      ring.parked.length < ring.capacity ∧
      r.submit t c b = (.ok (), (r.setRing (ring.park b)).record .submitted)) := by
  unfold submit
  by_cases ht : t ∈ r.registered
  · rw [checkRegistered_of_mem ht]
    cases hr : r.ring? (r.target c) with
    | none =>
      rw [findRing_eq_error.mpr ⟨hr, rfl⟩]
      exact .inr (.inl ⟨ht, rfl, rfl⟩)
    | some ring =>
      rw [findRing_eq_ok.mpr hr]
      by_cases hroom : ring.parked.length < ring.capacity
      · refine .inr (.inr (.inr ⟨ring, ht, rfl, hroom, ?_⟩))
        simp [bind, Except.bind, Ring.push?_of_room hroom]
      · have hfull := Nat.not_lt.mp hroom
        have hc := ring?_channel hr
        refine .inr (.inr (.inl ⟨ring, ht, rfl, hfull, ?_⟩))
        simp [bind, Except.bind, Ring.push?_of_full hfull, hc]
  · rw [checkRegistered_of_not_mem ht]
    exact .inl ⟨ht, rfl⟩

theorem handOut_cases (r : Region) (c : Channel) (max : Nat) :
    r.handOut c max = ([], r) ∨
    (∃ ring, r.ring? c = some ring ∧ r.handOut c max = (ring.parked.take max,
      (r.setRing (ring.without max)).record .handedOut (ring.parked.take max).length)) := by
  unfold handOut
  cases hr : r.ring? c with
  | none => exact .inl rfl
  | some ring => exact .inr ⟨ring, rfl, rfl⟩

/-- The oldest buffers of the ring are handed out. -/
theorem handOut_fst (r : Region) (c : Channel) (max : Nat) :
    (r.handOut c max).1 = (r.parkedAt c).take max := by
  unfold handOut parkedAt
  cases r.ring? c <;> simp

/-- They are no longer parked, and all others stay where they are. -/
theorem parkedAt_handOut (r : Region) (c other : Channel) (max : Nat) :
    (r.handOut c max).2.parkedAt other =
      if c = other then (r.parkedAt c).drop max else r.parkedAt other := by
  rcases handOut_cases r c max with h | ⟨ring, hr, h⟩
  · have hempty : (r.parkedAt c).take max = [] := by
      rw [← handOut_fst, h]
    split
    · rename_i hc
      rw [h, ← hc, ← List.nil_append ((r.parkedAt c).drop max), ← hempty, List.take_append_drop]
    · rw [h]
  · have hc : (ring.without max).channel = c := (ring.without_channel max).trans (ring?_channel hr)
    rw [h, record_parkedAt]
    split
    · rename_i ho
      rw [← ho, parkedAt_setRing_self hr hc, parkedAt_of_ring? hr, Ring.without_parked]
    · rename_i ho
      rw [parkedAt_setRing_of_ne (hc ▸ ho)]

/-- A turn enters what it hands out, and changes nothing but rings. -/
theorem handOut_snd (r : Region) (c : Channel) (max : Nat) :
    ∃ rings, (r.handOut c max).2 =
        { r with rings, ledger := r.ledger.record .handedOut ((r.parkedAt c).take max).length } ∧
      rings.map (·.channel) = r.rings.map (·.channel) := by
  rcases handOut_cases r c max with h | ⟨ring, hr, h⟩
  · have hempty : (r.parkedAt c).take max = [] := by
      rw [← handOut_fst, h]
    refine ⟨r.rings, ?_, rfl⟩
    rw [h, hempty]
    rfl
  · refine ⟨(r.setRing (ring.without max)).rings, ?_, map_channel_setRing _ _⟩
    rw [h, parkedAt_of_ring? hr]
    rfl

structure Steady (r r' : Region) : Prop where
  registered_eq : r'.registered = r.registered
  leaked_eq : r'.ledger.leaked = r.ledger.leaked

namespace Steady

theorem refl (r : Region) : Steady r r := ⟨rfl, rfl⟩

theorem link (r : Region) (source target : StreamId) : Steady r (r.link source target).2 := by
  rcases link_cases r source target with ⟨e, h⟩ | ⟨_, _, h⟩
  · rw [h]
    exact .refl r
  · rw [h]
    exact ⟨rfl, rfl⟩

theorem publish (r : Region) (t : Thread) (stream : StreamId) (body : Bytes) :
    Steady r (r.publish t stream body).2 := by
  rcases publish_cases r t stream body with ⟨e, _, h⟩ | ⟨_, _, _, h⟩ | ⟨_, _, _, _, _, h⟩
  · rw [h]
    exact .refl r
  · rw [h]
    exact ⟨rfl, rfl⟩
  · rw [h]
    exact ⟨rfl, rfl⟩

theorem takeInput (r : Region) (t : Thread) (stream : StreamId) :
    Steady r (r.takeInput t stream).2 := by
  rcases takeInput_cases r t stream with ⟨e, h⟩ | h | ⟨_, _, _, _, _, _, h⟩
  · rw [h]
    exact .refl r
  · rw [h]
    exact .refl r
  · rw [h]
    exact ⟨rfl, rfl⟩

theorem deserialize (r : Region) (t : Thread) (raw : Bytes) :
    Steady r (r.deserialize t raw).2 := by
  rcases deserialize_cases r t raw with ⟨e, _, h⟩ | ⟨_, _, _, _, h⟩
  · rw [h]
    exact .refl r
  · rw [h]
    exact ⟨rfl, rfl⟩

theorem submit (r : Region) (t : Thread) (c : Channel) (b : Buffer) :
    Steady r (r.submit t c b).2 := by
  rcases submit_cases r t c b with ⟨_, h⟩ | ⟨_, _, h⟩ | ⟨_, _, _, _, h⟩ | ⟨_, _, _, _, h⟩ <;>
  · rw [h]
    exact ⟨rfl, rfl⟩

theorem handOut (r : Region) (c : Channel) (max : Nat) : Steady r (r.handOut c max).2 := by
  obtain ⟨rings, h, _⟩ := handOut_snd r c max
  rw [h]
  exact ⟨rfl, rfl⟩

end Steady

end Region

end StreamRelay
