import StreamRelay.Proofs.Frame.Policies

/-!
# The grammar of frames

Which buffers decode to what, said of their bytes alone. A frame is found exactly where the buffer
starts with the encoding of a payload within the limit, a violation is a declared length beyond the
limit or, where bytes may not be carried over, bytes behind such a frame, and nothing can be said of
any other buffer.
-/

namespace StreamRelay.Frame

/-- The buffer is the encoding of a payload within the limit, followed by `rest`. -/
structure StartsWith (max : Nat) (buffer payload rest : Bytes) : Prop where
  within : payload.length ≤ max
  encoded : ∃ front, encode payload = .ok front ∧ buffer = front ++ rest

def Declares (buffer : Bytes) (length : Nat) : Prop :=
  ∃ lo hi body, buffer = lo :: hi :: body ∧ length = lo.toNat + 256 * hi.toNat

theorem encode_eq_ok {payload front : Bytes} :
    encode payload = .ok front ↔ payload.length ≤ wireMaxPayload ∧ front = wire payload := by
  unfold encode
  split
  · rename_i h
    simp [Nat.not_le.mpr h]
  · rename_i h
    simp [Nat.not_lt.mp h, eq_comm]

variable {max : Nat} {trailing : Trailing} {buffer payload rest : Bytes} {n : Nat}

theorem startsWith_iff : StartsWith max buffer payload rest ↔
    payload.length ≤ max ∧ payload.length ≤ wireMaxPayload ∧ buffer = wire payload ++ rest := by
  constructor
  · rintro ⟨hm, front, hfront, hbuffer⟩
    obtain ⟨hw, rfl⟩ := encode_eq_ok.mp hfront
    exact ⟨hm, hw, hbuffer⟩
  · rintro ⟨hm, hw, hbuffer⟩
    exact ⟨hm, wire payload, encode_eq_ok.mpr ⟨hw, rfl⟩, hbuffer⟩

theorem declares_iff : Declares buffer n ↔ announced? buffer = some n := by
  constructor
  · rintro ⟨lo, hi, body, rfl, rfl⟩
    rfl
  · intro h
    match buffer, h with
    | lo :: hi :: body, h => exact ⟨lo, hi, body, rfl, (Option.some.inj h).symm⟩

/-- What decoding answers, by the grammar: a frame and the bytes behind it, a violation, or nothing
while neither is decided. -/
inductive Decodes (max : Nat) (trailing : Trailing) (buffer : Bytes) :
    Except Error (Option (Frame × Bytes)) → Prop
  | frame {payload rest : Bytes} (h : StartsWith max buffer payload rest)
    (hrest : rest = [] ∨ trailing = .carryOver) :
    Decodes max trailing buffer (.ok (some (⟨payload⟩, rest)))
  | tooLarge {n : Nat} (hn : Declares buffer n) (hlt : max < n) :
    Decodes max trailing buffer (.error (.payloadTooLarge n max))
  | trailing {payload surplus : Bytes} (h : StartsWith max buffer payload surplus)
    (hsurplus : surplus ≠ []) (hreject : trailing = .reject) :
    Decodes max trailing buffer
      (.error (.trailingBytes payload.length (payload.length + surplus.length)))
  | incomplete (h : ∀ payload rest, ¬ StartsWith max buffer payload rest)
    (hn : ∀ n, Declares buffer n → n ≤ max) : Decodes max trailing buffer (.ok none)

theorem decode_carryOver_iff {f : Frame} :
    decode max .carryOver buffer = .ok (some (f, rest)) ↔ StartsWith max buffer f.payload rest := by
  constructor
  · intro h
    obtain ⟨hbuffer, hm, hw⟩ := decode_eq_frame h
    exact startsWith_iff.mpr ⟨hm, hw, hbuffer⟩
  · intro h
    obtain ⟨hm, hw, rfl⟩ := startsWith_iff.mp h
    exact decode_wire hm hw rest

theorem StartsWith.decode_carryOver (h : StartsWith max buffer payload rest) :
    decode max .carryOver buffer = .ok (some (⟨payload⟩, rest)) :=
  decode_carryOver_iff.mpr h

/-- Where bytes are refused, a frame has to be all there is. -/
theorem StartsWith.decode_reject (h : StartsWith max buffer payload rest) :
    decode max .reject buffer =
      if rest = [] then .ok (some (⟨payload⟩, []))
      else .error (.trailingBytes payload.length (payload.length + rest.length)) := by
  obtain ⟨_, _, hbuffer⟩ := startsWith_iff.mp h
  have hreceived : buffer.length - headerSize = payload.length + rest.length := by
    rw [hbuffer, List.length_append, length_wire]
    omega
  rw [Frame.decode_reject, h.decode_carryOver, ← hreceived]

theorem decode_of_incomplete_front (h : ∀ payload rest, ¬ StartsWith max buffer payload rest)
    (hn : ∀ n, Declares buffer n → n ≤ max) : decode max trailing buffer = .ok none := by
  have hcarry : decode max .carryOver buffer = .ok none := by
    cases hd : decode max .carryOver buffer with
    | error e =>
      obtain ⟨n, hdeclared, hm, _⟩ := decode_eq_error hd
      exact absurd (hn n (declares_iff.mpr hdeclared)) (Nat.not_le.mpr hm)
    | ok found =>
      cases found with
      | none => rfl
      | some p => exact absurd (decode_carryOver_iff.mp hd) (h _ _)
  cases trailing with
  | carryOver => exact hcarry
  | reject => rw [Frame.decode_reject, hcarry]

theorem Decodes.decode_eq {a : Except Error (Option (Frame × Bytes))}
    (h : Decodes max trailing buffer a) : decode max trailing buffer = a := by
  cases h with
  | frame h hrest =>
    cases trailing with
    | carryOver => exact h.decode_carryOver
    | reject =>
      obtain rfl := hrest.resolve_right (by simp)
      rw [h.decode_reject, if_pos rfl]
  | tooLarge hn hlt => exact decode_tooLarge trailing (declares_iff.mp hn) hlt
  | trailing h hsurplus hreject => rw [hreject, h.decode_reject, if_neg hsurplus]
  | incomplete h hn => exact decode_of_incomplete_front h hn

/-- Every buffer has an answer in the grammar. -/
theorem exists_decodes (max : Nat) (trailing : Trailing) (buffer : Bytes) :
    ∃ a, Decodes max trailing buffer a := by
  by_cases hn : ∃ n, Declares buffer n ∧ max < n
  · obtain ⟨n, hdeclared, hlt⟩ := hn
    exact ⟨_, .tooLarge hdeclared hlt⟩
  have hn : ∀ n, Declares buffer n → n ≤ max := by
    intro n hdeclared
    exact Nat.not_lt.mp fun hlt => hn ⟨n, hdeclared, hlt⟩
  by_cases hs : ∃ payload rest, StartsWith max buffer payload rest
  · obtain ⟨payload, rest, hs⟩ := hs
    by_cases hrest : rest = [] ∨ trailing = .carryOver
    · exact ⟨_, .frame hs hrest⟩
    · obtain ⟨hsurplus, hreject⟩ := not_or.mp hrest
      have hreject : trailing = .reject := by
        cases trailing with
        | reject => rfl
        | carryOver => contradiction
      exact ⟨_, .trailing hs hsurplus hreject⟩
  · exact ⟨_, .incomplete (fun payload rest h => hs ⟨payload, rest, h⟩) hn⟩

theorem decode_decodes (max : Nat) (trailing : Trailing) (buffer : Bytes) :
    Decodes max trailing buffer (decode max trailing buffer) := by
  obtain ⟨a, h⟩ := exists_decodes max trailing buffer
  rw [h.decode_eq]
  exact h

theorem decode_eq_iff {a : Except Error (Option (Frame × Bytes))} :
    decode max trailing buffer = a ↔ Decodes max trailing buffer a := by
  constructor
  · rintro rfl
    exact decode_decodes max trailing buffer
  · exact Decodes.decode_eq

theorem decode_eq_frame_iff {f : Frame} :
    decode max trailing buffer = .ok (some (f, rest)) ↔
      StartsWith max buffer f.payload rest ∧ (rest = [] ∨ trailing = .carryOver) := by
  rw [decode_eq_iff]
  constructor
  · intro h
    cases h with
    | frame h hrest => exact ⟨h, hrest⟩
  · rintro ⟨h, hrest⟩
    exact .frame h hrest

theorem decode_eq_payloadTooLarge_iff {limit : Nat} :
    decode max trailing buffer = .error (.payloadTooLarge n limit) ↔
      Declares buffer n ∧ max < n ∧ limit = max := by
  rw [decode_eq_iff]
  constructor
  · intro h
    cases h with
    | tooLarge hn hlt => exact ⟨hn, hlt, rfl⟩
  · rintro ⟨hn, hlt, rfl⟩
    exact .tooLarge hn hlt

theorem decode_eq_trailingBytes_iff {expected received : Nat} :
    decode max trailing buffer = .error (.trailingBytes expected received) ↔
      trailing = .reject ∧ ∃ payload surplus, StartsWith max buffer payload surplus ∧
        surplus ≠ [] ∧ expected = payload.length ∧ received = payload.length + surplus.length := by
  rw [decode_eq_iff]
  constructor
  · intro h
    cases h with
    | trailing h hsurplus hreject => exact ⟨hreject, _, _, h, hsurplus, rfl, rfl⟩
  · rintro ⟨hreject, payload, surplus, h, hsurplus, rfl, rfl⟩
    exact .trailing h hsurplus hreject

theorem decode_eq_none_iff :
    decode max trailing buffer = .ok none ↔
      (∀ payload rest, ¬ StartsWith max buffer payload rest) ∧
        ∀ n, Declares buffer n → n ≤ max := by
  rw [decode_eq_iff]
  constructor
  · intro h
    cases h with
    | incomplete h hn => exact ⟨h, hn⟩
  · rintro ⟨h, hn⟩
    exact .incomplete h hn

namespace Reader

variable {r : Reader}

theorem decodeBuffered_of_frame {f : Frame}
    (h : decode r.config.maxPayload r.config.trailing r.buffer = .ok (some (f, rest))) :
    r.decodeBuffered = (.ok (some f), { r with buffer := rest }) := by
  simp only [decodeBuffered, h]

theorem decodeBuffered_of_ne
    (h : ∀ f rest, decode r.config.maxPayload r.config.trailing r.buffer ≠ .ok (some (f, rest))) :
    r.decodeBuffered.2 = r := by
  unfold decodeBuffered
  split
  · rfl
  · rfl
  · rename_i f rest hd
    exact absurd hd (h f rest)

end Reader

/-- Decoding accepts the frames of the grammar and undoes their encoding, and each other answer has
its own condition on the bytes. A buffer changes only by a frame that is cut off; where bytes are
carried over, what has been decided stays decided when more bytes arrive behind. -/
theorem decode_exact (max : Nat) (trailing : Trailing) (buffer : Bytes) :
    (∀ f rest, decode max trailing buffer = .ok (some (f, rest)) ↔
      StartsWith max buffer f.payload rest ∧ (rest = [] ∨ trailing = .carryOver)) ∧
    (∀ size limit, decode max trailing buffer = .error (.payloadTooLarge size limit) ↔
      Declares buffer size ∧ max < size ∧ limit = max) ∧
    (∀ expected received,
      decode max trailing buffer = .error (.trailingBytes expected received) ↔
        trailing = .reject ∧ ∃ payload surplus, StartsWith max buffer payload surplus ∧
          surplus ≠ [] ∧ expected = payload.length ∧
          received = payload.length + surplus.length) ∧
    (decode max trailing buffer = .ok none ↔
      (∀ payload rest, ¬ StartsWith max buffer payload rest) ∧
        ∀ size, Declares buffer size → size ≤ max) ∧
    (∀ config : Config,
      let r : Reader := ⟨{ config with maxPayload := max, trailing := trailing }, buffer⟩
      (∀ f rest, decode max trailing buffer = .ok (some (f, rest)) →
        r.decodeBuffered = (.ok (some f), { r with buffer := rest })) ∧
      ((∀ f rest, decode max trailing buffer ≠ .ok (some (f, rest))) →
        r.decodeBuffered.2 = r)) ∧
    ∀ more,
      (∀ e, decode max .carryOver buffer = .error e →
        decode max .carryOver (buffer ++ more) = .error e) ∧
      ∀ f rest, decode max .carryOver buffer = .ok (some (f, rest)) →
        decode max .carryOver (buffer ++ more) = .ok (some (f, rest ++ more)) := by
  refine ⟨fun f rest => decode_eq_frame_iff, fun size limit => decode_eq_payloadTooLarge_iff,
    fun expected received => decode_eq_trailingBytes_iff, decode_eq_none_iff, ?_, ?_⟩
  · intro config r
    refine ⟨?_, ?_⟩
    · intro f rest h
      exact Reader.decodeBuffered_of_frame h
    · intro h
      exact Reader.decodeBuffered_of_ne h
  · intro more
    exact ⟨fun e h => decode_append_error h more, fun f rest h => decode_append_frame h more⟩

example : decode 1 .carryOver [1, 0, 7, 9] = .ok (some (⟨[7]⟩, [9])) ∧
    decode 1 .reject [1, 0, 7, 9] = .error (.trailingBytes 1 2) ∧
    decode 0 .reject [1, 0] = .error (.payloadTooLarge 1 0) ∧ decode 1 .reject [1, 0] = .ok none :=
  ⟨rfl, rfl, rfl, rfl⟩

end StreamRelay.Frame
