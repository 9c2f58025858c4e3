import StreamRelay.Frame

/-!
# Decoding and the wire form

The header announces exactly the lengths that two bytes can hold, and a frame is at the front of a
buffer exactly when the buffer starts with its wire form. Where bytes may be carried over, whatever
has been decided about a buffer stays decided when more bytes arrive behind it.
-/

namespace StreamRelay.Frame

theorem Error.not_isTimeout {e : Error} (h : e.isProtocolViolation = true) :
    e.isTimeout = false := by
  cases e <;> first | rfl | simp [isProtocolViolation] at h

@[simp] theorem length_ofUInt16 (n : Nat) : (Bytes.ofUInt16 n).length = headerSize := rfl

@[simp] theorem length_wire (payload : Bytes) :
    (wire payload).length = headerSize + payload.length := by
  simp [wire]

theorem announced?_ofUInt16 {n : Nat} (hn : n ≤ wireMaxPayload) (rest : Bytes) :
    announced? (Bytes.ofUInt16 n ++ rest) = some n := by
  have hlo : (UInt8.ofNat n).toNat = n % 256 := UInt8.toNat_ofNat'
  have hhi : (UInt8.ofNat (n / 256)).toNat = n / 256 % 256 := UInt8.toNat_ofNat'
  simp only [Bytes.ofUInt16, List.cons_append, List.nil_append, announced?, hlo, hhi,
    Option.some.injEq]
  unfold wireMaxPayload at hn
  omega

/-- An announced length is the number that the first two bytes spell. -/
theorem announced?_eq_some {buffer : Bytes} {n : Nat} (h : announced? buffer = some n) :
    n ≤ wireMaxPayload ∧ buffer = Bytes.ofUInt16 n ++ buffer.drop headerSize := by
  match buffer, h with
  | lo :: hi :: body, h =>
    have hn : lo.toNat + 256 * hi.toNat = n := by simpa [announced?] using h
    have hlo := lo.toNat_lt
    have hhi := hi.toNat_lt
    have hl : UInt8.ofNat n = lo := UInt8.toNat_inj.mp (by rw [UInt8.toNat_ofNat']; omega)
    have hh : UInt8.ofNat (n / 256) = hi := UInt8.toNat_inj.mp (by rw [UInt8.toNat_ofNat']; omega)
    refine ⟨?_, ?_⟩
    · unfold wireMaxPayload
      omega
    · simp [Bytes.ofUInt16, headerSize, hl, hh]

theorem announced?_append {buffer : Bytes} {n : Nat} (h : announced? buffer = some n)
    (more : Bytes) : announced? (buffer ++ more) = some n := by
  obtain ⟨hn, hb⟩ := announced?_eq_some h
  rw [hb, List.append_assoc]
  exact announced?_ofUInt16 hn _

section
variable {max : Nat}

theorem decode_eq_error {buffer : Bytes} {e : Error}
    (h : decode max .carryOver buffer = .error e) :
    ∃ n, announced? buffer = some n ∧ max < n ∧ e = .payloadTooLarge n max := by
  unfold decode at h
  cases hn : announced? buffer with
  | none => simp [hn] at h
  | some n =>
    simp only [hn] at h
    by_cases hm : max < n
    · simp only [hm, ↓reduceIte, Except.error.injEq] at h
      exact ⟨n, rfl, hm, h.symm⟩
    · simp only [hm, ↓reduceIte, reduceCtorEq, and_false] at h
      split at h <;> contradiction

/-- Decoding fails only where the peer broke the wire format. -/
theorem decode_error_isProtocolViolation {trailing : Trailing} {buffer : Bytes} {e : Error}
    (h : decode max trailing buffer = .error e) : e.isProtocolViolation = true := by
  unfold decode at h
  cases hn : announced? buffer with
  | none => simp [hn] at h
  | some n =>
    simp only [hn] at h
    split at h
    · cases h
      rfl
    · split at h
      · simp at h
      · split at h
        · cases h
          rfl
        · simp at h

theorem decode_tooLarge {buffer : Bytes} {n : Nat} (trailing : Trailing)
    (hn : announced? buffer = some n) (hm : max < n) :
    decode max trailing buffer = .error (.payloadTooLarge n max) := by
  simp [decode, hn, hm]

/-- The frame that is found, and what is left behind it, make up the buffer. -/
theorem decode_eq_frame {trailing : Trailing} {buffer rest : Bytes} {f : Frame}
    (h : decode max trailing buffer = .ok (some (f, rest))) :
    buffer = wire f.payload ++ rest ∧ f.payload.length ≤ max ∧
      f.payload.length ≤ wireMaxPayload := by
  unfold decode at h
  cases hn : announced? buffer with
  | none => simp [hn] at h
  | some n =>
    obtain ⟨hw, hb⟩ := announced?_eq_some hn
    simp only [hn] at h
    split at h
    · contradiction
    · rename_i hm
      split at h
      · simp at h
      · rename_i hl
        split at h
        · contradiction
        · simp only [Except.ok.injEq, Option.some.injEq, Prod.mk.injEq] at h
          obtain ⟨rfl, rfl⟩ := h
          have hlen : ((buffer.drop headerSize).take n).length = n := by
            rw [List.length_take]
            omega
          refine ⟨?_, by dsimp only; omega, by dsimp only; omega⟩
          simp only [wire, hlen, List.append_assoc, List.take_append_drop]
          exact hb

theorem decode_wire {payload : Bytes} (hm : payload.length ≤ max)
    (hw : payload.length ≤ wireMaxPayload) (rest : Bytes) :
    decode max .carryOver (wire payload ++ rest) = .ok (some (⟨payload⟩, rest)) := by
  have hn : announced? (wire payload ++ rest) = some payload.length := by
    rw [wire, List.append_assoc]
    exact announced?_ofUInt16 hw _
  have hd : (wire payload ++ rest).drop headerSize = payload ++ rest := by
    rw [wire, List.append_assoc]
    exact List.drop_left' (length_ofUInt16 _)
  have hl : ¬ (payload ++ rest).length < payload.length := by
    rw [List.length_append]
    omega
  simp only [decode, hn, hd, Nat.not_lt.mpr hm, hl, ↓reduceIte, reduceCtorEq, and_false,
    List.take_left', List.drop_left']

/-- The bytes of a frame tell where it ends. -/
theorem wire_append_inj {a b x y : Bytes} (ha : a.length ≤ wireMaxPayload)
    (hb : b.length ≤ wireMaxPayload) (h : wire a ++ x = wire b ++ y) : a = b ∧ x = y := by
  have hdecode := decode_wire ha ha x
  rw [h, decode_wire hb hb y] at hdecode
  simp only [Except.ok.injEq, Option.some.injEq, Prod.mk.injEq, Frame.mk.injEq] at hdecode
  exact ⟨hdecode.1.symm, hdecode.2.symm⟩

theorem decode_append_error {buffer : Bytes} {e : Error}
    (h : decode max .carryOver buffer = .error e) (more : Bytes) :
    decode max .carryOver (buffer ++ more) = .error e := by
  obtain ⟨n, hn, hm, rfl⟩ := decode_eq_error h
  exact decode_tooLarge _ (announced?_append hn more) hm

theorem decode_append_frame {buffer rest : Bytes} {f : Frame}
    (h : decode max .carryOver buffer = .ok (some (f, rest))) (more : Bytes) :
    decode max .carryOver (buffer ++ more) = .ok (some (f, rest ++ more)) := by
  obtain ⟨rfl, hm, hw⟩ := decode_eq_frame h
  rw [List.append_assoc]
  exact decode_wire hm hw _

end

end StreamRelay.Frame
