import StreamRelay.Proofs.Frame.Decode

/-!
# Parsing a whole byte string

What frames a byte string holds, and which error what follows them is, said of all its bytes at once.
Parsing goes one frame at a time, and each step is what decoding says of the front: it cuts off as
many admissible frames as there are, and judges the bytes that are left.
-/

namespace StreamRelay.Frame

theorem length_drop_lt (lo hi : UInt8) (body : Bytes) (n : Nat) :
    (body.drop n).length < (lo :: hi :: body).length := by
  rw [List.length_drop, List.length_cons, List.length_cons]
  omega

/-- The frames at the front of a byte string, up to the first header that announces too much or the
first incomplete frame, and the error for what follows them. -/
def parse (max : Nat) : Bytes → List Frame × Error
  | [] => ([], .connectionClosed)
  | [_] => ([], .truncated 1)
  | lo :: hi :: body =>
    let length := lo.toNat + 256 * hi.toNat
    if max < length then ([], .payloadTooLarge length max)
    else if body.length < length then ([], .truncated (headerSize + body.length))
    else
      let rest := parse max (body.drop length)
      (⟨body.take length⟩ :: rest.1, rest.2)
termination_by whole => whole.length
decreasing_by exact length_drop_lt lo hi body length

def verdict (max : Nat) (left : Bytes) : Error :=
  match announced? left with
  | some length => if max < length then .payloadTooLarge length max else .truncated left.length
  | none => if left = [] then .connectionClosed else .truncated left.length

/-- A byte string cut into admissible frames, as many as there are at its front, and what is left.
-/
structure Cut (max : Nat) (whole : Bytes) (frames : List Frame) (left : Bytes) : Prop where
  whole_eq : whole = frames.flatMap (fun f => wire f.payload) ++ left
  admissible : ∀ f ∈ frames, f.payload.length ≤ max ∧ f.payload.length ≤ wireMaxPayload
  maximal : ∀ payload rest, payload.length ≤ max → payload.length ≤ wireMaxPayload →
    left ≠ wire payload ++ rest

theorem parse_of_frame {max : Nat} {whole rest : Bytes} {f : Frame}
    (h : decode max .carryOver whole = .ok (some (f, rest))) :
    parse max whole = (f :: (parse max rest).1, (parse max rest).2) := by
  match whole with
  | [] => simp [decode, announced?] at h
  | [_] => simp [decode, announced?] at h
  | lo :: hi :: body =>
    simp only [decode, announced?, headerSize, List.drop_succ_cons, List.drop_zero,
      reduceCtorEq, and_false, ↓reduceIte] at h
    rw [parse]
    split at h
    · contradiction
    · rename_i hm
      split at h
      · simp at h
      · rename_i hl
        simp only [Except.ok.injEq, Option.some.injEq, Prod.mk.injEq] at h
        obtain ⟨rfl, rfl⟩ := h
        simp only [hm, hl, ↓reduceIte]

theorem parse_of_error {max : Nat} {whole : Bytes} {e : Error}
    (h : decode max .carryOver whole = .error e) : parse max whole = ([], e) := by
  obtain ⟨n, hn, hm, rfl⟩ := decode_eq_error h
  match whole, hn with
  | lo :: hi :: body, hn =>
    have hn : lo.toNat + 256 * hi.toNat = n := by simpa [announced?] using hn
    simp [parse, hn, hm]

theorem parse_of_incomplete {max : Nat} {whole : Bytes}
    (h : decode max .carryOver whole = .ok none) :
    parse max whole = ([], if whole.isEmpty then .connectionClosed else .truncated whole.length) := by
  match whole with
  | [] => simp [parse]
  | [_] => simp [parse]
  | lo :: hi :: body =>
    simp only [decode, announced?, headerSize, List.drop_succ_cons, List.drop_zero,
      reduceCtorEq, and_false, ↓reduceIte] at h
    split at h
    · contradiction
    · rename_i hm
      split at h
      · rename_i hl
        simp only [parse, hm, hl, headerSize, ↓reduceIte, List.isEmpty_cons, Bool.false_eq_true,
          List.length_cons, Prod.mk.injEq, true_and, Error.truncated.injEq]
        omega
      · simp at h

theorem verdict_of_error {max : Nat} {left : Bytes} {e : Error}
    (h : decode max .carryOver left = .error e) : verdict max left = e := by
  obtain ⟨n, hn, hm, rfl⟩ := decode_eq_error h
  simp [verdict, hn, hm]

theorem verdict_of_incomplete {max : Nat} {left : Bytes}
    (h : decode max .carryOver left = .ok none) :
    verdict max left = if left.isEmpty then .connectionClosed else .truncated left.length := by
  unfold verdict
  cases hn : announced? left with
  | none => simp
  | some n =>
    by_cases hm : max < n
    · rw [decode_tooLarge _ hn hm] at h
      contradiction
    · have hl : left ≠ [] := by
        rintro rfl
        simp [announced?] at hn
      simp [hm, hl]

theorem cut_nil {max : Nat} {left : Bytes}
    (h : ∀ f rest, decode max .carryOver left ≠ .ok (some (f, rest))) : Cut max left [] left where
  whole_eq := rfl
  admissible := by simp
  maximal payload rest hm hw he := h _ _ (he ▸ decode_wire hm hw rest)

theorem parse_of_uncut {max : Nat} {left : Bytes}
    (h : ∀ f rest, decode max .carryOver left ≠ .ok (some (f, rest))) :
    parse max left = ([], verdict max left) := by
  cases hd : decode max .carryOver left with
  | error e => rw [parse_of_error hd, verdict_of_error hd]
  | ok found =>
    cases found with
    | none => rw [parse_of_incomplete hd, verdict_of_incomplete hd]
    | some p => exact absurd hd (h p.1 p.2)

/-- Parsing cuts off as many frames as there are, and judges what is left. -/
theorem parse_cut (max : Nat) (whole : Bytes) :
    ∃ left, Cut max whole (parse max whole).1 left ∧ (parse max whole).2 = verdict max left := by
  -- each frame is cut off the front, and at least its header makes the rest shorter
  induction hn : whole.length using Nat.strongRecOn generalizing whole with
  | ind n ih =>
    by_cases hd : ∃ f rest, decode max .carryOver whole = .ok (some (f, rest))
    · obtain ⟨f, rest, hd⟩ := hd
      obtain ⟨hw, hf⟩ := decode_eq_frame hd
      have hlt : rest.length < n := by
        rw [← hn, hw, List.length_append, length_wire, headerSize]
        omega
      obtain ⟨left, hc, hv⟩ := ih _ hlt rest rfl
      rw [parse_of_frame hd]
      refine ⟨left, ⟨?_, ?_, hc.maximal⟩, hv⟩
      · rw [List.flatMap_cons, List.append_assoc, ← hc.whole_eq]
        exact hw
      · exact List.forall_mem_cons.mpr ⟨hf, hc.admissible⟩
    · have hd : ∀ f rest, decode max .carryOver whole ≠ .ok (some (f, rest)) :=
        fun f rest h => hd ⟨f, rest, h⟩
      rw [parse_of_uncut hd]
      exact ⟨whole, cut_nil hd, rfl⟩

namespace Cut

variable {max : Nat} {whole rest left : Bytes} {f : Frame} {frames : List Frame}

theorem decode_ne (h : Cut max whole [] left) (f : Frame) (rest : Bytes) :
    decode max .carryOver whole ≠ .ok (some (f, rest)) := by
  intro hd
  obtain ⟨hw, hm, hwire⟩ := decode_eq_frame hd
  have hleft : whole = left := h.whole_eq
  exact h.maximal _ _ hm hwire (hleft ▸ hw)

theorem tail (h : Cut max whole (f :: frames) left) :
    ∃ rest, decode max .carryOver whole = .ok (some (f, rest)) ∧ Cut max rest frames left := by
  obtain ⟨⟨hm, hw⟩, hrest⟩ := List.forall_mem_cons.mp h.admissible
  refine ⟨frames.flatMap (fun f => wire f.payload) ++ left, ?_, ⟨rfl, hrest, h.maximal⟩⟩
  rw [h.whole_eq, List.flatMap_cons, List.append_assoc]
  exact decode_wire hm hw _

theorem cons (hd : decode max .carryOver whole = .ok (some (f, rest)))
    (h : Cut max rest frames left) : Cut max whole (f :: frames) left := by
  obtain ⟨hwhole, hf⟩ := decode_eq_frame hd
  refine ⟨?_, List.forall_mem_cons.mpr ⟨hf, h.admissible⟩, h.maximal⟩
  rw [hwhole, h.whole_eq, List.flatMap_cons, List.append_assoc]

/-- There is one way to cut a byte string, which is that of parsing. -/
theorem parse_eq (h : Cut max whole frames left) : parse max whole = (frames, verdict max left) := by
  induction frames generalizing whole with
  | nil =>
    have hleft : whole = left := h.whole_eq
    rw [parse_of_uncut h.decode_ne, hleft]
  | cons f frames ih =>
    obtain ⟨rest, hd, hrest⟩ := h.tail
    rw [parse_of_frame hd, ih hrest]

end Cut

/-- Nothing but whole frames is cut without remainder. -/
theorem cut_frames {max : Nat} {frames : List Frame}
    (h : ∀ f ∈ frames, f.payload.length ≤ max ∧ f.payload.length ≤ wireMaxPayload) :
    Cut max (frames.flatMap fun f => wire f.payload) frames [] where
  whole_eq := (List.append_nil _).symm
  admissible := h
  maximal payload rest _ _ := by simp [wire, Bytes.ofUInt16]

end StreamRelay.Frame
