import StreamRelay.Proofs.Frame.Delivery

/-!
# Refusing and carrying over

A reader that refuses bytes behind a frame and one that carries them over go together as long as
every frame ends where a read ends. The first read that brings more ends the one of them, with the
bytes that it had gathered; the other goes on behind the same frames.
-/

namespace StreamRelay.Frame

variable {max : Nat} {buffer b : Bytes} {script : List ReadOutcome}

theorem decode_reject (max : Nat) (buffer : Bytes) :
    decode max .reject buffer =
      match decode max .carryOver buffer with
      | .error e => .error e
      | .ok none => .ok none
      | .ok (some (f, rest)) =>
        if rest = [] then .ok (some (f, []))
        else .error (.trailingBytes f.payload.length (buffer.length - headerSize)) := by
  have hbody : buffer.length - headerSize = (buffer.drop headerSize).length :=
    List.length_drop.symm
  rw [hbody]
  unfold decode
  cases hn : announced? buffer with
  | none => rfl
  | some n =>
    simp only [reduceCtorEq, and_false, and_true, ↓reduceIte]
    generalize buffer.drop headerSize = body
    by_cases hm : max < n
    · simp only [hm, ↓reduceIte]
    · by_cases hl : body.length < n
      · simp only [hm, hl, ↓reduceIte]
      · have htake : (body.take n).length = n := by
          rw [List.length_take]
          omega
        have hrest : body.drop n = [] ↔ ¬ n < body.length := by
          rw [List.drop_eq_nil_iff]
          omega
        by_cases hmore : n < body.length
        · simp only [hm, hl, hmore, hrest, htake, not_true_eq_false, ↓reduceIte]
        · simp only [hm, hl, hmore, hrest.mpr hmore, ↓reduceIte]

/-- Before the stream fails or ends, a read brings bytes beyond the end of the frame that is being
put together, and the length announced for this frame is within the limit. -/
def Oversteps (max : Nat) (buffered : Bytes) (script : List ReadOutcome) : Prop :=
  ∃ before b after frames left payload surplus,
    script = before ++ .bytes b :: after ∧
    (∀ o ∈ before, o.Passing) ∧
    Cut max (buffered ++ before.flatMap ReadOutcome.served) frames left ∧
    payload.length ≤ max ∧ payload.length ≤ wireMaxPayload ∧
    left ++ b = wire payload ++ surplus ∧ surplus ≠ []

theorem not_oversteps_nil : ¬ Oversteps max buffer [] := by
  rintro ⟨before, b, after, frames, left, payload, surplus, hscript, _⟩
  simp at hscript

theorem oversteps_failed {cause : SystemError} :
    Oversteps max buffer (.failed cause :: script) ↔
      ReadOutcome.Passing (.failed cause) ∧ Oversteps max buffer script := by
  constructor
  · rintro ⟨before, b, after, frames, left, payload, surplus, hscript, hpassing, hcut, hbeyond⟩
    cases before with
    | nil => simp at hscript
    | cons o before =>
      obtain ⟨rfl, htail⟩ := List.cons.inj hscript
      obtain ⟨ho, hbefore⟩ := List.forall_mem_cons.mp hpassing
      exact ⟨ho, before, b, after, frames, left, payload, surplus, htail, hbefore, hcut, hbeyond⟩
  · rintro ⟨ho, before, b, after, frames, left, payload, surplus, hscript, hbefore, hcut, hbeyond⟩
    refine ⟨.failed cause :: before, b, after, frames, left, payload, surplus, ?_, ?_, hcut,
      hbeyond⟩
    · rw [hscript, List.cons_append]
    · exact List.forall_mem_cons.mpr ⟨ho, hbefore⟩

theorem oversteps_bytes (hd : decode max .carryOver buffer = .ok none) :
    Oversteps max buffer (.bytes b :: script) ↔
      (∃ f rest, decode max .carryOver (buffer ++ b) = .ok (some (f, rest)) ∧ rest ≠ []) ∨
        b ≠ [] ∧ Oversteps max (buffer ++ b) script := by
  constructor
  · rintro ⟨before, b', after, frames, left, payload, surplus, hscript, hpassing, hcut, hm, hw,
      hbeyond, hsurplus⟩
    cases before with
    | nil =>
      -- nothing was complete before this read, so what is put together is the whole buffer
      obtain ⟨hb, _⟩ := List.cons.inj hscript
      cases hb
      rw [List.flatMap_nil, List.append_nil] at hcut
      cases frames with
      | cons f frames =>
        obtain ⟨rest, hframe, _⟩ := hcut.tail
        simp [hd] at hframe
      | nil =>
        have hleft : buffer = left := hcut.whole_eq
        left
        refine ⟨⟨payload⟩, surplus, ?_, hsurplus⟩
        rw [hleft, hbeyond]
        exact decode_wire hm hw surplus
    | cons o before =>
      obtain ⟨rfl, htail⟩ := List.cons.inj hscript
      obtain ⟨ho, hbefore⟩ := List.forall_mem_cons.mp hpassing
      right
      refine ⟨ho, before, b', after, frames, left, payload, surplus, htail, hbefore, ?_, hm, hw,
        hbeyond, hsurplus⟩
      rw [List.append_assoc]
      exact hcut
  · rintro (⟨f, rest, hframe, hrest⟩ | ⟨hb, before, b', after, frames, left, payload, surplus,
      hscript, hbefore, hcut, hbeyond⟩)
    · obtain ⟨hwhole, hm, hw⟩ := decode_eq_frame hframe
      have hcut : Cut max buffer [] buffer := cut_nil (by simp [hd])
      refine ⟨[], b, script, [], buffer, f.payload, rest, rfl, by simp, ?_, hm, hw, hwhole, hrest⟩
      rw [List.flatMap_nil, List.append_nil]
      exact hcut
    · refine ⟨.bytes b :: before, b', after, frames, left, payload, surplus, ?_, ?_, ?_, hbeyond⟩
      · rw [hscript, List.cons_append]
      · exact List.forall_mem_cons.mpr ⟨hb, hbefore⟩
      · rw [List.append_assoc] at hcut
        exact hcut

/-- No frame within the limit is put together behind a header beyond it. -/
theorem not_oversteps_of_error {e : Error} (hd : decode max .carryOver buffer = .error e) :
    ¬ Oversteps max buffer script := by
  rintro ⟨before, b, after, frames, left, payload, surplus, _, _, hcut, hm, hw, hbeyond, _⟩
  have herror := decode_append_error hd (before.flatMap ReadOutcome.served)
  cases frames with
  | cons f frames =>
    obtain ⟨rest, hframe, _⟩ := hcut.tail
    simp [herror] at hframe
  | nil =>
    have hleft : buffer ++ before.flatMap ReadOutcome.served = left := hcut.whole_eq
    have hbehind := decode_append_error (hleft ▸ herror) b
    rw [hbeyond, decode_wire hm hw] at hbehind
    contradiction

theorem oversteps_frame {f : Frame} {rest : Bytes}
    (hd : decode max .carryOver buffer = .ok (some (f, rest))) :
    Oversteps max buffer script ↔ Oversteps max rest script := by
  constructor
  · rintro ⟨before, b, after, frames, left, payload, surplus, hscript, hbefore, hcut, hbeyond⟩
    have hframe := decode_append_frame hd (before.flatMap ReadOutcome.served)
    cases frames with
    | nil => exact absurd hframe (hcut.decode_ne _ _)
    | cons f' frames =>
      obtain ⟨rest', hframe', hrest⟩ := hcut.tail
      rw [hframe] at hframe'
      simp only [Except.ok.injEq, Option.some.injEq, Prod.mk.injEq] at hframe'
      rw [← hframe'.2] at hrest
      exact ⟨before, b, after, frames, left, payload, surplus, hscript, hbefore, hrest, hbeyond⟩
  · rintro ⟨before, b, after, frames, left, payload, surplus, hscript, hbefore, hcut, hbeyond⟩
    exact ⟨before, b, after, f :: frames, left, payload, surplus, hscript, hbefore,
      hcut.cons (decode_append_frame hd _), hbeyond⟩

namespace Reader

def under (config : Config) (trailing : Trailing) (buffer : Bytes) : Reader :=
  ⟨{ config with trailing := trailing }, buffer⟩

def atEnd (r : Reader) (s : Source) : Reader :=
  match _h : r.poll s with
  | (.ok none, r', s') => atEnd r' s'
  | (.ok (some _), r', s') => atEnd r' s'
  | (.error e, r', s') => if _ht : e.isTimeout then atEnd r' s' else r'
termination_by r.work s
decreasing_by
  · exact poll_work_lt _h (by simp)
  · exact poll_work_lt _h (by simp)
  · exact poll_work_lt _h (by simp [_ht])

def Idle : Except Error (Option Frame) → Prop
  | .ok found => found = none
  | .error e => e.isTimeout = true

section
variable {r r' : Reader} {s s' : Source} {a : Except Error (Option Frame)} {f : Frame} {e : Error}

theorem pollAll_of_idle (h : r.poll s = (a, r', s')) (ha : Idle a) :
    r.pollAll s = r'.pollAll s' := by
  cases a with
  | ok found =>
    have hfound : found = none := ha
    subst hfound
    exact pollAll_of_none h
  | error e => exact pollAll_of_timeout h ha

theorem atEnd_of_idle (h : r.poll s = (a, r', s')) (ha : Idle a) : r.atEnd s = r'.atEnd s' := by
  rw [atEnd]
  cases a with
  | ok found =>
    have hfound : found = none := ha
    split <;> simp_all
  | error e =>
    have ht : e.isTimeout = true := ha
    split <;> simp_all

theorem atEnd_of_frame (h : r.poll s = (.ok (some f), r', s')) : r.atEnd s = r'.atEnd s' := by
  rw [atEnd]
  split <;> simp_all

theorem atEnd_of_final (h : r.poll s = (.error e, r', s')) (ht : ¬ e.isTimeout = true) :
    r.atEnd s = r' := by
  rw [atEnd]
  split <;> simp_all

theorem poll_of_incomplete
    (hd : decode r.config.maxPayload r.config.trailing r.buffer = .ok none) :
    r.poll s = ((r.absorb s.read.1).1, (r.absorb s.read.1).2, s.read.2) := by
  simp only [poll, decodeBuffered, hd]

theorem absorb_failed {cause : SystemError} (h : ReadOutcome.Passing (.failed cause)) :
    ∃ a, Idle a ∧ ∀ r : Reader, r.absorb (.failed cause) = (a, r) := by
  by_cases hi : cause.isInterrupted
  · refine ⟨.ok none, rfl, ?_⟩
    intro r
    rw [absorb, if_pos hi]
  · refine ⟨.error (.io cause), ?_, ?_⟩
    · rcases h with hk | hk | hk
      · simp [SystemError.isInterrupted, hk] at hi
      · simp [Idle, Error.isTimeout, hk]
      · simp [Idle, Error.isTimeout, hk]
    · intro r
      rw [absorb, if_neg hi]

theorem absorb_broken {cause : SystemError} (h : ¬ ReadOutcome.Passing (.failed cause)) :
    ¬ (Error.io cause).isTimeout = true ∧
      ∀ r : Reader, r.absorb (.failed cause) = (.error (.io cause), r) := by
  simp only [ReadOutcome.Passing, not_or] at h
  obtain ⟨hinterrupted, hwouldBlock, htimedOut⟩ := h
  refine ⟨by simp [Error.isTimeout, hwouldBlock, htimedOut], ?_⟩
  intro r
  rw [absorb, if_neg (by simpa [SystemError.isInterrupted] using hinterrupted)]

theorem not_isTimeout_endOfStream (r : Reader) : ¬ r.endOfStream.isTimeout = true := by
  unfold endOfStream
  split <;> simp [Error.isTimeout]

end

/-- The strict reader ends where the lenient one gives its next frame, and says how long the payload
of that frame is and how many bytes behind a header it had gathered. -/
def Refused (strict lenient : Reader) (s : Source) : Prop :=
  ∃ f rest received,
    (lenient.pollAll s).1 = (strict.pollAll s).1 ++ f :: rest ∧
    (strict.pollAll s).2 = .trailingBytes f.payload.length received ∧
    f.payload.length < received ∧
    (strict.atEnd s).buffer.length = headerSize + received

structure Together (beyond : Prop) (strict lenient : Reader) (s : Source) : Prop where
  same : ¬ beyond → strict.pollAll s = lenient.pollAll s
  refused : beyond → Refused strict lenient s

namespace Together

variable {beyond : Prop} {strict strict' lenient lenient' : Reader} {s s' : Source}
  {a : Except Error (Option Frame)} {f : Frame} {e : Error}

theorem idle (hstrict : strict.poll s = (a, strict', s')) (hlenient : lenient.poll s = (a, lenient', s'))
    (ha : Idle a) (h : Together beyond strict' lenient' s') : Together beyond strict lenient s := by
  have hs := pollAll_of_idle hstrict ha
  have hl := pollAll_of_idle hlenient ha
  have hend := atEnd_of_idle hstrict ha
  constructor
  · intro hbeyond
    rw [hs, hl, h.same hbeyond]
  · intro hbeyond
    obtain ⟨f, rest, received, hframes, herror, hlt, hbuffer⟩ := h.refused hbeyond
    exact ⟨f, rest, received, by rw [hs, hl, hframes], by rw [hs, herror], hlt,
      by rw [hend, hbuffer]⟩

theorem frame (hstrict : strict.poll s = (.ok (some f), strict', s'))
    (hlenient : lenient.poll s = (.ok (some f), lenient', s'))
    (h : Together beyond strict' lenient' s') : Together beyond strict lenient s := by
  have hs := pollAll_of_frame hstrict
  have hl := pollAll_of_frame hlenient
  have hend := atEnd_of_frame hstrict
  constructor
  · intro hbeyond
    rw [hs, hl, h.same hbeyond]
  · intro hbeyond
    obtain ⟨f', rest, received, hframes, herror, hlt, hbuffer⟩ := h.refused hbeyond
    refine ⟨f', rest, received, ?_, ?_, hlt, ?_⟩
    · rw [hs, hl, hframes, List.cons_append]
    · rw [hs, herror]
    · rw [hend, hbuffer]

theorem final (hbeyond : ¬ beyond) (hstrict : strict.poll s = (.error e, strict', s'))
    (hlenient : lenient.poll s = (.error e, lenient', s')) (ht : ¬ e.isTimeout = true) :
    Together beyond strict lenient s := by
  constructor
  · intro _
    rw [pollAll_of_final hstrict ht, pollAll_of_final hlenient ht]
  · intro h
    exact absurd h hbeyond

theorem parted {received : Nat} (hbeyond : beyond)
    (hstrict : strict.poll s = (.error (.trailingBytes f.payload.length received), strict', s'))
    (hlenient : lenient.poll s = (.ok (some f), lenient', s'))
    (hlt : f.payload.length < received) (hbuffer : strict'.buffer.length = headerSize + received) :
    Together beyond strict lenient s := by
  have ht : ¬ (Error.trailingBytes f.payload.length received).isTimeout = true := by
    simp [Error.isTimeout]
  have hs := pollAll_of_final hstrict ht
  constructor
  · intro h
    exact absurd hbeyond h
  · intro _
    refine ⟨f, (lenient'.pollAll s').1, received, ?_, ?_, hlt, ?_⟩
    · rw [hs, pollAll_of_frame hlenient, List.nil_append]
    · rw [hs]
    · rw [atEnd_of_final hstrict ht, hbuffer]

end Together

section
variable {config : Config} {buffer : Bytes}

theorem decode_of_incomplete (hd : decode config.maxPayload .carryOver buffer = .ok none)
    (trailing : Trailing) : decode config.maxPayload trailing buffer = .ok none := by
  cases trailing with
  | reject => rw [decode_reject, hd]
  | carryOver => exact hd

theorem poll_under (hd : decode config.maxPayload .carryOver buffer = .ok none)
    (trailing : Trailing) (o : ReadOutcome) (script : List ReadOutcome) (n : Nat) :
    (under config trailing buffer).poll ⟨o :: script, n⟩ =
      (((under config trailing buffer).absorb o).1, ((under config trailing buffer).absorb o).2,
        ⟨script, n + 1⟩) :=
  poll_of_incomplete (decode_of_incomplete hd trailing)

theorem poll_failed (hd : decode config.maxPayload .carryOver buffer = .ok none)
    {cause : SystemError} {a : Except Error (Option Frame)}
    (habsorb : ∀ r : Reader, r.absorb (.failed cause) = (a, r)) (trailing : Trailing)
    (script : List ReadOutcome) (n : Nat) :
    (under config trailing buffer).poll ⟨.failed cause :: script, n⟩ =
      (a, under config trailing buffer, ⟨script, n + 1⟩) := by
  rw [poll_under hd, habsorb]

theorem poll_ended (hd : decode config.maxPayload .carryOver buffer = .ok none)
    (trailing : Trailing) (script : List ReadOutcome) (n : Nat) :
    (under config trailing buffer).poll ⟨.bytes [] :: script, n⟩ =
      (.error (under config trailing buffer).endOfStream, under config trailing buffer,
        ⟨script, n + 1⟩) := by
  rw [poll_under hd, absorb_end]

theorem poll_arrived (hd : decode config.maxPayload .carryOver buffer = .ok none) {b : Bytes}
    (hb : b ≠ []) (trailing : Trailing) (script : List ReadOutcome) (n : Nat) :
    (under config trailing buffer).poll ⟨.bytes b :: script, n⟩ =
      ((under config trailing (buffer ++ b)).decodeBuffered.1,
        (under config trailing (buffer ++ b)).decodeBuffered.2, ⟨script, n + 1⟩) := by
  have hsome : ¬ b.isEmpty = true := by simpa using hb
  rw [poll_under hd, absorb, if_neg hsome]
  rfl

/-- A read: the readers part if it brings more than a frame, and otherwise have the same left. -/
theorem together_arrived (hd : decode config.maxPayload .carryOver buffer = .ok none) {b : Bytes}
    (hb : b ≠ []) (script : List ReadOutcome) (n : Nat)
    (hafter : ∀ left, decode config.maxPayload .carryOver left = .ok none →
      Together (Oversteps config.maxPayload left script) (under config .reject left)
        (under config .carryOver left) ⟨script, n + 1⟩) :
    Together (Oversteps config.maxPayload buffer (.bytes b :: script)) (under config .reject buffer)
      (under config .carryOver buffer) ⟨.bytes b :: script, n⟩ := by
  have hstep : Oversteps config.maxPayload buffer (.bytes b :: script) ↔ _ := oversteps_bytes hd
  have hstrict := poll_arrived hd hb .reject script n
  have hlenient := poll_arrived hd hb .carryOver script n
  simp only [decodeBuffered, under, decode_reject] at hstrict hlenient
  cases hnext : decode config.maxPayload .carryOver (buffer ++ b) with
  | error e =>
    simp only [hnext] at hstrict hlenient
    have hnot : ¬ Oversteps config.maxPayload buffer (.bytes b :: script) := by
      simp [hstep, hnext, not_oversteps_of_error hnext]
    have ht := Error.not_isTimeout (decode_error_isProtocolViolation hnext)
    exact .final hnot hstrict hlenient (by simp [ht])
  | ok found =>
    cases found with
    | none =>
      simp only [hnext] at hstrict hlenient
      have hsame : Oversteps config.maxPayload buffer (.bytes b :: script) ↔
          Oversteps config.maxPayload (buffer ++ b) script := by
        simp [hstep, hnext, hb]
      rw [hsame]
      exact .idle hstrict hlenient rfl (hafter _ hnext)
    | some p =>
      obtain ⟨f, rest⟩ := p
      simp only [hnext] at hstrict hlenient
      by_cases hrest : rest = []
      · subst hrest
        simp only [↓reduceIte] at hstrict
        have hsame : Oversteps config.maxPayload buffer (.bytes b :: script) ↔
            Oversteps config.maxPayload [] script := by
          simp [hstep, hnext, hb, oversteps_frame hnext]
        rw [hsame]
        exact .frame hstrict hlenient (hafter _ rfl)
      · simp only [hrest, ↓reduceIte] at hstrict
        have hbeyond : Oversteps config.maxPayload buffer (.bytes b :: script) :=
          hstep.mpr (.inl ⟨f, rest, hnext, hrest⟩)
        obtain ⟨hwhole, _⟩ := decode_eq_frame hnext
        have hlength : (buffer ++ b).length = headerSize + f.payload.length + rest.length := by
          rw [hwhole, List.length_append, length_wire]
        have hpos := List.length_pos_iff.mpr hrest
        exact .parted hbeyond hstrict hlenient (by omega) (by dsimp only; omega)

/-- The readers go together from where both put together the same frame. -/
theorem together (hd : decode config.maxPayload .carryOver buffer = .ok none)
    (script : List ReadOutcome) (n : Nat) :
    Together (Oversteps config.maxPayload buffer script) (under config .reject buffer)
      (under config .carryOver buffer) ⟨script, n⟩ := by
  -- after each read the buffers are again the same and hold no whole frame
  induction script generalizing buffer n with
  | nil =>
    have hpoll : ∀ trailing, (under config trailing buffer).poll ⟨[], n⟩ =
        (.error (under config trailing buffer).endOfStream, under config trailing buffer,
          ⟨[], n + 1⟩) := by
      intro trailing
      exact poll_of_incomplete (decode_of_incomplete hd trailing)
    exact .final not_oversteps_nil (hpoll .reject) (hpoll .carryOver) (not_isTimeout_endOfStream _)
  | cons o script ih =>
    cases o with
    | failed cause =>
      rw [oversteps_failed]
      by_cases hcause : ReadOutcome.Passing (.failed cause)
      · obtain ⟨a, ha, habsorb⟩ := absorb_failed hcause
        have hpoll := poll_failed hd habsorb
        simp only [hcause, true_and]
        exact .idle (hpoll .reject script n) (hpoll .carryOver script n) ha (ih hd (n + 1))
      · obtain ⟨ht, habsorb⟩ := absorb_broken hcause
        have hpoll := poll_failed hd habsorb
        exact .final (fun h => hcause h.1) (hpoll .reject script n) (hpoll .carryOver script n) ht
    | bytes b =>
      by_cases hb : b = []
      · subst hb
        have hnot : ¬ Oversteps config.maxPayload buffer (.bytes [] :: script) := by
          simp [oversteps_bytes hd, hd]
        have hpoll := fun trailing => poll_ended hd trailing script n
        exact .final hnot (hpoll .reject) (hpoll .carryOver) (not_isTimeout_endOfStream _)
      · exact together_arrived hd hb script n fun left hleft => ih hleft (n + 1)

end

section
variable {r r' : Reader} {s s' : Source} {f : Frame}

theorem decodeBuffered_reject (hr : r.config.trailing = .reject)
    (h : r.decodeBuffered.1 = .ok (some f)) : r.decodeBuffered.2.buffer = [] := by
  unfold decodeBuffered at h ⊢
  rw [hr, decode_reject] at h ⊢
  cases hd : decode r.config.maxPayload .carryOver r.buffer with
  | error e => simp [hd] at h
  | ok found =>
    cases found with
    | none => simp [hd] at h
    | some p =>
      by_cases hrest : p.2 = []
      · simp only [hrest, ↓reduceIte]
      · simp [hd, hrest] at h

/-- Behind a frame that the strict reader gives it has no bytes. -/
theorem poll_reject (hr : r.config.trailing = .reject) (h : r.poll s = (.ok (some f), r', s')) :
    r'.buffer = [] := by
  generalize ha : (Except.ok (some f) : Except Error (Option Frame)) = a at h
  cases poll_polled h with
  | found hd =>
    cases ha
    have hnone := decodeBuffered_reject (f := f) hr (by rw [decodeBuffered, hd])
    rw [decodeBuffered, hd] at hnone
    exact hnone
  | arrived hd hb hs => exact decodeBuffered_reject hr ha.symm
  | failed hd hs => split at ha <;> simp at ha
  | _ => contradiction

theorem read_reject (hr : r.config.trailing = .reject) (h : r.read s = (.ok f, r', s')) :
    r'.buffer = [] := by
  fun_induction read r s with
  | case1 r s f r₁ s₁ hp =>
    cases h
    exact poll_reject hr hp
  | case2 r s e r₁ s₁ hp => simp at h
  | case3 r s r₁ s₁ hp ih => exact ih (by rw [poll_config hp, hr]) h

theorem pollAll_ne_trailingBytes (hr : r.config.trailing = .carryOver) (s : Source)
    (expected received : Nat) : (r.pollAll s).2 ≠ .trailingBytes expected received := by
  fun_induction pollAll r s with
  | case1 r s r' s' hp ih => exact ih (by rw [poll_config hp, hr])
  | case2 r s f r' s' hp rest ih => exact ih (by rw [poll_config hp, hr])
  | case3 r s e r' s' hp ht ih => exact ih (by rw [poll_config hp, hr])
  | case4 r s e r' s' hp ht =>
    intro he
    have he : e = .trailingBytes expected received := he
    subst he
    generalize ha : (Except.error (.trailingBytes expected received) :
      Except Error (Option Frame)) = a at hp
    cases poll_polled hp with
    | broken hd =>
      cases ha
      rw [hr] at hd
      obtain ⟨n, _, _, h⟩ := decode_eq_error hd
      contradiction
    | found hd => contradiction
    | ended hd hs =>
      unfold endOfStream at ha
      split at ha <;> simp at ha
    | failed hd hs => split at ha <;> simp at ha
    | arrived hd hb hs =>
      unfold decodeBuffered at ha
      split at ha
      · rename_i hbroken
        cases ha
        rw [hr] at hbroken
        obtain ⟨n, _, _, h⟩ := decode_eq_error hbroken
        contradiction
      · simp at ha
      · simp at ha

end

/-- In a stream of one frame nothing is beyond its end. -/
theorem not_oversteps_wire {max : Nat} {payload : Bytes} {script : List ReadOutcome}
    (hp : payload.length ≤ wireMaxPayload)
    (hscript : script.flatMap ReadOutcome.served = wire payload) : ¬ Oversteps max [] script := by
  rintro ⟨before, b, after, frames, left, payload', surplus, rfl, _, hcut, _, hw, hbeyond, hsurplus⟩
  have hserved : before.flatMap ReadOutcome.served ++ (b ++ after.flatMap ReadOutcome.served) =
      wire payload ++ [] := by
    simpa [ReadOutcome.served] using hscript
  rw [← List.nil_append (before.flatMap _), hcut.whole_eq, List.append_assoc,
    ← List.append_assoc left, hbeyond] at hserved
  cases frames with
  | nil =>
    rw [List.flatMap_nil, List.nil_append, List.append_assoc] at hserved
    obtain ⟨_, hnil⟩ := wire_append_inj hw hp hserved
    exact hsurplus (List.append_eq_nil_iff.mp hnil).1
  | cons f frames =>
    have hf := (hcut.admissible f List.mem_cons_self).2
    rw [List.flatMap_cons, List.append_assoc] at hserved
    obtain ⟨_, hnil⟩ := wire_append_inj hf hp hserved
    simp [wire, Bytes.ofUInt16] at hnil

/-- The strict reader gives the first frames of the lenient one. Both give the same unless, before
the stream ends or fails, a read brings bytes beyond the end of a frame within the limit: then, and
only then, the strict reader ends there with the length of the lenient reader's next frame and with
what it had gathered, which is more. -/
theorem reject_refines_carryOver (config : Config) (s : Source) :
    let strict := under config .reject []
    let lenient := under config .carryOver []
    let beyond := Oversteps config.maxPayload [] s.coming
    (strict.pollAll s).1 <+: (lenient.pollAll s).1 ∧
    (¬ beyond → strict.pollAll s = lenient.pollAll s) ∧
    (beyond → Refused strict lenient s) ∧
    (beyond ↔ ∃ expected received, (strict.pollAll s).2 = .trailingBytes expected received) ∧
    (∀ payload : Bytes, payload.length ≤ wireMaxPayload →
      s.coming.flatMap ReadOutcome.served = wire payload →
      strict.pollAll s = lenient.pollAll s) ∧
    strict.readAll s = strict.pollAll s ∧ lenient.readAll s = lenient.pollAll s ∧
    ∀ (buffer : Bytes) (s₁ s₂ : Source) (f : Frame) (r : Reader),
      (under config .reject buffer).poll s₁ = (.ok (some f), r, s₂) ∨
        (under config .reject buffer).read s₁ = (.ok f, r, s₂) → r.buffer = [] := by
  intro strict lenient beyond
  have htogether : Together beyond strict lenient s := together rfl s.coming s.reads
  have hfirst : (strict.pollAll s).1 <+: (lenient.pollAll s).1 := by
    by_cases hbeyond : beyond
    · obtain ⟨f, rest, received, hframes, _⟩ := htogether.refused hbeyond
      exact ⟨f :: rest, hframes.symm⟩
    · exact ⟨[], by rw [List.append_nil, htogether.same hbeyond]⟩
  refine ⟨hfirst, htogether.same, htogether.refused, ⟨?_, ?_⟩, ?_, readAll_eq_pollAll _ _,
    readAll_eq_pollAll _ _, ?_⟩
  · intro hbeyond
    obtain ⟨f, rest, received, _, herror, _⟩ := htogether.refused hbeyond
    exact ⟨f.payload.length, received, herror⟩
  · rintro ⟨expected, received, herror⟩
    refine Classical.byContradiction fun hbeyond => ?_
    rw [htogether.same hbeyond] at herror
    exact pollAll_ne_trailingBytes rfl s expected received herror
  · intro payload hp hscript
    exact htogether.same (not_oversteps_wire hp hscript)
  · rintro buffer s₁ s₂ f r (h | h)
    · exact poll_reject rfl h
    · exact read_reject rfl h

/-- Two frames, of which the first ends inside the second read. -/
theorem reject_refines_carryOver_coalesced :
    let s : Source := ⟨[.bytes [1], .bytes [0, 7, 0, 0]], 0⟩
    Oversteps 1 [] s.coming ∧
      Refused (under { maxPayload := 1 } .reject []) (under { maxPayload := 1 } .carryOver []) s := by
  intro s
  have hcut : Cut 1 [1] [] [1] := cut_nil (by simp [decode, announced?])
  have hbeyond : Oversteps 1 [] s.coming :=
    ⟨[.bytes [1]], [0, 7, 0, 0], [], [], [1], [7], [0, 0], rfl, by simp [ReadOutcome.Passing], hcut,
      by decide, by decide, rfl, by decide⟩
  obtain ⟨_, _, hrefused, _⟩ := reject_refines_carryOver { maxPayload := 1 } s
  exact ⟨hbeyond, hrefused hbeyond⟩

end Reader

end StreamRelay.Frame
