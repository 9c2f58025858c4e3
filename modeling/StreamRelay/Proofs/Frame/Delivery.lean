import StreamRelay.Frame.Reader
import StreamRelay.Proofs.Frame.Parsing

/-!
# What a connection delivers

Where bytes are carried over, the frames that a reader gives and the error that ends it depend on
the bytes of the stream alone: not on how single reads cut them, on interrupted reads or on
timeouts, and not on whether the caller polls or reads. They are those of parsing the whole byte
string at once.
-/

namespace StreamRelay.Frame

namespace ReadOutcome

def served : ReadOutcome → Bytes
  | .bytes b => b
  | .failed _ => []

def Passing : ReadOutcome → Prop
  | .bytes b => b ≠ []
  | .failed cause =>
    cause.kind = .interrupted ∨ cause.kind = .wouldBlock ∨ cause.kind = .timedOut

end ReadOutcome

/-- The stream brings these bytes, in pieces of any size and with any number of interruptions and
timeouts in between, and then ends. -/
structure Source.Serves (s : Source) (whole : Bytes) : Prop where
  passing : ∀ o ∈ s.coming, o.Passing
  whole_eq : s.coming.flatMap ReadOutcome.served = whole

namespace Reader

def pending (r : Reader) (s : Source) : Bytes := r.buffer ++ s.coming.flatMap ReadOutcome.served

def work (r : Reader) (s : Source) : Nat := (r.pending s).length + s.coming.length

inductive Polled (r : Reader) (s : Source) :
    Except Error (Option Frame) → Reader → Source → Prop
  | broken {e : Error} (hd : decode r.config.maxPayload r.config.trailing r.buffer = .error e) :
    Polled r s (.error e) r s
  | found {f : Frame} {rest : Bytes}
    (hd : decode r.config.maxPayload r.config.trailing r.buffer = .ok (some (f, rest))) :
    Polled r s (.ok (some f)) { r with buffer := rest } s
  | ended {s' : Source} (hd : decode r.config.maxPayload r.config.trailing r.buffer = .ok none)
    (hs : s.read = (.bytes [], s')) : Polled r s (.error r.endOfStream) r s'
  | failed {s' : Source} {cause : SystemError}
    (hd : decode r.config.maxPayload r.config.trailing r.buffer = .ok none)
    (hs : s.read = (.failed cause, s')) :
    Polled r s (if cause.isInterrupted then .ok none else .error (.io cause)) r s'
  | arrived {s' : Source} {b : Bytes}
    (hd : decode r.config.maxPayload r.config.trailing r.buffer = .ok none) (hb : b ≠ [])
    (hs : s.read = (.bytes b, s')) :
    Polled r s (decodeBuffered { r with buffer := r.buffer ++ b }).1
      (decodeBuffered { r with buffer := r.buffer ++ b }).2 s'

theorem poll_polled {r r' : Reader} {s s' : Source} {a : Except Error (Option Frame)}
    (h : r.poll s = (a, r', s')) : Polled r s a r' s' := by
  cases hd : decode r.config.maxPayload r.config.trailing r.buffer with
  | error e =>
    simp only [poll, decodeBuffered, hd, Prod.mk.injEq] at h
    obtain ⟨rfl, rfl, rfl⟩ := h
    exact .broken hd
  | ok found =>
    cases found with
    | some p =>
      simp only [poll, decodeBuffered, hd, Prod.mk.injEq] at h
      obtain ⟨rfl, rfl, rfl⟩ := h
      exact .found hd
    | none =>
      cases hs : s.read with
      | mk outcome behind =>
        simp only [poll, decodeBuffered, hd, hs, Prod.mk.injEq] at h
        obtain ⟨rfl, rfl, rfl⟩ := h
        cases outcome with
        | failed cause =>
          have := Polled.failed hd hs
          by_cases hi : cause.isInterrupted <;> simpa [absorb, hi] using this
        | bytes b =>
          by_cases hb : b = []
          · subst hb
            exact .ended hd hs
          · simpa [absorb, hb] using Polled.arrived hd hb hs

theorem decodeBuffered_config (r : Reader) : (r.decodeBuffered).2.config = r.config := by
  unfold decodeBuffered
  split <;> rfl

/-- A poll changes the buffer only, and a frame that it gives keeps to the limit. -/
theorem poll_config {r r' : Reader} {s s' : Source} {a : Except Error (Option Frame)}
    (h : r.poll s = (a, r', s')) : r'.config = r.config := by
  cases poll_polled h with
  | arrived hd hb hs => exact decodeBuffered_config _
  | _ => rfl

theorem poll_payload_le {r r' : Reader} {s s' : Source} {f : Frame}
    (h : r.poll s = (.ok (some f), r', s')) : f.payload.length ≤ r.config.maxPayload := by
  generalize ha : (Except.ok (some f) : Except Error (Option Frame)) = a at h
  cases poll_polled h with
  | found hd =>
    cases ha
    exact (decode_eq_frame hd).2.1
  | arrived hd hb hs =>
    unfold decodeBuffered at ha
    split at ha
    · simp at ha
    · simp at ha
    · rename_i hframe
      cases ha
      exact (decode_eq_frame hframe).2.1
  | failed hd hs => split at ha <;> simp at ha
  | _ => contradiction

theorem pending_length (r : Reader) (s : Source) :
    (r.pending s).length =
      r.buffer.length + (s.coming.flatMap ReadOutcome.served).length := by
  simp [pending]

theorem read_coming {s s' : Source} {o : ReadOutcome} (h : s.read = (o, s')) :
    s.coming = o :: s'.coming ∨ (s.coming = [] ∧ s'.coming = [] ∧ o = .bytes []) := by
  unfold Source.read at h
  cases hc : s.coming with
  | nil =>
    simp only [hc, Prod.mk.injEq] at h
    obtain ⟨rfl, rfl⟩ := h
    exact .inr ⟨rfl, rfl, rfl⟩
  | cons first rest =>
    simp only [hc, Prod.mk.injEq] at h
    obtain ⟨rfl, rfl⟩ := h
    exact .inl rfl

theorem decodeBuffered_length_le (r : Reader) :
    (r.decodeBuffered).2.buffer.length ≤ r.buffer.length := by
  unfold decodeBuffered
  split
  · exact Nat.le_refl _
  · exact Nat.le_refl _
  · rename_i f rest hd
    obtain ⟨hw, _⟩ := decode_eq_frame hd
    have := congrArg List.length hw
    simp only [List.length_append, length_wire] at this
    dsimp only
    omega

/-- A poll that gives a frame, gives nothing or times out has done some of the work. -/
theorem poll_work_lt {r r' : Reader} {s s' : Source} {a : Except Error (Option Frame)}
    (h : r.poll s = (a, r', s')) (ha : ∀ e, a = .error e → e.isTimeout) :
    r'.work s' < r.work s := by
  cases poll_polled h with
  | broken hd =>
    -- neither this error nor that at the end of the stream is one to try again after
    have := Error.not_isTimeout (decode_error_isProtocolViolation hd)
    simp [ha _ rfl] at this
  | found hd =>
    obtain ⟨hw, _⟩ := decode_eq_frame hd
    have := congrArg List.length hw
    simp only [List.length_append, length_wire, headerSize] at this
    simp only [work, pending_length]
    omega
  | ended hd hs =>
    have := ha _ rfl
    unfold endOfStream at this
    split at this <;> simp [Error.isTimeout] at this
  | failed hd hs =>
    rcases read_coming hs with hc | ⟨_, _, ho⟩
    · simp [work, pending_length, hc, ReadOutcome.served]
    · contradiction
  | arrived hd hb hs =>
    rename_i b
    have hl := decodeBuffered_length_le { r with buffer := r.buffer ++ b }
    rcases read_coming hs with hc | ⟨_, _, ho⟩
    · simp only [List.length_append] at hl
      simp only [work, pending_length, hc, List.flatMap_cons, List.length_append,
        List.length_cons, ReadOutcome.served]
      omega
    · exact absurd (ReadOutcome.bytes.inj ho) hb

/-- The frames that polling gives until an error other than a timeout, and that error. What only
delays is polled again, which ends since there is ever less work left. -/
def pollAll (r : Reader) (s : Source) : List Frame × Error :=
  match _h : r.poll s with
  | (.ok none, r', s') => pollAll r' s'
  | (.ok (some f), r', s') =>
    let rest := pollAll r' s'
    (f :: rest.1, rest.2)
  | (.error e, r', s') => if _ht : e.isTimeout then pollAll r' s' else ([], e)
termination_by r.work s
decreasing_by
  · exact poll_work_lt _h (by simp)
  · exact poll_work_lt _h (by simp)
  · exact poll_work_lt _h (by simp [_ht])

theorem read_work_lt {r r' : Reader} {s s' : Source} {a : Except Error Frame}
    (h : r.read s = (a, r', s')) (ha : ∀ e, a = .error e → e.isTimeout) :
    r'.work s' < r.work s := by
  fun_induction read r s with
  | case1 r s f r₁ s₁ hp =>
    cases h
    exact poll_work_lt hp (by simp)
  | case2 r s e r₁ s₁ hp =>
    cases h
    exact poll_work_lt hp (by simpa using ha)
  | case3 r s r₁ s₁ hp ih => exact Nat.lt_trans (ih h) (poll_work_lt hp (by simp))

def readAll (r : Reader) (s : Source) : List Frame × Error :=
  match _h : r.read s with
  | (.ok f, r', s') =>
    let rest := readAll r' s'
    (f :: rest.1, rest.2)
  | (.error e, r', s') => if _ht : e.isTimeout then readAll r' s' else ([], e)
termination_by r.work s
decreasing_by
  · exact read_work_lt _h (by simp)
  · exact read_work_lt _h (by simp [_ht])

section
variable {r r' : Reader} {s s' : Source} {f : Frame} {e : Error}

theorem pollAll_of_none (h : r.poll s = (.ok none, r', s')) : r.pollAll s = r'.pollAll s' := by
  rw [pollAll]
  split <;> simp_all

theorem pollAll_of_frame (h : r.poll s = (.ok (some f), r', s')) :
    r.pollAll s = (f :: (r'.pollAll s').1, (r'.pollAll s').2) := by
  rw [pollAll]
  split <;> simp_all

theorem pollAll_of_timeout (h : r.poll s = (.error e, r', s')) (ht : e.isTimeout = true) :
    r.pollAll s = r'.pollAll s' := by
  rw [pollAll]
  split <;> simp_all

theorem pollAll_of_final (h : r.poll s = (.error e, r', s')) (ht : ¬ e.isTimeout = true) :
    r.pollAll s = ([], e) := by
  rw [pollAll]
  split <;> simp_all

theorem read_of_none (h : r.poll s = (.ok none, r', s')) : r.read s = r'.read s' := by
  rw [read]
  split <;> simp_all

theorem read_of_frame (h : r.poll s = (.ok (some f), r', s')) : r.read s = (.ok f, r', s') := by
  rw [read]
  split <;> simp_all

theorem read_of_error (h : r.poll s = (.error e, r', s')) : r.read s = (.error e, r', s') := by
  rw [read]
  split <;> simp_all

/-- Reading a frame is polling until there is one, so whoever reads gets what polling gives. -/
theorem readAll_eq_pollAll (r : Reader) (s : Source) : r.readAll s = r.pollAll s := by
  fun_induction pollAll r s with
  | case1 r s r' s' hp ih => rw [← ih, readAll, readAll, read_of_none hp]
  | case2 r s f r' s' hp rest ih =>
    have hread := read_of_frame hp
    have hrest : r'.readAll s' = rest := ih
    rw [readAll]
    split <;> simp_all
  | case3 r s e r' s' hp ht ih =>
    have hread := read_of_error hp
    rw [readAll]
    split <;> simp_all
  | case4 r s e r' s' hp ht =>
    have hread := read_of_error hp
    rw [readAll]
    split <;> simp_all

end

/-- An answer and the bytes still to be cut behind it fit what parsing says of the bytes that were
still to be cut before. -/
inductive Advances (max : Nat) (before : Bytes) : Except Error (Option Frame) → Bytes → Prop
  | waiting : Advances max before (.ok none) before
  | timedOut {e : Error} (ht : e.isTimeout = true) : Advances max before (.error e) before
  | frame {f : Frame} {after : Bytes}
    (hp : parse max before = (f :: (parse max after).1, (parse max after).2)) :
    Advances max before (.ok (some f)) after
  | final {e : Error} {after : Bytes} (ht : e.isTimeout = false)
    (hp : parse max before = ([], e)) : Advances max before (.error e) after

theorem Advances.eq_of_waiting {max : Nat} {before after : Bytes}
    (h : Advances max before (.ok none) after) : after = before := by
  cases h
  rfl

theorem Advances.eq_of_frame {max : Nat} {before after : Bytes} {f : Frame}
    (h : Advances max before (.ok (some f)) after) :
    parse max before = (f :: (parse max after).1, (parse max after).2) := by
  cases h
  assumption

theorem Advances.eq_of_timedOut {max : Nat} {before after : Bytes} {e : Error}
    (h : Advances max before (.error e) after) (ht : e.isTimeout = true) : after = before := by
  cases h with
  | timedOut => rfl
  | final hf => simp [ht] at hf

theorem Advances.eq_of_final {max : Nat} {before after : Bytes} {e : Error}
    (h : Advances max before (.error e) after) (ht : ¬ e.isTimeout = true) :
    parse max before = ([], e) := by
  cases h with
  | timedOut hf => contradiction
  | final _ hp => exact hp

theorem decodeBuffered_advances {r : Reader} (hr : r.config.trailing = .carryOver) (more : Bytes) :
    Advances r.config.maxPayload (r.buffer ++ more) (r.decodeBuffered).1
        ((r.decodeBuffered).2.buffer ++ more) ∧
      (r.decodeBuffered).2.config = r.config := by
  unfold decodeBuffered
  rw [hr]
  split
  · rename_i e hd
    have ht := Error.not_isTimeout (decode_error_isProtocolViolation hd)
    exact ⟨.final ht (parse_of_error (decode_append_error hd more)), rfl⟩
  · exact ⟨.waiting, rfl⟩
  · rename_i f rest hd
    exact ⟨.frame (parse_of_frame (decode_append_frame hd more)), rfl⟩

theorem poll_advances {r r' : Reader} {s s' : Source} {a : Except Error (Option Frame)}
    (hr : r.config.trailing = .carryOver) (hs : ∀ o ∈ s.coming, o.Passing)
    (h : r.poll s = (a, r', s')) :
    Advances r.config.maxPayload (r.pending s) a (r'.pending s') ∧ r'.config = r.config ∧
      ∀ o ∈ s'.coming, o.Passing := by
  cases poll_polled h with
  | broken hd =>
    have ht := Error.not_isTimeout (decode_error_isProtocolViolation hd)
    rw [hr] at hd
    exact ⟨.final ht (parse_of_error (decode_append_error hd _)), rfl, hs⟩
  | found hd =>
    rw [hr] at hd
    exact ⟨.frame (parse_of_frame (decode_append_frame hd _)), rfl, hs⟩
  | ended hd hread =>
    rw [hr] at hd
    rcases read_coming hread with hc | ⟨hc, hc', _⟩
    · have := hs _ (hc ▸ List.mem_cons_self)
      exact absurd rfl this
    · have hp := parse_of_incomplete hd
      have hb : r.pending s = r.buffer := by simp [pending, hc]
      refine ⟨.final ?_ (hb ▸ hp), rfl, by simp [hc']⟩
      unfold endOfStream
      split <;> rfl
  | failed hd hread =>
    -- no byte was served, so what is still to be cut is the same as before
    rename_i cause
    rcases read_coming hread with hc | ⟨_, _, ho⟩
    · have hp : r.pending s = r.pending s' := by simp [pending, hc, ReadOutcome.served]
      have hf : ReadOutcome.Passing (.failed cause) := hs _ (hc ▸ List.mem_cons_self)
      refine ⟨?_, rfl, fun o ho => hs o (hc ▸ List.mem_cons_of_mem _ ho)⟩
      rw [← hp]
      by_cases hi : cause.isInterrupted
      · rw [if_pos hi]
        exact .waiting
      · rw [if_neg hi]
        refine .timedOut ?_
        rcases hf with hk | hk | hk
        · simp [SystemError.isInterrupted, hk] at hi
        · simp [Error.isTimeout, hk]
        · simp [Error.isTimeout, hk]
    · contradiction
  | arrived hd hb hread =>
    -- the bytes move from the stream into the buffer, and the buffer is decoded once more
    rename_i b
    rcases read_coming hread with hc | ⟨_, _, ho⟩
    · have hp : r.pending s = r.buffer ++ b ++ s'.coming.flatMap ReadOutcome.served := by
        simp [pending, hc, ReadOutcome.served]
      have hadv := decodeBuffered_advances (r := { r with buffer := r.buffer ++ b }) hr
        (s'.coming.flatMap ReadOutcome.served)
      exact ⟨hp ▸ hadv.1, hadv.2, fun o ho => hs o (hc ▸ List.mem_cons_of_mem _ ho)⟩
    · exact absurd (ReadOutcome.bytes.inj ho) hb

/-- Whoever polls until the end gets what parsing gives for the bytes still to be cut. -/
theorem pollAll_eq_parse {r : Reader} {s : Source} (hr : r.config.trailing = .carryOver)
    (hs : ∀ o ∈ s.coming, o.Passing) :
    r.pollAll s = parse r.config.maxPayload (r.pending s) := by
  fun_induction pollAll r s with
  | case1 r s r' s' hp ih =>
    obtain ⟨hadv, hconfig, hs'⟩ := poll_advances hr hs hp
    rw [ih (hconfig ▸ hr) hs', hconfig, hadv.eq_of_waiting]
  | case2 r s f r' s' hp rest ih =>
    obtain ⟨hadv, hconfig, hs'⟩ := poll_advances hr hs hp
    have hrest : rest = parse r.config.maxPayload (r'.pending s') := by
      rw [← hconfig]
      exact ih (hconfig ▸ hr) hs'
    rw [hrest, hadv.eq_of_frame]
  | case3 r s e r' s' hp ht ih =>
    obtain ⟨hadv, hconfig, hs'⟩ := poll_advances hr hs hp
    rw [ih (hconfig ▸ hr) hs', hconfig, hadv.eq_of_timedOut ht]
  | case4 r s e r' s' hp ht =>
    obtain ⟨hadv, _, _⟩ := poll_advances hr hs hp
    rw [hadv.eq_of_final ht]

theorem readAll_eq_parse {r : Reader} {s : Source} (hr : r.config.trailing = .carryOver)
    (hs : ∀ o ∈ s.coming, o.Passing) :
    r.readAll s = parse r.config.maxPayload (r.pending s) := by
  rw [readAll_eq_pollAll, pollAll_eq_parse hr hs]

/-- However the bytes of a stream arrive, polling and reading to its end give the same frames and
the same error: those of parsing all bytes at once, which cuts them into as many admissible frames
as there are and judges the bytes left over. -/
theorem delivery_eq_parse (config : Config) (hc : config.trailing = .carryOver) (whole : Bytes)
    (s : Source) (hs : s.Serves whole) :
    pollAll ⟨config, []⟩ s = parse config.maxPayload whole ∧
      readAll ⟨config, []⟩ s = parse config.maxPayload whole ∧
      ∃ left, Cut config.maxPayload whole (parse config.maxPayload whole).1 left ∧
        (parse config.maxPayload whole).2 = verdict config.maxPayload left := by
  have hw : pending ⟨config, []⟩ s = whole := hs.whole_eq
  refine ⟨?_, ?_, parse_cut _ _⟩
  · rw [pollAll_eq_parse hc hs.passing, hw]
  · rw [readAll_eq_parse hc hs.passing, hw]

/-- A header cut in two by a timeout, two frames in one read, and a third frame that stays short. -/
def stalling : Source where
  coming := [.bytes [1], .failed ⟨.timedOut, "timed out"⟩, .bytes [0, 7, 0],
    .failed ⟨.interrupted, "interrupted"⟩, .bytes [0, 2, 0, 9]]

theorem delivery_eq_parse_of_stalling :
    stalling.Serves [1, 0, 7, 0, 0, 2, 0, 9] ∧
      pollAll ⟨{ maxPayload := 2, trailing := .carryOver }, []⟩ stalling =
        ([⟨[7]⟩, ⟨[]⟩], .truncated 3) ∧
      readAll ⟨{ maxPayload := 2, trailing := .carryOver }, []⟩ stalling =
        ([⟨[7]⟩, ⟨[]⟩], .truncated 3) := by
  have hs : stalling.Serves [1, 0, 7, 0, 0, 2, 0, 9] :=
    ⟨by simp [stalling, ReadOutcome.Passing], rfl⟩
  have hp : parse 2 [1, 0, 7, 0, 0, 2, 0, 9] = ([⟨[7]⟩, ⟨[]⟩], .truncated 3) := by
    simp [parse, headerSize]
  obtain ⟨hpoll, hread, _⟩ :=
    delivery_eq_parse { maxPayload := 2, trailing := .carryOver } rfl _ _ hs
  exact ⟨hs, hpoll.trans hp, hread.trans hp⟩

end Reader

end StreamRelay.Frame
