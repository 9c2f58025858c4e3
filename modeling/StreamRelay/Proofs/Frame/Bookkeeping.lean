import StreamRelay.Proofs.Frame.Grammar

/-!
# The books of a reader

Whatever calls are made on a reader, what the stream has served are the frames that it has given and
what it keeps. It keeps a bounded amount: a read is made only while a frame within the limit is
incomplete, and brings no more than its room. A violation stays the answer, and a read that fails
leaves everything as it was.
-/

namespace StreamRelay.Frame

/-- A buffer with an incomplete frame is shorter than the longest frame. -/
theorem length_le_of_decode_none {max : Nat} {trailing : Trailing} {buffer : Bytes}
    (h : decode max trailing buffer = .ok none) : buffer.length ≤ min max wireMaxPayload + 1 := by
  unfold decode at h
  cases hn : announced? buffer with
  | none =>
    match buffer, hn with
    | [], _ => exact Nat.zero_le _
    | [_], _ => exact Nat.le_add_left 1 _
  | some n =>
    obtain ⟨hw, _⟩ := announced?_eq_some hn
    simp only [hn, List.length_drop, headerSize] at h
    split at h
    · contradiction
    · split at h
      · omega
      · split at h <;> simp at h

def Source.Roomy (s : Source) : Prop := ∀ b, .bytes b ∈ s.coming → b.length ≤ readRoom

theorem length_le_of_mem_pieces {room : Nat} (hroom : 0 < room) {b piece : Bytes}
    (h : piece ∈ pieces room b) : piece.length ≤ room := by
  fun_induction pieces room b with
  | case1 b hcut ih =>
    rcases List.mem_cons.mp h with rfl | h
    · exact List.length_take_le _ _
    · exact ih h
  | case2 b hwhole =>
    obtain rfl := List.mem_singleton.mp h
    omega

theorem roomy_ofArrivals (arrivals : List ReadOutcome) : (Source.ofArrivals arrivals).Roomy := by
  intro b hb
  obtain ⟨o, _, ho⟩ := List.mem_flatMap.mp hb
  cases o with
  | failed cause => simp at ho
  | bytes whole =>
    obtain ⟨piece, hpiece, he⟩ := List.mem_map.mp ho
    cases he
    exact length_le_of_mem_pieces (by decide) hpiece

theorem Source.Roomy.read {s s' : Source} {o : ReadOutcome} (hs : s.Roomy) (h : s.read = (o, s')) :
    s'.Roomy ∧ ∀ b, o = .bytes b → b.length ≤ readRoom := by
  rcases Reader.read_coming h with hc | ⟨_, hc', rfl⟩
  · refine ⟨?_, ?_⟩
    · intro b hb
      exact hs b (hc ▸ List.mem_cons_of_mem _ hb)
    · rintro b rfl
      exact hs b (hc ▸ List.mem_cons_self)
  · refine ⟨?_, ?_⟩
    · intro b hb
      simp [hc'] at hb
    · rintro b hb
      cases hb
      exact Nat.zero_le _

namespace Reader

inductive Call
  | poll
  | read
  deriving DecidableEq

def call (r : Reader) (s : Source) : Call → Except Error (Option Frame) × Reader × Source
  | .poll => r.poll s
  | .read =>
    let (answer, r, s) := r.read s
    (answer.map some, r, s)

def callAll (r : Reader) (s : Source) :
    List Call → List (Except Error (Option Frame)) × Reader × Source
  | [] => ([], r, s)
  | c :: calls =>
    let (answer, r, s) := r.call s c
    let (answers, r, s) := r.callAll s calls
    (answer :: answers, r, s)

def given : Except Error (Option Frame) → List Frame
  | .ok (some f) => [f]
  | _ => []

def bound (config : Config) : Nat := min config.maxPayload wireMaxPayload + 1 + readRoom

/-- On the way from one moment to another the reader gave these frames: they and what it keeps are
what it kept before and what the stream has served since. -/
structure Books (r : Reader) (s : Source) (frames : List Frame) (r' : Reader) (s' : Source) :
    Prop where
  config_eq : r'.config = r.config
  balance : ∃ used, s.coming = used ++ s'.coming ∧
    r.buffer ++ used.flatMap ReadOutcome.served =
      frames.flatMap (fun f => wire f.payload) ++ r'.buffer
  encoded : ∀ f ∈ frames, encode f.payload = .ok (wire f.payload)
  bounded : s.Roomy → r.buffer.length ≤ bound r.config →
    s'.Roomy ∧ r'.buffer.length ≤ bound r.config

namespace Books

variable {r r₁ r₂ : Reader} {s s₁ s₂ : Source} {frames more : List Frame}

theorem refl (r : Reader) (s : Source) : Books r s [] r s where
  config_eq := rfl
  balance := ⟨[], rfl, by simp⟩
  encoded := by simp
  bounded hs hr := ⟨hs, hr⟩

theorem trans (h₁ : Books r s frames r₁ s₁) (h₂ : Books r₁ s₁ more r₂ s₂) :
    Books r s (frames ++ more) r₂ s₂ where
  config_eq := h₂.config_eq.trans h₁.config_eq
  balance := by
    obtain ⟨used₁, hs₁, hb₁⟩ := h₁.balance
    obtain ⟨used₂, hs₂, hb₂⟩ := h₂.balance
    refine ⟨used₁ ++ used₂, ?_, ?_⟩
    · rw [hs₁, hs₂, List.append_assoc]
    · calc r.buffer ++ (used₁ ++ used₂).flatMap ReadOutcome.served
        _ = r.buffer ++ used₁.flatMap ReadOutcome.served ++
            used₂.flatMap ReadOutcome.served := by
          rw [List.flatMap_append, List.append_assoc]
        _ = frames.flatMap (fun f => wire f.payload) ++
            (r₁.buffer ++ used₂.flatMap ReadOutcome.served) := by
          rw [hb₁, List.append_assoc]
        _ = (frames ++ more).flatMap (fun f => wire f.payload) ++ r₂.buffer := by
          rw [hb₂, List.flatMap_append, List.append_assoc]
  encoded := List.forall_mem_append.mpr ⟨h₁.encoded, h₂.encoded⟩
  bounded hs hr := by
    obtain ⟨hs₁, hr₁⟩ := h₁.bounded hs hr
    have h := h₂.bounded hs₁ (h₁.config_eq ▸ hr₁)
    rwa [h₁.config_eq] at h

/-- Cutting a frame off the buffer. -/
theorem decodeBuffered (r : Reader) (s : Source) :
    Books r s (given r.decodeBuffered.1) r.decodeBuffered.2 s := by
  by_cases hd : ∃ f rest,
      decode r.config.maxPayload r.config.trailing r.buffer = .ok (some (f, rest))
  · obtain ⟨f, rest, hd⟩ := hd
    obtain ⟨hbuffer, _, hw⟩ := decode_eq_frame hd
    rw [decodeBuffered_of_frame hd]
    refine ⟨rfl, ⟨[], rfl, ?_⟩, ?_, ?_⟩
    · simpa [given] using hbuffer
    · simpa [given] using encode_eq_ok.mpr ⟨hw, rfl⟩
    · intro hs hr
      refine ⟨hs, ?_⟩
      rw [hbuffer, List.length_append] at hr
      dsimp only
      omega
  · have hsame := decodeBuffered_of_ne fun f rest h => hd ⟨f, rest, h⟩
    have hnone : given r.decodeBuffered.1 = [] := by
      unfold Reader.decodeBuffered
      split
      · rfl
      · rfl
      · rename_i f rest h
        exact absurd ⟨f, rest, h⟩ hd
    rw [hsame, hnone]
    exact refl r s

/-- A read that comes to nothing. -/
theorem read_nothing {o : ReadOutcome} (h : s.read = (o, s₁)) (ho : o.served = []) :
    Books r s [] r s₁ where
  config_eq := rfl
  balance := by
    rcases read_coming h with hc | ⟨hc, hc', _⟩
    · exact ⟨[o], hc, by simp [ho]⟩
    · exact ⟨[], by rw [hc, hc', List.append_nil], by simp⟩
  encoded := by simp
  bounded hs hr := ⟨(hs.read h).1, hr⟩

/-- A read into a buffer with an incomplete frame. -/
theorem read_bytes {b : Bytes}
    (hd : decode r.config.maxPayload r.config.trailing r.buffer = .ok none) (hb : b ≠ [])
    (h : s.read = (.bytes b, s₁)) : Books r s [] { r with buffer := r.buffer ++ b } s₁ where
  config_eq := rfl
  balance := by
    rcases read_coming h with hc | ⟨_, _, ho⟩
    · exact ⟨[.bytes b], hc, by simp [ReadOutcome.served]⟩
    · exact absurd (ReadOutcome.bytes.inj ho) hb
  encoded := by simp
  bounded hs _ := by
    obtain ⟨hs₁, hroom⟩ := hs.read h
    have hshort := length_le_of_decode_none hd
    have hroom := hroom b rfl
    refine ⟨hs₁, ?_⟩
    rw [List.length_append, bound]
    omega

end Books

section
variable {r r' : Reader} {s s' : Source} {e : Error}

theorem poll_books {a : Except Error (Option Frame)} (h : r.poll s = (a, r', s')) :
    Books r s (given a) r' s' := by
  cases poll_polled h with
  | broken hd => exact .refl r s
  | found hd =>
    have hbooks := Books.decodeBuffered r s
    rwa [decodeBuffered_of_frame hd] at hbooks
  | ended hd hs => exact .read_nothing hs rfl
  | failed hd hs =>
    have hnone : ∀ cause : SystemError,
        given (if cause.isInterrupted then .ok none else .error (.io cause)) = [] := by
      intro cause
      split <;> rfl
    rw [hnone]
    exact .read_nothing hs rfl
  | arrived hd hb hs => exact (Books.read_bytes hd hb hs).trans (.decodeBuffered _ _)

theorem read_books {a : Except Error Frame} (h : r.read s = (a, r', s')) :
    Books r s (given (a.map some)) r' s' := by
  fun_induction read r s with
  | case1 r s f r₁ s₁ hp =>
    cases h
    exact poll_books hp
  | case2 r s e r₁ s₁ hp =>
    cases h
    exact poll_books hp
  | case3 r s r₁ s₁ hp ih => exact (poll_books hp).trans (ih h)

theorem call_books (r : Reader) (s : Source) (c : Call) :
    Books r s (given (r.call s c).1) (r.call s c).2.1 (r.call s c).2.2 := by
  cases c with
  | poll => exact poll_books rfl
  | read => exact read_books rfl

theorem callAll_books (r : Reader) (s : Source) (calls : List Call) :
    Books r s ((r.callAll s calls).1.flatMap given) (r.callAll s calls).2.1
      (r.callAll s calls).2.2 := by
  induction calls generalizing r s with
  | nil => exact .refl r s
  | cons c calls ih => exact (call_books r s c).trans (ih _ _)

theorem decodeBuffered_error (h : r.decodeBuffered.1 = .error e) :
    decode r.decodeBuffered.2.config.maxPayload r.decodeBuffered.2.config.trailing
      r.decodeBuffered.2.buffer = .error e := by
  unfold decodeBuffered at h ⊢
  cases hd : decode r.config.maxPayload r.config.trailing r.buffer with
  | error e' =>
    simp only [hd] at h ⊢
    rw [Except.error.inj h]
  | ok found => cases found <;> simp [hd] at h

/-- A reader that has found a violation has it in its buffer. -/
theorem poll_violation (h : r.poll s = (.error e, r', s')) (he : e.isProtocolViolation = true) :
    decode r'.config.maxPayload r'.config.trailing r'.buffer = .error e := by
  generalize ha : (Except.error e : Except Error (Option Frame)) = a at h
  cases poll_polled h with
  | broken hd => rw [hd, Except.error.inj ha]
  | found hd => contradiction
  | ended hd hs =>
    obtain rfl := Except.error.inj ha
    unfold endOfStream at he
    split at he <;> simp [Error.isProtocolViolation] at he
  | failed hd hs =>
    split at ha
    · contradiction
    · obtain rfl := Except.error.inj ha
      simp [Error.isProtocolViolation] at he
  | arrived hd hb hs => exact decodeBuffered_error ha.symm

theorem read_violation (h : r.read s = (.error e, r', s')) (he : e.isProtocolViolation = true) :
    decode r'.config.maxPayload r'.config.trailing r'.buffer = .error e := by
  fun_induction read r s with
  | case1 r s f r₁ s₁ hp => simp at h
  | case2 r s e' r₁ s₁ hp =>
    cases h
    exact poll_violation hp he
  | case3 r s r₁ s₁ hp ih => exact ih h

theorem call_violation {c : Call} (h : (r.call s c).1 = .error e)
    (he : e.isProtocolViolation = true) :
    decode (r.call s c).2.1.config.maxPayload (r.call s c).2.1.config.trailing
      (r.call s c).2.1.buffer = .error e := by
  cases c with
  | poll => exact poll_violation (Prod.ext h rfl) he
  | read =>
    have hread : (r.read s).1 = .error e := by
      simp only [call] at h
      cases ha : (r.read s).1 with
      | error e' =>
        rw [ha] at h
        rw [Except.error.inj h]
      | ok f => simp [ha, Except.map] at h
    exact read_violation (Prod.ext hread rfl) he

theorem poll_of_violation
    (hd : decode r.config.maxPayload r.config.trailing r.buffer = .error e) (s : Source) :
    r.poll s = (.error e, r, s) := by
  simp only [poll, decodeBuffered, hd]

/-- Every later call gives it again, and makes no read. -/
theorem callAll_of_violation
    (hd : decode r.config.maxPayload r.config.trailing r.buffer = .error e) (s : Source)
    (calls : List Call) :
    r.callAll s calls = (List.replicate calls.length (.error e), r, s) := by
  have hcall : ∀ c, r.call s c = (.error e, r, s) := by
    intro c
    cases c with
    | poll => exact poll_of_violation hd s
    | read =>
      rw [call, read_of_error (poll_of_violation hd s)]
      rfl
  induction calls with
  | nil => rfl
  | cons c calls ih =>
    simp only [callAll, hcall, ih]
    rfl

/-- The front of the buffer is a frame within the limit, or declares more than that. -/
def Decided (r : Reader) : Prop :=
  (∃ payload rest, StartsWith r.config.maxPayload r.buffer payload rest) ∨
    ∃ n, Declares r.buffer n ∧ r.config.maxPayload < n

theorem decode_eq_none_iff_not_decided :
    decode r.config.maxPayload r.config.trailing r.buffer = .ok none ↔ ¬ r.Decided := by
  simp only [decode_eq_none_iff, Decided, not_or, not_exists, not_and, Nat.not_lt]

theorem read_reads {o : ReadOutcome} (h : s.read = (o, s')) : s'.reads = s.reads + 1 := by
  unfold Source.read at h
  cases hc : s.coming <;> simp only [hc, Prod.mk.injEq] at h <;> rw [← h.2]

theorem poll_reads {a : Except Error (Option Frame)} (h : r.poll s = (a, r', s')) :
    s'.reads = s.reads ∧ s' = s ∨ s'.reads = s.reads + 1 ∧ ¬ r.Decided := by
  cases poll_polled h with
  | broken hd => exact .inl ⟨rfl, rfl⟩
  | found hd => exact .inl ⟨rfl, rfl⟩
  | ended hd hs => exact .inr ⟨read_reads hs, decode_eq_none_iff_not_decided.mp hd⟩
  | failed hd hs => exact .inr ⟨read_reads hs, decode_eq_none_iff_not_decided.mp hd⟩
  | arrived hd hb hs => exact .inr ⟨read_reads hs, decode_eq_none_iff_not_decided.mp hd⟩

/-- A read that fails leaves the reader as it was. -/
theorem poll_of_failed {cause : SystemError} {rest : List ReadOutcome} (hr : ¬ r.Decided)
    (hs : s.coming = .failed cause :: rest) :
    r.poll s =
      (if cause.isInterrupted then .ok none else .error (.io cause), r, ⟨rest, s.reads + 1⟩) := by
  have hread : s.read = (.failed cause, ⟨rest, s.reads + 1⟩) := by
    simp only [Source.read, hs]
  rw [poll_of_incomplete (decode_eq_none_iff_not_decided.mpr hr), hread]
  by_cases hi : cause.isInterrupted <;> simp [absorb, hi]

theorem read_of_failed {cause : SystemError} {rest : List ReadOutcome} (hr : ¬ r.Decided)
    (hs : s.coming = .failed cause :: rest) :
    r.read s =
      if cause.isInterrupted then r.read ⟨rest, s.reads + 1⟩
      else (.error (.io cause), r, ⟨rest, s.reads + 1⟩) := by
  have hpoll := poll_of_failed hr hs
  by_cases hi : cause.isInterrupted
  · rw [if_pos hi] at hpoll ⊢
    exact read_of_none hpoll
  · rw [if_neg hi] at hpoll ⊢
    exact read_of_error hpoll

end

/-- Whatever is polled and read, and whatever arrives: what the stream has served by the time a call
returns are the encodings of the frames given so far and then the buffer, which is bounded. A poll
makes at most one read, and none while the buffer decides the answer; a violation is the answer to
every later call, without a read; and a read that fails changes nothing that was kept. -/
theorem callAll_accounted (config : Config) (arrivals : List ReadOutcome) (calls : List Call) :
    let start := Source.ofArrivals arrivals
    let result := callAll ⟨config, []⟩ start calls
    let frames := result.1.flatMap given
    let r := result.2.1
    let s := result.2.2
    (∃ used, start.coming = used ++ s.coming ∧
      used.flatMap ReadOutcome.served = frames.flatMap (fun f => wire f.payload) ++ r.buffer) ∧
    (∀ f ∈ frames, encode f.payload = .ok (wire f.payload)) ∧
    r.config = config ∧
    r.buffer.length ≤ min config.maxPayload wireMaxPayload + 1 + readRoom ∧
    (r.poll s).2.2.reads ≤ s.reads + 1 ∧ (r.Decided → (r.poll s).2.2 = s) ∧
    (∀ c e, (r.call s c).1 = .error e → e.isProtocolViolation = true → ∀ later,
      (r.call s c).2.1.callAll (r.call s c).2.2 later =
        (List.replicate later.length (.error e), (r.call s c).2)) ∧
    ∀ cause rest, ¬ r.Decided → s.coming = .failed cause :: rest →
      r.poll s =
        (if cause.isInterrupted then .ok none else .error (.io cause), r, ⟨rest, s.reads + 1⟩) ∧
      r.read s =
        if cause.isInterrupted then r.read ⟨rest, s.reads + 1⟩
        else (.error (.io cause), r, ⟨rest, s.reads + 1⟩) := by
  intro start result frames r s
  have hbooks : Books ⟨config, []⟩ start frames r s := callAll_books _ _ calls
  have hbounded := hbooks.bounded (roomy_ofArrivals arrivals) (Nat.zero_le _)
  have hreads : (r.poll s).2.2.reads = s.reads ∧ (r.poll s).2.2 = s ∨
      (r.poll s).2.2.reads = s.reads + 1 ∧ ¬ r.Decided := poll_reads rfl
  refine ⟨hbooks.balance, hbooks.encoded, hbooks.config_eq, hbounded.2, ?_, ?_, ?_, ?_⟩
  · rcases hreads with ⟨h, _⟩ | ⟨h, _⟩
    · exact h ▸ Nat.le_succ _
    · exact Nat.le_of_eq h
  · intro hdecided
    rcases hreads with ⟨_, h⟩ | ⟨_, h⟩
    · exact h
    · exact absurd hdecided h
  · intro c e h he later
    exact callAll_of_violation (call_violation h he) _ later
  · intro cause rest hr hs
    exact ⟨poll_of_failed hr hs, read_of_failed hr hs⟩

end Reader

end StreamRelay.Frame
