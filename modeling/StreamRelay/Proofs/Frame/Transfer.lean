import StreamRelay.Proofs.Frame.Delivery
import StreamRelay.Proofs.Frame.Sending

/-!
# From a writer to a reader

A stream that takes a part of what it is offered, and at times is interrupted, still takes every
frame whole. Whoever reads what it took, however it is cut again, gets the payloads in their order.
-/

namespace StreamRelay.Frame

def WriteOutcome.Willing : WriteOutcome → Prop
  | .accept limit => limit ≠ some 0
  | .failed cause => cause.isInterrupted = true

namespace Sink

structure Willing (s : Sink) : Prop where
  writes : ∀ o ∈ s.writesComing, o.Willing
  flushes : ∀ cause, some cause ∈ s.flushesComing → cause.isInterrupted = true

def sendAll (s : Sink) (maxPayload : Nat) : List Bytes → List (Except Error Unit) × Sink
  | [] => ([], s)
  | payload :: rest =>
    let (answer, s) := s.send maxPayload payload
    let (answers, s) := s.sendAll maxPayload rest
    (answer :: answers, s)

variable {s : Sink}

theorem writeAll_of_willing {coming : List WriteOutcome} (hw : ∀ o ∈ coming, o.Willing)
    {pending : Bytes} (hp : pending ≠ []) :
    ∃ s', s.writeAll pending coming = (.ok (), s') ∧ s'.taken = s.taken ++ pending ∧
      s'.flushesComing = s.flushesComing ∧ s'.writesComing ⊆ coming := by
  -- every call uses up an outcome, and what it leaves is offered again
  induction coming generalizing s pending with
  | nil => exact ⟨_, rfl, rfl, rfl, List.Subset.refl _⟩
  | cons o rest ih =>
    obtain ⟨ho, hrest⟩ := List.forall_mem_cons.mp hw
    cases o with
    | failed cause =>
      have hcause : cause.isInterrupted = true := ho
      obtain ⟨s', hs', htaken, hflushes, hcoming⟩ := ih (s := s.took [] rest) hrest hp
      refine ⟨s', ?_, ?_, hflushes, List.subset_cons_of_subset _ hcoming⟩
      · rw [writeAll, if_pos hcause, hs']
      · simpa [took] using htaken
    | accept limit =>
      let n := min (limit.getD pending.length) pending.length
      have hlength : 0 < pending.length := List.length_pos_iff.mpr hp
      have hn : n ≠ 0 := by
        have hlimit : limit.getD pending.length ≠ 0 := by
          cases limit with
          | none => exact Nat.pos_iff_ne_zero.mp hlength
          | some k => exact fun h => ho (congrArg some h)
        simp only [n]
        omega
      by_cases hall : n = pending.length
      · refine ⟨s.took pending rest, ?_, rfl, rfl, List.subset_cons_self _ _⟩
        rw [writeAll, if_neg hn, if_pos hall]
        simp only [n] at hall
        rw [hall, List.take_length]
      · have hle : n ≤ pending.length := Nat.min_le_right _ _
        have hbehind : pending.drop n ≠ [] := by
          intro h
          have := List.drop_eq_nil_iff.mp h
          omega
        obtain ⟨s', hs', htaken, hflushes, hcoming⟩ :=
          ih (s := s.took (pending.take n) rest) hrest hbehind
        refine ⟨s', ?_, ?_, hflushes, List.subset_cons_of_subset _ hcoming⟩
        · rw [writeAll, if_neg hn, if_neg hall, hs']
        · rw [htaken, took, List.append_assoc, List.take_append_drop]

theorem flushAll_of_willing {coming : List (Option SystemError)}
    (hf : ∀ cause, some cause ∈ coming → cause.isInterrupted = true) :
    ∃ s', s.flushAll coming = (.ok (), s') ∧ s'.taken = s.taken ∧
      s'.writesComing = s.writesComing ∧ s'.flushesComing ⊆ coming := by
  induction coming generalizing s with
  | nil => exact ⟨_, rfl, rfl, rfl, List.Subset.refl _⟩
  | cons outcome rest ih =>
    cases outcome with
    | none => exact ⟨_, rfl, rfl, rfl, List.subset_cons_self _ _⟩
    | some cause =>
      have hcause := hf cause List.mem_cons_self
      obtain ⟨s', hs', htaken, hwrites, hcoming⟩ :=
        ih (s := { s with flushesComing := rest, flushes := s.flushes + 1 })
          fun cause h => hf cause (List.mem_cons_of_mem _ h)
      refine ⟨s', ?_, htaken, hwrites, List.subset_cons_of_subset _ hcoming⟩
      rw [flushAll, if_pos hcause, hs']

theorem Willing.send (h : s.Willing) {max : Nat} {payload : Bytes} (hm : payload.length ≤ max)
    (hw : payload.length ≤ wireMaxPayload) :
    ∃ s', s.send max payload = (.ok (), s') ∧ s'.taken = s.taken ++ wire payload ∧ s'.Willing := by
  have hwire : wire payload ≠ [] := by simp [wire, Bytes.ofUInt16]
  obtain ⟨s₁, hs₁, htaken₁, hflushes₁, hcoming₁⟩ := writeAll_of_willing (s := s) h.writes hwire
  have hflushes : ∀ cause, some cause ∈ s₁.flushesComing → cause.isInterrupted = true := by
    rw [hflushes₁]
    exact h.flushes
  obtain ⟨s₂, hs₂, htaken₂, hwrites₂, hcoming₂⟩ := flushAll_of_willing (s := s₁) hflushes
  refine ⟨s₂, ?_, htaken₂.trans htaken₁, ⟨?_, ?_⟩⟩
  · rw [Sink.send, if_neg (Nat.not_lt.mpr hm), encode, if_neg (Nat.not_lt.mpr hw)]
    dsimp only
    rw [hs₁]
    exact hs₂
  · intro o ho
    rw [hwrites₂] at ho
    exact h.writes o (hcoming₁ ho)
  · intro cause hc
    have hc := hcoming₂ hc
    rw [hflushes₁] at hc
    exact h.flushes cause hc

theorem Willing.sendAll (h : s.Willing) {max : Nat} {payloads : List Bytes}
    (hp : ∀ payload ∈ payloads, payload.length ≤ max ∧ payload.length ≤ wireMaxPayload) :
    (s.sendAll max payloads).1 = List.replicate payloads.length (.ok ()) ∧
      (s.sendAll max payloads).2.taken = s.taken ++ payloads.flatMap wire := by
  induction payloads generalizing s with
  | nil => exact ⟨rfl, (List.append_nil _).symm⟩
  | cons payload rest ih =>
    obtain ⟨⟨hm, hw⟩, hrest⟩ := List.forall_mem_cons.mp hp
    obtain ⟨s', hs', htaken, hwilling⟩ := h.send hm hw
    obtain ⟨hanswers, hall⟩ := ih hwilling hrest
    rw [Sink.sendAll, hs']
    dsimp only
    rw [hanswers, hall, htaken, List.append_assoc]
    exact ⟨rfl, rfl⟩

end Sink

/-- What a writer does to its stream in a row of sendings is what sending without a buffer does, with
the same answers. -/
theorem Writer.sendings_eq (w : Writer) (payloads : List Bytes) :
    w.stream.sendAll w.maxPayload payloads =
      ((w.sendings payloads).1.map (·.answer), (w.sendings payloads).2.stream) := by
  induction payloads generalizing w with
  | nil => rfl
  | cons payload payloads ih =>
    rcases hsend : w.send payload with ⟨answer, w₁⟩
    obtain ⟨_, hmade, _⟩ := send_exact hsend
    have hlater := ih w₁
    rw [hmade.maxPayload_eq] at hlater
    rw [Sink.sendAll, w.send_eq payload, sendings, hsend]
    dsimp only
    rw [hlater, List.map_cons]

theorem parse_flatMap_wire {max : Nat} {payloads : List Bytes}
    (hp : ∀ payload ∈ payloads, payload.length ≤ max ∧ payload.length ≤ wireMaxPayload) :
    parse max (payloads.flatMap wire) = (payloads.map Frame.mk, .connectionClosed) := by
  have hframes : ∀ f ∈ payloads.map Frame.mk,
      f.payload.length ≤ max ∧ f.payload.length ≤ wireMaxPayload := by
    intro f hf
    obtain ⟨payload, hmem, rfl⟩ := List.mem_map.mp hf
    exact hp payload hmem
  have hcut := (cut_frames hframes).parse_eq
  rwa [List.flatMap_map] at hcut

/-- No two lists of payloads have the same bytes. -/
theorem flatMap_wire_inj {a b : List Bytes} (ha : ∀ payload ∈ a, payload.length ≤ wireMaxPayload)
    (hb : ∀ payload ∈ b, payload.length ≤ wireMaxPayload) (h : a.flatMap wire = b.flatMap wire) :
    a = b := by
  have hparse := parse_flatMap_wire fun payload hp => ⟨ha payload hp, ha payload hp⟩
  rw [h, parse_flatMap_wire fun payload hp => ⟨hb payload hp, hb payload hp⟩] at hparse
  have hframes := congrArg (List.map Frame.payload) (Prod.mk.inj hparse).1
  simpa [List.map_map, Function.comp_def] using hframes.symm

/-- Payloads within both limits are all sent, however the stream takes them, and whoever reads the
bytes that it took gets these payloads and then the end. No other payloads have these bytes. -/
theorem sendAll_delivers (config : Config) (payloads : List Bytes)
    (hp : ∀ payload ∈ payloads, payload.length ≤ min config.maxPayload wireMaxPayload)
    (writes : List WriteOutcome) (flushes : List (Option SystemError))
    (hs : Sink.Willing { writesComing := writes, flushesComing := flushes }) :
    let sink : Sink := { writesComing := writes, flushesComing := flushes }
    let sent := sink.sendAll config.maxPayload payloads
    sent.1 = List.replicate payloads.length (.ok ()) ∧
    sent.2.taken = payloads.flatMap wire ∧
    (∀ s : Source, s.Serves sent.2.taken →
      Reader.pollAll ⟨{ config with trailing := .carryOver }, []⟩ s =
        (payloads.map Frame.mk, .connectionClosed) ∧
      Reader.readAll ⟨{ config with trailing := .carryOver }, []⟩ s =
        (payloads.map Frame.mk, .connectionClosed)) ∧
    ∀ others : List Bytes, (∀ payload ∈ others, payload.length ≤ wireMaxPayload) →
      others.flatMap wire = sent.2.taken → others = payloads := by
  intro sink sent
  have hp : ∀ payload ∈ payloads,
      payload.length ≤ config.maxPayload ∧ payload.length ≤ wireMaxPayload := by
    intro payload hmem
    exact Nat.le_min.mp (hp payload hmem)
  obtain ⟨hanswers, htaken⟩ := hs.sendAll hp
  have htaken : sent.2.taken = payloads.flatMap wire := htaken
  refine ⟨hanswers, htaken, ?_, ?_⟩
  · intro s hserves
    obtain ⟨hpoll, hread, _⟩ :=
      Reader.delivery_eq_parse { config with trailing := .carryOver } rfl _ s hserves
    rw [htaken] at hpoll hread
    exact ⟨hpoll.trans (parse_flatMap_wire hp), hread.trans (parse_flatMap_wire hp)⟩
  · intro others hothers h
    rw [htaken] at h
    exact flatMap_wire_inj hothers (fun payload hmem => (hp payload hmem).2) h

theorem sendAll_delivers_piecewise :
    let sink : Sink :=
      { writesComing := [.accept (some 1), .failed ⟨.interrupted, "interrupted"⟩, .accept (some 2)]
        flushesComing := [some ⟨.interrupted, "interrupted"⟩, none] }
    let source : Source := ⟨[.bytes [1, 0], .bytes [7, 0, 0]], 0⟩
    (sink.sendAll 1 [[7], []]).1 = [.ok (), .ok ()] ∧
    (sink.sendAll 1 [[7], []]).2.taken = [1, 0, 7, 0, 0] ∧
    Reader.readAll ⟨{ maxPayload := 1, trailing := .carryOver }, []⟩ source =
      ([⟨[7]⟩, ⟨[]⟩], .connectionClosed) := by
  intro sink source
  have hsink : sink.Willing :=
    ⟨by simp [sink, WriteOutcome.Willing, SystemError.isInterrupted],
      by simp [sink, SystemError.isInterrupted]⟩
  obtain ⟨hanswers, htaken, hread, _⟩ :=
    sendAll_delivers { maxPayload := 1 } [[7], []] (by decide) _ _ hsink
  have hwire : [[7], []].flatMap wire = [1, 0, 7, 0, 0] := by decide
  have hserves : source.Serves [1, 0, 7, 0, 0] :=
    ⟨by simp [source, ReadOutcome.Passing], rfl⟩
  refine ⟨hanswers, htaken.trans hwire, ?_⟩
  exact (hread source (by rw [htaken, hwire]; exact hserves)).2

end StreamRelay.Frame
