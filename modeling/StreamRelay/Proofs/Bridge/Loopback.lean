import StreamRelay.Bridge
import StreamRelay.Proofs.Egress.Pass
import StreamRelay.Proofs.Frame.Delivery
import StreamRelay.Proofs.Ingress.Handling

/-!
# From a connection to the sink and back

One connection feeds an output stream through the link of an input stream, and passes of the egress
side empty the output ring at any moments between its turns. What the sink got for the output stream,
followed by what its ring still holds, is at every moment what the frames for the input stream
brought, in their order and without those that met a full ring.
-/

namespace StreamRelay

/-- The largest payload that valid settings admit makes up a whole frame with its header. -/
theorem Settings.maxPayload_add_headerSize {s : Settings} (h : s.validate = .ok ()) :
    s.frameConfig.maxPayload + Frame.headerSize = s.maxFrame := by
  have hpayload : s.frameConfig.maxPayload =
      min (s.maxFrame - Frame.headerSize) Frame.wireMaxPayload := rfl
  unfold validate at h
  split at h
  · contradiction
  · split at h
    · contradiction
    · omega

namespace Region

variable {r r' : Region} {i o : StreamId}

def isFull (r : Region) (c : Channel) : Bool :=
  ((r.ring? c).map fun ring => decide (ring.capacity ≤ ring.parked.length)).getD false

/-- What is submitted on one stream, and on no other one, goes to an output stream. -/
structure Feeds (r : Region) (i o : StreamId) : Prop where
  input : (r.ring? ⟨i, .input⟩).isSome
  linked : r.linked? i = some o
  only : ∀ j, r.linked? j = some o → j = i

theorem Feeds.moved (h : r.Feeds i o) (hm : Moved r r') : r'.Feeds i o where
  input := (hm.ring?_isSome_eq _).trans h.input
  linked := by
    rw [linked?, hm.links_eq]
    exact h.linked
  only j hj := by
    rw [linked?, hm.links_eq] at hj
    exact h.only j hj

theorem Feeds.target_eq_iff (h : r.Feeds i o) (j : StreamId) :
    r.target ⟨j, .input⟩ = ⟨o, .output⟩ ↔ j = i := by
  have htarget : ∀ j, r.target ⟨j, .input⟩ =
      (r.linked? j).elim ⟨j, .input⟩ (⟨·, .output⟩) := by
    intro j
    unfold target
    dsimp only
    cases r.linked? j <;> rfl
  rw [htarget]
  constructor
  · intro heq
    cases hl : r.linked? j with
    | none =>
      simp [hl] at heq
    | some output =>
      rw [hl] at heq
      have houtput : output = o := congrArg Channel.stream heq
      exact h.only j (houtput ▸ hl)
  · rintro rfl
    simp only [h.linked, Option.elim_some]

end Region

structure Handled where
  payload : Bytes
  full : Bool
  deriving DecidableEq

namespace Handled

def isFor (h : Handled) (i : StreamId) (slotSize : Nat) : Bool :=
  i.bytes.isPrefixOf h.payload && (h.payload.drop StreamId.size).length ≤ slotSize

def echo (h : Handled) (o : StreamId) : Envelope := ⟨o, h.payload.drop StreamId.size⟩

theorem isFor_iff {h : Handled} {i : StreamId} {slotSize : Nat} :
    h.isFor i slotSize = true ↔
      ∃ b, Envelope.split? h.payload = some b ∧ b.stream = i ∧ b.body.length ≤ slotSize := by
  unfold isFor
  rw [Bool.and_eq_true, List.isPrefixOf_iff_prefix, decide_eq_true_eq]
  cases hs : Envelope.split? h.payload with
  | none =>
    have hshort := Envelope.split?_eq_none hs
    constructor
    · rintro ⟨hfront, _⟩
      have hle := hfront.length_le
      rw [i.length_eq] at hle
      unfold StreamId.size at hshort
      omega
    · rintro ⟨b, hb, _⟩
      contradiction
  | some b =>
    obtain ⟨hpayload, hbody⟩ := Envelope.split?_eq_some hs
    have hfront : i.bytes <+: h.payload ↔ b.stream = i := by
      rw [hpayload]
      exact Envelope.bytes_prefix_encode_iff
    rw [← hbody, hfront]
    simp

end Handled

namespace Ingress.Handles
open Region

variable {r : Region} {payload : Bytes} {stats : Stats} {result : Outcome × Region × Stats}
  {i o : StreamId}

/-- The output ring gains the echo of a payload, unless the payload is not for the input stream or
the ring is full. Where the input stream has the only input channel, a submission fails for those
that are for it and meet a full ring, and for no others. -/
theorem output_effect (h : Handles r payload stats result) (hf : r.Feeds i o) :
    let f : Handled := ⟨payload, r.isFull ⟨o, .output⟩⟩
    result.2.1.parkedAt ⟨o, .output⟩ = r.parkedAt ⟨o, .output⟩ ++
      ([f].filter fun f => f.isFor i r.config.slotSize && !f.full).map (·.echo o) ∧
    ((∀ j, (r.ring? ⟨j, .input⟩).isSome → j = i) →
      result.2.2.droppedSubmitFailed = stats.droppedSubmitFailed +
        [f].countP fun f => f.isFor i r.config.slotSize && f.full) := by
  intro f
  have hnot : ∀ {b : Buffer}, Envelope.split? payload = some b → b.stream ≠ i →
      f.isFor i r.config.slotSize = false := by
    intro b hs hne
    rw [Bool.eq_false_iff, Ne, Handled.isFor_iff]
    rintro ⟨b', hs', hstream, _⟩
    cases hs.symm.trans hs'
    exact hne hstream
  cases h with
  | malformed hbad =>
    have hfor : f.isFor i r.config.slotSize = false := by
      rw [Bool.eq_false_iff, Ne, Handled.isFor_iff]
      rintro ⟨b, hs, _, hb⟩
      exact absurd hb (Nat.not_le.mpr (hbad b hs))
    exact ⟨by simp [hfor], fun _ => by simp [hfor, Stats.count]⟩
  | unknown hs hb hr =>
    rename_i b
    have hne : b.stream ≠ i := by
      intro hstream
      have hinput := hf.input
      rw [← hstream, hr] at hinput
      contradiction
    exact ⟨by simp [hnot hs hne], fun _ => by simp [hnot hs hne, Stats.count]⟩
  | full hs hb hi hr hfull =>
    rename_i b ring
    by_cases hstream : b.stream = i
    · have hfor : f.isFor i r.config.slotSize = true := Handled.isFor_iff.mpr ⟨b, hs, hstream, hb⟩
      have hisFull : f.full = true := by
        rw [(hf.target_eq_iff b.stream).mpr hstream] at hr
        simp [f, isFull, hr, hfull]
      exact ⟨by simp [hisFull], fun _ => by simp [hfor, hisFull, Stats.count]⟩
    · exact ⟨by simp [hnot hs hstream], fun honly => absurd (honly _ hi) hstream⟩
  | dispatched hs hb hi hr hroom =>
    rename_i b ring
    have hpark := parkedAt_park (r := r.record .acquired) hr b ⟨o, .output⟩
    by_cases hstream : b.stream = i
    · have htarget := (hf.target_eq_iff b.stream).mpr hstream
      have hfor : f.isFor i r.config.slotSize = true := Handled.isFor_iff.mpr ⟨b, hs, hstream, hb⟩
      have hisFull : f.full = false := by
        rw [htarget] at hr
        simp [f, isFull, hr, hroom]
      have hecho : f.echo o = ⟨o, b.body⟩ := by
        rw [(Envelope.split?_eq_some hs).2]
        rfl
      rw [if_pos htarget, htarget] at hpark
      exact ⟨by simpa [hfor, hisFull, hecho] using hpark, fun _ => by simp [hisFull, Stats.count]⟩
    · have htarget : r.target ⟨b.stream, .input⟩ ≠ ⟨o, .output⟩ :=
        fun h => hstream ((hf.target_eq_iff b.stream).mp h)
      rw [if_neg htarget] at hpark
      exact ⟨by simpa [hnot hs hstream] using hpark, fun honly => absurd (honly _ hi) hstream⟩

end Ingress.Handles

structure Loopback where
  isOpen : Bool
  connection : Ingress.Connection
  region : Region
  egress : Egress
  stats : Stats
  handled : List Handled := []

namespace Loopback
open Region

inductive Move
  | turn
  | pass
  deriving DecidableEq

def start (region : Region) (t thread : Thread) (s : Settings) (sink : DatagramSink)
    (source : Frame.Source) : Loopback :=
  let connection : Ingress.Connection := { thread, reader := { config := s.frameConfig }, source }
  let (isOpen, region, stats) := connection.accept (region.register t) {}
  { isOpen, connection, region, stats, egress := Egress.of sink s.maxFrame s.egressBatch }

def turn (o : StreamId) (l : Loopback) : Loopback :=
  if l.isOpen then
    let handled := match (l.connection.reader.poll l.connection.source).1 with
      | .ok (some frame) => l.handled ++ [⟨frame.payload, l.region.isFull ⟨o, .output⟩⟩]
      | _ => l.handled
    match l.connection.turn l.region l.stats with
    | (true, connection, region, stats) => { l with connection, region, stats, handled }
    | (false, connection, region, stats) =>
      let (region, stats) := connection.close region stats
      { l with isOpen := false, connection, region, stats, handled }
  else l

def pass (t : Thread) (l : Loopback) : Loopback :=
  let (region, egress, stats) := Egress.pass t l.region l.egress l.stats
  { l with region, egress, stats }

def move (t : Thread) (o : StreamId) (l : Loopback) : Move → Loopback
  | .turn => l.turn o
  | .pass => l.pass t

def run (t : Thread) (o : StreamId) (l : Loopback) (moves : List Move) : Loopback :=
  moves.foldl (move t o) l

def sentFor (l : Loopback) (o : StreamId) : List Bytes :=
  l.egress.sink.sent.filter fun datagram => o.bytes.isPrefixOf datagram

/-- What both sides rely on, and what their work amounts to so far. -/
structure Echoing (region : Region) (s : Settings) (t : Thread) (i o : StreamId) (l : Loopback) :
    Prop where
  sound : l.region.Sound
  feeds : l.region.Feeds i o
  config_eq : l.region.config = region.config
  ring?_isSome_eq : ∀ c, (l.region.ring? c).isSome = (region.ring? c).isSome
  registered : t ∈ l.region.registered
  serving : l.isOpen = true → l.connection.thread ∈ l.region.registered
  thread_ne : l.connection.thread ≠ t
  reader_eq : l.connection.reader.config = s.frameConfig
  scratch_eq : l.egress.scratch.length = s.maxFrame
  accepting : l.egress.sink.Accepting
  fits : ∀ b ∈ l.region.parkedAt ⟨o, .output⟩, b.encode.length ≤ s.maxFrame
  echoed : l.sentFor o ++ (l.region.parkedAt ⟨o, .output⟩).map Envelope.encode =
    (l.handled.filter fun f => f.isFor i region.config.slotSize && !f.full).map
      fun f => (f.echo o).encode
  refused : (∀ j, (region.ring? ⟨j, .input⟩).isSome → j = i) → l.stats.droppedSubmitFailed =
    l.handled.countP fun f => f.isFor i region.config.slotSize && f.full

namespace Echoing

variable {region : Region} {s : Settings} {t : Thread} {i o : StreamId} {l : Loopback}

/-- A poll without a frame changes neither the region nor how many submissions failed. -/
theorem advance (h : Echoing region s t i o l) {reader : Frame.Reader} {source : Frame.Source}
    {stats : Stats} (hreader : reader.config = l.connection.reader.config)
    (hstats : stats.droppedSubmitFailed = l.stats.droppedSubmitFailed) :
    Echoing region s t i o
      { l with connection := { l.connection with reader, source }, stats } :=
  { h with
    serving := h.serving
    reader_eq := hreader.trans h.reader_eq
    refused := fun honly => hstats.trans (h.refused honly) }

theorem close (h : Echoing region s t i o l) :
    Echoing region s t i o { l with
      isOpen := false
      region := l.region.unregister l.connection.thread
      stats := l.stats.count .connectionClosed } :=
  { h with
    sound := h.sound.registered _
    feeds := ⟨h.feeds.input, h.feeds.linked, h.feeds.only⟩
    registered := mem_unregister.mpr ⟨h.registered, h.thread_ne.symm⟩
    serving := fun hopen => absurd hopen Bool.false_ne_true }

/-- A frame that keeps to the limit has an echo that fits the scratch area. -/
theorem handle (h : Echoing region s t i o l) (hs : s.validate = .ok ()) {payload : Bytes}
    (hpayload : payload.length ≤ s.frameConfig.maxPayload) {stats : Stats}
    (hstats : stats.droppedSubmitFailed = l.stats.droppedSubmitFailed)
    {result : Ingress.Outcome × Region × Stats}
    (hr : Ingress.Handles l.region payload stats result) :
    Echoing region s t i o { l with
      region := result.2.1
      stats := result.2.2
      handled := l.handled ++ [⟨payload, l.region.isFull ⟨o, .output⟩⟩] } := by
  have hm := hr.moved
  have hmax := Settings.maxPayload_add_headerSize hs
  obtain ⟨hparked, hrefused⟩ := hr.output_effect h.feeds
  rw [h.config_eq] at hparked hrefused
  refine { h with
    sound := hm.sound h.sound
    feeds := h.feeds.moved hm
    config_eq := hm.config_eq.trans h.config_eq
    ring?_isSome_eq := fun c => (hm.ring?_isSome_eq c).trans (h.ring?_isSome_eq c)
    registered := hm.registered_eq ▸ h.registered
    serving := fun hopen => hm.registered_eq ▸ h.serving hopen
    fits := ?_, echoed := ?_, refused := ?_ }
  · intro b hb
    rw [hparked] at hb
    rcases List.mem_append.mp hb with hb | hb
    · exact h.fits b hb
    · obtain ⟨f, hf, rfl⟩ := List.mem_map.mp hb
      obtain ⟨hf, hfor⟩ := List.mem_filter.mp hf
      obtain rfl := List.mem_singleton.mp hf
      obtain ⟨hfor, _⟩ := Bool.and_eq_true_iff.mp hfor
      obtain ⟨b, hsplit, _⟩ := Handled.isFor_iff.mp hfor
      have hraw := congrArg List.length (Envelope.split?_eq_some hsplit).1
      rw [Envelope.length_encode] at hraw
      rw [Envelope.length_encode, Handled.echo, List.length_drop]
      dsimp only at hraw ⊢
      omega
  · have hsent := h.echoed
    rw [List.filter_append, List.map_append, ← hsent, List.append_assoc]
    have hqueue := congrArg (List.map Envelope.encode) hparked
    rw [List.map_append, List.map_map] at hqueue
    exact congrArg (l.sentFor o ++ ·) hqueue
  · intro honly
    have hinputs : ∀ j, (l.region.ring? ⟨j, .input⟩).isSome → j = i := fun j hj =>
      honly j ((h.ring?_isSome_eq _).symm.trans hj)
    dsimp only
    rw [hrefused hinputs, hstats, h.refused honly, List.countP_append]

/-- The oldest buffers move from the output ring to the sink, where no other datagram is for the
output stream. -/
theorem pass (h : Echoing region s t i o l) : Echoing region s t i o (l.pass t) := by
  obtain ⟨r', hr', heq⟩ := Egress.pass_eq h.sound h.registered l.egress l.stats
  let batch := Egress.taken l.region l.egress.batch l.region.outputs
  have hown : batch.filter (·.stream = o) =
      (l.region.parkedAt ⟨o, .output⟩).take l.egress.batch :=
    Egress.taken_outputs_filter h.sound l.egress.batch o
  obtain ⟨hscratch, hsink⟩ := Egress.attemptAll_sink batch l.egress l.stats
  obtain ⟨haccepting, hsent⟩ := h.accepting.offer (Egress.messages l.egress.scratch.length batch)
  rw [← hsink] at haccepting hsent
  have hbehind : r'.parkedAt ⟨o, .output⟩ =
      (l.region.parkedAt ⟨o, .output⟩).drop l.egress.batch := by
    by_cases ho : (⟨o, .output⟩ : Channel) ∈ l.region.outputs
    · exact hr'.served _ ho
    · have hnone : l.region.ring? ⟨o, .output⟩ = none := by simpa [mem_outputs_iff] using ho
      rw [hr'.kept _ ho, parkedAt_of_none hnone, List.drop_nil]
  have hl : l.pass t = { l with
      region := r'
      egress := { (Egress.attemptAll batch (l.egress, l.stats)).1 with
        backlog := l.region.outputs.any (Egress.hasBatch l.region l.egress.batch) }
      stats := (Egress.attemptAll batch (l.egress, l.stats)).2 } := by
    unfold Loopback.pass
    rw [heq]
  rw [hl]
  refine { h with
    sound := hr'.sound h.sound
    feeds := h.feeds.moved hr'.toMoved
    config_eq := hr'.config_eq.trans h.config_eq
    ring?_isSome_eq := fun c => (hr'.ring?_isSome_eq c).trans (h.ring?_isSome_eq c)
    registered := hr'.registered_eq ▸ h.registered
    serving := fun hopen => hr'.registered_eq ▸ h.serving hopen
    scratch_eq := hscratch.trans h.scratch_eq
    accepting := haccepting
    fits := ?_, echoed := ?_, refused := ?_ }
  · intro b hb
    rw [hbehind] at hb
    exact h.fits b (List.mem_of_mem_drop hb)
  · -- what is sent of the batch for the output stream is its part for that stream, which all fits
    have hfront : (fun datagram : Bytes => o.bytes.isPrefixOf datagram) ∘ Envelope.encode =
        fun b => decide (b.stream = o) := by
      funext b
      rw [Bool.eq_iff_iff, Function.comp, List.isPrefixOf_iff_prefix, decide_eq_true_eq,
        Envelope.bytes_prefix_encode_iff]
    have hfit : (batch.filter (·.stream = o)).filter (·.encode.length ≤ l.egress.scratch.length) =
        batch.filter (·.stream = o) := by
      refine List.filter_eq_self.mpr ?_
      intro b hb
      rw [hown] at hb
      rw [decide_eq_true_eq, h.scratch_eq]
      exact h.fits b (List.mem_of_mem_take hb)
    have hnews : (Egress.messages l.egress.scratch.length batch).filter
        (fun datagram => o.bytes.isPrefixOf datagram) =
        ((l.region.parkedAt ⟨o, .output⟩).take l.egress.batch).map Envelope.encode := by
      rw [Egress.messages, List.filter_map, hfront, List.filter_comm, hfit, hown]
    have hsentFor : (Egress.attemptAll batch (l.egress, l.stats)).1.sink.sent.filter
        (fun datagram => o.bytes.isPrefixOf datagram) = l.sentFor o ++
          ((l.region.parkedAt ⟨o, .output⟩).take l.egress.batch).map Envelope.encode := by
      rw [hsent, List.filter_append, hnews]
      rfl
    have hechoed := h.echoed
    rw [← List.take_append_drop l.egress.batch (l.region.parkedAt ⟨o, .output⟩),
      List.map_append, ← List.append_assoc, ← hsentFor, ← hbehind] at hechoed
    exact hechoed
  · intro honly
    obtain ⟨_, _, _, _, hstats⟩ := Egress.attemptAll_stats batch l.egress l.stats
    dsimp only
    rw [hstats]
    exact h.refused honly

theorem turn (h : Echoing region s t i o l) (hs : s.validate = .ok ()) :
    Echoing region s t i o (l.turn o) := by
  unfold Loopback.turn
  by_cases hopen : l.isOpen = true
  · rw [if_pos hopen]
    cases hp : l.connection.reader.poll l.connection.source with
    | mk answer behind =>
      obtain ⟨reader, source⟩ := behind
      have hreader := Frame.Reader.poll_config hp
      simp only [Ingress.Connection.turn, hp]
      cases answer with
      | ok found =>
        cases found with
        | none => exact h.advance hreader rfl
        | some frame =>
          have hpayload : frame.payload.length ≤ s.frameConfig.maxPayload := by
            rw [← h.reader_eq]
            exact Frame.Reader.poll_payload_le hp
          have hhandled := Ingress.handleFrame_handles h.sound (h.serving hopen) frame.payload
            (l.stats.count .frameReceived)
          have hstats : (l.stats.count .frameReceived).droppedSubmitFailed =
              l.stats.droppedSubmitFailed := rfl
          exact (h.handle hs hpayload hstats hhandled).advance hreader rfl
      | error e =>
        have hend : ∀ stats : Stats, stats.droppedSubmitFailed = l.stats.droppedSubmitFailed →
            Echoing region s t i o { l with
              isOpen := false
              connection := { l.connection with reader, source }
              region := l.region.unregister l.connection.thread
              stats := stats.count .connectionClosed } :=
          fun stats hstats => (h.advance hreader hstats).close
        by_cases htimeout : e.isTimeout = true
        · simp only [htimeout, if_true]
          exact h.advance hreader rfl
        · by_cases hviolation : e.isProtocolViolation = true
          · simp only [htimeout, hviolation, if_true]
            exact hend _ rfl
          · simp only [htimeout, hviolation]
            exact hend _ rfl
  · rw [if_neg hopen]
    exact h

end Echoing

/-- The frames handled so far, and those still to be cut while the connection is open, are the frames
of the whole byte string. -/
structure Delivering (s : Settings) (whole : Bytes) (l : Loopback) : Prop where
  reader_eq : l.connection.reader.config = s.frameConfig
  passing : l.isOpen = true → ∀ outcome ∈ l.connection.source.coming, outcome.Passing
  frames_eq : (Frame.parse s.frameConfig.maxPayload whole).1.map (·.payload) =
    l.handled.map (·.payload) ++ if l.isOpen then
      (Frame.parse s.frameConfig.maxPayload
        (l.connection.reader.pending l.connection.source)).1.map (·.payload) else []

theorem Delivering.turn {s : Settings} {whole : Bytes} {o : StreamId} {l : Loopback}
    (h : Delivering s whole l) (hs : s.trailing = .carryOver) : Delivering s whole (l.turn o) := by
  unfold Loopback.turn
  by_cases hopen : l.isOpen = true
  · rw [if_pos hopen]
    have htrailing : l.connection.reader.config.trailing = .carryOver := by
      rw [h.reader_eq]
      exact hs
    have hframes := h.frames_eq
    rw [if_pos hopen] at hframes
    cases hp : l.connection.reader.poll l.connection.source with
    | mk answer behind =>
      obtain ⟨reader, source⟩ := behind
      obtain ⟨hadvances, hconfig, hpassing⟩ :=
        Frame.Reader.poll_advances htrailing (h.passing hopen) hp
      rw [h.reader_eq] at hadvances hconfig
      -- what waits or times out leaves the bytes that are still to be cut as they are
      have hkept : reader.pending source = l.connection.reader.pending l.connection.source →
          ∀ region stats, Delivering s whole { l with
            connection := { l.connection with reader, source }, region, stats } := by
        intro hpending region stats
        refine ⟨hconfig, fun _ => hpassing, ?_⟩
        dsimp only
        rw [if_pos hopen, hpending]
        exact hframes
      simp only [Ingress.Connection.turn, hp]
      cases answer with
      | ok found =>
        cases found with
        | none => exact hkept hadvances.eq_of_waiting _ _
        | some frame =>
          refine ⟨hconfig, fun _ => hpassing, ?_⟩
          dsimp only
          rw [if_pos hopen, hframes, hadvances.eq_of_frame, List.map_append, List.map_cons,
            List.append_assoc]
          rfl
      | error e =>
        by_cases htimeout : e.isTimeout = true
        · simp only [htimeout, if_true]
          exact hkept (hadvances.eq_of_timedOut htimeout) _ _
        · have hnone := hadvances.eq_of_final htimeout
          have hall : ∀ region stats, Delivering s whole { l with
              isOpen := false
              connection := { l.connection with reader, source }, region, stats } := by
            intro region stats
            refine ⟨hconfig, fun hopen => absurd hopen Bool.false_ne_true, ?_⟩
            rw [hframes, hnone]
            rfl
          by_cases hviolation : e.isProtocolViolation = true
          · simp only [htimeout, hviolation, if_true]
            exact hall _ _
          · simp only [htimeout, hviolation]
            exact hall _ _
  · rw [if_neg hopen]
    exact h

section
variable {region : Region} {s : Settings} {t thread : Thread} {i o : StreamId}
  {sink : DatagramSink} {source : Frame.Source}

theorem Echoing.start (hr : region.Sound) (hf : region.Feeds i o) (hthread : thread ≠ t)
    (hsink : sink.Accepting) (hsent : sink.sent = []) (hempty : region.parkedAt ⟨o, .output⟩ = []) :
    Echoing region s t i o (start region t thread s sink source) := by
  have hparked : (Loopback.start region t thread s sink source).region.parkedAt ⟨o, .output⟩ = [] :=
    hempty
  refine {
    sound := (hr.registered _).registered _
    feeds := ⟨hf.input, hf.linked, hf.only⟩
    config_eq := rfl
    ring?_isSome_eq := fun _ => rfl
    registered := mem_register.mpr (.inr (mem_register.mpr (.inl rfl)))
    serving := fun _ => mem_register.mpr (.inl rfl)
    thread_ne := hthread
    reader_eq := rfl
    scratch_eq := List.length_replicate
    accepting := hsink
    fits := ?_, echoed := ?_, refused := fun _ => rfl }
  · intro b hb
    rw [hparked] at hb
    exact absurd hb List.not_mem_nil
  · have hsentFor : (Loopback.start region t thread s sink source).sentFor o = [] := by
      have hnone : (Loopback.start region t thread s sink source).egress.sink.sent = [] := hsent
      rw [sentFor, hnone, List.filter_nil]
    rw [hsentFor, hparked]
    rfl

theorem Delivering.start {whole : Bytes} (h : source.Serves whole) :
    Delivering s whole (start region t thread s sink source) where
  reader_eq := rfl
  passing _ := h.passing
  frames_eq := by
    have hpending : (Loopback.start region t thread s sink source).connection.reader.pending
        source = whole := h.whole_eq
    exact congrArg (fun bytes => (Frame.parse s.frameConfig.maxPayload bytes).1.map (·.payload))
      hpending.symm

theorem run_echoing (hs : s.validate = .ok ()) {l : Loopback} (h : Echoing region s t i o l)
    (moves : List Move) : Echoing region s t i o (run t o l moves) := by
  induction moves generalizing l with
  | nil => exact h
  | cons move rest ih =>
    cases move with
    | turn => exact ih (h.turn hs)
    | pass => exact ih h.pass

theorem run_delivering (hs : s.trailing = .carryOver) {whole : Bytes} {l : Loopback}
    (h : Delivering s whole l) (moves : List Move) : Delivering s whole (run t o l moves) := by
  induction moves generalizing l with
  | nil => exact h
  | cons move rest ih =>
    cases move with
    | turn => exact ih (h.turn hs)
    | pass => exact ih ⟨h.reader_eq, h.passing, h.frames_eq⟩

end

/-- However turns of a connection and passes alternate, the sink has got for the output stream, and
the output ring holds, the bodies of the frames handled so far that are for the input stream and fit
a slot, in order, but for those that met a full ring. If the input stream has the only input
channel, these and no others are the submissions that failed. The frames handled so far are the
first of those that the bytes of the connection hold, and all of them once it is closed. -/
theorem run_echoes {c : Region.Config} {u : Usage} (hu : u.Reachable c) {s : Settings}
    (hs : s.validate = .ok ()) (hcarry : s.trailing = .carryOver) {t thread : Thread}
    (hthread : thread ≠ t) {sink : DatagramSink} (hsink : sink.Accepting) (hsent : sink.sent = [])
    {i o : StreamId} (hf : u.region.Feeds i o) (hempty : u.region.parkedAt ⟨o, .output⟩ = [])
    (source : Frame.Source) (moves : List Move) :
    let l := run t o (start u.region t thread s sink source) moves
    l.sentFor o ++ (l.region.parkedAt ⟨o, .output⟩).map (fun b => o.bytes ++ b.body) =
      (l.handled.filter fun f => f.isFor i c.slotSize && !f.full).map
        (fun f => o.bytes ++ f.payload.drop StreamId.size) ∧
    ((∀ j, (u.region.ring? ⟨j, .input⟩).isSome → j = i) →
      l.stats.droppedSubmitFailed = l.handled.countP fun f => f.isFor i c.slotSize && f.full) ∧
    ∀ whole, source.Serves whole → ∃ rest,
      (Frame.parse s.frameConfig.maxPayload whole).1.map (·.payload) =
        l.handled.map (·.payload) ++ rest ∧ (l.isOpen = false → rest = []) := by
  have hstart : Echoing u.region s t i o (start u.region t thread s sink source) :=
    .start hu.sound.region hf hthread hsink hsent hempty
  have hrun := run_echoing hs hstart moves
  have hconfig := hu.config_eq
  intro l
  refine ⟨?_, ?_, ?_⟩
  · have hparked : (l.region.parkedAt ⟨o, .output⟩).map (fun b => o.bytes ++ b.body) =
        (l.region.parkedAt ⟨o, .output⟩).map Envelope.encode := by
      refine List.map_congr_left ?_
      intro b hb
      rw [Envelope.encode, (hrun.sound.fitting_parkedAt hb).1]
    rw [hparked, ← hconfig]
    exact hrun.echoed
  · intro honly
    rw [← hconfig]
    exact hrun.refused honly
  · intro whole hw
    have hdelivering : Delivering s whole l := run_delivering hcarry (.start hw) moves
    refine ⟨_, hdelivering.frames_eq, ?_⟩
    intro hclosed
    rw [if_neg (ne_true_of_eq_false hclosed)]

def ones : StreamId := ⟨List.replicate 16 1, rfl⟩

def linking : List Usage.Call :=
  [.operate (.create ⟨.nil, .input⟩ (some 1)), .operate (.create ⟨ones, .output⟩ (some 1)),
    .operate (.link .nil ones)]

def linked : Usage := Usage.performAll { region := { config := Usage.tight } } linking

theorem linked_reachable : linked.Reachable Usage.tight := ⟨_, linking, rfl, rfl⟩

def threefold : Frame.Source where
  coming := [.bytes (Frame.wire (StreamId.nil.bytes ++ [7]) ++ Frame.wire (StreamId.nil.bytes ++ [8])),
    .bytes (Frame.wire (StreamId.nil.bytes ++ [9]))]

/-- The second frame meets the ring that the first one fills, and the third one comes after a pass.
-/
def threefoldRun : Loopback :=
  run Bridge.egressThread ones (start linked.region Bridge.egressThread (Bridge.connectionThread 1)
    { trailing := .carryOver } { description := "sink" } threefold)
    [.turn, .turn, .pass, .turn, .turn]

theorem run_echoes_threefold :
    linked.region.Feeds .nil ones ∧
    threefoldRun.sentFor ones ++
      (threefoldRun.region.parkedAt ⟨ones, .output⟩).map (fun b => ones.bytes ++ b.body) =
        [ones.bytes ++ [7], ones.bytes ++ [9]] ∧
    threefoldRun.stats.droppedSubmitFailed = 1 ∧ threefoldRun.isOpen = false := by
  have hf : linked.region.Feeds .nil ones := by
    refine ⟨rfl, rfl, ?_⟩
    intro j hj
    have hlinks : linked.region.links = [(.nil, ones)] := rfl
    obtain ⟨front, back, hsplit, _⟩ := List.lookup_eq_some_iff.mp hj
    have hmem : (j, ones) ∈ linked.region.links := by
      rw [hsplit]
      exact List.mem_append_right _ List.mem_cons_self
    rw [hlinks, List.mem_singleton] at hmem
    exact congrArg Prod.fst hmem
  have honly : ∀ j, (linked.region.ring? ⟨j, .input⟩).isSome → j = .nil := by
    intro j hj
    have hchannels : linked.region.rings.map (·.channel) = [⟨.nil, .input⟩, ⟨ones, .output⟩] := rfl
    rw [Region.ring?_isSome_iff, hchannels] at hj
    simpa using hj
  have hhandled : threefoldRun.handled = [⟨StreamId.nil.bytes ++ [7], false⟩,
      ⟨StreamId.nil.bytes ++ [8], true⟩, ⟨StreamId.nil.bytes ++ [9], false⟩] := by
    decide +kernel
  have hthread : Bridge.connectionThread 1 ≠ Bridge.egressThread := by decide +kernel
  have hsink : DatagramSink.Accepting { description := "sink" } :=
    ⟨fun _ h => absurd h List.not_mem_nil, fun _ => rfl⟩
  have hvalid : ({ trailing := .carryOver } : Settings).validate = .ok () := rfl
  obtain ⟨hechoes, hrefused, _⟩ := run_echoes linked_reachable hvalid rfl hthread hsink rfl hf rfl
    threefold [.turn, .turn, .pass, .turn, .turn]
  have hrefused := hrefused honly
  rw [← threefoldRun] at hechoes hrefused
  rw [hhandled] at hechoes hrefused
  exact ⟨hf, hechoes, hrefused, by decide +kernel⟩

end Loopback

end StreamRelay
