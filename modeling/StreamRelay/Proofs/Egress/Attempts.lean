import StreamRelay.Egress
import StreamRelay.Proofs.Region.Soundness

/-!
# Attempts

A buffer that is handed out is attempted once: its message is assembled and offered to the sink if
the scratch area has room for it, and the buffer is returned either way. A registered thread that
forwards a batch makes these attempts in order and changes nothing else.
-/

namespace StreamRelay

namespace DatagramSink

def offer (d : DatagramSink) (datagrams : List Bytes) : DatagramSink :=
  datagrams.foldl (fun d datagram => (d.send datagram).2) d

theorem offer_append (d : DatagramSink) (front back : List Bytes) :
    d.offer (front ++ back) = (d.offer front).offer back := List.foldl_append

def answers : DatagramSink → List Bytes → List (Except TransportError Nat)
  | _, [] => []
  | d, datagram :: rest => (d.send datagram).1 :: (d.send datagram).2.answers rest

theorem length_answers (d : DatagramSink) (datagrams : List Bytes) :
    (d.answers datagrams).length = datagrams.length := by
  induction datagrams generalizing d with
  | nil => rfl
  | cons datagram rest ih => rw [answers, List.length_cons, ih, List.length_cons]

theorem send_sent (d : DatagramSink) (datagram : Bytes) :
    (d.send datagram).2.sent =
      if (d.send datagram).1.isOk then d.sent ++ [datagram] else d.sent := by
  unfold send
  cases d.coming with
  | nil =>
    dsimp only
    cases d.beyond datagram.length <;> rfl
  | cons outcome rest => cases outcome <;> rfl

/-- What is sent are the datagrams whose call went well. -/
theorem offer_sent (d : DatagramSink) (datagrams : List Bytes) :
    (d.offer datagrams).sent =
      d.sent ++ ((datagrams.zip (d.answers datagrams)).filter (·.2.isOk)).map (·.1) := by
  induction datagrams generalizing d with
  | nil => exact (List.append_nil _).symm
  | cons datagram rest ih =>
    have hrest : (d.offer (datagram :: rest)).sent = ((d.send datagram).2.offer rest).sent := rfl
    rw [hrest, ih, send_sent, answers, List.zip_cons_cons, List.filter_cons]
    cases (d.send datagram).1.isOk with
    | true => exact List.append_assoc _ _ _
    | false => rfl

/-- It takes whatever is offered. -/
structure Accepting (d : DatagramSink) : Prop where
  coming : ∀ outcome ∈ d.coming, outcome = none
  beyond : ∀ n, d.beyond n = none

theorem Accepting.send {d : DatagramSink} (h : d.Accepting) (datagram : Bytes) :
    (d.send datagram).2.Accepting ∧ (d.send datagram).2.sent = d.sent ++ [datagram] := by
  unfold DatagramSink.send
  cases hc : d.coming with
  | nil =>
    simp only [h.beyond]
    exact ⟨⟨fun _ ho => absurd ho List.not_mem_nil, h.beyond⟩, trivial⟩
  | cons outcome rest =>
    have hcoming := h.coming
    rw [hc] at hcoming
    obtain rfl := hcoming outcome List.mem_cons_self
    exact ⟨⟨fun o ho => hcoming o (List.mem_cons_of_mem _ ho), h.beyond⟩, rfl⟩

theorem Accepting.offer {d : DatagramSink} (h : d.Accepting) (datagrams : List Bytes) :
    (d.offer datagrams).Accepting ∧ (d.offer datagrams).sent = d.sent ++ datagrams := by
  induction datagrams generalizing d with
  | nil => exact ⟨h, (List.append_nil _).symm⟩
  | cons datagram rest ih =>
    obtain ⟨hnext, hsent⟩ := h.send datagram
    obtain ⟨hlast, hrest⟩ := ih hnext
    refine ⟨hlast, hrest.trans ?_⟩
    rw [hsent, List.append_assoc, List.singleton_append]

end DatagramSink

namespace Egress

variable {r : Region} {t : Thread}

def attempt (b : Buffer) (e : Egress) (stats : Stats) : Egress × Stats :=
  if e.scratch.length < b.encode.length then (e, stats.count .serializeFailure)
  else
    let scratch := b.encode ++ e.scratch.drop b.encode.length
    match e.sink.send b.encode with
    | (.ok _, sink) => ({ e with scratch, sink }, stats.count .datagramSent)
    | (.error _, sink) => ({ e with scratch, sink }, stats.count .sendFailure)

def attemptAll : List Buffer → Egress × Stats → Egress × Stats
  | [], state => state
  | b :: rest, (e, stats) =>
    let (e, stats) := attempt b e stats
    attemptAll rest (e, stats.count .bufferReleased)

/-- The messages of the buffers that have room. -/
def messages (room : Nat) (batch : List Buffer) : List Bytes :=
  (batch.filter (·.encode.length ≤ room)).map Envelope.encode

theorem messages_append (room : Nat) (front back : List Buffer) :
    messages room (front ++ back) =
      messages room front ++ messages room back := by
  rw [messages, List.filter_append, List.map_append]
  rfl

theorem messages_singleton (room : Nat) (b : Buffer) :
    messages room [b] = if b.encode.length ≤ room then [b.encode] else [] := by
  rw [messages, List.filter_cons]
  by_cases hfits : b.encode.length ≤ room
  · rw [if_pos hfits, if_pos (decide_eq_true hfits)]
    rfl
  · rw [if_neg hfits, decide_eq_false hfits]
    rfl

theorem attemptAll_append (front back : List Buffer) (state : Egress × Stats) :
    attemptAll (front ++ back) state = attemptAll back (attemptAll front state) := by
  induction front generalizing state with
  | nil => rfl
  | cons b rest ih => exact ih _

/-- The note of a backlog plays no part in an attempt. -/
theorem attempt_backlog (b : Buffer) (e : Egress) (stats : Stats) (backlog : Bool) :
    attempt b { e with backlog } stats =
      ({ (attempt b e stats).1 with backlog }, (attempt b e stats).2) := by
  unfold attempt
  by_cases hroom : e.scratch.length < b.encode.length
  · simp only [hroom, if_true]
  · simp only [hroom, if_false]
    cases e.sink.send b.encode with
    | mk answer sink => cases answer <;> rfl

theorem attemptAll_backlog (batch : List Buffer) (e : Egress) (stats : Stats) (backlog : Bool) :
    attemptAll batch ({ e with backlog }, stats) =
      ({ (attemptAll batch (e, stats)).1 with backlog }, (attemptAll batch (e, stats)).2) := by
  induction batch generalizing e stats with
  | nil => rfl
  | cons b rest ih =>
    rw [attemptAll, attempt_backlog]
    exact ih _ _

theorem attempt_batch (b : Buffer) (e : Egress) (stats : Stats) :
    (attempt b e stats).1.batch = e.batch := by
  unfold attempt
  split
  · rfl
  · dsimp only
    split <;> rfl

theorem attemptAll_batch (batch : List Buffer) (e : Egress) (stats : Stats) :
    (attemptAll batch (e, stats)).1.batch = e.batch := by
  induction batch generalizing e stats with
  | nil => rfl
  | cons b rest ih => exact (ih _ _).trans (attempt_batch b e stats)

/-- What an attempt needs of the scratch area is its size, which stays. -/
theorem attempt_sink (b : Buffer) (e : Egress) (stats : Stats) :
    (attempt b e stats).1.scratch.length = e.scratch.length ∧
      (attempt b e stats).1.sink =
        if b.encode.length ≤ e.scratch.length then (e.sink.send b.encode).2 else e.sink := by
  unfold attempt
  by_cases hroom : e.scratch.length < b.encode.length
  · rw [if_pos hroom, if_neg (Nat.not_le.mpr hroom)]
    exact ⟨rfl, rfl⟩
  · have hle := Nat.not_lt.mp hroom
    have hlength : (b.encode ++ e.scratch.drop b.encode.length).length = e.scratch.length := by
      rw [List.length_append, List.length_drop]
      omega
    rw [if_neg hroom, if_pos hle]
    cases e.sink.send b.encode with
    | mk answer sink => cases answer <;> exact ⟨hlength, rfl⟩

/-- The messages that fit the scratch area are offered to the sink, in order. -/
theorem attemptAll_sink (batch : List Buffer) (e : Egress) (stats : Stats) :
    (attemptAll batch (e, stats)).1.scratch.length = e.scratch.length ∧
      (attemptAll batch (e, stats)).1.sink =
        e.sink.offer (messages e.scratch.length batch) := by
  induction batch generalizing e stats with
  | nil => exact ⟨rfl, rfl⟩
  | cons b rest ih =>
    obtain ⟨hlength, hsink⟩ := attempt_sink b e stats
    obtain ⟨hlengths, hsinks⟩ := ih (attempt b e stats).1 ((attempt b e stats).2.count .bufferReleased)
    refine ⟨hlengths.trans hlength, hsinks.trans ?_⟩
    rw [hlength, hsink, messages, messages, List.filter_cons]
    by_cases hfits : b.encode.length ≤ e.scratch.length
    · rw [if_pos hfits, if_pos (decide_eq_true hfits)]
      rfl
    · rw [if_neg hfits, if_neg (by simpa using hfits)]

theorem attempt_stats (b : Buffer) (e : Egress) (stats : Stats) :
    (attempt b e stats).2 = stats.count (
      if e.scratch.length < b.encode.length then .serializeFailure
      else if (e.sink.send b.encode).1.isOk then .datagramSent else .sendFailure) := by
  unfold attempt
  by_cases hroom : e.scratch.length < b.encode.length
  · rw [if_pos hroom, if_pos hroom]
  · rw [if_neg hroom, if_neg hroom]
    cases e.sink.send b.encode with
    | mk answer sink => cases answer <;> rfl

/-- Every buffer without room is a failure of its own, the others are counted by what their call
gives, and every return is counted; no other counter changes. -/
theorem attemptAll_counts (batch : List Buffer) (e : Egress) (stats : Stats) :
    let answers := e.sink.answers (messages e.scratch.length batch)
    (attemptAll batch (e, stats)).2 = { stats with
      datagramsSent := stats.datagramsSent + answers.countP Except.isOk
      sendFailures := stats.sendFailures + answers.countP (!·.isOk)
      serializeFailures :=
        stats.serializeFailures + batch.countP (e.scratch.length < ·.encode.length)
      buffersReleased := stats.buffersReleased + batch.length } := by
  induction batch generalizing e stats with
  | nil => rfl
  | cons b rest ih =>
    let e' := (attempt b e stats).1
    let stats' := (attempt b e stats).2.count .bufferReleased
    obtain ⟨hlength, hsink⟩ := attempt_sink b e stats
    have hrest : (attemptAll (b :: rest) (e, stats)).2 = (attemptAll rest (e', stats')).2 := rfl
    have hcounts := ih e' stats'
    simp only [e', stats', hlength, hsink, attempt_stats] at hcounts hrest
    intro answers
    rw [hrest, hcounts]
    by_cases hroom : e.scratch.length < b.encode.length
    · have hfits : ¬ b.encode.length ≤ e.scratch.length := Nat.not_le.mpr hroom
      have hanswers : answers = e.sink.answers (messages e.scratch.length rest) := by
        simp only [answers, messages, List.filter_cons, hfits, decide_false, Bool.false_eq_true,
          if_false]
      simp only [hanswers, hroom, hfits, if_true, if_false, Stats.count, List.countP_cons,
        List.length_cons, decide_true, Stats.mk.injEq, true_and]
      omega
    · have hfits : b.encode.length ≤ e.scratch.length := Nat.not_lt.mp hroom
      have hanswers : answers = (e.sink.send b.encode).1 ::
          (e.sink.send b.encode).2.answers (messages e.scratch.length rest) := by
        simp only [answers, messages, List.filter_cons, hfits, decide_true, if_true, List.map_cons,
          DatagramSink.answers]
      cases hok : (e.sink.send b.encode).1.isOk with
      | true =>
        simp only [hanswers, hroom, hfits, hok, if_true, if_false, Stats.count, List.countP_cons,
          List.length_cons, decide_false, Bool.not_true, Bool.false_eq_true, Stats.mk.injEq,
          true_and]
        omega
      | false =>
        simp only [hanswers, hroom, hfits, hok, if_true, if_false, Stats.count, List.countP_cons,
          List.length_cons, decide_false, Bool.not_false, Bool.false_eq_true, Stats.mk.injEq,
          true_and]
        omega

theorem length_messages (room : Nat) (batch : List Buffer) :
    (messages room batch).length + batch.countP (room < ·.encode.length) = batch.length := by
  rw [messages, List.length_map, ← List.countP_eq_length_filter]
  have hboth := List.length_eq_countP_add_countP (fun b : Buffer => decide (b.encode.length ≤ room))
    (l := batch)
  simp only [decide_eq_true_eq, Nat.not_le] at hboth
  exact hboth.symm

/-- Every attempt is counted once, as sent or as one of two failures, and every return is counted;
no other counter changes. -/
theorem attemptAll_stats (batch : List Buffer) (e : Egress) (stats : Stats) :
    ∃ sent failed unserialized, sent + failed + unserialized = batch.length ∧
      (attemptAll batch (e, stats)).2 = { stats with
        datagramsSent := stats.datagramsSent + sent
        sendFailures := stats.sendFailures + failed
        serializeFailures := stats.serializeFailures + unserialized
        buffersReleased := stats.buffersReleased + batch.length } := by
  refine ⟨_, _, _, ?_, attemptAll_counts batch e stats⟩
  have hcalls := e.sink.length_answers (messages e.scratch.length batch)
  have hboth := List.length_eq_countP_add_countP Except.isOk
    (l := e.sink.answers (messages e.scratch.length batch))
  have hmessages := length_messages e.scratch.length batch
  simp only [Bool.not_eq_true, Bool.decide_eq_false] at hboth
  omega

theorem serialize_of_registered (ht : t ∈ r.registered) (b : Buffer) (area : Bytes) :
    r.serialize t b area =
      if area.length < b.encode.length then
        (.error (.scratchTooSmall b.encode.length area.length), area)
      else (.ok b.encode.length, b.encode ++ area.drop b.encode.length) := by
  unfold Region.serialize
  rw [Region.checkRegistered_of_mem ht]

theorem forward_eq (ht : t ∈ r.registered) (b : Buffer) (e : Egress) (stats : Stats) :
    forward t b r e stats = (r, attempt b e stats) := by
  have hs := serialize_of_registered ht b e.scratch
  obtain ⟨n, hn⟩ := b.exists_length_encode
  unfold forward attempt
  by_cases hroom : e.scratch.length < b.encode.length
  · rw [if_pos hroom] at hs ⊢
    simp only [Subsystem.serialize, hs]
  · have htake : (b.encode ++ e.scratch.drop b.encode.length).take (n + 1) = b.encode :=
      List.take_left' hn
    rw [if_neg hroom] at hs ⊢
    rw [hn] at hs htake
    simp only [Subsystem.serialize, hs, htake, hn]
    cases e.sink.send b.encode with
    | mk answer sink => cases answer <;> rfl

theorem record_record (r : Region) (e : Region.Entry) (m n : Nat) :
    (r.record e m).record e n = r.record e (m + n) := by
  cases e <;> simp [Region.record, Region.Ledger.record, Nat.add_assoc]

/-- The buffers of a batch are attempted one after the other, and the region gets them all back. -/
theorem forwardAll_eq (ht : t ∈ r.registered) (batch : List Buffer) (e : Egress) (stats : Stats) :
    forwardAll t batch (r, e, stats) =
      (r.record .released batch.length, attemptAll batch (e, stats)) := by
  induction batch generalizing r e stats with
  | nil => rfl
  | cons b rest ih =>
    have hrelease : (Subsystem.release r : Region) = r.record .released := rfl
    have ht' : t ∈ (r.record .released).registered := ht
    rw [forwardAll, forward_eq ht]
    dsimp only
    rw [hrelease, ih ht', record_record, Nat.add_comm 1, List.length_cons]
    rfl

end Egress

end StreamRelay
