import StreamRelay.Proofs.Bridge.Shutdown
import StreamRelay.Proofs.Egress.Attempts

/-!
# What is offered to the sink

The log of the egress thread gets a buffer when its attempt is over. Whatever the other threads do,
the calls of the sink are the messages of the log that fit the scratch area, each once and in order;
between its call and its entry a message is ahead of the log by one.
-/

namespace StreamRelay.Bridge
open Region

namespace Sender

variable {s : Sender} {r : Region} {room : Nat}

def offer? (s : Sender) : Option Bytes :=
  match s.phase with
  | .forwarding _ _ _ _ (.sending n) => some (s.egress.scratch.take n)
  | _ => none

/-- The buffers whose attempt is over, the one that is still to be noted included. -/
def tried (s : Sender) : List Buffer :=
  s.attempted.map (·.2) ++
    match s.phase with
    | .forwarding _ b _ _ (.tallying _) => [b]
    | _ => []

/-- A message that is about to be sent lies in the scratch area. -/
structure Ready (s : Sender) (room : Nat) : Prop where
  scratch_eq : s.egress.scratch.length = room
  sending : ∀ c b behind rest n, s.phase = .forwarding c b behind rest (.sending n) →
    s.egress.scratch.take n = b.encode ∧ b.encode.length ≤ room

structure Offers (s s' : Sender) (room : Nat) : Prop where
  ready : s'.Ready room
  sink_eq : s'.egress.sink = s.egress.sink.offer s.offer?.toList
  tried_eq : Egress.messages room s'.tried = Egress.messages room s.tried ++ s.offer?.toList

/-- A step that leaves the sink and the log alone. -/
theorem Offers.quiet {s' : Sender} (hs : s'.Ready room) (hsink : s'.egress.sink = s.egress.sink)
    (htried : s'.tried = s.tried) (hoffer : s.offer? = none) : s.Offers s' room := by
  refine ⟨hs, ?_, ?_⟩
  · rw [hoffer, hsink]
    rfl
  · rw [hoffer, htried]
    exact (List.append_nil _).symm

theorem Ready.forward (hs : s.Ready room) {c : Channel} {b : Buffer} {behind : List Buffer}
    {rest : List Channel} {stage : Stage} (hp : s.phase = .forwarding c b behind rest stage)
    (ht : egressThread ∈ r.registered) (stats : Stats) :
    s.Offers (s.forward c b behind rest r stats stage).1 room := by
  have hscratch := hs.scratch_eq
  cases stage with
  | serializing =>
    have hoffer : s.offer? = none := by simp [offer?, hp]
    have hserialize := Egress.serialize_of_registered ht b s.egress.scratch
    by_cases hroom : s.egress.scratch.length < b.encode.length
    · rw [if_pos hroom] at hserialize
      refine ⟨⟨?_, ?_⟩, ?_, ?_⟩
      · simp [Sender.forward, hserialize, hscratch]
      · simp [Sender.forward, hserialize]
      · simp [Sender.forward, hserialize, hoffer, DatagramSink.offer]
      · have hnone : ¬ b.encode.length ≤ room := hscratch ▸ Nat.not_le.mpr hroom
        simp only [Sender.forward, hserialize, tried, hp, hoffer, Egress.messages_append,
          Egress.messages_singleton, if_neg hnone, List.append_nil]
        exact (List.append_nil _).symm
    · obtain ⟨n, hn⟩ := b.exists_length_encode
      have harea : (b.encode ++ s.egress.scratch.drop b.encode.length).length = room := by
        rw [List.length_append, List.length_drop]
        omega
      rw [if_neg hroom, hn] at hserialize
      rw [hn] at harea
      refine .quiet ⟨?_, ?_⟩ ?_ ?_ hoffer
      · simpa [Sender.forward, hserialize] using harea
      · intro c' b' behind' rest' n' h
        simp only [Sender.forward, hserialize] at h ⊢
        cases h
        exact ⟨List.take_left' hn, hscratch ▸ Nat.not_lt.mp hroom⟩
      · simp [Sender.forward, hserialize]
      · simp [Sender.forward, hserialize, tried, hp]
  | sending n =>
    obtain ⟨htake, hfits⟩ := hs.sending c b behind rest n hp
    have hoffer : s.offer? = some b.encode := by simp [offer?, hp, htake]
    refine ⟨⟨hscratch, by simp [Sender.forward]⟩, ?_, ?_⟩
    · simp [Sender.forward, hoffer, htake, DatagramSink.offer]
    · simp only [Sender.forward, tried, hp, hoffer, Egress.messages_append,
        Egress.messages_singleton, if_pos hfits, List.append_nil]
      rfl
  | tallying fate =>
    refine .quiet ⟨hscratch, by simp [Sender.forward]⟩ rfl ?_ (by simp [offer?, hp])
    simp [Sender.forward, tried, hp]
  | releasing =>
    refine .quiet ⟨hscratch, by simp [Sender.forward]⟩ rfl ?_ (by simp [offer?, hp])
    simp [Sender.forward, tried, hp]
  | counting =>
    refine .quiet ⟨hscratch, ?_⟩ rfl ?_ (by simp [offer?, hp])
    · cases behind <;> simp [Sender.forward, next]
    · cases behind <;> simp [Sender.forward, next, tried, hp]

def Idle (s : Sender) : Prop :=
  ∀ c b behind rest stage, s.phase = .forwarding c b behind rest stage → stage = .serializing

theorem Idle.offer?_eq (h : s.Idle) : s.offer? = none := by
  unfold offer?
  split
  · cases h _ _ _ _ _ ‹_›
  · rfl

theorem Idle.tried_eq (h : s.Idle) : s.tried = s.attempted.map (·.2) := by
  unfold tried
  split
  · cases h _ _ _ _ _ ‹_›
  · exact List.append_nil _

theorem Ready.idle {s' : Sender} (hs : s.Ready room) (h : s.Idle) (h' : s'.Idle)
    (hscratch : s'.egress.scratch = s.egress.scratch) (hsink : s'.egress.sink = s.egress.sink)
    (hlog : s'.attempted = s.attempted) : s.Offers s' room := by
  refine .quiet ⟨hscratch ▸ hs.scratch_eq, ?_⟩ hsink ?_ h.offer?_eq
  · intro c b behind rest n hp
    cases h' _ _ _ _ _ hp
  · rw [h'.tried_eq, h.tried_eq, hlog]

theorem Ready.step (hs : s.Ready room) (ht : s.isRegistered = true → egressThread ∈ r.registered)
    (stop : Signal) (stats : Stats) : s.Offers (s.step stop r stats).1 room := by
  unfold Sender.step
  cases hp : s.phase with
  | polling =>
    have hidle : s.Idle := by simp [Idle, hp]
    dsimp only
    rcases poll_cases s r with ⟨_, h⟩ | ⟨_, _, h⟩ | ⟨_, _, h⟩ <;> rw [h]
    · exact hs.idle hidle (by simp [Idle]) rfl rfl rfl
    · exact hs.idle hidle (by simp [Idle]) rfl rfl rfl
    · refine hs.idle hidle ?_ rfl rfl rfl
      cases hf : s.final <;> simp [Idle]
  | visiting rest =>
    have hidle : s.Idle := by simp [Idle, hp]
    cases rest with
    | nil =>
      dsimp only
      unfold complete
      split
      · exact hs.idle hidle (by simp [Idle]) rfl rfl rfl
      · split <;> exact hs.idle hidle (by simp [Idle]) rfl rfl rfl
    | cons c rest =>
      dsimp only
      cases (r.handOut c s.egress.batch).1 <;>
        exact hs.idle hidle (by simp +contextual [take, Idle]) rfl rfl rfl
  | forwarding c b behind rest stage => exact hs.forward hp (ht (by simp [isRegistered, hp])) stats
  | deciding =>
    dsimp only
    split <;> exact hs.idle (by simp [Idle, hp]) (by simp [resume, Idle]) rfl rfl rfl
  | waiting => exact hs.idle (by simp [Idle, hp]) (by simp [resume, Idle]) rfl rfl rfl
  | _ => exact hs.idle (by simp [Idle, hp]) (by simp [Idle, hp]) rfl rfl rfl

end Sender

namespace Moment

def offers (m : Moment) : List Move → List Bytes
  | [] => []
  | .sender :: moves => m.sender.offer?.toList ++ (m.move .sender).offers moves
  | move :: moves => (m.move move).offers moves

theorem offers_cons_of_ne {m : Moment} {move : Move} (h : move ≠ .sender) (moves : List Move) :
    m.offers (move :: moves) = (m.move move).offers moves := by
  cases move with
  | sender => exact absurd rfl h
  | _ => rfl

/-- The sink has seen these datagrams, and no others, and they are what has joined the log. -/
theorem Orderly.offers {m : Moment} (hm : m.Orderly) {room : Nat} (hs : m.sender.Ready room)
    {moves : List Move} (hout : ∀ move ∈ moves, move.IsOutside) :
    (m.run moves).sender.egress.sink = m.sender.egress.sink.offer (m.offers moves) ∧
      Egress.messages room (m.run moves).sender.tried =
        Egress.messages room m.sender.tried ++ m.offers moves := by
  induction moves generalizing m with
  | nil => exact ⟨rfl, (List.append_nil _).symm⟩
  | cons move moves ih =>
    obtain ⟨hmove, hrest⟩ := List.forall_mem_cons.mp hout
    have hnext := hm.move hmove
    by_cases hsender : move = .sender
    · subst hsender
      have hstep := hs.step hm.registered.egress.mpr m.egressStop m.stats
      have hfirst : (m.move .sender).sender.egress.sink =
          m.sender.egress.sink.offer m.sender.offer?.toList := hstep.sink_eq
      obtain ⟨hsink, htried⟩ := ih hnext hstep.ready hrest
      refine ⟨hsink.trans ?_, htried.trans ?_⟩
      · rw [Moment.offers, DatagramSink.offer_append, hfirst]
      · rw [Moment.offers, ← List.append_assoc]
        exact congrArg (· ++ _) hstep.tried_eq
    · have hsame := sender_move m hsender
      have hlater := ih hnext (hsame ▸ hs) hrest
      rw [hsame] at hlater
      rw [offers_cons_of_ne hsender]
      exact hlater

/-- From the start on, whatever the threads and other callers do, the egress thread offers its sink
exactly the messages of the buffers it tried that fit the scratch area, in this order. These are the
buffers of its log, unless one is still to be noted. -/
theorem run_offers {config : Config} {region : Region} (hr : ofConfig config = .ok region)
    (settings : Settings) (sink : DatagramSink) {moves : List Move}
    (hout : ∀ move ∈ moves, move.IsOutside) :
    let m := start settings sink region
    let s := (m.run moves).sender
    s.egress.sink = sink.offer (m.offers moves) ∧
      m.offers moves = Egress.messages settings.maxFrame s.tried ∧
      (s.Idle → s.tried = s.attempted.map (·.2)) := by
  intro m s
  have hready : m.sender.Ready settings.maxFrame := ⟨List.length_replicate, nofun⟩
  obtain ⟨hsink, htried⟩ := (Orderly.start hr settings sink).offers hready hout
  exact ⟨hsink, htried.symm, Sender.Idle.tried_eq⟩

end Moment

end StreamRelay.Bridge
