import StreamRelay.Proofs.Bridge.Accounting
import StreamRelay.Proofs.Bridge.Loopback

/-!
# What comes in can go out

Three limits have to fit each other: the payload that a reader lets through, the slot that holds a
message, and the area in which the egress thread assembles it again. With valid settings a payload
is never longer than the area less a header. So as long as only the bridge puts messages into the
region, none of them is too long on any way from a connection to the sink, and every one is
serialized.
-/

namespace StreamRelay

/-- With valid settings the payload limit is what a header leaves of a frame: there is room for the
header, and the length of what remains can be announced. -/
theorem Settings.maxFrame_bounds {s : Settings} (h : s.validate = .ok ()) :
    Frame.headerSize ≤ s.maxFrame ∧ s.maxFrame - Frame.headerSize ≤ Frame.wireMaxPayload := by
  unfold validate at h
  split at h
  · contradiction
  · split at h
    · contradiction
    · omega

namespace Region

variable {r : Region} {limit : Nat}

def Within (r : Region) (limit : Nat) : Prop :=
  ∀ ring ∈ r.rings, ∀ b ∈ ring.parked, b.encode.length ≤ limit

namespace Within

theorem of_mem_parkedAt (hr : r.Within limit) {c : Channel} {b : Buffer} (hb : b ∈ r.parkedAt c) :
    b.encode.length ≤ limit := by
  cases hc : r.ring? c with
  | none =>
    rw [parkedAt_of_none hc] at hb
    contradiction
  | some ring =>
    rw [parkedAt_of_ring? hc] at hb
    exact hr ring (ring?_mem hc) b hb

theorem setRing (hr : r.Within limit) {new : Ring}
    (hnew : ∀ b ∈ new.parked, b.encode.length ≤ limit) : (r.setRing new).Within limit := by
  intro ring hring
  rcases mem_setRing hring with rfl | hring
  · exact hnew
  · exact hr ring hring

/-- A message keeps its length under the id of another stream. -/
theorem park (hr : r.Within limit) {c : Channel} {ring : Ring} (hc : r.ring? c = some ring)
    {b : Buffer} (hb : b.encode.length ≤ limit) : (r.setRing (ring.park b)).Within limit := by
  apply hr.setRing
  intro b' hb'
  rcases List.mem_append.mp hb' with hb' | hb'
  · exact hr ring (ring?_mem hc) b' hb'
  · obtain rfl := List.mem_singleton.mp hb'
    rwa [Envelope.length_encode] at hb ⊢

theorem without (hr : r.Within limit) {c : Channel} {ring : Ring} (hc : r.ring? c = some ring)
    (n : Nat) : (r.setRing (ring.without n)).Within limit := by
  apply hr.setRing
  intro b hb
  exact hr ring (ring?_mem hc) b (List.mem_of_mem_drop hb)

theorem adding (hr : r.Within limit) (c : Channel) (capacity reserved : Nat) :
    Region.Within { r with rings := insertRing ⟨c, capacity, []⟩ r.rings, reserved } limit := by
  intro ring hring
  rcases mem_insertRing hring with rfl | hring
  · intro b hb
    contradiction
  · exact hr ring hring

theorem link (hr : r.Within limit) (source target : StreamId) :
    (r.link source target).2.Within limit := by
  rcases link_cases r source target with ⟨e, h⟩ | ⟨_, _, h⟩ <;>
  · rw [h]
    exact hr

theorem takeInput (hr : r.Within limit) (t : Thread) (stream : StreamId) :
    (r.takeInput t stream).2.Within limit := by
  rcases takeInput_cases r t stream with ⟨e, h⟩ | h | ⟨ring, b, rest, _, hc, _, h⟩
  · rw [h]
    exact hr
  · rw [h]
    exact hr
  · rw [h]
    exact hr.without hc 1

theorem deserialize (hr : r.Within limit) (t : Thread) (raw : Bytes) :
    (r.deserialize t raw).2.Within limit := by
  rcases deserialize_cases r t raw with ⟨e, _, h⟩ | ⟨b, _, _, _, h⟩ <;>
  · rw [h]
    exact hr

theorem submit (hr : r.Within limit) (t : Thread) (c : Channel) {b : Buffer}
    (hb : b.encode.length ≤ limit) : (r.submit t c b).2.Within limit := by
  rcases submit_cases r t c b with ⟨_, h⟩ | ⟨_, _, h⟩ | ⟨_, _, _, _, h⟩ | ⟨ring, _, hc, _, h⟩
  · rw [h]
    exact hr
  · rw [h]
    exact hr
  · rw [h]
    exact hr
  · rw [h]
    exact hr.park hc hb

theorem handOut (hr : r.Within limit) (c : Channel) (max : Nat) :
    (r.handOut c max).2.Within limit := by
  rcases handOut_cases r c max with h | ⟨ring, hc, h⟩
  · rw [h]
    exact hr
  · rw [h]
    exact hr.without hc max

theorem of_mem_handOut (hr : r.Within limit) {c : Channel} {max : Nat} {b : Buffer}
    (hb : b ∈ (r.handOut c max).1) : b.encode.length ≤ limit := by
  rw [handOut_fst] at hb
  exact hr.of_mem_parkedAt (List.mem_of_mem_take hb)

end Within

end Region

namespace Usage

def Operation.isFilling : Operation → Bool
  | .publish _ _ _ | .submit _ _ _ => true
  | _ => false

theorem created_within {u : Usage} {limit : Nat} (hu : u.region.Within limit) (c : Channel)
    (capacity : Nat) : (u.created (u.region.createWith c capacity)).region.Within limit := by
  rcases u.created_cases c capacity with h | ⟨_, _, _, h⟩
  · rw [h]
    exact hu
  · rw [h]
    exact hu.adding c capacity _

theorem operate_within {u : Usage} {limit : Nat} (hu : u.region.Within limit)
    {operation : Operation} (hf : operation.isFilling = false) :
    (u.operate operation).region.Within limit := by
  cases operation with
  | create c capacity =>
    cases capacity with
    | none => exact created_within hu c _
    | some n => exact created_within hu c n
  | link source target => exact hu.link source target
  | register t => exact hu
  | unregister t => exact hu
  | find t c =>
    rw [operate]
    split <;> exact hu
  | publish t stream body => contradiction
  | takeInput t stream =>
    have h := hu.takeInput t stream
    rw [operate]
    split <;> simp_all
  | deserialize t raw =>
    have h := hu.deserialize t raw
    rw [operate]
    split <;> simp_all
  | submit t c position => contradiction
  | release position =>
    rw [operate]
    split <;> exact hu
  | drop position =>
    rw [operate]
    split <;> exact hu
  | turn c max =>
    rw [operate]
    split
    · exact hu.handOut c max
    · exact hu

end Usage

namespace Bridge
open Region

variable {limit : Nat} {stats stats' : Stats} {r r' : Region}

namespace Session

variable {s s' : Session}

structure Within (s : Session) (limit : Nat) : Prop where
  limit_eq : s.connection.reader.config.maxPayload = limit
  payload_le : ∀ payload, s.phase = .receiving payload ∨ s.phase = .deserializing payload →
    payload.length ≤ limit
  holding_le : ∀ b ∈ s.holding, b.encode.length ≤ limit

/-- Whoever has nothing in hand keeps to the limit. -/
theorem Within.idle (hs : s.connection.reader.config.maxPayload = limit)
    (hp : ∀ payload, s.phase ≠ .receiving payload ∧ s.phase ≠ .deserializing payload)
    (hh : s.holding = []) : s.Within limit where
  limit_eq := hs
  payload_le payload h := by
    rcases h with h | h
    · exact absurd h (hp payload).1
    · exact absurd h (hp payload).2
  holding_le b hb := by
    rw [hh] at hb
    contradiction

theorem Within.read (hs : s.Within limit) : s.read.Within limit := by
  have hlimit := hs.limit_eq
  unfold Session.read
  cases hpoll : s.connection.reader.poll s.connection.source with
  | mk answer behind =>
    obtain ⟨reader, source⟩ := behind
    have hconfig : reader.config.maxPayload = limit := by
      rw [Frame.Reader.poll_config hpoll]
      exact hlimit
    cases answer with
    | ok found =>
      cases found with
      | none => exact .idle hconfig (by simp) rfl
      | some frame =>
        have hpayload : frame.payload.length ≤ limit := by
          rw [← hlimit]
          exact Frame.Reader.poll_payload_le hpoll
        refine ⟨hconfig, ?_, by simp [holding]⟩
        rintro payload (h | h)
        · cases h
          exact hpayload
        · cases h
    | error e =>
      dsimp only
      split
      · exact .idle hconfig (by simp) rfl
      · split
        · exact .idle hconfig (by simp [finish]) rfl
        · split
          · exact .idle hconfig (by simp) rfl
          · exact .idle hconfig (by simp [finish]) rfl

theorem Within.step (hs : s.Within limit) (stop : Signal) (usable : Bool) (r : Region)
    (stats : Stats) : (s.step stop usable r stats).1.Within limit := by
  have hlimit := hs.limit_eq
  unfold Session.step
  cases hp : s.phase with
  | starting => exact .idle hlimit (by simp) rfl
  | configuring => cases usable <;> exact .idle hlimit (by simp) rfl
  | checking =>
    dsimp only
    split <;> exact .idle hlimit (by simp) rfl
  | reading => exact hs.read
  | receiving payload =>
    refine ⟨hlimit, ?_, by simp [holding]⟩
    rintro payload' (h | h)
    · cases h
    · cases h
      exact hs.payload_le payload (.inl hp)
  | deserializing payload =>
    rcases deserialize_cases r s.connection.thread payload with ⟨e, _, h⟩ | ⟨b, _, hb, _, h⟩
    · simp only [h]
      exact .idle hlimit (by simp) rfl
    · simp only [h]
      refine ⟨hlimit, by simp, ?_⟩
      intro b' hb'
      obtain rfl := List.mem_singleton.mp hb'
      rw [← (Envelope.split?_eq_some hb).1]
      exact hs.payload_le payload (.inr hp)
  | routing b =>
    have hb : b.encode.length ≤ limit := hs.holding_le b (by simp [holding, hp])
    dsimp only
    split <;> exact ⟨hlimit, by simp, by simpa [holding] using hb⟩
  | submitting c b =>
    dsimp only
    split <;> exact .idle hlimit (by simp) rfl
  | releasing b verdict => exact .idle hlimit (by simp) rfl
  | counting verdict => exact .idle hlimit (by simp) rfl
  | violated e => exact .idle hlimit (by simp [finish]) rfl
  | closing => exact .idle hlimit (by simp) rfl
  | leaving => exact .idle hlimit (by simp) rfl
  | gone => exact hs

/-- A connection parks what it holds and nothing else. -/
theorem Effect.within (h : Effect s s' r stats r' stats') (hs : s.Within limit)
    (hr : r.Within limit) : r'.Within limit := by
  cases h with
  | @submit b c hb hv =>
    apply hr.submit
    exact hs.holding_le b (by simp [hb])
  | _ => exact hr

theorem Effect.serializeFailures (h : Effect s s' r stats r' stats') :
    stats'.serializeFailures = stats.serializeFailures := by
  cases h with
  | count verdict _ _ => cases verdict <;> rfl
  | _ => rfl

end Session

namespace Sender

variable {s s' : Sender}

/-- What the egress thread has in hand keeps to the limit, the area in which it assembles a message
has room for a header more, and no message was found not to fit there. -/
structure Within (s : Sender) (limit : Nat) : Prop where
  holding_le : ∀ b ∈ s.holding, b.encode.length ≤ limit
  scratch_eq : s.egress.scratch.length = limit + Frame.headerSize
  fate_ne : ∀ c b behind rest, s.phase ≠ .forwarding c b behind rest (.tallying .unserialized)

theorem Effect.holding_le (h : Effect s s' r stats r' stats')
    (hs : ∀ b ∈ s.holding, b.encode.length ≤ limit) (hr : r.Within limit) :
    ∀ b ∈ s'.holding, b.encode.length ≤ limit := by
  cases h with
  | handOut c _ hv =>
    have hbatch : s'.holding = (r.handOut c s.egress.batch).1 := congrArg View.holding hv
    rw [hbatch]
    exact fun b => hr.of_mem_handOut
  | release hold hv =>
    have hbehind : s'.holding = _ := congrArg View.holding hv
    rw [hbehind]
    exact fun b hb => hs b (hold ▸ List.mem_cons_of_mem _ hb)
  | quiet hv | register _ hv | attempt _ _ hv | settle _ hv | leave _ hv =>
    have hsame : s'.holding = s.holding := congrArg View.holding hv
    rw [hsame]
    exact hs

theorem Effect.within (h : Effect s s' r stats r' stats') (hr : r.Within limit) :
    r'.Within limit := by
  cases h with
  | handOut c _ _ => exact hr.handOut c _
  | _ => exact hr

/-- A message within the limit is serialized, whatever the area holds. -/
theorem serialize_of_le {t : Thread} (ht : t ∈ r.registered) (b : Buffer) (area : Bytes)
    (hb : b.encode.length ≤ area.length) :
    ∃ n area', r.serialize t b area = (.ok (n + 1), area') ∧ area'.length = area.length := by
  obtain ⟨n, hn⟩ := b.exists_length_encode
  refine ⟨n, b.encode ++ area.drop b.encode.length, ?_, ?_⟩
  · rw [Egress.serialize_of_registered ht, if_neg (Nat.not_lt.mpr hb), hn]
  · rw [List.length_append, List.length_drop]
    omega

/-- Any step with a buffer in hand leaves the area its size, and none finds that a message does not
fit it. -/
theorem Within.forward (hs : s.Within limit) {c : Channel} {b : Buffer} {behind : List Buffer}
    {rest : List Channel} {stage : Stage} (hp : s.phase = .forwarding c b behind rest stage)
    (hr : r.Within limit) (ht : egressThread ∈ r.registered) (stats : Stats) :
    (s.forward c b behind rest r stats stage).1.Within limit ∧
      (s.forward c b behind rest r stats stage).2.2.serializeFailures =
        stats.serializeFailures := by
  have hholding := (forward_effect hp r stats).holding_le hs.holding_le hr
  have hscratch := hs.scratch_eq
  cases stage with
  | serializing =>
    have hb : b.encode.length ≤ limit := hs.holding_le b (by simp [holding, hp])
    obtain ⟨n, area, h, harea⟩ := serialize_of_le ht b s.egress.scratch (by omega)
    simp only [Sender.forward, h] at hholding ⊢
    exact ⟨⟨hholding, harea.trans hscratch, by simp⟩, trivial⟩
  | sending n =>
    refine ⟨⟨hholding, hscratch, ?_⟩, rfl⟩
    intro c' b' behind' rest' h
    simp only [Sender.forward, Phase.forwarding.injEq, Stage.tallying.injEq] at h
    obtain ⟨_, _, _, _, h⟩ := h
    split at h <;> contradiction
  | tallying fate =>
    refine ⟨⟨hholding, hscratch, by simp [Sender.forward]⟩, ?_⟩
    cases fate with
    | sent => rfl
    | sendFailed => rfl
    | unserialized => exact absurd hp (hs.fate_ne c b behind rest)
  | releasing => exact ⟨⟨hholding, hscratch, by simp [Sender.forward]⟩, rfl⟩
  | counting =>
    refine ⟨⟨hholding, hscratch, ?_⟩, rfl⟩
    cases behind <;> simp [Sender.forward, next]

theorem Within.step (hs : s.Within limit) (hr : r.Within limit)
    (ht : s.isRegistered = true → egressThread ∈ r.registered) (stop : Signal) (stats : Stats) :
    (s.step stop r stats).1.Within limit ∧
      (s.step stop r stats).2.2.serializeFailures = stats.serializeFailures := by
  have hholding := (s.step_effect stop r stats).holding_le hs.holding_le hr
  have hscratch := hs.scratch_eq
  unfold Sender.step at hholding ⊢
  cases hp : s.phase with
  | starting =>
    rw [hp] at hholding
    exact ⟨⟨hholding, hscratch, by simp⟩, rfl⟩
  | polling =>
    rw [hp] at hholding
    refine ⟨⟨hholding, ?_, ?_⟩, rfl⟩
    · rcases poll_cases s r with ⟨_, h⟩ | ⟨_, _, h⟩ | ⟨_, _, h⟩ <;> simp [h, hscratch]
    · rcases poll_cases s r with ⟨_, h⟩ | ⟨_, _, h⟩ | ⟨_, _, h⟩
      · simp [h]
      · simp [h]
      · cases hf : s.final.isSome <;> simp [h, hf]
  | visiting rest =>
    rw [hp] at hholding
    cases rest with
    | nil =>
      refine ⟨⟨hholding, ?_, ?_⟩, rfl⟩ <;>
      · dsimp only
        unfold complete
        split
        · simp [hscratch]
        · split <;> simp [hscratch]
    | cons c rest =>
      refine ⟨⟨hholding, ?_, ?_⟩, rfl⟩ <;>
      · dsimp only
        cases (r.handOut c s.egress.batch).1 <;> simp [take, hscratch]
  | forwarding c b behind rest stage =>
    exact hs.forward hp hr (ht (by simp [isRegistered, hp])) stats
  | deciding =>
    rw [hp] at hholding
    refine ⟨⟨hholding, ?_, ?_⟩, rfl⟩ <;>
    · dsimp only
      split <;> simp [resume, hscratch]
  | waiting =>
    rw [hp] at hholding
    exact ⟨⟨hholding, hscratch, by simp [resume]⟩, rfl⟩
  | leaving =>
    rw [hp] at hholding
    exact ⟨⟨hholding, hscratch, by simp⟩, rfl⟩
  | gone => exact ⟨hs, rfl⟩

end Sender

namespace Moment

variable {m : Moment}

def Move.isFilling : Move → Bool
  | .call operation => operation.isFilling
  | _ => false

structure Within (m : Moment) (limit : Nat) : Prop extends m.Orderly where
  limit_eq : m.limits.maxPayload = limit
  region : m.usage.region.Within limit
  sessions : ∀ s ∈ m.sessions, s.Within limit
  sender : m.sender.Within limit
  serialized : m.stats.serializeFailures = 0

theorem Within.start {c : Config} {region : Region} (hr : ofConfig c = .ok region) {s : Settings}
    (hs : s.validate = .ok ()) (sink : DatagramSink) :
    (start s sink region).Within s.frameConfig.maxPayload := by
  have hempty : region.rings = [] := by
    obtain ⟨rfl, _, _⟩ := ofConfig_eq_ok hr
    rfl
  refine ⟨.start hr s sink, rfl, ?_, ?_, ?_, rfl⟩
  · intro ring hring
    have hnone : ring ∈ region.rings := hring
    rw [hempty] at hnone
    contradiction
  · intro other hother
    contradiction
  · refine ⟨?_, ?_, ?_⟩
    · intro b hb
      contradiction
    · rw [Settings.maxPayload_add_headerSize hs]
      exact List.length_replicate
    · intro c b behind rest h
      cases h

theorem Within.call (hm : m.Within limit) {operation : Usage.Operation}
    (hout : (Move.call operation).IsOutside) (hf : operation.isFilling = false) :
    (m.move (.call operation)).Within limit :=
  ⟨hm.toOrderly.move hout, hm.limit_eq, Usage.operate_within hm.region hf, hm.sessions, hm.sender,
    hm.serialized⟩

theorem Within.acceptor (hm : m.Within limit) (arrival : Option Frame.Source) :
    (m.stepAcceptor arrival).Within limit := by
  have hout : (Move.acceptor arrival).IsOutside := trivial
  have horderly : (m.stepAcceptor arrival).Orderly := hm.toOrderly.move hout
  rcases stepAcceptor_cases m arrival with ⟨acceptor, workers, joined, h⟩ | ⟨source, h⟩
  · rw [h] at horderly ⊢
    exact ⟨horderly, hm.limit_eq, hm.region, hm.sessions, hm.sender, hm.serialized⟩
  · rw [h] at horderly ⊢
    refine ⟨horderly, hm.limit_eq, hm.region, ?_, hm.sender, hm.serialized⟩
    intro s hs
    rcases List.mem_append.mp hs with hs | hs
    · exact hm.sessions s hs
    · obtain rfl := List.mem_singleton.mp hs
      exact .idle hm.limit_eq (by simp) rfl

theorem Within.session (hm : m.Within limit) (place : Nat) (usable : Bool) :
    (m.stepSession place usable).Within limit := by
  have hout : (Move.session place usable).IsOutside := trivial
  have horderly : (m.stepSession place usable).Orderly := hm.toOrderly.move hout
  cases hplace : m.sessions[place]? with
  | none =>
    rw [stepSession_of_none hplace]
    exact hm
  | some s =>
    have hmem : s ∈ m.sessions := List.mem_of_getElem? hplace
    have heffect := Session.step_effect (hm.accounts.valid s hmem) m.ingressStop usable
      m.usage.region m.stats
    have hs := hm.sessions s hmem
    rw [stepSession_of_some hplace] at horderly ⊢
    refine ⟨horderly, hm.limit_eq, heffect.within hs hm.region, ?_, hm.sender,
      heffect.serializeFailures.trans hm.serialized⟩
    intro other hother
    rcases List.mem_or_eq_of_mem_set hother with hother | rfl
    · exact hm.sessions other hother
    · exact hs.step _ _ _ _

theorem Within.stepSender (hm : m.Within limit) : m.stepSender.Within limit := by
  have hout : Move.sender.IsOutside := trivial
  have horderly : m.stepSender.Orderly := hm.toOrderly.move hout
  have hregistered := hm.registered.egress.mpr
  have heffect := m.sender.step_effect m.egressStop m.usage.region m.stats
  obtain ⟨hsender, hserialized⟩ := hm.sender.step hm.region hregistered m.egressStop m.stats
  exact ⟨horderly, hm.limit_eq, heffect.within hm.region, hm.sessions, hsender,
    hserialized.trans hm.serialized⟩

theorem Within.stopper (hm : m.Within limit) : m.stepStopper.Within limit := by
  have hout : Move.stopper.IsOutside := trivial
  have horderly : m.stepStopper.Orderly := hm.toOrderly.move hout
  obtain ⟨stopper, ingressStop, egressStop, h⟩ := stepStopper_eq m
  rw [h] at horderly ⊢
  exact ⟨horderly, hm.limit_eq, hm.region, hm.sessions, hm.sender, hm.serialized⟩

theorem Within.move (hm : m.Within limit) {move : Move} (hout : move.IsOutside)
    (hf : move.isFilling = false) : (m.move move).Within limit := by
  cases move with
  | call operation => exact hm.call hout hf
  | acceptor arrival => exact hm.acceptor arrival
  | session place usable => exact hm.session place usable
  | sender => exact hm.stepSender
  | stopper => exact hm.stopper

/-- With valid settings the payload limit is the size of a frame less its header, neither cut off at
nothing nor at what can be announced. Whatever connections, links, passes and calls then follow each
other, over a region of any configuration, as long as only the bridge puts messages into it, every
message that the egress thread is handed leaves room for a header in the area in which it is
assembled, and none fails to be serialized. -/
theorem run_serializes {s : Settings} (hs : s.validate = .ok ()) :
    Frame.headerSize ≤ s.maxFrame ∧ s.maxFrame - Frame.headerSize ≤ Frame.wireMaxPayload ∧
    s.frameConfig.maxPayload + Frame.headerSize = s.maxFrame ∧
    ∀ (c : Config) (region : Region), ofConfig c = .ok region →
      ∀ (sink : DatagramSink) (moves : List Move),
        (∀ move ∈ moves, move.IsOutside ∧ move.isFilling = false) →
        let m := (start s sink region).run moves
        m.stats.serializeFailures = 0 ∧ m.sender.egress.scratch.length = s.maxFrame ∧
        ∀ b ∈ m.sender.holding, b.encode.length + Frame.headerSize ≤ s.maxFrame := by
  obtain ⟨hheader, hannounced⟩ := Settings.maxFrame_bounds hs
  have hlimit := Settings.maxPayload_add_headerSize hs
  refine ⟨hheader, hannounced, hlimit, ?_⟩
  intro c region hr sink moves hmoves m
  have hstart : (start s sink region).Within s.frameConfig.maxPayload := .start hr hs sink
  have hm : m.Within s.frameConfig.maxPayload :=
    run_induct (P := fun m => m.Within s.frameConfig.maxPayload)
      (fun _ _ hmove hm => hm.move hmove.1 hmove.2) hmoves hstart
  refine ⟨hm.serialized, hm.sender.scratch_eq.trans hlimit, ?_⟩
  intro b hb
  have hb := hm.sender.holding_le b hb
  omega

def snug : Settings := { maxFrame := 19 }

theorem run_serializes_snug :
    snug.validate = .ok () ∧ (∀ move ∈ breaching, move.isFilling = false) ∧
    let m := (start snug { description := "sink" } { config := Usage.tight }).run breaching
    m.sender.egress.sink.sent = [StreamId.nil.bytes ++ [9]] ∧ m.stats.serializeFailures = 0 := by
  have hfilling : ∀ move ∈ breaching, move.isFilling = false := by decide
  have hmoves : ∀ move ∈ breaching, move.IsOutside ∧ move.isFilling = false :=
    fun move hmove => ⟨breaching_outside move hmove, hfilling move hmove⟩
  obtain ⟨_, _, _, hrun⟩ := run_serializes (s := snug) (by decide)
  obtain ⟨hserialized, _, _⟩ := hrun Usage.tight _ rfl { description := "sink" } breaching hmoves
  exact ⟨by decide, hfilling, by decide +kernel, hserialized⟩

end Moment

end Bridge

end StreamRelay
