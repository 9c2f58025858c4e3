import StreamRelay.Proofs.Region.Soundness

/-!
# Rings as queues

Every ring of a region in use is a queue that neither loses nor doubles a body: what was put into it
is what was taken out of it and then what is parked in it, in one order. A call leaves alone every
ring that it neither puts a body into nor takes one from, and a body is what was given to the
publication, or what stands behind the stream id of the message, that brought it in.
-/

namespace StreamRelay

namespace Happening

def parkedFor (c : Channel) : Happening → Option Bytes
  | .parked channel body => if channel = c then some body else none
  | _ => none

def takenFrom (c : Channel) : Happening → Option Bytes
  | .taken channel body => if channel = c then some body else none
  | _ => none

theorem filterMap_takenFrom (c channel : Channel) (batch : List Buffer) :
    (batch.map fun b => Happening.taken channel b.body).filterMap (takenFrom c) =
      if channel = c then batch.map (·.body) else [] := by
  induction batch with
  | nil => simp
  | cons b rest ih =>
    rw [List.map_cons, List.filterMap_cons, ih]
    by_cases hc : channel = c <;> simp [takenFrom, hc]

theorem filterMap_parkedFor_taken (c channel : Channel) (batch : List Buffer) :
    (batch.map fun b => Happening.taken channel b.body).filterMap (parkedFor c) = [] := by
  rw [List.filterMap_eq_nil_iff]
  intro happening h
  obtain ⟨b, _, rfl⟩ := List.mem_map.mp h
  rfl

end Happening

namespace Usage
open Region Relation Happening

def pushed (u : Usage) (c : Channel) : List Bytes := u.history.filterMap (parkedFor c)

def pulled (u : Usage) (c : Channel) : List Bytes := u.history.filterMap (takenFrom c)

def waiting (u : Usage) (c : Channel) : List Bytes := (u.region.parkedAt c).map (·.body)

variable {u v w : Usage}

/-- The happenings between two moments account for what changed in the rings. -/
structure Follows (u v : Usage) (news : List Happening) : Prop where
  history_eq : v.history = u.history ++ news
  queues : ∀ c, u.waiting c ++ news.filterMap (parkedFor c) =
    news.filterMap (takenFrom c) ++ v.waiting c
  others : ∀ c ring, u.region.ring? c = some ring → news.filterMap (parkedFor c) = [] →
    news.filterMap (takenFrom c) = [] → v.region.ring? c = some ring

/-- Nothing happens in the rings. -/
theorem Follows.quiet (hh : v.history = u.history)
    (hr : ∀ c, v.region.ring? c = u.region.ring? c) : Follows u v [] where
  history_eq := by rw [hh, List.append_nil]
  queues c := by simp [waiting, parkedAt, hr]
  others c ring h _ _ := (hr c).trans h

theorem Follows.trans {early late : List Happening} (h₁ : Follows u v early)
    (h₂ : Follows v w late) : Follows u w (early ++ late) where
  history_eq := by rw [h₂.history_eq, h₁.history_eq, List.append_assoc]
  queues c := by
    have hearly := h₁.queues c
    have hlate := h₂.queues c
    rw [List.filterMap_append, List.filterMap_append, ← List.append_assoc, hearly,
      List.append_assoc, hlate, List.append_assoc]
  others c ring h hp ht := by
    rw [List.filterMap_append, List.append_eq_nil_iff] at hp ht
    exact h₂.others c ring (h₁.others c ring h hp.1 ht.1) hp.2 ht.2

/-- A body is put into one ring. -/
theorem Follows.park {c : Channel} {ring : Ring} {b : Buffer} (hr : u.region.ring? c = some ring)
    (hv : ∀ other, v.region.ring? other = (u.region.setRing (ring.park b)).ring? other)
    (hh : v.history = u.history ++ [.parked c b.body]) : Follows u v [.parked c b.body] where
  history_eq := hh
  queues other := by
    have hc : (ring.park b).channel = c := (ring.park_channel b).trans (ring?_channel hr)
    unfold waiting
    rw [parkedAt_congr (hv other)]
    by_cases ho : c = other
    · subst ho
      rw [parkedAt_setRing_self hr hc, parkedAt_of_ring? hr]
      simp [parkedFor, takenFrom]
    · rw [parkedAt_setRing_of_ne (hc ▸ ho)]
      simp [parkedFor, takenFrom, ho]
  others other old h hp _ := by
    have ho : c ≠ other := by
      rintro rfl
      simp [parkedFor] at hp
    have hc : (ring.park b).channel = c := (ring.park_channel b).trans (ring?_channel hr)
    rw [hv, ring?_setRing_of_ne (hc ▸ ho)]
    exact h

/-- The oldest bodies are taken out of one ring. -/
theorem Follows.take {c : Channel} {ring : Ring} (n : Nat) (hr : u.region.ring? c = some ring)
    (hv : ∀ other, v.region.ring? other = (u.region.setRing (ring.without n)).ring? other)
    (hh : v.history = u.history ++ (ring.parked.take n).map fun b => .taken c b.body) :
    Follows u v ((ring.parked.take n).map fun b => .taken c b.body) where
  history_eq := hh
  queues other := by
    have hc : (ring.without n).channel = c := (ring.without_channel n).trans (ring?_channel hr)
    unfold waiting
    rw [filterMap_takenFrom, filterMap_parkedFor_taken, List.append_nil, parkedAt_congr (hv other)]
    by_cases ho : c = other
    · subst ho
      rw [if_pos rfl, parkedAt_setRing_self hr hc, parkedAt_of_ring? hr, ← List.map_append,
        Ring.without_parked, List.take_append_drop]
    · rw [if_neg ho, parkedAt_setRing_of_ne (hc ▸ ho), List.nil_append]
  others other old h _ ht := by
    have hc : (ring.without n).channel = c := (ring.without_channel n).trans (ring?_channel hr)
    rw [hv]
    by_cases ho : c = other
    · subst ho
      rw [filterMap_takenFrom, if_pos rfl, List.map_eq_nil_iff] at ht
      have hkept : ring.parked.drop n = ring.parked := by
        rw [← List.nil_append (ring.parked.drop n), ← ht, List.take_append_drop]
      have hring : ring.without n = ring := by rw [Ring.without, hkept]
      rw [ring?_setRing_self hr hc, hring, ← hr]
      exact h
    · rw [ring?_setRing_of_ne (hc ▸ ho)]
      exact h

/-- A ring without buffers is added. -/
theorem Follows.create {c : Channel} {capacity : Nat} (hc : u.region.ring? c = none)
    (hv : v.region.rings = insertRing ⟨c, capacity, []⟩ u.region.rings)
    (hh : v.history = u.history) : Follows u v [] where
  history_eq := by rw [hh, List.append_nil]
  queues other := by
    have hfind := find?_insertRing u.region.rings ⟨c, capacity, []⟩ other hc
    rw [← hv] at hfind
    by_cases ho : c = other
    · subst ho
      simp [waiting, parkedAt, ring?, hfind, show u.region.rings.find? _ = none from hc]
    · simp [waiting, parkedAt, ring?, hfind, ho]
  others other ring h _ _ := by
    have hfind := find?_insertRing u.region.rings ⟨c, capacity, []⟩ other hc
    rw [← hv] at hfind
    have ho : c ≠ other := by
      rintro rfl
      exact Option.some_ne_none ring (h.symm.trans hc)
    exact hfind.trans ((if_neg ho).trans h)

theorem Step.follows (h : Step u v) : ∃ news, Follows u v news := by
  cases h with
  | creation _ hc _ => exact ⟨_, .create hc rfl rfl⟩
  | publication hr _ _ => exact ⟨_, .park hr (fun _ => rfl) rfl⟩
  | refusal hr hfull =>
    exact ⟨[.refused _], rfl, fun _ => List.append_nil _, fun _ _ h _ _ => h⟩
  | consumption hr hp =>
    refine ⟨_, .take 1 hr (fun _ => rfl) ?_⟩
    rw [hp]
    rfl
  | submission _ _ hr _ => exact ⟨_, .park hr (fun _ => rfl) rfl⟩
  | handing max hc hr =>
    rename_i c ring
    have hchannel : (⟨c.stream, .output⟩ : Channel) = c := by
      rw [← hc]
    refine ⟨_, .take max hr (fun _ => rfl) ?_⟩
    simp only [receive, hchannel]
  | _ => exact ⟨[], .quiet rfl fun _ => rfl⟩

theorem Runs.follows (h : Runs u v) : ∃ news, Follows u v news := by
  induction h with
  | refl => exact ⟨[], .quiet rfl fun _ => rfl⟩
  | tail _ hstep ih =>
    obtain ⟨early, hearly⟩ := ih
    obtain ⟨late, hlate⟩ := hstep.follows
    exact ⟨early ++ late, hearly.trans hlate⟩

/-- From a region without rings on, what was put into a ring is what was taken out of it and what
is parked in it. -/
theorem Runs.pushed_eq {region : Region} (hr : region.rings = [])
    (h : Runs { region } u) (c : Channel) : u.pushed c = u.pulled c ++ u.waiting c := by
  obtain ⟨news, hnews⟩ := h.follows
  have hqueue := hnews.queues c
  have hempty : Usage.waiting { region } c = [] := by
    simp [waiting, parkedAt, ring?, hr]
  rw [hempty, List.nil_append] at hqueue
  unfold pushed pulled
  rw [hnews.history_eq, List.nil_append]
  exact hqueue

def Operation.body? : Operation → Option Bytes
  | .publish _ _ body => some body
  | .deserialize _ raw => some (raw.drop StreamId.size)
  | _ => none

/-- The body that an operation puts into a ring, if it succeeds, and the channel of that ring. A
submission goes where the link leads at that moment, and with the body of the buffer. -/
def Operation.load? (u : Usage) : Operation → Option (Channel × Bytes)
  | .publish _ stream body => some (⟨stream, .output⟩, body)
  | .submit _ c position => (u.held[position]?).map fun b => (u.region.target c, b.body)
  | _ => none

def bodiesOf (calls : List Call) : List Bytes := (operationsOf calls).filterMap Operation.body?

/-- Callers hold, and rings have got, no other bodies than these. -/
structure Carries (bodies : List Bytes) (u : Usage) : Prop where
  held : ∀ b ∈ u.held, b.body ∈ bodies
  parked : ∀ c, ∀ b ∈ u.region.parkedAt c, b.body ∈ bodies
  pushed : ∀ c, ∀ body ∈ u.pushed c, body ∈ bodies

/-- What callers hold they held before, got out of a ring, or have just brought in. -/
theorem mem_held_operate {operation : Operation} {b : Buffer}
    (h : b ∈ (u.operate operation).held) :
    b ∈ u.held ∨ (∃ c, b ∈ u.region.parkedAt c) ∨ operation.body? = some b.body := by
  cases operation with
  | create c capacity =>
    cases capacity <;>
    · rw [operate, created_held] at h
      exact .inl h
  | find t c =>
    rw [operate] at h
    split at h <;> exact .inl h
  | publish t stream body =>
    rw [operate] at h
    split at h <;> exact .inl h
  | takeInput t stream =>
    rw [operate] at h
    split at h <;> exact .inl h
  | deserialize t raw =>
    rw [operate] at h
    rcases deserialize_cases u.region t raw with ⟨e, _, hd⟩ | ⟨b', _, hs, _, hd⟩
    · rw [hd] at h
      exact .inl h
    · rw [hd] at h
      rcases List.mem_append.mp h with h | h
      · exact .inl h
      · obtain rfl := List.mem_singleton.mp h
        exact .inr (.inr (congrArg some (Envelope.split?_eq_some hs).2.symm))
  | submit t c position =>
    rw [operate] at h
    split at h
    · exact .inl h
    · split at h
      · split at h <;> exact .inl (List.mem_of_mem_eraseIdx h)
      · exact .inl h
  | release position =>
    rw [operate] at h
    split at h
    · exact .inl h
    · exact .inl (List.mem_of_mem_eraseIdx h)
  | drop position =>
    rw [operate] at h
    split at h
    · exact .inl h
    · exact .inl (List.mem_of_mem_eraseIdx h)
  | turn c max =>
    rw [operate] at h
    split at h
    · rcases List.mem_append.mp h with h | h
      · exact .inl h
      · have hbatch : b ∈ (u.region.handOut c max).1 := h
        rw [handOut_fst] at hbatch
        exact .inr (.inl ⟨c, List.mem_of_mem_take hbatch⟩)
    · exact .inl h
  | _ => exact .inl h

theorem pushed_append (u : Usage) (region : Region) (held : List Buffer) (handles : List Channel)
    (news : List Happening) (c : Channel) :
    pushed ⟨region, held, handles, u.history ++ news⟩ c =
      u.pushed c ++ news.filterMap (parkedFor c) :=
  List.filterMap_append

theorem filterMap_parkedFor_parked (c channel : Channel) (body : Bytes) :
    [Happening.parked channel body].filterMap (parkedFor c) =
      if channel = c then [body] else [] := by
  by_cases hc : channel = c <;> simp [parkedFor, hc]

/-- An operation puts at most its load into a ring. -/
theorem pushed_operate (u : Usage) (operation : Operation) (c : Channel) :
    (u.operate operation).pushed c = u.pushed c ∨
    ∃ body, operation.load? u = some (c, body) ∧
      (u.operate operation).pushed c = u.pushed c ++ [body] := by
  cases operation with
  | create channel capacity =>
    cases capacity <;>
    · rw [operate, pushed, created_history]
      exact .inl rfl
  | find t channel =>
    rw [operate]
    split <;> exact .inl rfl
  | publish t stream given =>
    rw [operate]
    split
    · rw [pushed_append, filterMap_parkedFor_parked]
      split
      · rename_i hc
        exact .inr ⟨given, congrArg (fun channel => some (channel, given)) hc, rfl⟩
      · exact .inl (List.append_nil _)
    · rw [pushed_append]
      exact .inl (List.append_nil _)
    · exact .inl rfl
  | takeInput t stream =>
    rw [operate]
    split
    · rw [pushed_append]
      exact .inl (List.append_nil _)
    · exact .inl rfl
  | deserialize t raw =>
    rw [operate]
    split <;> exact .inl rfl
  | submit t channel position =>
    rw [operate]
    split
    · exact .inl rfl
    · rename_i b hb
      split
      · split
        · rw [pushed_append, filterMap_parkedFor_parked]
          split
          · rename_i hc
            exact .inr ⟨b.body, by simp [Operation.load?, hb, hc], rfl⟩
          · exact .inl (List.append_nil _)
        · exact .inl rfl
      · exact .inl rfl
  | release position =>
    rw [operate]
    split <;> exact .inl rfl
  | drop position =>
    rw [operate]
    split <;> exact .inl rfl
  | turn channel max =>
    rw [operate]
    split
    · unfold receive
      rw [pushed_append, filterMap_parkedFor_taken]
      exact .inl (List.append_nil _)
    · exact .inl rfl
  | _ => exact .inl rfl

/-- An operation that puts a body into a ring takes none out of one. -/
theorem pulled_operate_of_pushed {operation : Operation} {c : Channel}
    (h : (u.operate operation).pushed c ≠ u.pushed c) :
    (u.operate operation).pulled c = u.pulled c := by
  obtain ⟨body, hload, _⟩ := (pushed_operate u operation c).resolve_left h
  have hnews : ∀ happening, happening.takenFrom c = none →
      (u.history ++ [happening]).filterMap (takenFrom c) = u.pulled c := by
    intro happening hnone
    rw [List.filterMap_append, List.filterMap_cons_none hnone, List.filterMap_nil, List.append_nil]
    rfl
  cases operation with
  | publish t stream given =>
    rw [operate]
    split
    · exact hnews _ rfl
    · exact hnews _ rfl
    · rfl
  | submit t channel position =>
    rw [operate]
    split
    · rfl
    · split
      · split
        · exact hnews _ rfl
        · rfl
      · rfl
  | _ => simp [Operation.load?] at hload

/-- A load was held before or has just been brought in. -/
theorem body_of_load? {operation : Operation} {c : Channel} {body : Bytes}
    (h : operation.load? u = some (c, body)) :
    (∃ b ∈ u.held, b.body = body) ∨ operation.body? = some body := by
  cases operation with
  | publish t stream given =>
    simp only [Operation.load?, Option.some.injEq, Prod.mk.injEq] at h
    exact .inr (congrArg some h.2)
  | submit t channel position =>
    obtain ⟨b, hb, he⟩ := Option.map_eq_some_iff.mp h
    exact .inl ⟨b, List.mem_of_getElem? hb, (Prod.mk.inj he).2⟩
  | _ => simp [Operation.load?] at h

/-- Nothing gets into a ring without being pushed. -/
theorem Step.mem_waiting (h : Step u v) {c : Channel} {body : Bytes} (hb : body ∈ v.waiting c) :
    body ∈ u.waiting c ∨ body ∈ v.pushed c := by
  obtain ⟨news, hnews⟩ := h.follows
  have hmem : body ∈ u.waiting c ++ news.filterMap (parkedFor c) := by
    rw [hnews.queues c]
    exact List.mem_append_right _ hb
  rcases List.mem_append.mp hmem with hmem | hmem
  · exact .inl hmem
  · refine .inr ?_
    unfold pushed
    rw [hnews.history_eq, List.filterMap_append]
    exact List.mem_append_right _ hmem

theorem Carries.operate {bodies : List Bytes} (hu : Carries bodies u) {operation : Operation}
    (ho : ∀ body, operation.body? = some body → body ∈ bodies) :
    Carries bodies (u.operate operation) := by
  have hpushed : ∀ c, ∀ body ∈ (u.operate operation).pushed c, body ∈ bodies := by
    intro c body h
    rcases pushed_operate u operation c with hp | ⟨load, hload, hp⟩
    · exact hu.pushed c body (hp ▸ h)
    · rw [hp, List.mem_append, List.mem_singleton] at h
      rcases h with h | rfl
      · exact hu.pushed c body h
      · rcases body_of_load? hload with ⟨b, hb, rfl⟩ | hbrought
        · exact hu.held b hb
        · exact ho body hbrought
  refine ⟨?_, ?_, hpushed⟩
  · intro b h
    rcases mem_held_operate h with h | ⟨c, h⟩ | h
    · exact hu.held b h
    · exact hu.parked c b h
    · exact ho _ h
  · intro c b h
    have hwaiting : b.body ∈ (u.operate operation).waiting c := List.mem_map_of_mem h
    rcases (operate_step u operation).mem_waiting hwaiting with h | h
    · obtain ⟨b', hb', he⟩ := List.mem_map.mp h
      exact he ▸ hu.parked c b' hb'
    · exact hpushed c _ h

theorem performAll_carries {region : Region} (hr : region.rings = []) (calls : List Call) :
    Carries (bodiesOf calls) (performAll { region } calls) := by
  -- each operation of the calls brings in a body of theirs, and a turn brings in none
  have hchain := performAll_chain
    (R := fun u v => Carries (bodiesOf calls) u → Carries (bodiesOf calls) v)
    (fun u c max hu => hu.operate fun body h => by simp [Operation.body?] at h) { region } calls
    (fun operation ho u hu => hu.operate fun body h => List.mem_filterMap.mpr ⟨operation, ho, h⟩)
  have hstart : Carries (bodiesOf calls) { region } :=
    ⟨by simp, by simp [parkedAt, ring?, hr], by simp [pushed]⟩
  generalize performAll { region } calls = u at hchain
  induction hchain with
  | refl => exact hstart
  | tail _ hstep ih => exact hstep ih

/-- Every ring is a queue: what was put into it is what was taken out of it and then what is parked
in it. A publication puts in the body it was given and a submission that of the buffer, which is
what stands behind the stream id of the message; no other body gets in. A call changes no ring that
it neither puts a body into nor takes one from. -/
theorem performAll_fifo {c : Config} {region : Region} (hr : ofConfig c = .ok region)
    (calls : List Call) :
    let u := performAll { region } calls
    (∀ channel, u.pushed channel = u.pulled channel ++ u.waiting channel) ∧
    (∀ operation channel, (u.operate operation).pushed channel = u.pushed channel ∨
      ∃ body, operation.load? u = some (channel, body) ∧
        (u.operate operation).pushed channel = u.pushed channel ++ [body]) ∧
    (∀ t raw b, (u.region.deserialize t raw).1 = .ok b → b.body = raw.drop StreamId.size) ∧
    Carries (bodiesOf calls) u ∧
    ∀ call, ∃ news, (u.perform call).history = u.history ++ news ∧
      ∀ channel ring, u.region.ring? channel = some ring →
        news.filterMap (parkedFor channel) = [] → news.filterMap (takenFrom channel) = [] →
        (u.perform call).region.ring? channel = some ring := by
  have hempty : region.rings = [] := by
    rw [(ofConfig_eq_ok hr).1]
  intro u
  refine ⟨fun channel => (performAll_runs _ calls).pushed_eq hempty channel, pushed_operate u, ?_,
    performAll_carries hempty calls, ?_⟩
  · intro t raw b h
    rcases deserialize_cases u.region t raw with ⟨e, _, hd⟩ | ⟨b', _, hs, _, hd⟩
    · rw [hd] at h
      contradiction
    · rw [hd] at h
      cases h
      exact (Envelope.split?_eq_some hs).2
  · intro call
    obtain ⟨news, hnews⟩ := (perform_runs u call).follows
    exact ⟨news, hnews.history_eq, hnews.others⟩

theorem performAll_fifo_relayed :
    ofConfig tight = .ok { config := tight } ∧
    relayed.pushed ⟨.nil, .output⟩ = [[7]] ++ [[7]] ∧ Carries [[7], [8], [9]] relayed := by
  have htight : ofConfig tight = .ok { config := tight } := rfl
  obtain ⟨hqueue, _, _, hcarries, _⟩ := performAll_fifo htight relaying
  have hpulled : relayed.pulled ⟨.nil, .output⟩ = [[7]] := rfl
  have hwaiting : relayed.waiting ⟨.nil, .output⟩ = [[7]] := rfl
  refine ⟨htight, ?_, hcarries⟩
  exact (hqueue ⟨.nil, .output⟩).trans (congrArg₂ _ hpulled hwaiting)

end Usage

end StreamRelay
