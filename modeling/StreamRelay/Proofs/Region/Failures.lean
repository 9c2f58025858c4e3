import StreamRelay.Proofs.Region.Usage

/-!
# Calls that fail

A call that is answered by an error changes nothing in the region but the ledger, writes nothing to
an area and never gets to the handler of a poll. The ledger gains an entry in two cases, one return
each: a submission has used up its buffer, and a publication that found its ring full gives back
the slot that it took.
-/

namespace StreamRelay

namespace Region

variable {r r' : Region} {t : Thread} {e : Error}

/-- A message that cannot be written is not written in part. -/
theorem serialize_untouched {b : Buffer} {area area' : Bytes}
    (h : r.serialize t b area = (.error e, area')) : area' = area := by
  unfold serialize at h
  split at h
  · exact (Prod.mk.inj h).2.symm
  · dsimp only at h
    split at h
    · exact (Prod.mk.inj h).2.symm
    · exact nomatch (Prod.mk.inj h).1

/-- A poll fails before the turn of the first ring. -/
theorem poll_untouched {α : Type} {max : Nat} {handler : Handler Region α} {a a' : α}
    (h : r.poll t max handler a = (.error e, r', a')) : r' = r ∧ a' = a := by
  unfold poll at h
  split at h
  · cases h
    exact ⟨rfl, rfl⟩
  · exact nomatch (Prod.mk.inj h).1

end Region

namespace Usage
open Region

/-- The answer to an operation, without what a success gives. A thread that panics gets none, so that
is no failure. -/
def answer (u : Usage) : Operation → Except Error Unit
  | .create c (some capacity) => (u.region.createWith c capacity).elim (.ok ()) Prod.fst
  | .create c none => (u.region.create c).elim (.ok ()) Prod.fst
  | .link source target => (u.region.link source target).1
  | .find t c => (u.region.findChannel t c).map fun _ => ()
  | .publish t stream body => (u.region.publish t stream body).1
  | .takeInput t stream => (u.region.takeInput t stream).1.map fun _ => ()
  | .deserialize t raw => (u.region.deserialize t raw).1.map fun _ => ()
  | .submit t c position =>
    match u.held[position]? with
    | none => .ok ()
    | some b => if c ∈ u.handles then (u.region.submit t c b).1 else .ok ()
  | .register _ | .unregister _ | .release _ | .drop _ | .turn _ _ => .ok ()

def Operation.returned : Operation → Error → Nat
  | .submit _ _ _, _ => 1
  | .publish _ _ _, .ringFull _ _ => 1
  | _, _ => 0

def Operation.left (held : List Buffer) : Operation → List Buffer
  | .submit _ _ position => held.eraseIdx position
  | _ => held

/-- Nothing but the ledger and the buffers in the hands of callers can differ. -/
structure Spared (u v : Usage) (returned : Nat) (held : List Buffer) : Prop where
  region_eq : v.region = { u.region with ledger := u.region.ledger.record .released returned }
  held_eq : v.held = held
  handles_eq : v.handles = u.handles

variable {u : Usage} {e : Error}

theorem Spared.refl (u : Usage) : Spared u u 0 u.held := ⟨rfl, rfl, rfl⟩

theorem created_spared {c : Channel} {capacity : Nat}
    (h : (u.region.createWith c capacity).elim (.ok ()) Prod.fst = .error e) :
    Spared u (u.created (u.region.createWith c capacity)) 0 u.held := by
  rcases createWith_cases u.region c capacity with ⟨_, hc⟩ | hc | ⟨_, _, _, hc⟩
  · rw [hc]
    exact .refl u
  · rw [hc]
    exact .refl u
  · rw [hc] at h
    contradiction

theorem link_spared {source target : StreamId} (h : (u.region.link source target).1 = .error e) :
    Spared u { u with region := (u.region.link source target).2 } 0 u.held := by
  rcases link_cases u.region source target with ⟨_, hl⟩ | ⟨_, _, hl⟩
  · rw [hl]
    exact .refl u
  · rw [hl] at h
    contradiction

theorem find_spared {t : Thread} {c : Channel} (h : u.answer (.find t c) = .error e) :
    Spared u (u.operate (.find t c)) 0 u.held := by
  rw [operate]
  rcases findChannel_cases u.region t c with ⟨_, hf⟩ | ⟨_, _, hf⟩ | ⟨_, _, hf⟩
  · rw [hf]
    exact .refl u
  · rw [hf]
    exact .refl u
  · rw [answer, hf] at h
    contradiction

/-- Only a full ring is found after a slot was taken. -/
theorem publish_spared {t : Thread} {stream : StreamId} {body : Bytes}
    (h : u.answer (.publish t stream body) = .error e) :
    Spared u (u.operate (.publish t stream body))
      (Operation.returned (.publish t stream body) e) u.held := by
  rw [answer] at h
  rw [operate]
  rcases publish_cases u.region t stream body with ⟨e', he, hp⟩ | ⟨ring, _, _, hp⟩ |
    ⟨_, _, _, _, _, hp⟩
  · rw [hp] at h ⊢
    obtain rfl : e' = e := Except.error.inj h
    cases e' with
    | ringFull s n => exact absurd rfl (he s n)
    | _ => exact .refl u
  · rw [hp] at h ⊢
    obtain rfl : .ringFull stream ring.capacity = e := Except.error.inj h
    exact ⟨rfl, rfl, rfl⟩
  · rw [hp] at h
    contradiction

theorem takeInput_spared {t : Thread} {stream : StreamId}
    (h : u.answer (.takeInput t stream) = .error e) :
    Spared u (u.operate (.takeInput t stream)) 0 u.held := by
  rw [operate]
  rcases takeInput_cases u.region t stream with ⟨_, ht⟩ | ht | ⟨_, _, _, _, _, _, ht⟩
  · rw [ht]
    exact .refl u
  · rw [ht]
    exact .refl u
  · rw [answer, ht] at h
    contradiction

theorem deserialize_spared {t : Thread} {raw : Bytes}
    (h : u.answer (.deserialize t raw) = .error e) :
    Spared u (u.operate (.deserialize t raw)) 0 u.held := by
  rw [operate]
  rcases deserialize_cases u.region t raw with ⟨_, _, hd⟩ | ⟨_, _, _, _, hd⟩
  · rw [hd]
    exact .refl u
  · rw [answer, hd] at h
    contradiction

/-- Whatever a submission fails for, its buffer is returned. -/
theorem submit_spared {t : Thread} {c : Channel} {position : Nat}
    (h : u.answer (.submit t c position) = .error e) :
    Spared u (u.operate (.submit t c position)) 1 (u.held.eraseIdx position) := by
  rw [answer] at h
  rw [operate]
  cases hb : u.held[position]? with
  | none =>
    rw [hb] at h
    contradiction
  | some b =>
    rw [hb] at h
    dsimp only at h ⊢
    split at h
    · rename_i hc
      rw [if_pos hc]
      rcases submit_cases u.region t c b with ⟨_, hs⟩ | ⟨_, _, hs⟩ | ⟨_, _, _, _, hs⟩ |
        ⟨_, _, _, _, hs⟩
      · rw [hs]
        exact ⟨rfl, rfl, rfl⟩
      · rw [hs]
        exact ⟨rfl, rfl, rfl⟩
      · rw [hs]
        exact ⟨rfl, rfl, rfl⟩
      · rw [hs] at h
        contradiction
    · contradiction

theorem operate_spared {operation : Operation} (h : u.answer operation = .error e) :
    Spared u (u.operate operation) (operation.returned e) (operation.left u.held) := by
  cases operation with
  | create c capacity =>
    cases capacity with
    | none => exact created_spared h
    | some n => exact created_spared h
  | link source target => exact link_spared h
  | find t c => exact find_spared h
  | publish t stream body => exact publish_spared h
  | takeInput t stream => exact takeInput_spared h
  | deserialize t raw => exact deserialize_spared h
  | submit t c position => exact submit_spared h
  | _ => contradiction

end Usage

structure Callers (α : Type) where
  usage : Usage
  area : Bytes
  notes : α

namespace Callers
open Region

variable {α : Type}

/-- What can be asked for. A held buffer is named by its position, and a handler may do anything with
the region and the notes. -/
inductive Request (α : Type)
  | operate (operation : Usage.Operation)
  | serialize (t : Thread) (position : Nat)
  | poll (t : Thread) (max : Nat) (handler : Handler Region α)

def ask (k : Callers α) : Request α → Except Error Unit × Callers α
  | .operate operation =>
    (k.usage.answer operation, { k with usage := k.usage.operate operation })
  | .serialize t position =>
    match k.usage.held[position]? with
    | none => (.ok (), k)
    | some b =>
      let (answer, area) := k.usage.region.serialize t b k.area
      (answer.map fun _ => (), { k with area })
  | .poll t max handler =>
    let (answer, region, notes) := k.usage.region.poll t max handler k.notes
    (answer.map fun _ => (), { k with usage := { k.usage with region }, notes })

def Request.returned : Request α → Error → Nat
  | .operate operation, e => operation.returned e
  | _, _ => 0

def Request.left (held : List Buffer) : Request α → List Buffer
  | .operate operation => operation.left held
  | _ => held

variable {k : Callers α} {e : Error}

theorem ask_serialize_eq {t : Thread} {position : Nat}
    (h : (k.ask (.serialize t position)).1 = .error e) :
    (k.ask (.serialize t position)).2 = k := by
  rw [ask] at h ⊢
  cases hb : k.usage.held[position]? with
  | none => rfl
  | some b =>
    rw [hb] at h
    cases hs : k.usage.region.serialize t b k.area with
    | mk answer area =>
      simp only [hs] at h ⊢
      cases answer with
      | error e' => rw [serialize_untouched hs]
      | ok n => contradiction

theorem ask_poll_eq {t : Thread} {max : Nat} {handler : Handler Region α}
    (h : (k.ask (.poll t max handler)).1 = .error e) : (k.ask (.poll t max handler)).2 = k := by
  rw [ask] at h ⊢
  rcases hp : k.usage.region.poll t max handler k.notes with ⟨answer, region, notes⟩
  simp only [hp] at h ⊢
  cases answer with
  | error e' =>
    obtain ⟨rfl, rfl⟩ := poll_untouched hp
    rfl
  | ok n => contradiction

/-- A call that fails leaves all rings, links, reservations and registrations, the area and the notes
of handlers as they are. The ledger gains one return when a submission fails, which uses up its
buffer, and one when a publication finds its ring full, and is the same otherwise. -/
theorem ask_atomic (k : Callers α) (q : Request α) {e : Error} (h : (k.ask q).1 = .error e) :
    let after := (k.ask q).2
    after.usage.region = { k.usage.region with
      ledger := k.usage.region.ledger.record .released (q.returned e) } ∧
    after.usage.held = q.left k.usage.held ∧ after.usage.handles = k.usage.handles ∧
    after.area = k.area ∧ after.notes = k.notes := by
  cases q with
  | operate operation =>
    obtain ⟨hregion, hheld, hhandles⟩ := Usage.operate_spared h
    exact ⟨hregion, hheld, hhandles, rfl, rfl⟩
  | serialize t position =>
    rw [ask_serialize_eq h]
    exact ⟨rfl, rfl, rfl, rfl, rfl⟩
  | poll t max handler =>
    rw [ask_poll_eq h]
    exact ⟨rfl, rfl, rfl, rfl, rfl⟩

/-- The linked output ring is full, so the buffer that is submitted is used up and returned. A thread
that is not registered polls in vain, and its handler is not called. -/
theorem ask_atomic_relayed :
    let k : Callers Nat := { usage := Usage.relayed, area := [1], notes := 0 }
    let stranger : Thread := { name := "stranger" }
    let submission : Request Nat := .operate (.submit { name := "main" } ⟨.nil, .input⟩ 0)
    let counting : Request Nat := .poll stranger 1 fun _ _ (r, calls) => (r, calls + 1)
    (k.ask submission).1 = .error (.ringFull .nil 1) ∧ (k.ask submission).2.usage.held = [] ∧
    (k.ask submission).2.usage.region =
      { Usage.relayed.region with ledger := { Usage.relayed.region.ledger with released := 2 } } ∧
    (k.ask counting).1 = .error (.threadNotRegistered "stranger") ∧ (k.ask counting).2.notes = 0 := by
  intro k stranger submission counting
  have hfull : (k.ask submission).1 = .error (.ringFull .nil 1) := rfl
  have hstranger : (k.ask counting).1 = .error (.threadNotRegistered "stranger") := rfl
  obtain ⟨hregion, hheld, _⟩ := ask_atomic k submission hfull
  obtain ⟨_, _, _, _, hnotes⟩ := ask_atomic k counting hstranger
  exact ⟨hfull, hheld, hregion, hstranger, hnotes⟩

end Callers

end StreamRelay
