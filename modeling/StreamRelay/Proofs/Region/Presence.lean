import StreamRelay.Proofs.Region.Steps

/-!
# One user more

Someone who uses a region without parking anything shows in who is registered and in the ledger, as
buffers that were acquired and released or are still held. No operation of anybody else depends on
that: it gives the same answer, and changes the rest of the region in the same way.
-/

namespace StreamRelay

namespace Region

/-- What shows of one user more: who is registered beside him, the buffers that he acquired and
released, and those that he holds. -/
structure Presence where
  registered : List Thread
  returned : Nat := 0
  held : Nat := 0

def Ledger.alongside (l : Ledger) (returned held : Nat) : Ledger :=
  { l with acquired := l.acquired + (returned + held), released := l.released + returned }

theorem Ledger.record_alongside (l : Ledger) (e : Entry) (n returned held : Nat) :
    (l.alongside returned held).record e n = (l.record e n).alongside returned held := by
  cases e <;> simp [alongside, record, Nat.add_right_comm]

def alongside (r : Region) (g : Presence) : Region :=
  { r with registered := g.registered, ledger := r.ledger.alongside g.returned g.held }

variable {r : Region} {g : Presence} {t t' : Thread}

@[simp] theorem alongside_config (r : Region) (g : Presence) :
    (r.alongside g).config = r.config := rfl
@[simp] theorem alongside_links (r : Region) (g : Presence) : (r.alongside g).links = r.links := rfl
@[simp] theorem alongside_registered (r : Region) (g : Presence) :
    (r.alongside g).registered = g.registered := rfl
@[simp] theorem alongside_ring? (r : Region) (g : Presence) (c : Channel) :
    (r.alongside g).ring? c = r.ring? c := rfl
@[simp] theorem alongside_findRing (r : Region) (g : Presence) (c : Channel) :
    (r.alongside g).findRing c = r.findRing c := rfl
@[simp] theorem alongside_checkFits (r : Region) (g : Presence) (size : Nat) :
    (r.alongside g).checkFits size = r.checkFits size := rfl
@[simp] theorem alongside_target (r : Region) (g : Presence) (c : Channel) :
    (r.alongside g).target c = r.target c := rfl

theorem alongside_setRing (r : Region) (g : Presence) (ring : Ring) :
    (r.alongside g).setRing ring = (r.setRing ring).alongside g := rfl

theorem alongside_record (r : Region) (g : Presence) (e : Entry) (n : Nat) :
    (r.alongside g).record e n = (r.record e n).alongside g := by
  have hledger := r.ledger.record_alongside e n g.returned g.held
  simp only [record, alongside, hledger]

/-- He acquires a buffer. -/
theorem alongside_acquire (r : Region) (g : Presence) :
    (r.alongside g).record .acquired = r.alongside { g with held := g.held + 1 } := rfl

/-- He gives a buffer back. -/
theorem alongside_return (r : Region) {g : Presence} {n : Nat} (h : g.held = n + 1) :
    (r.alongside g).record .released =
      r.alongside { g with returned := g.returned + 1, held := n } := by
  have hacquired : g.returned + g.held = g.returned + 1 + n := by omega
  simp only [record, alongside, Ledger.record, Ledger.alongside, hacquired, Nat.add_assoc]

theorem alongside_checkRegistered (h : t ∈ g.registered ↔ t ∈ r.registered) :
    (r.alongside g).checkRegistered t = r.checkRegistered t := by
  simp [checkRegistered, h]

theorem createWith_alongside (r : Region) (g : Presence) (c : Channel) (capacity : Nat) :
    (r.alongside g).createWith c capacity =
      (r.createWith c capacity).map fun p => (p.1, p.2.alongside g) := by
  have havailable : (r.alongside g).available = r.available := rfl
  unfold createWith
  rw [alongside_ring?, havailable]
  split
  · rfl
  · split
    · rfl
    · split
      · rfl
      · split <;> rfl

theorem link_alongside (r : Region) (g : Presence) (source target : StreamId) :
    (r.alongside g).link source target =
      ((r.link source target).1, (r.link source target).2.alongside g) := by
  unfold link
  rw [alongside_findRing, alongside_findRing]
  split <;> rfl

theorem handOut_alongside (r : Region) (g : Presence) (c : Channel) (max : Nat) :
    (r.alongside g).handOut c max = ((r.handOut c max).1, (r.handOut c max).2.alongside g) := by
  unfold handOut
  rw [alongside_ring?]
  cases r.ring? c with
  | none => rfl
  | some ring =>
    dsimp only
    rw [alongside_setRing, alongside_record]

section
variable (h : (r.alongside g).checkRegistered t = r.checkRegistered t')
include h

theorem findChannel_alongside (c : Channel) :
    (r.alongside g).findChannel t c = r.findChannel t' c := by
  unfold findChannel
  rw [h, alongside_findRing]

theorem publish_alongside (stream : StreamId) (body : Bytes) :
    (r.alongside g).publish t stream body =
      ((r.publish t' stream body).1, (r.publish t' stream body).2.alongside g) := by
  unfold publish
  rw [h, alongside_checkFits, alongside_findRing]
  split
  · rfl
  · rename_i ring _
    cases ring.push? ⟨stream, body⟩ with
    | none =>
      dsimp only
      rw [alongside_record]
    | some pushed =>
      dsimp only
      rw [alongside_setRing, alongside_record]

theorem takeInput_alongside (stream : StreamId) :
    (r.alongside g).takeInput t stream =
      ((r.takeInput t' stream).1, (r.takeInput t' stream).2.alongside g) := by
  unfold takeInput
  rw [h, alongside_findRing]
  split
  · rfl
  · split
    · rfl
    · rw [alongside_setRing, alongside_record]

theorem deserialize_alongside (raw : Bytes) :
    (r.alongside g).deserialize t raw =
      ((r.deserialize t' raw).1, (r.deserialize t' raw).2.alongside g) := by
  unfold deserialize
  simp only [h, alongside_checkFits]
  split
  · rfl
  · rw [alongside_record]

theorem submit_alongside (c : Channel) (b : Buffer) :
    (r.alongside g).submit t c b = ((r.submit t' c b).1, (r.submit t' c b).2.alongside g) := by
  unfold submit
  rw [h, alongside_target, alongside_findRing]
  split
  · rw [alongside_record]
  · rename_i ring _
    cases ring.push? b with
    | none =>
      dsimp only
      rw [alongside_record]
    | some pushed =>
      dsimp only
      rw [alongside_setRing, alongside_record]

theorem serialize_alongside (b : Buffer) (area : Bytes) :
    (r.alongside g).serialize t b area = r.serialize t' b area := by
  unfold serialize
  rw [h]

end

end Region

namespace Usage
open Region

def alongside (u : Usage) (g : Presence) : Usage := { u with region := u.region.alongside g }

theorem created_alongside (u : Usage) (g : Presence) (c : Channel) (capacity : Nat) :
    (u.alongside g).created ((u.region.alongside g).createWith c capacity) =
      (u.created (u.region.createWith c capacity)).alongside g := by
  rw [createWith_alongside]
  cases u.region.createWith c capacity <;> rfl

/-- An operation that registers nobody. -/
theorem operate_alongside (u : Usage) (g : Presence) {operation : Operation}
    (hr : operation.isRegistration = false)
    (ht : ∀ t, operation.thread? = some t → (t ∈ g.registered ↔ t ∈ u.region.registered)) :
    (u.alongside g).operate operation = (u.operate operation).alongside g := by
  cases operation with
  | create c capacity =>
    cases capacity with
    | none => exact u.created_alongside g c u.region.config.ringCapacity
    | some n => exact u.created_alongside g c n
  | link source target => simp only [operate, alongside, link_alongside]
  | register t => contradiction
  | unregister t => contradiction
  | find t c =>
    have hfind := findChannel_alongside (alongside_checkRegistered (ht t rfl)) c
    simp only [operate, alongside, hfind]
    split <;> rfl
  | publish t stream body =>
    have hpublish := publish_alongside (alongside_checkRegistered (ht t rfl)) stream body
    simp only [operate, alongside, hpublish]
    cases u.region.publish t stream body with
    | mk answer behind =>
      cases answer with
      | ok _ => rfl
      | error e => cases e <;> rfl
  | takeInput t stream =>
    have htake := takeInput_alongside (alongside_checkRegistered (ht t rfl)) stream
    simp only [operate, alongside, htake]
    cases u.region.takeInput t stream with
    | mk answer behind =>
      cases answer with
      | ok found => cases found <;> rfl
      | error e => rfl
  | deserialize t raw =>
    have hdeserialize := deserialize_alongside (alongside_checkRegistered (ht t rfl)) raw
    simp only [operate, alongside, hdeserialize]
    cases u.region.deserialize t raw with
    | mk answer behind => cases answer <;> rfl
  | submit t c position =>
    simp only [operate, alongside]
    cases u.held[position]? with
    | none => rfl
    | some b =>
      have hsubmit := submit_alongside (alongside_checkRegistered (ht t rfl)) c b
      dsimp only
      by_cases hc : c ∈ u.handles
      · simp only [hc, if_true, hsubmit]
        cases u.region.submit t c b with
        | mk answer behind => cases answer <;> rfl
      · simp only [hc, if_false]
  | release position =>
    simp only [operate, alongside, release, alongside_record]
    cases u.held[position]? <;> rfl
  | drop position =>
    simp only [operate, alongside, leak, alongside_record]
    cases u.held[position]? <;> rfl
  | turn c max =>
    simp only [operate, alongside, handOut_alongside]
    split <;> rfl

theorem registered_operate (u : Usage) {operation : Operation}
    (hr : operation.isRegistration = false) :
    (u.operate operation).region.registered = u.region.registered := by
  cases operation with
  | drop position =>
    rw [operate]
    split <;> rfl
  | _ => exact (operate_steady u hr rfl).registered_eq

/-- Whatever others call, they find the same and leave the same behind. -/
theorem operate_present (u : Usage) (g : Presence) (operation : Operation) {P : Thread → Prop}
    (hg : ∀ t, P t → (t ∈ g.registered ↔ t ∈ u.region.registered))
    (hthread : ∀ t, operation.thread? = some t → P t) :
    ∃ threads, (u.alongside g).operate operation =
        (u.operate operation).alongside { g with registered := threads } ∧
      ∀ t, P t → (t ∈ threads ↔ t ∈ (u.operate operation).region.registered) := by
  by_cases hr : operation.isRegistration = true
  · refine ⟨((u.alongside g).operate operation).region.registered, ?_, ?_⟩
    · cases operation <;> first | rfl | simp [Operation.isRegistration] at hr
    · intro t ht
      by_cases hsame : operation.thread? = some t
      · cases operation with
        | register other =>
          obtain rfl : other = t := Option.some.inj hsame
          exact iff_of_true (mem_register.mpr (.inl rfl)) (mem_register.mpr (.inl rfl))
        | unregister other =>
          obtain rfl : other = t := Option.some.inj hsame
          exact iff_of_false (fun h => (mem_unregister.mp h).2 rfl)
            fun h => (mem_unregister.mp h).2 rfl
        | _ => simp [Operation.isRegistration] at hr
      · rw [mem_registered_operate _ hsame, mem_registered_operate _ hsame]
        exact hg t ht
  · have hr := Bool.eq_false_iff.mpr hr
    refine ⟨g.registered, operate_alongside u g hr fun t h => hg t (hthread t h), ?_⟩
    intro t ht
    rw [registered_operate u hr]
    exact hg t ht

end Usage

end StreamRelay
