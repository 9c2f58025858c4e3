import StreamRelay.Proofs.Region.Soundness

/-!
# Conservation of buffers

The ledger of a region in use always balances. What was put into rings is what came out of them and
what is parked; what callers got is what they returned, lost or still hold. A publication that finds
its ring full disturbs the second balance, since it enters a return of a buffer that no caller got.
-/

namespace StreamRelay

namespace Region

def Ledger.given (l : Ledger) : Nat := l.acquired + l.handedOut

/-- The buffers that callers have given back or lost. -/
def Ledger.returned (l : Ledger) : Nat := l.submitted + l.released + l.leaked

variable {r : Region} {c : Channel} {ring : Ring}

def parkedCount (r : Region) : Nat := (r.rings.map (·.parked.length)).sum

@[simp] theorem record_ledger (r : Region) (e : Entry) (n : Nat) :
    (r.record e n).ledger = r.ledger.record e n := rfl
@[simp] theorem record_parkedCount (r : Region) (e : Entry) (n : Nat) :
    (r.record e n).parkedCount = r.parkedCount := rfl

theorem parkedCount_park (hs : r.Sound) (hr : r.ring? c = some ring) (b : Buffer) :
    (r.setRing (ring.park b)).parkedCount = r.parkedCount + 1 := by
  have hc : (ring.park b).channel = c := (ring.park_channel b).trans (ring?_channel hr)
  have hsum := sum_map_setRing hs.distinct hr hc (·.parked.length)
  simp only [Ring.park_parked, List.length_append, List.length_singleton] at hsum
  unfold parkedCount
  omega

theorem parkedCount_without (hs : r.Sound) (hr : r.ring? c = some ring) (n : Nat) :
    (r.setRing (ring.without n)).parkedCount + (ring.parked.take n).length = r.parkedCount := by
  have hc : (ring.without n).channel = c := (ring.without_channel n).trans (ring?_channel hr)
  have hsum := sum_map_setRing hs.distinct hr hc (·.parked.length)
  have hlen : (ring.parked.take n).length + (ring.parked.drop n).length = ring.parked.length := by
    rw [← List.length_append, List.take_append_drop]
  simp only [Ring.without_parked] at hsum
  unfold parkedCount
  omega

theorem parkedCount_insertRing (r : Region) (c : Channel) (capacity reserved : Nat) :
    parkedCount { r with rings := insertRing ⟨c, capacity, []⟩ r.rings, reserved } =
      r.parkedCount := by
  unfold parkedCount
  rw [sum_map_insertRing, List.length_nil, Nat.zero_add]

end Region

namespace Usage
open Region

structure Balanced (u : Usage) : Prop where
  rings : u.region.ledger.submitted + u.region.ledger.published =
    u.region.ledger.handedOut + u.region.ledger.consumed + u.region.parkedCount
  callers : u.region.ledger.acquired + u.region.ledger.handedOut + u.refusals =
    u.region.ledger.submitted + u.region.ledger.released + u.region.ledger.leaked + u.held.length

variable {u v : Usage}

theorem length_eraseIdx_add_one {b : Buffer} {position : Nat} (h : u.held[position]? = some b) :
    (u.held.eraseIdx position).length + 1 = u.held.length := by
  obtain ⟨hlt, _⟩ := List.getElem?_eq_some_iff.mp h
  rw [List.length_eraseIdx_of_lt hlt]
  omega

theorem countP_isRefused_taken (c : Channel) (batch : List Buffer) :
    (batch.map fun b => Happening.taken c b.body).countP Happening.isRefused = 0 := by
  rw [List.countP_map, List.countP_eq_zero]
  intro b _
  exact Bool.false_ne_true

theorem Step.rings_balance (hs : u.Sound) (hb : u.Balanced) (h : Step u v) :
    v.region.ledger.submitted + v.region.ledger.published =
      v.region.ledger.handedOut + v.region.ledger.consumed + v.region.parkedCount := by
  have hold := hb.rings
  cases h with
  | creation _ _ _ =>
    rw [parkedCount_insertRing]
    exact hold
  | publication hr _ _ =>
    simp only [record_ledger, setRing_ledger, record_parkedCount, Ledger.record,
      parkedCount_park hs.region hr]
    omega
  | consumption hr hp =>
    have hcount := parkedCount_without hs.region hr 1
    rw [hp, List.take_one, List.head?_cons, Option.toList_some, List.length_singleton] at hcount
    simp only [record_ledger, setRing_ledger, record_parkedCount, Ledger.record]
    omega
  | submission _ _ hr _ =>
    simp only [record_ledger, setRing_ledger, record_parkedCount, Ledger.record,
      parkedCount_park hs.region hr]
    omega
  | handing max _ hr =>
    have hcount := parkedCount_without hs.region hr max
    simp only [receive, record_ledger, setRing_ledger, record_parkedCount, Ledger.record]
    omega
  | _ => exact hold

/-- What a step gives to callers, it enters or they hold it then; what they no longer hold they have
returned. -/
theorem Step.callers_change (h : Step u v) :
    v.region.ledger.given + v.refusals + (u.region.ledger.returned + u.held.length) =
      u.region.ledger.given + u.refusals + (v.region.ledger.returned + v.held.length) := by
  unfold refusals Ledger.given Ledger.returned
  cases h with
  | publication _ _ _ =>
    rw [List.countP_append, List.countP_singleton]
    rfl
  | refusal _ _ =>
    rw [List.countP_append, List.countP_singleton]
    simp only [record_ledger, Ledger.record, Happening.isRefused, if_true]
    omega
  | consumption _ _ =>
    rw [List.countP_append, List.countP_singleton]
    rfl
  | acquisition _ =>
    simp only [record_ledger, Ledger.record, List.length_append, List.length_singleton]
    omega
  | submission _ hheld _ _ =>
    have hlen := length_eraseIdx_add_one hheld
    rw [List.countP_append, List.countP_singleton]
    simp only [record_ledger, setRing_ledger, Ledger.record, Happening.isRefused,
      Bool.false_eq_true, if_false]
    omega
  | surrender hheld =>
    have hlen := length_eraseIdx_add_one hheld
    simp only [record_ledger, Ledger.record]
    omega
  | loss hheld =>
    have hlen := length_eraseIdx_add_one hheld
    simp only [record_ledger, Ledger.record]
    omega
  | handing max _ _ =>
    simp only [receive, record_ledger, setRing_ledger, Ledger.record, List.length_append,
      List.countP_append, countP_isRefused_taken]
    omega
  | _ => rfl

theorem Step.callers_balance (hb : u.Balanced) (h : Step u v) :
    v.region.ledger.acquired + v.region.ledger.handedOut + v.refusals =
      v.region.ledger.submitted + v.region.ledger.released + v.region.ledger.leaked +
        v.held.length := by
  have hold := hb.callers
  have hchange := h.callers_change
  unfold Ledger.given Ledger.returned at hchange
  omega

theorem Step.balanced (hs : u.Sound) (hb : u.Balanced) (h : Step u v) : v.Balanced :=
  ⟨h.rings_balance hs hb, h.callers_balance hb⟩

theorem Balanced.start {c : Config} {region : Region} (h : ofConfig c = .ok region) :
    Balanced { region } := by
  obtain ⟨rfl, _, _⟩ := ofConfig_eq_ok h
  exact ⟨rfl, rfl⟩

theorem Reachable.balanced {c : Config} (h : Reachable c u) : u.Balanced := by
  have hboth : u.Sound ∧ u.Balanced := by
    refine Reachable.induct (P := fun u => u.Sound ∧ u.Balanced) ?_ ?_ h
    · intro region hr
      exact ⟨.start hr, .start hr⟩
    · intro u v ⟨hs, hb⟩ hstep
      exact ⟨hstep.sound hs, hstep.balanced hs hb⟩
  exact hboth.2

/-- What was put into rings is what was taken out of them and what is parked. What callers got, and
what no caller got since its ring was full, is what was returned or lost and what is held. -/
theorem Reachable.conservation {c : Config} (h : Reachable c u) :
    u.region.ledger.submitted + u.region.ledger.published =
      u.region.ledger.handedOut + u.region.ledger.consumed + u.region.parkedCount ∧
    u.region.ledger.acquired + u.region.ledger.handedOut + u.refusals =
      u.region.ledger.submitted + u.region.ledger.released + u.region.ledger.leaked +
        u.held.length :=
  ⟨h.balanced.rings, h.balanced.callers⟩

theorem Reachable.conservation_relayed :
    relayed.region.parkedCount = 1 ∧ relayed.held.length = 1 := by
  obtain ⟨hrings, hcallers⟩ := relayed_reachable.conservation
  have hledger : relayed.region.ledger =
      { acquired := 1, submitted := 1, published := 1, handedOut := 1, released := 1 } := rfl
  have hrefusals : relayed.refusals = 1 := rfl
  simp only [hledger, hrefusals] at hrings hcallers
  omega

/-- A return that no caller made hides a buffer that one still holds. So the ledger tells how many
buffers are held as long as no publication found its ring full, and when none is held. -/
theorem Reachable.outstanding_eq_iff {c : Config} (h : Reachable c u) :
    u.region.ledger.outstanding = u.held.length - u.refusals ∧
    (u.region.ledger.outstanding = u.held.length ↔ u.refusals = 0 ∨ u.held = []) := by
  have hcallers := h.balanced.callers
  have hout : u.region.ledger.outstanding = u.held.length - u.refusals := by
    unfold Ledger.outstanding
    omega
  refine ⟨hout, ?_⟩
  rw [hout, ← List.length_eq_zero_iff]
  omega

/-- A producer overfills a ring of one slot, then a caller acquires a buffer. -/
def overfilling : List Call :=
  let t : Thread := { name := "main" }
  [.operate (.register t), .operate (.create ⟨.nil, .output⟩ (some 1)),
    .operate (.publish t .nil [7]), .operate (.publish t .nil [8]),
    .operate (.deserialize t (StreamId.nil.bytes ++ [9]))]

def overfilled : Usage := performAll { region := { config := tight } } overfilling

theorem overfilled_reachable : Reachable tight overfilled := ⟨_, overfilling, rfl, rfl⟩

theorem Reachable.outstanding_overfilled :
    overfilled.held.length = 1 ∧ overfilled.region.ledger.outstanding ≠ overfilled.held.length := by
  have hheld : overfilled.held.length = 1 := rfl
  have hrefusals : overfilled.refusals = 1 := rfl
  obtain ⟨hout, _⟩ := overfilled_reachable.outstanding_eq_iff
  refine ⟨hheld, ?_⟩
  omega

theorem Reachable.not_outstanding_eq_held :
    ¬ ∀ (c : Config) (u : Usage), Reachable c u →
      u.region.ledger.outstanding = u.held.length := by
  intro h
  have hout : overfilled.region.ledger.outstanding = 0 := rfl
  have hheld : overfilled.held.length = 1 := rfl
  have heq := h tight overfilled overfilled_reachable
  omega

end Usage

end StreamRelay
