import Mathlib.Algebra.Order.Ring.Nat
import StreamRelay.Region

/-!
# Rings of a region

In a region that has at most one ring for a channel, putting a ring in the place of the one for its
channel changes that one and no other; inserting a ring only adds it.
-/

namespace StreamRelay

namespace Ring

def park (ring : Ring) (b : Buffer) : Ring :=
  { ring with parked := ring.parked ++ [⟨ring.channel.stream, b.body⟩] }

def without (ring : Ring) (n : Nat) : Ring := { ring with parked := ring.parked.drop n }

@[simp] theorem park_channel (ring : Ring) (b : Buffer) : (ring.park b).channel = ring.channel := rfl
@[simp] theorem park_capacity (ring : Ring) (b : Buffer) :
    (ring.park b).capacity = ring.capacity := rfl
@[simp] theorem park_parked (ring : Ring) (b : Buffer) :
    (ring.park b).parked = ring.parked ++ [⟨ring.channel.stream, b.body⟩] := rfl
@[simp] theorem without_channel (ring : Ring) (n : Nat) :
    (ring.without n).channel = ring.channel := rfl
@[simp] theorem without_capacity (ring : Ring) (n : Nat) :
    (ring.without n).capacity = ring.capacity := rfl
@[simp] theorem without_parked (ring : Ring) (n : Nat) :
    (ring.without n).parked = ring.parked.drop n := rfl

theorem push?_of_full {ring : Ring} (h : ring.capacity ≤ ring.parked.length) (b : Buffer) :
    ring.push? b = none := by
  simp [push?, h]

theorem push?_of_room {ring : Ring} (h : ring.parked.length < ring.capacity) (b : Buffer) :
    ring.push? b = some (ring.park b) := by
  simp [push?, park, Nat.not_le.mpr h]

end Ring

namespace Region

variable {r : Region} {c : Channel} {ring old : Ring}

@[simp] theorem setRing_config (r : Region) (ring : Ring) : (r.setRing ring).config = r.config := rfl
@[simp] theorem setRing_links (r : Region) (ring : Ring) : (r.setRing ring).links = r.links := rfl
@[simp] theorem setRing_reserved (r : Region) (ring : Ring) :
    (r.setRing ring).reserved = r.reserved := rfl
@[simp] theorem setRing_ledger (r : Region) (ring : Ring) : (r.setRing ring).ledger = r.ledger := rfl

theorem findRing_eq_ok : r.findRing c = .ok ring ↔ r.ring? c = some ring := by
  unfold findRing
  cases r.ring? c <;> simp

theorem findRing_eq_error {e : Error} :
    r.findRing c = .error e ↔ r.ring? c = none ∧ e = .channelNotFound c := by
  unfold findRing
  cases r.ring? c <;> simp [eq_comm]

theorem ring?_mem (h : r.ring? c = some ring) : ring ∈ r.rings :=
  List.mem_of_find?_eq_some h

theorem ring?_channel (h : r.ring? c = some ring) : ring.channel = c := by
  simpa using List.find?_some h

theorem ring?_isSome_iff : (r.ring? c).isSome ↔ c ∈ r.rings.map (·.channel) := by
  simp [ring?, List.find?_isSome]

theorem map_channel_setRing (r : Region) (ring : Ring) :
    (r.setRing ring).rings.map (·.channel) = r.rings.map (·.channel) := by
  simp only [setRing, List.map_map]
  refine List.map_congr_left fun old _ => ?_
  by_cases h : old.channel = ring.channel <;> simp [h]

theorem ring?_setRing_isSome (r : Region) (ring : Ring) (c : Channel) :
    ((r.setRing ring).ring? c).isSome = (r.ring? c).isSome := by
  rw [Bool.eq_iff_iff, ring?_isSome_iff, ring?_isSome_iff, map_channel_setRing]

/-- The replaced ring is found in its place, and no other one changes. -/
theorem ring?_setRing (r : Region) (ring : Ring) (c : Channel) :
    (r.setRing ring).ring? c =
      (r.ring? c).map fun old => if old.channel = ring.channel then ring else old := by
  have hsame : ∀ old : Ring,
      (if old.channel = ring.channel then ring else old).channel = old.channel := by
    intro old
    split
    · rename_i h
      exact h.symm
    · rfl
  unfold setRing ring?
  rw [List.find?_map]
  congr 2
  funext old
  exact congrArg (fun channel => decide (channel = c)) (hsame old)

/-- The rings before and behind the one for a channel stay as they are when it is replaced. -/
theorem setRing_split (hd : (r.rings.map (·.channel)).Nodup) (h : r.ring? c = some old) :
    ∃ front back, r.rings = front ++ old :: back ∧
      ∀ new : Ring, new.channel = c → (r.setRing new).rings = front ++ new :: back := by
  obtain ⟨front, back, hr⟩ := List.append_of_mem (ring?_mem h)
  have hc := ring?_channel h
  rw [hr, List.map_append, List.map_cons, List.nodup_append, List.nodup_cons] at hd
  obtain ⟨_, ⟨hback, _⟩, hfront⟩ := hd
  refine ⟨front, back, hr, fun new hnew => ?_⟩
  have hne : ∀ other ∈ front ++ back, other.channel ≠ new.channel := by
    intro other ho he
    rw [hnew, ← hc] at he
    rcases List.mem_append.mp ho with ho | ho
    · exact hfront _ (List.mem_map_of_mem ho) _ List.mem_cons_self he
    · exact hback (he ▸ List.mem_map_of_mem ho)
  have hkeep : ∀ others : List Ring, (∀ o ∈ others, o ∈ front ++ back) →
      others.map (fun old => if old.channel = new.channel then new else old) = others := by
    intro others ho
    calc others.map (fun old => if old.channel = new.channel then new else old)
      _ = others.map id := List.map_congr_left fun o hm => if_neg (hne o (ho o hm))
      _ = others := List.map_id _
  rw [setRing, hr, List.map_append, List.map_cons, if_pos (hc.trans hnew.symm),
    hkeep front fun _ hm => List.mem_append_left _ hm,
    hkeep back fun _ hm => List.mem_append_right _ hm]

/-- What is summed over the rings changes by the difference that the replaced ring makes. -/
theorem sum_map_setRing (hd : (r.rings.map (·.channel)).Nodup) (h : r.ring? c = some old)
    (hc : ring.channel = c) (f : Ring → Nat) :
    ((r.setRing ring).rings.map f).sum + f old = (r.rings.map f).sum + f ring := by
  obtain ⟨front, back, hold, hnew⟩ := setRing_split hd h
  rw [hold, hnew ring hc]
  simp only [List.map_append, List.map_cons, List.sum_append_nat, List.sum_cons]
  omega

theorem insertRing_perm (ring : Ring) (rings : List Ring) :
    (insertRing ring rings).Perm (ring :: rings) := by
  induction rings with
  | nil => exact .refl _
  | cons next rest ih =>
    rw [insertRing]
    split
    · exact .refl _
    · exact (ih.cons next).trans (.swap ring next rest)

theorem sum_map_insertRing (ring : Ring) (rings : List Ring) (f : Ring → Nat) :
    ((insertRing ring rings).map f).sum = f ring + (rings.map f).sum :=
  ((insertRing_perm ring rings).map f).sum_nat

/-- An inserted ring is the one for its channel, if there was none. -/
theorem find?_insertRing (rings : List Ring) (ring : Ring) (c : Channel)
    (h : rings.find? (·.channel = ring.channel) = none) :
    (insertRing ring rings).find? (·.channel = c) =
      if ring.channel = c then some ring else rings.find? (·.channel = c) := by
  induction rings with
  | nil =>
    rw [insertRing, List.find?_cons]
    by_cases hc : ring.channel = c <;> simp [hc]
  | cons next rest ih =>
    have hnext : next.channel ≠ ring.channel := by
      intro he
      simp [he] at h
    rw [insertRing]
    split
    · rw [List.find?_cons]
      by_cases hc : ring.channel = c <;> simp [hc]
    · have hrest := ih (by simpa [hnext] using h)
      rw [List.find?_cons, List.find?_cons, hrest]
      by_cases hc : next.channel = c
      · have hne : ring.channel ≠ c := fun he => hnext (hc.trans he.symm)
        simp [hc, hne]
      · simp [hc]

theorem ring?_insertRing_isSome {r' : Region} (h : r'.rings = insertRing ring r.rings)
    (hc : (r.ring? c).isSome) : (r'.ring? c).isSome := by
  rw [ring?_isSome_iff] at hc ⊢
  rw [h, ((insertRing_perm ring r.rings).map _).mem_iff]
  exact List.mem_cons_of_mem _ hc

/-- The buffers in the ring for a channel, the oldest first; none if there is no ring. -/
def parkedAt (r : Region) (c : Channel) : List Buffer := ((r.ring? c).map (·.parked)).getD []

@[simp] theorem record_ring? (r : Region) (e : Entry) (n : Nat) (c : Channel) :
    (r.record e n).ring? c = r.ring? c := rfl

@[simp] theorem record_parkedAt (r : Region) (e : Entry) (n : Nat) (c : Channel) :
    (r.record e n).parkedAt c = r.parkedAt c := rfl

theorem parkedAt_congr {r' : Region} (h : r.ring? c = r'.ring? c) : r.parkedAt c = r'.parkedAt c := by
  unfold parkedAt
  rw [h]

theorem parkedAt_of_ring? (h : r.ring? c = some ring) : r.parkedAt c = ring.parked := by
  simp [parkedAt, h]

theorem parkedAt_of_none (h : r.ring? c = none) : r.parkedAt c = [] := by
  simp [parkedAt, h]

theorem mem_outputs_iff : c ∈ r.outputs ↔ (r.ring? c).isSome ∧ c.direction = .output := by
  rw [ring?_isSome_iff, outputs, List.mem_filter, decide_eq_true_eq]

/-- An output ring is the one of its stream. -/
theorem output_of_mem_outputs (h : c ∈ r.outputs) : ⟨c.stream, .output⟩ = c := by
  rw [← (mem_outputs_iff.mp h).2]

theorem ring?_setRing_of_ne {other : Channel} (h : ring.channel ≠ other) :
    (r.setRing ring).ring? other = r.ring? other := by
  rw [ring?_setRing]
  cases hr : r.ring? other with
  | none => rfl
  | some old =>
    have hc := ring?_channel hr
    rw [Option.map_some, if_neg fun he => h (he.symm.trans hc)]

theorem ring?_setRing_self (h : r.ring? c = some old) (hc : ring.channel = c) :
    (r.setRing ring).ring? c = some ring := by
  rw [ring?_setRing, h, Option.map_some, if_pos ((ring?_channel h).trans hc.symm)]

theorem parkedAt_setRing_of_ne {other : Channel} (h : ring.channel ≠ other) :
    (r.setRing ring).parkedAt other = r.parkedAt other :=
  parkedAt_congr (ring?_setRing_of_ne h)

theorem parkedAt_setRing_self (h : r.ring? c = some old) (hc : ring.channel = c) :
    (r.setRing ring).parkedAt c = ring.parked :=
  parkedAt_of_ring? (ring?_setRing_self h hc)

theorem parkedAt_park (h : r.ring? c = some ring) (b : Buffer) (other : Channel) :
    (r.setRing (ring.park b)).parkedAt other =
      if c = other then r.parkedAt c ++ [⟨c.stream, b.body⟩] else r.parkedAt other := by
  have hc : (ring.park b).channel = c := (ring.park_channel b).trans (ring?_channel h)
  split
  · rename_i ho
    rw [← ho, parkedAt_setRing_self h hc, parkedAt_of_ring? h, Ring.park_parked, ring?_channel h]
  · rename_i ho
    rw [parkedAt_setRing_of_ne (hc ▸ ho)]

end Region

end StreamRelay
