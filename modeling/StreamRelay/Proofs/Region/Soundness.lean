import Mathlib.Algebra.BigOperators.Ring.List
import Mathlib.Algebra.Order.BigOperators.Group.List
import Mathlib.Algebra.Order.Ring.Nat
import StreamRelay.Proofs.Region.Steps

/-!
# Soundness of a region in use

Whatever is called, a region has at most one ring for a channel, its rings stay within their
capacities and these within the slots that there are, a parked buffer carries the stream of its ring
and fits a slot, and links lead from existing inputs to existing outputs. So what is parked fits the
region, and a submission never misses its ring.
-/

namespace StreamRelay

namespace Region

structure Sound (r : Region) : Prop where
  distinct : (r.rings.map (·.channel)).Nodup
  roomy : ∀ ring ∈ r.rings, 1 ≤ ring.capacity ∧ ring.parked.length ≤ ring.capacity
  reserved_eq : (r.rings.map (·.capacity)).sum = r.reserved
  reserved_le : r.reserved ≤ r.config.totalSlots
  fitting : ∀ ring ∈ r.rings, ∀ b ∈ ring.parked,
    b.stream = ring.channel.stream ∧ b.body.length ≤ r.config.slotSize
  linked : ∀ l ∈ r.links, (r.ring? ⟨l.1, .input⟩).isSome ∧ (r.ring? ⟨l.2, .output⟩).isSome

variable {r : Region} {c : Channel} {ring old new : Ring}

theorem mem_setRing (h : ring ∈ (r.setRing new).rings) : ring = new ∨ ring ∈ r.rings := by
  obtain ⟨old, ho, he⟩ := List.mem_map.mp h
  by_cases hc : old.channel = new.channel
  · rw [if_pos hc] at he
    exact .inl he.symm
  · rw [if_neg hc] at he
    exact .inr (he ▸ ho)

theorem mem_insertRing {rings : List Ring} (h : ring ∈ insertRing new rings) :
    ring = new ∨ ring ∈ rings :=
  List.mem_cons.mp ((insertRing_perm new rings).mem_iff.mp h)

namespace Sound

theorem ofConfig {c : Config} (h : ofConfig c = .ok r) : r.Sound := by
  obtain ⟨rfl, _, _⟩ := ofConfig_eq_ok h
  exact ⟨by simp, by simp, rfl, Nat.zero_le _, by simp, by simp⟩

/-- The ledger does not matter. -/
theorem record (hs : r.Sound) (e : Entry) (n : Nat) : (r.record e n).Sound :=
  ⟨hs.distinct, hs.roomy, hs.reserved_eq, hs.reserved_le, hs.fitting, hs.linked⟩

theorem setRing (hs : r.Sound) (hr : r.ring? c = some old) (hc : new.channel = c)
    (hcap : new.capacity = old.capacity) (hroom : new.parked.length ≤ old.capacity)
    (hfit : ∀ b ∈ new.parked, b.stream = c.stream ∧ b.body.length ≤ r.config.slotSize) :
    (r.setRing new).Sound where
  distinct := by
    rw [map_channel_setRing]
    exact hs.distinct
  roomy ring h := by
    rcases mem_setRing h with rfl | h
    · have := (hs.roomy old (ring?_mem hr)).1
      omega
    · exact hs.roomy ring h
  reserved_eq := by
    have hsum := sum_map_setRing hs.distinct hr hc (·.capacity)
    have hold := hs.reserved_eq
    rw [setRing_reserved]
    omega
  reserved_le := hs.reserved_le
  fitting ring h := by
    rcases mem_setRing h with rfl | h
    · rw [hc]
      exact hfit
    · exact hs.fitting ring h
  linked l hl := by
    rw [ring?_setRing_isSome, ring?_setRing_isSome]
    exact hs.linked l hl

theorem park (hs : r.Sound) (hr : r.ring? c = some ring) (hroom : ring.parked.length < ring.capacity)
    {b : Buffer} (hb : b.body.length ≤ r.config.slotSize) : (r.setRing (ring.park b)).Sound := by
  have hc := ring?_channel hr
  refine hs.setRing hr hc rfl ?_ ?_
  · rw [Ring.park_parked, List.length_append]
    exact hroom
  · intro b' hb'
    rcases List.mem_append.mp hb' with hb' | hb'
    · exact hc ▸ hs.fitting ring (ring?_mem hr) b' hb'
    · obtain rfl := List.mem_singleton.mp hb'
      exact ⟨congrArg Channel.stream hc, hb⟩

theorem without (hs : r.Sound) (hr : r.ring? c = some ring) (n : Nat) :
    (r.setRing (ring.without n)).Sound := by
  have hc := ring?_channel hr
  have hroom := (hs.roomy ring (ring?_mem hr)).2
  refine hs.setRing hr hc rfl ?_ ?_
  · rw [Ring.without_parked, List.length_drop]
    omega
  · intro b hb
    exact hc ▸ hs.fitting ring (ring?_mem hr) b (List.mem_of_mem_drop hb)

theorem create (hs : r.Sound) {capacity : Nat} (hn : 0 < capacity) (hc : r.ring? c = none)
    (ha : capacity ≤ r.available) : Sound { r with
      rings := insertRing ⟨c, capacity, []⟩ r.rings, reserved := r.reserved + capacity } where
  distinct := by
    have hmem : c ∉ r.rings.map (·.channel) := by
      rw [← ring?_isSome_iff, hc]
      simp
    refine ((insertRing_perm _ _).map _).nodup_iff.mpr ?_
    exact List.nodup_cons.mpr ⟨hmem, hs.distinct⟩
  roomy ring h := by
    rcases mem_insertRing h with rfl | h
    · exact ⟨hn, Nat.zero_le _⟩
    · exact hs.roomy ring h
  reserved_eq := by
    rw [sum_map_insertRing, hs.reserved_eq]
    exact Nat.add_comm _ _
  reserved_le := by
    have := hs.reserved_le
    unfold available at ha
    dsimp only
    omega
  fitting ring h := by
    rcases mem_insertRing h with rfl | h
    · exact fun b hb => absurd hb List.not_mem_nil
    · exact hs.fitting ring h
  linked l hl := ⟨ring?_insertRing_isSome rfl (hs.linked l hl).1,
    ring?_insertRing_isSome rfl (hs.linked l hl).2⟩

theorem link (hs : r.Sound) {source target : StreamId}
    (hsource : (r.ring? ⟨source, .input⟩).isSome) (htarget : (r.ring? ⟨target, .output⟩).isSome) :
    Sound { r with links := (source, target) :: r.links.filter (·.1 ≠ source) } where
  distinct := hs.distinct
  roomy := hs.roomy
  reserved_eq := hs.reserved_eq
  reserved_le := hs.reserved_le
  fitting := hs.fitting
  linked l hl := by
    rcases List.mem_cons.mp hl with rfl | hl
    · exact ⟨hsource, htarget⟩
    · exact hs.linked l (List.mem_filter.mp hl).1

theorem registered (hs : r.Sound) (threads : List Thread) :
    Sound { r with registered := threads } :=
  ⟨hs.distinct, hs.roomy, hs.reserved_eq, hs.reserved_le, hs.fitting, hs.linked⟩

theorem handOut (hs : r.Sound) (c : Channel) (max : Nat) : (r.handOut c max).2.Sound := by
  rcases handOut_cases r c max with h | ⟨ring, hr, h⟩
  · rw [h]
    exact hs
  · rw [h]
    exact (hs.without hr max).record _ _

theorem fitting_parkedAt (hs : r.Sound) {b : Buffer} (h : b ∈ r.parkedAt c) :
    b.stream = c.stream ∧ b.body.length ≤ r.config.slotSize := by
  cases hr : r.ring? c with
  | none => simp [parkedAt, hr] at h
  | some ring =>
    rw [parkedAt_of_ring? hr] at h
    have hfit := hs.fitting ring (ring?_mem hr) b h
    rwa [ring?_channel hr] at hfit

/-- A channel that exists has an existing ring to submit to. -/
theorem target_isSome (hs : r.Sound) (hc : (r.ring? c).isSome) : (r.ring? (r.target c)).isSome := by
  unfold target
  split
  · exact hc
  · split
    · rename_i output hl
      obtain ⟨front, back, hmem, _⟩ := List.lookup_eq_some_iff.mp hl
      exact (hs.linked _ (hmem ▸ List.mem_append_right _ List.mem_cons_self)).2
    · exact hc

end Sound

structure Moved (r r' : Region) : Prop where
  rest_eq : r' = { r with rings := r'.rings, ledger := r'.ledger }
  channels_eq : r'.rings.map (·.channel) = r.rings.map (·.channel)
  sound : r.Sound → r'.Sound

namespace Moved

variable {r₁ r₂ : Region}

theorem refl (r : Region) : Moved r r := ⟨rfl, rfl, id⟩

theorem trans (h₁ : Moved r r₁) (h₂ : Moved r₁ r₂) : Moved r r₂ where
  rest_eq := by rw [h₂.rest_eq, h₁.rest_eq]
  channels_eq := h₂.channels_eq.trans h₁.channels_eq
  sound hs := h₂.sound (h₁.sound hs)

theorem record (h : Moved r r₁) (e : Entry) (n : Nat) : Moved r (r₁.record e n) :=
  h.trans ⟨rfl, rfl, fun hs => hs.record e n⟩

theorem park (hr : r.ring? c = some ring) (hroom : ring.parked.length < ring.capacity) {b : Buffer}
    (hb : b.body.length ≤ r.config.slotSize) : Moved r (r.setRing (ring.park b)) :=
  ⟨rfl, map_channel_setRing _ _, fun hs => hs.park hr hroom hb⟩

theorem handOut (r : Region) (c : Channel) (max : Nat) : Moved r (r.handOut c max).2 := by
  obtain ⟨rings, hr, hchannels⟩ := handOut_snd r c max
  refine ⟨?_, ?_, fun hs => hs.handOut c max⟩
  · rw [hr]
  · rw [hr]
    exact hchannels

theorem config_eq (h : Moved r r₁) : r₁.config = r.config := by rw [h.rest_eq]

theorem links_eq (h : Moved r r₁) : r₁.links = r.links := by rw [h.rest_eq]

theorem registered_eq (h : Moved r r₁) : r₁.registered = r.registered := by rw [h.rest_eq]

theorem ring?_isSome_eq (h : Moved r r₁) (c : Channel) : (r₁.ring? c).isSome = (r.ring? c).isSome := by
  rw [Bool.eq_iff_iff, ring?_isSome_iff, ring?_isSome_iff, h.channels_eq]

end Moved

end Region

namespace Usage
open Region

/-- The region is sound, callers only hold what fits a slot, and the channels they looked up are
there. -/
structure Sound (u : Usage) : Prop where
  region : u.region.Sound
  held : ∀ b ∈ u.held, b.body.length ≤ u.region.config.slotSize
  handles : ∀ c ∈ u.handles, (u.region.ring? c).isSome

variable {u v : Usage}

theorem Step.config_eq (h : Step u v) : v.region.config = u.region.config := by
  cases h <;> rfl

/-- No step takes a ring away. -/
theorem Step.ring?_isSome (h : Step u v) {c : Channel} (hc : (u.region.ring? c).isSome) :
    (v.region.ring? c).isSome := by
  cases h with
  | creation _ _ _ => exact ring?_insertRing_isSome rfl hc
  | publication _ _ _ => exact (ring?_setRing_isSome _ _ c).trans hc
  | consumption _ _ => exact (ring?_setRing_isSome _ _ c).trans hc
  | submission _ _ _ _ => exact (ring?_setRing_isSome _ _ c).trans hc
  | handing _ _ _ => exact (ring?_setRing_isSome _ _ c).trans hc
  | _ => exact hc

theorem Step.region_sound (hs : u.Sound) (h : Step u v) : v.region.Sound := by
  cases h with
  | idle => exact hs.region
  | registration threads => exact hs.region.registered threads
  | creation hn hc ha => exact hs.region.create hn hc ha
  | linking hsource htarget => exact hs.region.link hsource htarget
  | finding _ => exact hs.region
  | publication hr hroom hb => exact (hs.region.park hr hroom hb).record _ _
  | refusal _ _ => exact hs.region.record _ _
  | consumption hr _ => exact (hs.region.without hr 1).record _ _
  | acquisition _ => exact hs.region.record _ _
  | submission _ hb hr hroom =>
    have hfit := hs.held _ (List.mem_of_getElem? hb)
    exact (hs.region.park hr hroom hfit).record _ _
  | surrender _ => exact hs.region.record _ _
  | loss _ => exact hs.region.record _ _
  | handing max _ hr => exact (hs.region.without hr max).record _ _

/-- What is handed out was parked, so it fits a slot; nothing else is held than what was before, or
was just acquired. -/
theorem Step.held_fits (hs : u.Sound) (h : Step u v) :
    ∀ b ∈ v.held, b.body.length ≤ u.region.config.slotSize := by
  intro b hb
  cases h with
  | acquisition hfit =>
    rcases List.mem_append.mp hb with hb | hb
    · exact hs.held b hb
    · obtain rfl := List.mem_singleton.mp hb
      exact hfit
  | submission _ _ _ _ => exact hs.held b (List.mem_of_mem_eraseIdx hb)
  | surrender _ => exact hs.held b (List.mem_of_mem_eraseIdx hb)
  | loss _ => exact hs.held b (List.mem_of_mem_eraseIdx hb)
  | handing max _ hr =>
    rcases List.mem_append.mp hb with hb | hb
    · exact hs.held b hb
    · exact (hs.region.fitting _ (ring?_mem hr) b (List.mem_of_mem_take hb)).2
  | _ => exact hs.held b hb

theorem Step.sound (hs : u.Sound) (h : Step u v) : v.Sound where
  region := h.region_sound hs
  held := h.config_eq ▸ h.held_fits hs
  handles c hc := by
    have hkept : c ∈ u.handles → (v.region.ring? c).isSome :=
      fun hc => h.ring?_isSome (hs.handles c hc)
    cases h with
    | finding hfound =>
      rcases List.mem_cons.mp hc with rfl | hc
      · exact hfound
      · exact hkept hc
    | _ => exact hkept hc

theorem Runs.sound (h : Runs u v) (hs : u.Sound) : v.Sound :=
  h.induct (fun _ _ hs hstep => hstep.sound hs) hs

theorem Runs.ring?_isSome (h : Runs u v) {c : Channel} (hc : (u.region.ring? c).isSome) :
    (v.region.ring? c).isSome :=
  h.induct (P := fun u => (u.region.ring? c).isSome) (fun _ _ hc hstep => hstep.ring?_isSome hc) hc

theorem Sound.start {c : Config} {region : Region} (h : ofConfig c = .ok region) :
    Sound { region } where
  region := .ofConfig h
  held _ hb := absurd hb List.not_mem_nil
  handles _ hc := absurd hc List.not_mem_nil

theorem Reachable.sound {c : Config} (h : Reachable c u) : u.Sound :=
  h.induct (fun _ => .start) fun _ _ hs hstep => hstep.sound hs

theorem Reachable.config_eq {c : Config} (h : Reachable c u) : u.region.config = c :=
  h.induct (fun _ hr => congrArg Region.config (ofConfig_eq_ok hr).1)
    fun _ _ hc hstep => hstep.config_eq.trans hc

end Usage

end StreamRelay
