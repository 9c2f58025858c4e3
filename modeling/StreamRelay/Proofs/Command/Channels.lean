import StreamRelay.Command.Run
import StreamRelay.Proofs.StreamId.Ascending

/-!
# Channels that options name

However often and in whatever order options name a stream, it gets one channel of each kind they ask
for, and each channel takes its share of the slots. So whether a new region can be furnished depends
on the number of streams alone, and of the links of a stream the last one counts. A region may have
the slots for a ring that no memory can be asked for; the first such ring makes the thread panic.
-/

namespace StreamRelay

namespace Channel

variable {a b : Channel}

theorem before_iff : a.before b = true ↔
    a.stream.bytes < b.stream.bytes ∨
      a.stream = b.stream ∧ a.direction = .input ∧ b.direction = .output := by
  by_cases hsame : a.stream = b.stream
  · rw [before_of_stream_eq hsame]
    refine ⟨fun h => .inr ⟨hsame, h⟩, ?_⟩
    rintro (h | h)
    · rw [hsame] at h
      exact absurd h (List.lt_irrefl _)
    · exact h.2
  · rw [before_of_stream_ne hsame, StreamId.le_iff]
    refine ⟨fun h => .inl ?_, ?_⟩
    · exact Std.lt_of_le_of_ne h fun hbytes => hsame (StreamId.eq_of_bytes hbytes)
    · rintro (h | h)
      · exact List.le_of_lt h
      · exact absurd h.1 hsame

end Channel

namespace Region

variable {r : Region} {c : Channel} {cs : List Channel} {capacity : Nat}

structure Absent (r : Region) (cs : List Channel) : Prop where
  distinct : cs.Nodup
  new : ∀ c ∈ cs, r.ring? c = none

def adding (r : Region) (c : Channel) (capacity : Nat) : Region :=
  { r with rings := insertRing ⟨c, capacity, []⟩ r.rings, reserved := r.reserved + capacity }

theorem Absent.adding (h : r.Absent (c :: cs)) (capacity : Nat) :
    (r.adding c capacity).Absent cs := by
  obtain ⟨hc, hcs⟩ := List.nodup_cons.mp h.distinct
  refine ⟨hcs, ?_⟩
  intro other hother
  have hne : c ≠ other := by
    rintro rfl
    exact hc hother
  have hfind := find?_insertRing r.rings ⟨c, capacity, []⟩ other (h.new c List.mem_cons_self)
  rw [if_neg hne] at hfind
  exact hfind.trans (h.new other (List.mem_cons_of_mem c hother))

def furnished (r : Region) (capacity : Nat) (cs : List Channel) : Region :=
  cs.foldl (fun r c => r.adding c capacity) r

theorem links_furnished (r : Region) (capacity : Nat) (cs : List Channel) :
    (r.furnished capacity cs).links = r.links := by
  induction cs generalizing r with
  | nil => rfl
  | cons c cs ih => exact ih (r.adding c capacity)

theorem mem_rings_furnished {ring : Ring} :
    ring ∈ (r.furnished capacity cs).rings ↔
      ring ∈ r.rings ∨ ∃ c ∈ cs, ring = ⟨c, capacity, []⟩ := by
  induction cs generalizing r with
  | nil => simp [furnished]
  | cons c cs ih =>
    have hadding : ring ∈ (r.adding c capacity).rings ↔ ring = ⟨c, capacity, []⟩ ∨ ring ∈ r.rings :=
      (insertRing_perm _ r.rings).mem_iff.trans List.mem_cons
    rw [furnished, List.foldl_cons, ← furnished, ih, hadding]
    simp only [List.mem_cons, exists_eq_or_imp]
    tauto

theorem ring?_furnished_isSome (h : c ∈ cs) : ((r.furnished capacity cs).ring? c).isSome := by
  rw [ring?_isSome_iff]
  exact List.mem_map.mpr ⟨⟨c, capacity, []⟩, mem_rings_furnished.mpr (.inr ⟨c, h, rfl⟩), rfl⟩

theorem InOrder.furnished (ho : InOrder r.rings) (h : r.Absent cs) (capacity : Nat) :
    InOrder (r.furnished capacity cs).rings := by
  induction cs generalizing r with
  | nil => exact ho
  | cons c cs ih =>
    refine ih (r := r.adding c capacity) (ho.insertRing ?_) (h.adding capacity)
    rw [← ring?_isSome_iff, h.new c List.mem_cons_self]
    exact Bool.false_ne_true

inductive Shortage : Error → Prop
  | capacity : Shortage (.invalidConfig "ring capacity must be non-zero")
  | slots (requested available : Nat) : Shortage (.exhausted requested available)

theorem Shortage.code_eq {e : Error} (h : Shortage e) (context : String) :
    (Failure.ofRegion context e).code = Exit.configInvalid := by
  cases h <;> rfl

theorem Shortage.ne_panicked {e : Error} (h : Shortage e) (context : String) :
    Failure.ofRegion context e ≠ Failure.panicked := by
  intro hsame
  have hcode : Exit.configInvalid = Exit.panicked :=
    (h.code_eq context).symm.trans (congrArg Failure.code hsame)
  exact absurd hcode (by decide)

theorem le_maxRingCapacity_iff {n : Nat} : n ≤ maxRingCapacity ↔ n < 2 ^ 57 :=
  Nat.lt_succ_iff.symm

/-- A region has room for `n` more channels of its usual capacity. -/
def HasRoom (r : Region) (n : Nat) : Prop :=
  n = 0 ∨ 0 < r.config.ringCapacity ∧ r.config.ringCapacity ≤ maxRingCapacity ∧
    r.reserved + n * r.config.ringCapacity ≤ r.config.totalSlots

/-- The region has the slots for a ring of its usual capacity, but memory cannot be asked for. -/
def Overruns (r : Region) : Prop :=
  maxRingCapacity < r.config.ringCapacity ∧ r.config.ringCapacity ≤ r.available

/-- Room for some channels is room for the first and then for the others. -/
theorem hasRoom_succ (c : Channel) {n : Nat} : r.HasRoom (n + 1) ↔
    r.HasRoom 1 ∧ (r.adding c r.config.ringCapacity).HasRoom n := by
  simp only [HasRoom, adding, Nat.add_one_mul, Nat.zero_mul, Nat.add_one_ne_zero, false_or]
  constructor
  · rintro ⟨hpos, hmax, hfits⟩
    exact ⟨⟨hpos, hmax, by omega⟩, .inr ⟨hpos, hmax, by omega⟩⟩
  · rintro ⟨⟨hpos, hmax, hfirst⟩, rfl | ⟨_, _, hothers⟩⟩
    · exact ⟨hpos, hmax, by omega⟩
    · exact ⟨hpos, hmax, by omega⟩

theorem HasRoom.not_overruns {n : Nat} (h : r.HasRoom n) (hn : n ≠ 0) : ¬ r.Overruns := by
  obtain ⟨_, hmax, _⟩ := h.resolve_left hn
  exact fun hover => absurd hover.1 (Nat.not_lt.mpr hmax)

theorem create_of_room (hc : r.ring? c = none) (hroom : r.HasRoom 1) :
    r.create c = some (.ok (), r.adding c r.config.ringCapacity) := by
  obtain ⟨hpos, hmax, hfits⟩ := hroom.resolve_left Nat.one_ne_zero
  have hnew : ¬ (r.ring? c).isSome = true := by simp [hc]
  have havailable : ¬ r.available < r.config.ringCapacity := by
    unfold available
    omega
  rw [create, createWith, if_neg (Nat.ne_of_gt hpos), if_neg hnew, if_neg havailable,
    if_neg (Nat.not_lt.mpr hmax)]
  rfl

theorem create_of_overrun (hc : r.ring? c = none) (h : r.Overruns) : r.create c = none := by
  have hnew : ¬ (r.ring? c).isSome = true := by simp [hc]
  have hzero : r.config.ringCapacity ≠ 0 := Nat.ne_zero_of_lt h.1
  rw [create, createWith, if_neg hzero, if_neg hnew, if_neg (Nat.not_lt.mpr h.2), if_pos h.1]

theorem create_of_shortage (hc : r.ring? c = none) (hroom : ¬ r.HasRoom 1) (h : ¬ r.Overruns) :
    ∃ e, Shortage e ∧ r.create c = some (.error e, r) := by
  have hnew : ¬ (r.ring? c).isSome = true := by simp [hc]
  rw [create, createWith]
  by_cases hzero : r.config.ringCapacity = 0
  · exact ⟨_, .capacity, by rw [if_pos hzero]⟩
  · have havailable : r.available < r.config.ringCapacity := by
      unfold HasRoom at hroom
      unfold Overruns at h
      unfold available at h ⊢
      omega
    exact ⟨_, .slots r.config.ringCapacity r.available,
      by rw [if_neg hzero, if_neg hnew, if_pos havailable]⟩

/-- A new link takes the place of an earlier one of its source. -/
theorem lookup_link (links : List (StreamId × StreamId)) (source target id : StreamId) :
    ((source, target) :: links.filter (·.1 ≠ source)).lookup id =
      ([(source, target)].lookup id).or (links.lookup id) := by
  by_cases hid : id = source
  · simp [hid]
  · have hkept : (links.filter (·.1 ≠ source)).lookup id = links.lookup id := by
      induction links with
      | nil => rfl
      | cons l links ih =>
        by_cases hl : l.1 = source
        · rw [List.filter_cons_of_neg (by simp [hl]), ih, List.lookup_cons, hl, beq_false_of_ne hid]
        · rw [List.filter_cons_of_pos (by simp [hl]), List.lookup_cons, List.lookup_cons, ih]
    rw [List.lookup_cons, List.lookup_cons, beq_false_of_ne hid, hkept]
    rfl

end Region

namespace Command.Run
open Region CommandLine

variable {r : Region} {cs : List Channel}

/-- Channels of which there is none are all created if there is room for them. -/
theorem changes_create_of_room (context : String) (h : r.Absent cs)
    (hroom : r.HasRoom cs.length) :
    changes context (cs.map fun c r => r.create c) r =
      (.ok (), r.furnished r.config.ringCapacity cs) := by
  induction cs generalizing r with
  | nil => rfl
  | cons c cs ih =>
    obtain ⟨hfirst, hothers⟩ := (hasRoom_succ c).mp hroom
    have hcreate := create_of_room (h.new c List.mem_cons_self) hfirst
    rw [List.map_cons, changes, hcreate]
    exact ih (h.adding _) hothers

/-- The first channel that memory cannot be asked for is the last to be tried. -/
theorem changes_create_of_overrun (context : String) (h : r.Absent cs) (hne : cs ≠ [])
    (hover : r.Overruns) :
    changes context (cs.map fun c r => r.create c) r = (.error Failure.panicked, r) := by
  obtain ⟨c, cs, rfl⟩ := List.exists_cons_of_ne_nil hne
  rw [List.map_cons, changes, create_of_overrun (h.new c List.mem_cons_self) hover]

/-- If there is no room for all, the only complaint is that something is lacking. -/
theorem changes_create_of_shortage (context : String) (h : r.Absent cs)
    (hroom : ¬ r.HasRoom cs.length) (hover : ¬ r.Overruns) :
    ∃ e r', Shortage e ∧ changes context (cs.map fun c r => r.create c) r =
      (.error (Failure.ofRegion context e), r') := by
  induction cs generalizing r with
  | nil => exact absurd (.inl rfl) hroom
  | cons c cs ih =>
    have hc := h.new c List.mem_cons_self
    rw [List.map_cons, changes]
    by_cases hfirst : r.HasRoom 1
    · have hothers : ¬ (r.adding c r.config.ringCapacity).HasRoom cs.length :=
        fun hothers => hroom ((hasRoom_succ c).mpr ⟨hfirst, hothers⟩)
      have hnext : ¬ (r.adding c r.config.ringCapacity).Overruns := by
        obtain ⟨_, hmax, _⟩ := hfirst.resolve_left Nat.one_ne_zero
        exact fun hnext => absurd hnext.1 (Nat.not_lt.mpr hmax)
      rw [create_of_room hc hfirst]
      exact ih (h.adding _) hothers hnext
    · obtain ⟨e, he, hcreate⟩ := create_of_shortage hc hfirst hover
      exact ⟨e, r, he, by rw [hcreate]⟩

/-- Links between channels that there are change nothing but the links, and the last one counts. -/
theorem changes_link (context : String) (ls : List (StreamId × StreamId))
    (h : ∀ l ∈ ls, (r.ring? ⟨l.1, .input⟩).isSome ∧ (r.ring? ⟨l.2, .output⟩).isSome) :
    ∃ links, changes context (ls.map fun l r => some (r.link l.1 l.2)) r =
        (.ok (), { r with links }) ∧
      ∀ id, links.lookup id = (ls.reverse.lookup id).or (r.links.lookup id) := by
  induction ls generalizing r with
  | nil => exact ⟨r.links, rfl, fun id => rfl⟩
  | cons l ls ih =>
    obtain ⟨hsource, htarget⟩ := h l List.mem_cons_self
    obtain ⟨source, hs⟩ := Option.isSome_iff_exists.mp hsource
    obtain ⟨target, ht⟩ := Option.isSome_iff_exists.mp htarget
    have hlink : r.link l.1 l.2 =
        (.ok (), { r with links := (l.1, l.2) :: r.links.filter (·.1 ≠ l.1) }) := by
      rw [link, findRing_eq_ok.mpr hs, findRing_eq_ok.mpr ht]
    obtain ⟨links, hrest, hlookup⟩ :=
      ih (r := { r with links := (l.1, l.2) :: r.links.filter (·.1 ≠ l.1) })
        fun l hl => h l (List.mem_cons_of_mem _ hl)
    refine ⟨links, ?_, ?_⟩
    · rw [List.map_cons, changes, hlink]
      exact hrest
    · intro id
      rw [hlookup, lookup_link, List.reverse_cons, List.lookup_append, Option.or_assoc]

def sources (o : RunOptions) : Finset StreamId := (o.input ++ o.loopback.map (·.1)).toFinset

def targets (o : RunOptions) : Finset StreamId := (o.output ++ o.loopback.map (·.2)).toFinset

def lastTarget? (o : RunOptions) (id : StreamId) : Option StreamId := o.loopback.reverse.lookup id

def wanted (o : RunOptions) : List Channel :=
  (inputs o).map (⟨·, .input⟩) ++ (outputs o).map (⟨·, .output⟩)

variable {o o' : RunOptions}

theorem mem_inputs {id : StreamId} : id ∈ inputs o ↔ id ∈ sources o :=
  StreamId.mem_ascending.trans List.mem_toFinset.symm

theorem mem_outputs {id : StreamId} : id ∈ outputs o ↔ id ∈ targets o :=
  StreamId.mem_ascending.trans List.mem_toFinset.symm

theorem mem_wanted {c : Channel} : c ∈ wanted o ↔
    (∃ id ∈ sources o, c = ⟨id, .input⟩) ∨ ∃ id ∈ targets o, c = ⟨id, .output⟩ := by
  simp only [wanted, List.mem_append, List.mem_map, mem_inputs, mem_outputs, eq_comm]

theorem length_wanted (o : RunOptions) :
    (wanted o).length = (sources o).card + (targets o).card := by
  simp only [wanted, List.length_append, List.length_map]
  exact congrArg₂ (· + ·) (StreamId.length_ascending _) (StreamId.length_ascending _)

theorem nodup_wanted (o : RunOptions) : (wanted o).Nodup := by
  have hside (d : Direction) (ids : List StreamId) :
      ((StreamId.ascending ids).map fun id => (⟨id, d⟩ : Channel)).Nodup := by
    refine (StreamId.ascends_ascending ids).nodup.map ?_
    intro a b h
    exact congrArg Channel.stream h
  refine List.nodup_append.mpr ⟨hside .input _, hside .output _, ?_⟩
  intro a ha b hb hab
  obtain ⟨source, _, rfl⟩ := List.mem_map.mp ha
  obtain ⟨target, _, rfl⟩ := List.mem_map.mp hb
  exact Direction.noConfusion (congrArg Channel.direction hab)

/-- Both ends of a link are among the channels. -/
theorem ends_wanted {l : StreamId × StreamId} (h : l ∈ o.loopback) :
    ⟨l.1, .input⟩ ∈ wanted o ∧ ⟨l.2, .output⟩ ∈ wanted o := by
  have hsource : l.1 ∈ sources o :=
    List.mem_toFinset.mpr (List.mem_append_right _ (List.mem_map_of_mem h))
  have htarget : l.2 ∈ targets o :=
    List.mem_toFinset.mpr (List.mem_append_right _ (List.mem_map_of_mem h))
  exact ⟨mem_wanted.mpr (.inl ⟨_, hsource, rfl⟩), mem_wanted.mpr (.inr ⟨_, htarget, rfl⟩)⟩

/-- The channels do not depend on the order of the options, nor on repetitions. -/
theorem wanted_congr (hs : sources o' = sources o) (ht : targets o' = targets o) :
    wanted o' = wanted o := by
  have hinputs : inputs o' = inputs o :=
    StreamId.ascending_congr fun id =>
      List.mem_toFinset.symm.trans ((Finset.ext_iff.mp hs id).trans List.mem_toFinset)
  have houtputs : outputs o' = outputs o :=
    StreamId.ascending_congr fun id =>
      List.mem_toFinset.symm.trans ((Finset.ext_iff.mp ht id).trans List.mem_toFinset)
  rw [wanted, wanted, hinputs, houtputs]

theorem createChannels_eq (o : RunOptions) (r : Region) :
    createChannels o r =
      match changes "channel setup failed" ((wanted o).map fun c r => r.create c) r with
      | (.error e, r) => (.error e, r)
      | (.ok (), r) =>
        changes "loopback setup failed" (o.loopback.map fun l r => some (r.link l.1 l.2)) r := by
  rw [createChannels, wanted, List.map_append, List.map_map, List.map_map]
  rfl

theorem createChannels_of_room (h : r.Absent (wanted o)) (hroom : r.HasRoom (wanted o).length) :
    ∃ links, createChannels o r =
        (.ok (), { r.furnished r.config.ringCapacity (wanted o) with links }) ∧
      ∀ id, links.lookup id = (lastTarget? o id).or (r.links.lookup id) := by
  obtain ⟨links, hlinks, hlookup⟩ := changes_link
    (r := r.furnished r.config.ringCapacity (wanted o)) "loopback setup failed" o.loopback
    fun l hl =>
      ⟨ring?_furnished_isSome (ends_wanted hl).1, ring?_furnished_isSome (ends_wanted hl).2⟩
  rw [links_furnished] at hlookup
  refine ⟨links, ?_, hlookup⟩
  rw [createChannels_eq, changes_create_of_room _ h hroom]
  exact hlinks

theorem createChannels_of_overrun (h : r.Absent (wanted o)) (hne : wanted o ≠ [])
    (hover : r.Overruns) : createChannels o r = (.error Failure.panicked, r) := by
  rw [createChannels_eq, changes_create_of_overrun _ h hne hover]

theorem createChannels_of_shortage (h : r.Absent (wanted o))
    (hroom : ¬ r.HasRoom (wanted o).length) (hover : ¬ r.Overruns) :
    ∃ e, Shortage e ∧ (createChannels o r).1 = .error (Failure.ofRegion "channel setup failed" e) ∧
      ∀ o', wanted o' = wanted o → createChannels o' r = createChannels o r := by
  obtain ⟨e, r', he, hchanges⟩ :=
    changes_create_of_shortage "channel setup failed" h hroom hover
  refine ⟨e, he, ?_, ?_⟩
  · rw [createChannels_eq, hchanges]
  · intro o' hsame
    rw [createChannels_eq, createChannels_eq, hsame, hchanges]

/-- The channels that the options name, each once, empty and in order. -/
structure IsSetUp (o : RunOptions) (capacity : Nat) (channels : List ChannelInfo) : Prop where
  listed : ∀ info, info ∈ channels ↔
    (∃ id ∈ sources o, info = ⟨id, .input, capacity, 0, lastTarget? o id⟩) ∨
    ∃ id ∈ targets o, info = ⟨id, .output, capacity, 0, none⟩
  ordered : channels.Pairwise fun a b =>
    a.stream.bytes < b.stream.bytes ∨
      a.stream = b.stream ∧ a.direction = .input ∧ b.direction = .output

/-- A region without rings has none of the channels yet. -/
theorem absent_wanted (hr : r.rings = []) (o : RunOptions) : r.Absent (wanted o) := by
  refine ⟨nodup_wanted o, ?_⟩
  intro c _
  rw [ring?, hr]
  rfl

theorem isSetUp_furnished (hr : r.rings = []) {links : List (StreamId × StreamId)}
    (hlinks : ∀ id, links.lookup id = lastTarget? o id) (capacity : Nat) :
    IsSetUp o capacity (Region.channels { r.furnished capacity (wanted o) with links }) := by
  constructor
  · intro info
    simp only [channels, linked?, hlinks, List.mem_map, mem_rings_furnished, hr, List.not_mem_nil,
      false_or]
    constructor
    · rintro ⟨_, ⟨c, hc, rfl⟩, rfl⟩
      rcases mem_wanted.mp hc with ⟨id, hid, rfl⟩ | ⟨id, hid, rfl⟩
      · exact .inl ⟨id, hid, rfl⟩
      · exact .inr ⟨id, hid, rfl⟩
    · rintro (⟨id, hid, rfl⟩ | ⟨id, hid, rfl⟩)
      · exact ⟨_, ⟨_, mem_wanted.mpr (.inl ⟨id, hid, rfl⟩), rfl⟩, rfl⟩
      · exact ⟨_, ⟨_, mem_wanted.mpr (.inr ⟨id, hid, rfl⟩), rfl⟩, rfl⟩
  · have hnone : InOrder r.rings := by
      rw [hr]
      exact .nil
    have horder := List.pairwise_map.mp (hnone.furnished (absent_wanted hr o) capacity)
    refine List.pairwise_map.mpr (horder.imp ?_)
    intro a b hab
    exact Channel.before_iff.mp hab

/-- The channels of an empty region are all created, or the first makes the thread panic, or
something is lacking. -/
theorem createChannels_cases (hr : r.rings = []) (o : RunOptions) :
    (r.HasRoom (wanted o).length ∧ (createChannels o r).1 = .ok ()) ∨
    (wanted o ≠ [] ∧ r.Overruns ∧ createChannels o r = (.error Failure.panicked, r)) ∨
    (¬ r.HasRoom (wanted o).length ∧ ¬ r.Overruns ∧ ∃ cause, Shortage cause ∧
      (createChannels o r).1 = .error (Failure.ofRegion "channel setup failed" cause)) := by
  have hnew := absent_wanted hr o
  by_cases hroom : r.HasRoom (wanted o).length
  · obtain ⟨links, hcreate, _⟩ := createChannels_of_room hnew hroom
    exact .inl ⟨hroom, by rw [hcreate]⟩
  · by_cases hover : r.Overruns
    · have hne : wanted o ≠ [] := by
        intro hnone
        rw [hnone] at hroom
        exact hroom (.inl rfl)
      exact .inr (.inl ⟨hne, hover, createChannels_of_overrun hnew hne hover⟩)
    · obtain ⟨cause, hcause, herror, _⟩ := createChannels_of_shortage hnew hroom hover
      exact .inr (.inr ⟨hroom, hover, cause, hcause, herror⟩)

theorem createChannels_eq_ok_iff (hr : r.rings = []) :
    (createChannels o r).1 = .ok () ↔ r.HasRoom (wanted o).length := by
  rcases createChannels_cases hr o with ⟨hroom, hok⟩ | ⟨hne, hover, hpanic⟩ |
    ⟨hroom, _, cause, _, herror⟩
  · exact iff_of_true hok hroom
  · rw [hpanic]
    refine iff_of_false nofun (fun hroom => hroom.not_overruns ?_ hover)
    exact mt List.length_eq_zero_iff.mp hne
  · rw [herror]
    exact iff_of_false nofun hroom

theorem createChannels_eq_panicked_iff (hr : r.rings = []) :
    (createChannels o r).1 = .error Failure.panicked ↔ wanted o ≠ [] ∧ r.Overruns := by
  rcases createChannels_cases hr o with ⟨hroom, hok⟩ | ⟨hne, hover, hpanic⟩ |
    ⟨_, hover, cause, hcause, herror⟩
  · rw [hok]
    refine iff_of_false nofun (fun h => hroom.not_overruns ?_ h.2)
    exact mt List.length_eq_zero_iff.mp h.1
  · exact iff_of_true (by rw [hpanic]) ⟨hne, hover⟩
  · refine iff_of_false ?_ (fun h => hover h.2)
    rw [herror]
    intro h
    exact hcause.ne_panicked _ (Except.error.inj h)

theorem createChannels_eq_error (hr : r.rings = []) {f : Failure}
    (h : (createChannels o r).1 = .error f) (hcalm : f ≠ Failure.panicked) :
    ∃ cause, Shortage cause ∧ f = Failure.ofRegion "channel setup failed" cause := by
  rcases createChannels_cases hr o with ⟨_, hok⟩ | ⟨_, _, hpanic⟩ | ⟨_, _, cause, hcause, herror⟩
  · cases hok.symm.trans h
  · rw [hpanic] at h
    exact absurd (Except.error.inj h).symm hcalm
  · exact ⟨cause, hcause, Except.error.inj (h.symm.trans herror)⟩

/-- Options that name the same channels and the same last links furnish an empty region alike. -/
theorem createChannels_congr (hr : r.rings = []) (hsame : wanted o' = wanted o) :
    (createChannels o' r).1 = (createChannels o r).1 ∧
      ((∀ id, lastTarget? o' id = lastTarget? o id) →
        (createChannels o' r).2.channels = (createChannels o r).2.channels) := by
  have hnew (o) : r.Absent (wanted o) := absent_wanted hr o
  rcases createChannels_cases hr o with ⟨hroom, _⟩ | ⟨hne, hover, hpanic⟩ | ⟨hroom, hover, _⟩
  · obtain ⟨links, hcreate, hlookup⟩ := createChannels_of_room (hnew o) hroom
    obtain ⟨links', hcreate', hlookup'⟩ := createChannels_of_room (hnew o') (hsame ▸ hroom)
    rw [hcreate, hcreate', hsame]
    refine ⟨rfl, ?_⟩
    intro hlast
    have hlinked (id) : links'.lookup id = links.lookup id := by rw [hlookup', hlookup, hlast]
    simp only [channels, linked?, hlinked]
  · rw [hpanic, createChannels_of_overrun (hnew o') (hsame ▸ hne) hover]
    exact ⟨rfl, fun _ => rfl⟩
  · obtain ⟨_, _, _, halike⟩ := createChannels_of_shortage (hnew o) hroom hover
    rw [halike o' hsame]
    exact ⟨rfl, fun _ => rfl⟩

/-- A new region gets every channel that the options name exactly once, if there is room for as many
as there are streams. Otherwise the settings are to blame, never a channel that there is already or
that is missing; or the thread panics, which it does exactly when the region has the slots for a
first channel of a capacity that no memory is asked for. The order of the options does not matter but
for the last link of each stream. -/
theorem createChannels_exact {c : Region.Config} (h : Region.ofConfig c = .ok r) (o : RunOptions) :
    ((createChannels o r).1 = .ok () ↔
      (sources o = ∅ ∧ targets o = ∅) ∨
        1 ≤ c.ringCapacity ∧ c.ringCapacity < 2 ^ 57 ∧
          ((sources o).card + (targets o).card) * c.ringCapacity ≤ c.totalSlots) ∧
    ((createChannels o r).1 = .ok () → IsSetUp o c.ringCapacity (createChannels o r).2.channels) ∧
    ((createChannels o r).1 = .error Failure.panicked ↔
      ¬ (sources o = ∅ ∧ targets o = ∅) ∧ 2 ^ 57 ≤ c.ringCapacity ∧
        c.ringCapacity ≤ c.totalSlots) ∧
    (∀ f, (createChannels o r).1 = .error f → f ≠ Failure.panicked → f.code = Exit.configInvalid ∧
      ∃ cause, Shortage cause ∧ f = Failure.ofRegion "channel setup failed" cause) ∧
    ∀ o', sources o' = sources o → targets o' = targets o →
      (createChannels o' r).1 = (createChannels o r).1 ∧
        ((∀ id, lastTarget? o' id = lastTarget? o id) →
          (createChannels o' r).2.channels = (createChannels o r).2.channels) := by
  obtain ⟨rfl, _⟩ := ofConfig_eq_ok h
  have hnone : wanted o = [] ↔ sources o = ∅ ∧ targets o = ∅ := by
    rw [← List.length_eq_zero_iff, length_wanted, Nat.add_eq_zero_iff, Finset.card_eq_zero,
      Finset.card_eq_zero]
  have hroom : HasRoom { config := c } (wanted o).length ↔
      (sources o = ∅ ∧ targets o = ∅) ∨ 1 ≤ c.ringCapacity ∧ c.ringCapacity < 2 ^ 57 ∧
        ((sources o).card + (targets o).card) * c.ringCapacity ≤ c.totalSlots := by
    rw [HasRoom, List.length_eq_zero_iff, hnone, length_wanted, Nat.zero_add,
      le_maxRingCapacity_iff]
    rfl
  have hover : Overruns { config := c } ↔
      2 ^ 57 ≤ c.ringCapacity ∧ c.ringCapacity ≤ c.totalSlots := by
    rw [Overruns, ← Nat.not_le, le_maxRingCapacity_iff, Nat.not_lt]
    rfl
  refine ⟨(createChannels_eq_ok_iff rfl).trans hroom, ?_, ?_, ?_, ?_⟩
  · intro hok
    obtain ⟨links, hcreate, hlookup⟩ :=
      createChannels_of_room (absent_wanted rfl o) ((createChannels_eq_ok_iff rfl).mp hok)
    rw [hcreate]
    exact isSetUp_furnished rfl (fun id => (hlookup id).trans Option.or_none) c.ringCapacity
  · exact (createChannels_eq_panicked_iff rfl).trans (and_congr (not_congr hnone) hover)
  · intro f hf hcalm
    obtain ⟨cause, hcause, rfl⟩ := createChannels_eq_error rfl hf hcalm
    exact ⟨hcause.code_eq _, cause, hcause, rfl⟩
  · intro o' hs ht
    exact createChannels_congr rfl (wanted_congr hs ht)

/-- Two streams are named eight times, and their four channels take all of the slots. Naming them
fewer times in another order gives the same. -/
theorem createChannels_exact_repeated :
    let a : StreamId := .nil
    let b : StreamId := ⟨List.replicate 16 7, rfl⟩
    let c : Region.Config := { name := "r", size := 8, slotSize := 1, ringCapacity := 2 }
    let o : RunOptions := { input := [b, a, b], output := [a], loopback := [(a, a), (a, b)] }
    let o' : RunOptions := { input := [a, b], output := [b, a], loopback := [(a, b)] }
    ∃ r, Region.ofConfig c = .ok r ∧ (createChannels o r).1 = .ok () ∧
      ⟨a, .input, 2, 0, some b⟩ ∈ (createChannels o r).2.channels ∧
      (createChannels o' r).2.channels = (createChannels o r).2.channels := by
  intro a b c o o'
  have hregion : Region.ofConfig c = .ok { config := c } := by
    dsimp only [c]
    rfl
  obtain ⟨hiff, hset, _, _, horder⟩ := createChannels_exact hregion o
  have hok := hiff.mpr (.inr (by decide +kernel))
  refine ⟨_, hregion, hok, ((hset hok).listed _).mpr (.inl ⟨a, by decide +kernel, ?_⟩), ?_⟩
  · have hlast : lastTarget? o a = some b := by decide +kernel
    rw [hlast]
  · refine (horder o' (by decide +kernel) (by decide +kernel)).2 ?_
    intro id
    by_cases hid : id = a
    · rw [hid]
      decide +kernel
    · simp [lastTarget?, o, o', List.lookup_cons, beq_false_of_ne hid]

/-- A region may have more slots than a ring of the usual capacity needs and still no channel can be
created: the thread panics, which is neither a success nor a complaint about the settings. -/
theorem not_createChannels_of_slots :
    let c : Region.Config :=
      { name := "r", size := 2 ^ 64 - 1, slotSize := 1, ringCapacity := 2 ^ 60 }
    let o : RunOptions := { input := [.nil] }
    1 ≤ c.ringCapacity ∧
      ((sources o).card + (targets o).card) * c.ringCapacity ≤ c.totalSlots ∧
      ∃ r, Region.ofConfig c = .ok r ∧ (createChannels o r).1 = .error Failure.panicked ∧
        (createChannels o r).1 ≠ .ok () ∧ Failure.panicked.code ≠ Exit.configInvalid := by
  intro c o
  have hregion : Region.ofConfig c = .ok { config := c } := by
    dsimp only [c]
    rfl
  have hpanic : (createChannels o { config := c }).1 = .error Failure.panicked :=
    (createChannels_eq_panicked_iff rfl).mpr
      ⟨by decide +kernel, by decide +kernel, by decide +kernel⟩
  refine ⟨by decide, by decide +kernel, _, hregion, hpanic, ?_, by decide⟩
  rw [hpanic]
  exact nofun

end Command.Run

end StreamRelay
