import StreamRelay.Proofs.Region.Operations

/-!
# Threads on different streams

Two threads that address different rings do not notice each other. An operation of either replaces
one ring at most and makes one entry at most, and what it does depends on that ring and on what
neither of them changes. So operations of the two can be exchanged one by one, and any order of them
comes to the same as one thread after the other.
-/

namespace StreamRelay

theorem Ring.push?_channel {ring pushed : Ring} {b : Buffer} (h : ring.push? b = some pushed) :
    pushed.channel = ring.channel := by
  unfold push? at h
  split at h
  · contradiction
  · cases h
    rfl

namespace Region

variable {r r' : Region}

def replaced (r : Region) : Option Ring → Region
  | none => r
  | some ring => r.setRing ring

def entered (r : Region) : Option Entry → Region
  | none => r
  | some e => r.record e

theorem replaced_entered (r : Region) (ring : Option Ring) (e : Option Entry) :
    (r.entered e).replaced ring = (r.replaced ring).entered e := by
  cases ring <;> cases e <;> rfl

theorem Ledger.record_comm (l : Ledger) (e e' : Entry) :
    (l.record e).record e' = (l.record e').record e := by
  cases e <;> cases e' <;> rfl

theorem entered_comm (r : Region) (e e' : Option Entry) :
    (r.entered e).entered e' = (r.entered e').entered e := by
  cases e with
  | none => rfl
  | some e =>
    cases e' with
    | none => rfl
    | some e' => exact congrArg (fun ledger => { r with ledger }) (r.ledger.record_comm e e')

/-- Rings for different channels can be replaced in either order. -/
theorem setRing_comm (r : Region) {ring ring' : Ring} (h : ring.channel ≠ ring'.channel) :
    (r.setRing ring).setRing ring' = (r.setRing ring').setRing ring := by
  unfold setRing
  congr 1
  rw [List.map_map, List.map_map]
  apply List.map_congr_left
  intro old _
  by_cases ho : old.channel = ring.channel
  · simp [ho, h]
  · by_cases ho' : old.channel = ring'.channel <;> simp [ho, ho', h.symm]

theorem replaced_comm (r : Region) {ring ring' : Option Ring}
    (h : ∀ a ∈ ring, ∀ b ∈ ring', a.channel ≠ b.channel) :
    (r.replaced ring).replaced ring' = (r.replaced ring').replaced ring := by
  cases ring with
  | none => rfl
  | some a =>
    cases ring' with
    | none => rfl
    | some b => exact r.setRing_comm (h a rfl b rfl)

structure Change where
  ring : Option Ring := none
  entry : Option Entry := none

def Change.apply (d : Change) (r : Region) : Region := (r.replaced d.ring).entered d.entry

theorem Change.apply_comm (d d' : Change) (r : Region)
    (h : ∀ a ∈ d.ring, ∀ b ∈ d'.ring, a.channel ≠ b.channel) :
    d.apply (d'.apply r) = d'.apply (d.apply r) :=
  calc d.apply (d'.apply r)
    _ = (((r.replaced d'.ring).replaced d.ring).entered d'.entry).entered d.entry :=
      congrArg (entered · d.entry) (replaced_entered _ _ _)
    _ = (((r.replaced d.ring).replaced d'.ring).entered d.entry).entered d'.entry := by
      rw [entered_comm, r.replaced_comm h]
    _ = d'.apply (d.apply r) := congrArg (entered · d'.entry) (replaced_entered _ _ _).symm

theorem Change.apply_links (d : Change) (r : Region) : (d.apply r).links = r.links := by
  obtain ⟨_ | ring, _ | e⟩ := d <;> rfl

/-- Two regions that differ only in what rings hold and in their ledgers, and not in the ring for
this channel. -/
structure Agrees (r r' : Region) (c : Option Channel) : Prop where
  config_eq : r'.config = r.config
  links_eq : r'.links = r.links
  registered_eq : r'.registered = r.registered
  isSome_eq : ∀ c, (r'.ring? c).isSome = (r.ring? c).isSome
  ring_eq : ∀ a ∈ c, r'.ring? a = r.ring? a

namespace Agrees

variable {c : Option Channel} {a : Channel}

theorem refl (r : Region) (c : Option Channel) : r.Agrees r c :=
  ⟨rfl, rfl, rfl, fun _ => rfl, fun _ _ => rfl⟩

theorem checkRegistered (h : r.Agrees r' c) (t : Thread) :
    r'.checkRegistered t = r.checkRegistered t := by
  unfold Region.checkRegistered
  rw [h.registered_eq]

theorem checkFits (h : r.Agrees r' c) (size : Nat) : r'.checkFits size = r.checkFits size := by
  unfold Region.checkFits
  rw [h.config_eq]

theorem target (h : r.Agrees r' c) (a : Channel) : r'.target a = r.target a := by
  unfold Region.target linked?
  rw [h.links_eq]

theorem findRing (h : r.Agrees r' c) (ha : a ∈ c) : r'.findRing a = r.findRing a := by
  unfold Region.findRing
  rw [h.ring_eq a ha]

theorem findChannel (h : r.Agrees r' c) (t : Thread) (a : Channel) :
    r'.findChannel t a = r.findChannel t a := by
  have hsome := h.isSome_eq a
  rcases findChannel_cases r t a with ⟨ht, hr⟩ | ⟨ht, hnone, hr⟩ | ⟨ht, hsome', hr⟩
  all_goals
    rw [← h.registered_eq] at ht
    rcases findChannel_cases r' t a with ⟨ht', hr'⟩ | ⟨ht', hnone', hr'⟩ | ⟨ht', hsome'', hr'⟩
    all_goals simp_all

theorem serialize (h : r.Agrees r' c) (t : Thread) (b : Buffer) (area : Bytes) :
    r'.serialize t b area = r.serialize t b area := by
  unfold Region.serialize
  rw [h.checkRegistered]

end Agrees

theorem Change.agrees (d : Change) (r : Region) {c : Option Channel}
    (h : ∀ ring ∈ d.ring, ring.channel ∉ c) : r.Agrees (d.apply r) c := by
  obtain ⟨ring, e⟩ := d
  have hentered : ∀ r : Region, r.Agrees (r.entered e) c := by
    intro r
    cases e <;> exact ⟨rfl, rfl, rfl, fun _ => rfl, fun _ _ => rfl⟩
  cases ring with
  | none => exact hentered r
  | some ring =>
    have hrest := hentered (r.setRing ring)
    refine ⟨hrest.config_eq, hrest.links_eq, hrest.registered_eq, ?_, ?_⟩
    · intro a
      exact (hrest.isSome_eq a).trans (ring?_setRing_isSome r ring a)
    · intro a ha
      have hne : ring.channel ≠ a := fun heq => h ring rfl (heq ▸ ha)
      exact (hrest.ring_eq a ha).trans (ring?_setRing_of_ne hne)

/-- An operation that changes the ring for one channel at most, and does the same wherever that ring
is the same. -/
def IsLocal {α : Type} (r : Region) (c : Option Channel) (f : Region → α × Region) : Prop :=
  ∃ (answer : α) (d : Change), (∀ ring ∈ d.ring, ring.channel ∈ c) ∧
    ∀ r', r.Agrees r' c → f r' = (answer, d.apply r')

theorem IsLocal.links_eq {α : Type} {f : Region → α × Region} {c : Option Channel}
    (hf : r.IsLocal c f) : (f r).2.links = r.links := by
  obtain ⟨answer, d, _, hf⟩ := hf
  rw [hf r (.refl r c)]
  exact d.apply_links r

/-- Operations on different rings give the same answers, and lead to the same region, in either
order. -/
theorem IsLocal.exchange {α β : Type} {f : Region → α × Region} {g : Region → β × Region}
    {c c' : Option Channel} (hf : r.IsLocal c f) (hg : r.IsLocal c' g) (h : ∀ a ∈ c, a ∉ c') :
    (f (g r).2).1 = (f r).1 ∧ (g (f r).2).1 = (g r).1 ∧ (f (g r).2).2 = (g (f r).2).2 := by
  obtain ⟨answer, d, hd, hf⟩ := hf
  obtain ⟨answer', d', hd', hg⟩ := hg
  have hfr := hf r (.refl r c)
  have hgr := hg r (.refl r c')
  have hfg := hf (d'.apply r) (d'.agrees r fun ring hr ha => h _ ha (hd' ring hr))
  have hgf := hg (d.apply r) (d.agrees r fun ring hr => h _ (hd ring hr))
  have hcomm : d.apply (d'.apply r) = d'.apply (d.apply r) := by
    apply d.apply_comm
    intro a ha b hb heq
    exact h _ (hd a ha) (heq ▸ hd' b hb)
  rw [hfr, hgr]
  dsimp only
  rw [hfg, hgf]
  exact ⟨rfl, rfl, hcomm⟩

theorem eq_ok_of_bind {α : Type} {x : Except Error Unit} {y : Except Error α} {a : α}
    (h : (do x; y) = .ok a) : y = .ok a := by
  cases x with
  | error e => contradiction
  | ok _ => exact h

theorem publish_isLocal (r : Region) (t : Thread) (stream : StreamId) (body : Bytes) :
    r.IsLocal (some ⟨stream, .output⟩) fun r => r.publish t stream body := by
  have hsame : ∀ r', r.Agrees r' (some ⟨stream, .output⟩) →
      (do r'.checkRegistered t; r'.checkFits body.length; r'.findRing ⟨stream, .output⟩) =
        (do r.checkRegistered t; r.checkFits body.length; r.findRing ⟨stream, .output⟩) := by
    intro r' h
    rw [h.checkRegistered, h.checkFits, h.findRing rfl]
  cases hr : (do r.checkRegistered t; r.checkFits body.length; r.findRing ⟨stream, .output⟩) with
  | error e =>
    refine ⟨.error e, {}, nofun, ?_⟩
    intro r' h
    simp only [publish, (hsame r' h).trans hr]
    rfl
  | ok ring =>
    have hc := ring?_channel (findRing_eq_ok.mp (eq_ok_of_bind (eq_ok_of_bind hr)))
    cases hp : ring.push? ⟨stream, body⟩ with
    | none =>
      refine ⟨.error (.ringFull stream ring.capacity), { entry := some .released }, nofun, ?_⟩
      intro r' h
      simp only [publish, (hsame r' h).trans hr, hp]
      rfl
    | some pushed =>
      refine ⟨.ok (), { ring := some pushed, entry := some .published }, ?_, ?_⟩
      · rintro _ ⟨⟩
        rw [Ring.push?_channel hp, hc]
        rfl
      · intro r' h
        simp only [publish, (hsame r' h).trans hr, hp]
        rfl

theorem takeInput_isLocal (r : Region) (t : Thread) (stream : StreamId) :
    r.IsLocal (some ⟨stream, .input⟩) fun r => r.takeInput t stream := by
  have hsame : ∀ r', r.Agrees r' (some ⟨stream, .input⟩) →
      (do r'.checkRegistered t; r'.findRing ⟨stream, .input⟩) =
        (do r.checkRegistered t; r.findRing ⟨stream, .input⟩) := by
    intro r' h
    rw [h.checkRegistered, h.findRing rfl]
  cases hr : (do r.checkRegistered t; r.findRing ⟨stream, .input⟩) with
  | error e =>
    refine ⟨.error e, {}, nofun, ?_⟩
    intro r' h
    simp only [takeInput, (hsame r' h).trans hr]
    rfl
  | ok ring =>
    have hc := ring?_channel (findRing_eq_ok.mp (eq_ok_of_bind hr))
    cases hp : ring.parked with
    | nil =>
      refine ⟨.ok none, {}, nofun, ?_⟩
      intro r' h
      simp only [takeInput, (hsame r' h).trans hr, hp]
      rfl
    | cons b rest =>
      refine ⟨.ok (some b.body),
        { ring := some { ring with parked := rest }, entry := some .consumed }, ?_, ?_⟩
      · rintro _ ⟨⟩
        rw [hc]
        rfl
      · intro r' h
        simp only [takeInput, (hsame r' h).trans hr, hp]
        rfl

theorem deserialize_isLocal (r : Region) (t : Thread) (raw : Bytes) :
    r.IsLocal none fun r => r.deserialize t raw := by
  have hsame : ∀ r', r.Agrees r' none →
      (do r'.checkRegistered t; let b ← split raw; r'.checkFits b.body.length; return b) =
        (do r.checkRegistered t; let b ← split raw; r.checkFits b.body.length; return b) := by
    intro r' h
    simp only [h.checkRegistered, h.checkFits]
  cases hr : (do
      r.checkRegistered t; let b ← split raw; r.checkFits b.body.length; return b :
      Except Error Buffer) with
  | error e =>
    refine ⟨.error e, {}, nofun, ?_⟩
    intro r' h
    simp only [deserialize, (hsame r' h).trans hr]
    rfl
  | ok b =>
    refine ⟨.ok b, { entry := some .acquired }, nofun, ?_⟩
    intro r' h
    simp only [deserialize, (hsame r' h).trans hr]
    rfl

theorem submit_isLocal (r : Region) (t : Thread) (c : Channel) (b : Buffer) :
    r.IsLocal (some (r.target c)) fun r => r.submit t c b := by
  have hsame : ∀ r', r.Agrees r' (some (r.target c)) →
      (do r'.checkRegistered t; r'.findRing (r'.target c)) =
        (do r.checkRegistered t; r.findRing (r.target c)) := by
    intro r' h
    rw [h.checkRegistered, h.target, h.findRing rfl]
  cases hr : (do r.checkRegistered t; r.findRing (r.target c)) with
  | error e =>
    refine ⟨.error e, { entry := some .released }, nofun, ?_⟩
    intro r' h
    simp only [submit, (hsame r' h).trans hr]
    rfl
  | ok ring =>
    have hc := ring?_channel (findRing_eq_ok.mp (eq_ok_of_bind hr))
    cases hp : ring.push? b with
    | none =>
      refine ⟨.error (.ringFull ring.channel.stream ring.capacity), { entry := some .released },
        nofun, ?_⟩
      intro r' h
      simp only [submit, (hsame r' h).trans hr, hp]
      rfl
    | some pushed =>
      refine ⟨.ok (), { ring := some pushed, entry := some .submitted }, ?_, ?_⟩
      · rintro _ ⟨⟩
        rw [Ring.push?_channel hp, hc]
        rfl
      · intro r' h
        simp only [submit, (hsame r' h).trans hr, hp]
        rfl

end Region

inductive Party.Answer
  | found (answer : Except Region.Error Channel)
  | done (answer : Except Region.Error Unit)
  | taken (answer : Except Region.Error (Option Bytes))
  | acquired (answer : Except Region.Error Buffer)
  | serialized (answer : Except Region.Error Nat) (area : Bytes)
  | released
  | missing

structure Party where
  thread : Thread
  held : List Buffer := []
  handles : List Channel := []
  answers : List Party.Answer := []

namespace Party
open Region

inductive Task
  | find (c : Channel)
  | publish (stream : StreamId) (body : Bytes)
  | takeInput (stream : StreamId)
  | deserialize (raw : Bytes)
  | submit (c : Channel) (position : Nat)
  | serialize (position : Nat) (area : Bytes)
  | release (position : Nat)

def note (p : Party) (answer : Answer) : Party := { p with answers := p.answers ++ [answer] }

/-- Only a channel that was looked up can be submitted to, and only what is held can be submitted,
serialized or released. -/
def perform (p : Party) (r : Region) : Task → Party × Region
  | .find c =>
    match r.findChannel p.thread c with
    | .ok c => ({ p with handles := c :: p.handles }.note (.found (.ok c)), r)
    | .error e => (p.note (.found (.error e)), r)
  | .publish stream body =>
    let (answer, r) := r.publish p.thread stream body
    (p.note (.done answer), r)
  | .takeInput stream =>
    let (answer, r) := r.takeInput p.thread stream
    (p.note (.taken answer), r)
  | .deserialize raw =>
    match r.deserialize p.thread raw with
    | (.ok b, r) => ({ p with held := p.held ++ [b] }.note (.acquired (.ok b)), r)
    | (.error e, r) => (p.note (.acquired (.error e)), r)
  | .submit c position =>
    match p.held[position]? with
    | none => (p.note .missing, r)
    | some b =>
      if c ∈ p.handles then
        let (answer, r) := r.submit p.thread c b
        ({ p with held := p.held.eraseIdx position }.note (.done answer), r)
      else (p.note .missing, r)
  | .serialize position area =>
    match p.held[position]? with
    | none => (p.note .missing, r)
    | some b =>
      let (answer, area) := r.serialize p.thread b area
      (p.note (.serialized answer area), r)
  | .release position =>
    match p.held[position]? with
    | none => (p.note .missing, r)
    | some _ => ({ p with held := p.held.eraseIdx position }.note .released, r.release)

/-- The channel whose ring an operation addresses, with links followed. To look a channel up is not
to address its ring. -/
def Task.channel? (r : Region) : Task → Option Channel
  | .publish stream _ => some ⟨stream, .output⟩
  | .takeInput stream => some ⟨stream, .input⟩
  | .submit c _ => some (r.target c)
  | .find _ | .deserialize _ | .serialize _ _ | .release _ => none

theorem Task.channel?_congr {r r' : Region} (h : r'.links = r.links) (task : Task) :
    task.channel? r' = task.channel? r := by
  cases task with
  | submit c position => simp only [channel?, target, linked?, h]
  | _ => rfl

theorem perform_isLocal (p : Party) (r : Region) (task : Task) :
    r.IsLocal (task.channel? r) fun r => p.perform r task := by
  cases task with
  | find c =>
    refine ⟨(p.perform r (.find c)).1, {}, nofun, ?_⟩
    intro r' h
    simp only [perform, h.findChannel]
    split <;> rfl
  | publish stream body =>
    obtain ⟨answer, d, hd, hf⟩ := publish_isLocal r p.thread stream body
    refine ⟨p.note (.done answer), d, hd, ?_⟩
    intro r' h
    simp only [perform, hf r' h]
  | takeInput stream =>
    obtain ⟨answer, d, hd, hf⟩ := takeInput_isLocal r p.thread stream
    refine ⟨p.note (.taken answer), d, hd, ?_⟩
    intro r' h
    simp only [perform, hf r' h]
  | deserialize raw =>
    obtain ⟨answer, d, hd, hf⟩ := deserialize_isLocal r p.thread raw
    cases answer with
    | ok b =>
      refine ⟨{ p with held := p.held ++ [b] }.note (.acquired (.ok b)), d, hd, ?_⟩
      intro r' h
      simp only [perform, hf r' h]
    | error e =>
      refine ⟨p.note (.acquired (.error e)), d, hd, ?_⟩
      intro r' h
      simp only [perform, hf r' h]
  | submit c position =>
    cases hb : p.held[position]? with
    | none =>
      refine ⟨p.note .missing, {}, nofun, ?_⟩
      intro r' h
      simp only [perform, hb]
      rfl
    | some b =>
      by_cases hc : c ∈ p.handles
      · obtain ⟨answer, d, hd, hf⟩ := submit_isLocal r p.thread c b
        refine ⟨{ p with held := p.held.eraseIdx position }.note (.done answer), d, hd, ?_⟩
        intro r' h
        simp only [perform, hb, hc, if_true, hf r' h]
      · refine ⟨p.note .missing, {}, nofun, ?_⟩
        intro r' h
        simp only [perform, hb, hc, if_false]
        rfl
  | serialize position area =>
    refine ⟨(p.perform r (.serialize position area)).1, {}, nofun, ?_⟩
    intro r' h
    simp only [perform, h.serialize]
    split <;> rfl
  | release position =>
    cases hb : p.held[position]? with
    | none =>
      refine ⟨p.note .missing, {}, nofun, ?_⟩
      intro r' h
      simp only [perform, hb]
      rfl
    | some b =>
      refine ⟨{ p with held := p.held.eraseIdx position }.note .released,
        { entry := some .released }, nofun, ?_⟩
      intro r' h
      simp only [perform, hb]
      rfl

end Party

structure Duo where
  first : Party
  second : Party
  region : Region

namespace Duo
open Region

inductive Side
  | first
  | second
  deriving DecidableEq

abbrev Move := Side × Party.Task

def step (d : Duo) : Move → Duo
  | (.first, task) =>
    let (first, region) := d.first.perform d.region task
    { d with first, region }
  | (.second, task) =>
    let (second, region) := d.second.perform d.region task
    { d with second, region }

def run (d : Duo) (moves : List Move) : Duo := moves.foldl step d

def tasksOf (side : Side) (moves : List Move) : List Party.Task :=
  (moves.filter (·.1 = side)).map (·.2)

def channels (r : Region) (tasks : List Party.Task) : List Channel :=
  tasks.filterMap (Party.Task.channel? r)

variable {d : Duo}

theorem step_links (d : Duo) (move : Move) : (d.step move).region.links = d.region.links := by
  obtain ⟨side, task⟩ := move
  cases side with
  | first => exact (d.first.perform_isLocal d.region task).links_eq
  | second => exact (d.second.perform_isLocal d.region task).links_eq

/-- Operations of the two on different rings can be exchanged. -/
theorem step_comm (d : Duo) (a b : Party.Task)
    (h : ∀ c ∈ a.channel? d.region, c ∉ b.channel? d.region) :
    (d.step (.second, b)).step (.first, a) = (d.step (.first, a)).step (.second, b) := by
  obtain ⟨hfirst, hsecond, hregion⟩ :=
    (d.first.perform_isLocal d.region a).exchange (d.second.perform_isLocal d.region b) h
  have hleft : (d.step (.second, b)).step (.first, a) = {
      first := (d.first.perform (d.second.perform d.region b).2 a).1
      second := (d.second.perform d.region b).1
      region := (d.first.perform (d.second.perform d.region b).2 a).2 } := rfl
  have hright : (d.step (.first, a)).step (.second, b) = {
      first := (d.first.perform d.region a).1
      second := (d.second.perform (d.first.perform d.region a).2 b).1
      region := (d.second.perform (d.first.perform d.region a).2 b).2 } := rfl
  rw [hleft, hright, hfirst, hsecond, hregion]

/-- An operation of the second thread can be put off until the first one is done. -/
theorem run_postpone (d : Duo) (b : Party.Task) (tasks : List Party.Task)
    (h : ∀ a ∈ tasks, ∀ c ∈ a.channel? d.region, c ∉ b.channel? d.region) :
    (d.step (.second, b)).run (tasks.map (.first, ·)) =
      (d.run (tasks.map (.first, ·))).step (.second, b) := by
  induction tasks generalizing d with
  | nil => rfl
  | cons a tasks ih =>
    obtain ⟨ha, htasks⟩ := List.forall_mem_cons.mp h
    have hlinks := d.step_links (.first, a)
    have hrest := ih (d.step (.first, a)) fun a' ha' c hc => by
      rw [Party.Task.channel?_congr hlinks] at hc ⊢
      exact htasks a' ha' c hc
    calc ((d.step (.second, b)).step (.first, a)).run (tasks.map (.first, ·))
      _ = ((d.step (.first, a)).step (.second, b)).run (tasks.map (.first, ·)) := by
        rw [d.step_comm a b ha]
      _ = ((d.step (.first, a)).run (tasks.map (.first, ·))).step (.second, b) := hrest

theorem channels_congr {r r' : Region} (h : r'.links = r.links) (tasks : List Party.Task) :
    channels r' tasks = channels r tasks := by
  unfold channels
  congr 1
  funext task
  exact task.channel?_congr h

theorem mem_channels {r : Region} {tasks : List Party.Task} {c : Channel} :
    c ∈ channels r tasks ↔ ∃ task ∈ tasks, c ∈ task.channel? r := List.mem_filterMap

theorem channels_subset_cons (r : Region) (task : Party.Task) (tasks : List Party.Task) :
    channels r tasks ⊆ channels r (task :: tasks) := by
  intro c hc
  obtain ⟨other, hother, hc⟩ := mem_channels.mp hc
  exact mem_channels.mpr ⟨other, List.mem_cons_of_mem _ hother, hc⟩

/-- Two threads that address different rings, with links followed, get the same answers in any order
of their operations, and leave the same region behind, as if one had run after the other. -/
theorem run_interleaved (d : Duo) (moves : List Move)
    (h : (channels d.region (tasksOf .first moves)).Disjoint
      (channels d.region (tasksOf .second moves))) :
    d.run moves = (d.run ((tasksOf .first moves).map (.first, ·))).run
      ((tasksOf .second moves).map (.second, ·)) := by
  induction moves generalizing d with
  | nil => rfl
  | cons move moves ih =>
    have hlinks := d.step_links move
    obtain ⟨side, task⟩ := move
    cases side with
    | first =>
      have hrest := ih (d.step (.first, task)) (by
        rw [channels_congr hlinks, channels_congr hlinks]
        exact fun c hc => h (channels_subset_cons _ task _ hc))
      exact hrest
    | second =>
      have hrest := ih (d.step (.second, task)) (by
        rw [channels_congr hlinks, channels_congr hlinks]
        exact fun c hc hc' => h hc (channels_subset_cons _ task _ hc'))
      have hpostpone := d.run_postpone task (tasksOf .first moves) fun a ha c hc hc' =>
        h (mem_channels.mpr ⟨a, ha, hc⟩) (mem_channels.mpr ⟨task, List.mem_cons_self, hc'⟩)
      calc (d.step (.second, task)).run moves
        _ = ((d.step (.second, task)).run ((tasksOf .first moves).map (.first, ·))).run
            ((tasksOf .second moves).map (.second, ·)) := hrest
        _ = ((d.run ((tasksOf .first moves).map (.first, ·))).step (.second, task)).run
            ((tasksOf .second moves).map (.second, ·)) := by rw [hpostpone]

def remote : StreamId := ⟨List.replicate 16 2, rfl⟩

def shared : Region where
  config := { name := "shared", size := 3, slotSize := 1 }
  rings := [⟨⟨.nil, .input⟩, 1, []⟩, ⟨⟨.nil, .output⟩, 1, []⟩, ⟨⟨remote, .output⟩, 1, []⟩]
  links := [(.nil, .nil)]
  registered := [{ name := "left" }, { name := "right" }]
  reserved := 3

def twins : Duo := ⟨{ thread := { name := "left" } }, { thread := { name := "right" } }, shared⟩

/-- One thread submits on the linked stream and has a message too long for a slot; meanwhile the
other publishes once too often, and then takes from a channel that is not there. -/
def crossing : List Move :=
  [(.first, .deserialize (StreamId.nil.bytes ++ [7])), (.second, .publish remote [8]),
    (.first, .find ⟨.nil, .input⟩), (.second, .publish remote [9]),
    (.first, .submit ⟨.nil, .input⟩ 0), (.second, .takeInput remote),
    (.first, .deserialize (StreamId.nil.bytes ++ [1, 2]))]

theorem run_interleaved_crossing :
    twins.run crossing = (twins.run ((tasksOf .first crossing).map (.first, ·))).run
      ((tasksOf .second crossing).map (.second, ·)) ∧
    (twins.run crossing).region.ledger =
      { acquired := 1, submitted := 1, published := 1, released := 1 } ∧
    (twins.run crossing).first.answers.length = 4 := by
  have hapart : ∀ c ∈ channels twins.region (tasksOf .first crossing),
      c ∉ channels twins.region (tasksOf .second crossing) := by decide
  exact ⟨twins.run_interleaved crossing hapart, by decide, by decide⟩

end Duo

end StreamRelay
