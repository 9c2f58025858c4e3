import StreamRelay.Proofs.Region.Presence
import StreamRelay.Subsystem

/-!
# Registration guards

A guard registers the thread that acquires it, and its drop unregisters the thread on which it
happens. Registrations are not counted, so one drop undoes all that was before it: a thread is
registered exactly if nothing left it since something last entered it. A guard therefore keeps its
thread registered as long as the thread holds no other one.
-/

namespace StreamRelay

namespace Region

inductive Request
  | find (c : Channel)
  | publish (stream : StreamId) (body : Bytes)
  | takeInput (stream : StreamId)
  | deserialize (raw : Bytes)
  | submit (c : Channel) (b : Buffer)
  | serialize (b : Buffer) (area : Bytes)
  | poll (max : Nat) (handler : Handler Region Unit)

def errorOf? {α : Type} : Except Error α → Option Error
  | .error e => some e
  | .ok _ => none

def refusal? (r : Region) (t : Thread) : Request → Option Error
  | .find c => errorOf? (r.findChannel t c)
  | .publish stream body => errorOf? (r.publish t stream body).1
  | .takeInput stream => errorOf? (r.takeInput t stream).1
  | .deserialize raw => errorOf? (r.deserialize t raw).1
  | .submit c b => errorOf? (r.submit t c b).1
  | .serialize b area => errorOf? (r.serialize t b area).1
  | .poll max handler => errorOf? (r.poll t max handler ()).1

variable {r : Region} {t : Thread}

theorem refusal?_of_not_mem (ht : t ∉ r.registered) (q : Request) :
    r.refusal? t q = some (.threadNotRegistered t.name) := by
  have hcheck := checkRegistered_of_not_mem ht
  cases q <;>
  · simp only [refusal?, findChannel, publish, takeInput, deserialize, submit, serialize, poll,
      hcheck]
    rfl

theorem refusal?_of_mem (ht : t ∈ r.registered) (q : Request) (name : String) :
    r.refusal? t q ≠ some (.threadNotRegistered name) := by
  have hcheck := checkRegistered_of_mem ht
  cases q with
  | find c =>
    rcases findChannel_cases r t c with ⟨hn, _⟩ | ⟨_, _, h⟩ | ⟨_, _, h⟩
    · exact absurd ht hn
    · simp [refusal?, h, errorOf?]
    · simp [refusal?, h, errorOf?]
  | publish stream body =>
    by_cases hb : body.length ≤ r.config.slotSize
    · cases hr : r.ring? ⟨stream, .output⟩ with
      | none =>
        have hfind := findRing_eq_error.mpr ⟨hr, rfl⟩
        simp [refusal?, publish, hcheck, checkFits_of_le hb, hfind, bind, Except.bind, errorOf?]
      | some ring =>
        have hfind := findRing_eq_ok.mpr hr
        simp only [refusal?, publish, hcheck, checkFits_of_le hb, hfind, bind, Except.bind]
        split <;> simp [errorOf?]
    · have hfits := checkFits_of_lt (Nat.not_le.mp hb)
      simp [refusal?, publish, hcheck, hfits, bind, Except.bind, errorOf?]
  | takeInput stream =>
    cases hr : r.ring? ⟨stream, .input⟩ with
    | none =>
      have hfind := findRing_eq_error.mpr ⟨hr, rfl⟩
      simp [refusal?, takeInput, hcheck, hfind, bind, Except.bind, errorOf?]
    | some ring =>
      have hfind := findRing_eq_ok.mpr hr
      simp only [refusal?, takeInput, hcheck, hfind, bind, Except.bind]
      split <;> simp [errorOf?]
  | deserialize raw =>
    cases hs : Envelope.split? raw with
    | none => simp [refusal?, deserialize, hcheck, split, hs, bind, Except.bind, errorOf?]
    | some b =>
      by_cases hb : b.body.length ≤ r.config.slotSize
      · have hfits := checkFits_of_le hb
        simp [refusal?, deserialize, hcheck, split, hs, hfits, bind, Except.bind, errorOf?, pure,
          Except.pure]
      · have hfits := checkFits_of_lt (Nat.not_le.mp hb)
        simp [refusal?, deserialize, hcheck, split, hs, hfits, bind, Except.bind, errorOf?]
  | submit c b =>
    rcases submit_cases r t c b with ⟨hn, _⟩ | ⟨_, _, h⟩ | ⟨_, _, _, _, h⟩ | ⟨_, _, _, _, h⟩
    · exact absurd ht hn
    · simp [refusal?, h, errorOf?]
    · simp [refusal?, h, errorOf?]
    · simp [refusal?, h, errorOf?]
  | serialize b area =>
    simp only [refusal?, serialize, hcheck]
    split <;> simp [errorOf?]
  | poll max handler => simp [refusal?, poll, hcheck, errorOf?]

/-- Only who is not registered is refused for that, and then whatever he asks for. -/
theorem refusal?_eq_threadNotRegistered_iff (q : Request) {name : String} :
    r.refusal? t q = some (.threadNotRegistered name) ↔ t ∉ r.registered ∧ name = t.name := by
  by_cases ht : t ∈ r.registered
  · simp [refusal?_of_mem ht q name, ht]
  · simp [refusal?_of_not_mem ht q, ht, eq_comm]

end Region

structure Guarded where
  usage : Usage
  owners : List Thread := []

namespace Guarded
open Region

/-- What happens where threads hold guards. A guard can be passed on, and is then dropped on another
thread than the one that acquired it. -/
inductive Event
  | acquire (t : Thread)
  | drop (owner t : Thread)
  | call (operation : Usage.Operation)

def acquire (g : Guarded) (t : Thread) : Except Region.Error Unit × Guarded :=
  match Subsystem.register g.usage.region t with
  | (.error e, region) => (.error e, { g with usage := { g.usage with region } })
  | (.ok (), region) =>
    (.ok (), { usage := { g.usage with region }, owners := t :: g.owners })

def drop (g : Guarded) (owner t : Thread) : Guarded where
  usage := { g.usage with region := Subsystem.unregister g.usage.region t }
  owners := g.owners.erase owner

/-- What events lead to from a region just made. Only a guard that is alive can be dropped. -/
inductive Reached (c : Config) : List Event → Guarded → Prop
  | start {region : Region} (hr : ofConfig c = .ok region) : Reached c [] { usage := { region } }
  | acquire {events : List Event} {g g' : Guarded} (t : Thread) (h : Reached c events g)
    (ha : g.acquire t = (.ok (), g')) : Reached c (events ++ [.acquire t]) g'
  | drop {events : List Event} {g : Guarded} {owner : Thread} (t : Thread) (h : Reached c events g)
    (ho : owner ∈ g.owners) : Reached c (events ++ [.drop owner t]) (g.drop owner t)
  | call {events : List Event} {g : Guarded} (operation : Usage.Operation)
    (h : Reached c events g) :
    Reached c (events ++ [.call operation]) { g with usage := g.usage.operate operation }

namespace Event

def Enters (t : Thread) : Event → Prop
  | .acquire other | .call (.register other) => other = t
  | _ => False

def Leaves (t : Thread) : Event → Prop
  | .drop _ other | .call (.unregister other) => other = t
  | _ => False

def IsAtHome : Event → Prop
  | .drop owner t => owner = t
  | _ => True

end Event

/-- Something entered the thread, and nothing left it since. -/
def LastEntered (t : Thread) (events : List Event) : Prop :=
  ∃ front e back, events = front ++ e :: back ∧ e.Enters t ∧ ∀ e' ∈ back, ¬ e'.Leaves t

variable {c : Config} {events : List Event} {g g' : Guarded} {t other : Thread}

theorem not_lastEntered_nil (t : Thread) : ¬ LastEntered t [] := by
  rintro ⟨front, e, back, h, _⟩
  simp at h

theorem lastEntered_concat (t : Thread) (events : List Event) (e : Event) :
    LastEntered t (events ++ [e]) ↔ e.Enters t ∨ (LastEntered t events ∧ ¬ e.Leaves t) := by
  constructor
  · rintro ⟨front, e', back, h, hin, hout⟩
    -- the event that entered the thread is the last of all, or one before it
    rcases List.eq_nil_or_concat back with rfl | ⟨back, last, rfl⟩
    · obtain ⟨_, rfl⟩ := List.append_singleton_inj.mp h
      exact .inl hin
    · rw [List.concat_eq_append] at h hout
      rw [← List.cons_append, ← List.append_assoc] at h
      obtain ⟨rfl, rfl⟩ := List.append_singleton_inj.mp h
      rw [List.forall_mem_append, List.forall_mem_singleton] at hout
      exact .inr ⟨⟨front, e', back, rfl, hin, hout.1⟩, hout.2⟩
  · rintro (hin | ⟨⟨front, e', back, rfl, hin, hout⟩, hlast⟩)
    · exact ⟨events, e, [], rfl, hin, nofun⟩
    · refine ⟨front, e', back ++ [e], by simp, hin, ?_⟩
      rw [List.forall_mem_append, List.forall_mem_singleton]
      exact ⟨hout, hlast⟩

theorem mem_registered_acquire (ha : g.acquire other = (.ok (), g')) :
    t ∈ g'.usage.region.registered ↔ other = t ∨ t ∈ g.usage.region.registered := by
  cases ha
  exact mem_register.trans (or_congr_left eq_comm)

theorem mem_registered_drop (owner : Thread) :
    t ∈ (g.drop owner other).usage.region.registered ↔
      t ∈ g.usage.region.registered ∧ ¬ other = t :=
  mem_unregister.trans (and_congr_right' (not_congr eq_comm))

theorem mem_registered_call (u : Usage) (operation : Usage.Operation) (t : Thread) :
    t ∈ (u.operate operation).region.registered ↔
      (Event.call operation).Enters t ∨
        (t ∈ u.region.registered ∧ ¬ (Event.call operation).Leaves t) := by
  cases operation with
  | register other => simp [Usage.operate, mem_register, Event.Enters, Event.Leaves, eq_comm]
  | unregister other =>
    simp [Usage.operate, mem_unregister, Event.Enters, Event.Leaves, eq_comm]
  | _ =>
    rw [Usage.registered_operate u rfl]
    simp [Event.Enters, Event.Leaves]

/-- A thread is registered exactly if nothing left it since something last entered it. -/
theorem Reached.mem_registered_iff (h : Reached c events g) (t : Thread) :
    t ∈ g.usage.region.registered ↔ LastEntered t events := by
  induction h with
  | start hr =>
    obtain ⟨rfl, _⟩ := ofConfig_eq_ok hr
    simp [not_lastEntered_nil]
  | acquire other h ha ih =>
    rw [lastEntered_concat, ← ih, mem_registered_acquire ha]
    simp [Event.Enters, Event.Leaves]
  | drop other h ho ih =>
    rw [lastEntered_concat, ← ih, mem_registered_drop]
    simp [Event.Enters, Event.Leaves]
  | call operation h ih =>
    rw [lastEntered_concat, ← ih]
    exact mem_registered_call _ operation t

/-- Where guards are dropped at home and a thread registers in no other way, it is registered only
while it has a guard. -/
theorem Reached.mem_owners (h : Reached c events g) (hhome : ∀ e ∈ events, e.IsAtHome)
    (hr : .call (.register t) ∉ events) (ht : t ∈ g.usage.region.registered) : t ∈ g.owners := by
  induction h with
  | start hregion =>
    obtain ⟨rfl, _⟩ := ofConfig_eq_ok hregion
    simp at ht
  | acquire other h ha ih =>
    rw [List.forall_mem_append] at hhome
    rw [List.mem_append, not_or] at hr
    have hbefore := ih hhome.1 hr.1
    rw [mem_registered_acquire ha] at ht
    cases ha
    rcases ht with rfl | ht
    · exact List.mem_cons_self
    · exact List.mem_cons_of_mem _ (hbefore ht)
  | drop other h ho ih =>
    rw [List.forall_mem_append, List.forall_mem_singleton] at hhome
    rw [List.mem_append, not_or] at hr
    rw [mem_registered_drop] at ht
    obtain ⟨ht, hne⟩ := ht
    obtain rfl : _ = other := hhome.2
    exact (List.mem_erase_of_ne (Ne.symm hne)).mpr (ih hhome.1 hr.1 ht)
  | call operation h ih =>
    rw [List.forall_mem_append] at hhome
    rw [List.mem_append, not_or, List.mem_singleton] at hr
    rw [mem_registered_call] at ht
    rcases ht with hin | ⟨ht, _⟩
    · cases operation with
      | register other =>
        obtain rfl : other = t := hin
        exact absurd rfl hr.2
      | _ => exact absurd hin id
    · exact ih hhome.1 hr.1 ht

/-- A thread never has two guards at once. -/
def NeverTwice (c : Config) (t : Thread) (events : List Event) : Prop :=
  ∀ front g, front <+: events → Reached c front g → g.owners.count t ≤ 1

theorem NeverTwice.of_append {back : List Event} (h : NeverTwice c t (events ++ back)) :
    NeverTwice c t events :=
  fun front g hfront => h front g (hfront.trans (List.prefix_append _ _))

/-- Where guards are dropped at home and a thread is unregistered in no other way, it is registered
while it has a guard, if it never has two. -/
theorem Reached.mem_registered (h : Reached c events g) (hhome : ∀ e ∈ events, e.IsAtHome)
    (hu : .call (.unregister t) ∉ events) (hsingle : NeverTwice c t events) (ht : t ∈ g.owners) :
    t ∈ g.usage.region.registered := by
  induction h with
  | start hregion => exact absurd ht List.not_mem_nil
  | acquire other h ha ih =>
    rw [List.forall_mem_append] at hhome
    rw [List.mem_append, not_or] at hu
    have hbefore := ih hhome.1 hu.1 hsingle.of_append
    rw [mem_registered_acquire ha]
    cases ha
    rcases List.mem_cons.mp ht with rfl | ht
    · exact .inl rfl
    · exact .inr (hbefore ht)
  | @drop events g owner other h ho ih =>
    rw [List.forall_mem_append, List.forall_mem_singleton] at hhome
    rw [List.mem_append, not_or] at hu
    have hbefore := ih hhome.1 hu.1 hsingle.of_append
    have hcount := hsingle events g (List.prefix_append _ _) h
    obtain rfl : owner = other := hhome.2
    rw [mem_registered_drop]
    refine ⟨hbefore (List.mem_of_mem_erase ht), ?_⟩
    rintro rfl
    -- the guard that is dropped was the only one
    have hleft : 0 < (g.owners.erase owner).count owner := List.count_pos_iff.mpr ht
    rw [List.count_erase_self] at hleft
    omega
  | call operation h ih =>
    rw [List.forall_mem_append] at hhome
    rw [List.mem_append, not_or, List.mem_singleton] at hu
    have hbefore := ih hhome.1 hu.1 hsingle.of_append
    rw [mem_registered_call]
    refine .inr ⟨hbefore ht, ?_⟩
    intro hl
    cases operation with
    | unregister other =>
      obtain rfl : other = t := hl
      exact hu.2 rfl
    | _ => exact hl

/-- A guard is undone by the drop of any other one on its thread. A thread is registered, and not
refused for want of that, exactly if nothing left it since something last entered it. So where
guards are dropped at home, a thread without guards is not registered, and a thread that never has
two at once is registered while it has one. -/
theorem Reached.registration_exact (h : Reached c events g) (t : Thread) :
    (t ∈ g.usage.region.registered ↔ LastEntered t events) ∧
    (∀ q name, g.usage.region.refusal? t q = some (.threadNotRegistered name) ↔
      ¬ LastEntered t events ∧ name = t.name) ∧
    ((∀ e ∈ events, e.IsAtHome) →
      (.call (.register t) ∉ events → t ∉ g.owners → t ∉ g.usage.region.registered) ∧
      (.call (.unregister t) ∉ events →
        NeverTwice c t events → t ∈ g.owners → t ∈ g.usage.region.registered)) := by
  have hiff := h.mem_registered_iff t
  refine ⟨hiff, ?_, ?_⟩
  · intro q name
    rw [refusal?_eq_threadNotRegistered_iff, hiff]
  · intro hhome
    constructor
    · intro hr hnone ht
      exact hnone (h.mem_owners hhome hr ht)
    · exact h.mem_registered hhome

def worker : Thread := { name := "worker" }

def overlapping : List Event := [.acquire worker, .acquire worker, .drop worker worker]

def overlapped : Guarded :=
  let bare : Guarded := { usage := { region := { config := Usage.tight } } }
  ((bare.acquire worker).2.acquire worker).2.drop worker worker

theorem overlapped_reached : Reached Usage.tight overlapping overlapped :=
  .drop worker (.acquire worker (.acquire worker (.start rfl) rfl) rfl) List.mem_cons_self

theorem Reached.registration_exact_overlapped :
    worker ∈ overlapped.owners ∧ worker ∉ overlapped.usage.region.registered ∧
    overlapped.usage.region.refusal? worker (.find ⟨.nil, .input⟩) =
      some (.threadNotRegistered "worker") := by
  obtain ⟨hregistered, hrefused, _⟩ := overlapped_reached.registration_exact worker
  have hgone : worker ∉ overlapped.usage.region.registered := by decide
  have hlast : ¬ LastEntered worker overlapping := by rwa [← hregistered]
  refine ⟨by decide, hgone, ?_⟩
  rw [hrefused]
  exact ⟨hlast, rfl⟩

/-- That a thread has a guard does not mean that it is registered. -/
theorem Reached.not_registered_of_guard :
    ¬ ∀ (c : Config) (events : List Event) (g : Guarded), Reached c events g →
      (∀ e ∈ events, e.IsAtHome) → (∀ t, .call (.unregister t) ∉ events) →
      ∀ t ∈ g.owners, t ∈ g.usage.region.registered := by
  intro h
  have hhome : ∀ e ∈ overlapping, e.IsAtHome := by
    intro e he
    simp only [overlapping, List.mem_cons, List.not_mem_nil, or_false] at he
    rcases he with rfl | rfl | rfl
    · trivial
    · trivial
    · rfl
  have hunregister : ∀ t, .call (.unregister t) ∉ overlapping := by simp [overlapping]
  have howns : worker ∈ overlapped.owners := by decide
  have hgone : worker ∉ overlapped.usage.region.registered := by decide
  have hreached := overlapped_reached
  exact hgone (h Usage.tight overlapping overlapped hreached hhome hunregister worker howns)

end Guarded

end StreamRelay
