import StreamRelay.Proofs.Bridge.Attendance
import StreamRelay.Proofs.Region.Presence

/-!
# Bystanders

What a thread of the bridge does next depends on its phase, on the rings and links, and on whether
it is registered itself. So a connection makes the same steps whichever thread serves it, and a
connection and the egress thread make the same steps whether or not one user more is present. A
connection whose frames are all refused is nothing but such a user.
-/

namespace StreamRelay

namespace Stats

def countAll (s : Stats) (events : List Event) : Stats := events.foldl count s

theorem count_comm (s : Stats) (a b : Event) : (s.count a).count b = (s.count b).count a := by
  cases a <;> cases b <;> rfl

theorem countAll_append (s : Stats) (front back : List Event) :
    s.countAll (front ++ back) = (s.countAll front).countAll back := List.foldl_append

theorem countAll_count (s : Stats) (events : List Event) (e : Event) :
    (s.count e).countAll events = (s.countAll events).count e := by
  induction events generalizing s with
  | nil => rfl
  | cons first events ih =>
    calc (s.count e).countAll (first :: events)
      _ = ((s.count first).count e).countAll events := by
        rw [countAll, List.foldl_cons, count_comm]
        rfl
      _ = ((s.count first).countAll events).count e := ih _

/-- It does not matter which events are counted first. -/
theorem countAll_comm (s : Stats) (a b : List Event) :
    (s.countAll a).countAll b = (s.countAll b).countAll a := by
  induction b generalizing s with
  | nil => rfl
  | cons e b ih =>
    calc (s.countAll a).countAll (e :: b)
      _ = ((s.count e).countAll a).countAll b := by rw [countAll_count]; rfl
      _ = (s.countAll (e :: b)).countAll a := ih _

end Stats

namespace Bridge
open Region

namespace Session

def Phase.counted : Phase → List Event
  | .receiving _ => [.frameReceived]
  | .counting verdict => [verdict.event]
  | .violated _ => [.protocolError]
  | .closing => [.connectionClosed]
  | _ => []

variable {s : Session} {r : Region} {g : Presence}

theorem step_counted (s : Session) (stop : Signal) (usable : Bool) (r : Region) (stats : Stats) :
    (s.step stop usable r stats).2.2 = stats.countAll s.phase.counted := by
  unfold step
  cases s.phase with
  | deserializing payload =>
    dsimp only
    split <;> rfl
  | routing b =>
    dsimp only
    split <;> rfl
  | submitting c b =>
    dsimp only
    split <;> rfl
  | _ => rfl

/-- What a connection can cause to be counted without a dispatch. -/
theorem mem_counted {phase : Phase} (h : phase ≠ .counting .dispatched) {e : Event}
    (he : e ∈ phase.counted) :
    e ∈ [Event.connectionClosed, .protocolError, .frameReceived, .droppedMalformed,
      .droppedUnknownStream, .droppedSubmitFailed, .droppedLookupFailed] := by
  cases phase with
  | counting verdict =>
    obtain rfl := List.mem_singleton.mp he
    cases verdict with
    | dispatched => contradiction
    | _ => decide
  | receiving payload =>
    obtain rfl := List.mem_singleton.mp he
    decide
  | violated error =>
    obtain rfl := List.mem_singleton.mp he
    decide
  | closing =>
    obtain rfl := List.mem_singleton.mp he
    decide
  | _ => contradiction

def onThread (s : Session) (t : Thread) : Session :=
  { s with connection := { s.connection with thread := t } }

theorem read_onThread (s : Session) (t : Thread) : (s.onThread t).read = s.read.onThread t := by
  have hpoll : (s.onThread t).connection.reader.poll (s.onThread t).connection.source =
      s.connection.reader.poll s.connection.source := rfl
  unfold read
  rw [hpoll]
  cases s.connection.reader.poll s.connection.source with
  | mk answer behind =>
    cases answer with
    | ok found => cases found <;> rfl
    | error e =>
      dsimp only
      split
      · rfl
      · split
        · rfl
        · split <;> rfl

theorem route_alongside {t t' : Thread}
    (h : (r.alongside g).checkRegistered t = r.checkRegistered t') (stream : StreamId) :
    Router.route (r.alongside g) t stream =
      ((Router.route r t' stream).1, (Router.route r t' stream).2.alongside g) := by
  have hfind : Subsystem.findChannel (r.alongside g) t ⟨stream, .input⟩ =
      (r.findChannel t' ⟨stream, .input⟩, r.alongside g) := by
    rw [← findChannel_alongside h]
    rfl
  have hfind' : Subsystem.findChannel r t' ⟨stream, .input⟩ =
      (r.findChannel t' ⟨stream, .input⟩, r) := rfl
  unfold Router.route
  rw [hfind, hfind']
  cases r.findChannel t' ⟨stream, .input⟩ with
  | ok c => rfl
  | error e => cases e <;> rfl

/-- A connection makes the same step on another thread and with one user more. -/
theorem step_onThread (s : Session) (t : Thread) (g : Presence) (stop : Signal) (usable : Bool)
    (r : Region) (stats stats' : Stats)
    (hr : s.isRegistered = true → s.connection.thread ∈ r.registered)
    (hg : s.isRegistered = true → t ∈ g.registered) :
    let after := s.step stop usable r stats
    let after' := (s.onThread t).step stop usable (r.alongside g) stats'
    after'.1 = after.1.onThread t ∧
    ∃ threads, after'.2.1 = after.2.1.alongside { g with registered := threads } ∧
      ∀ other, other ≠ t → (other ∈ threads ↔ other ∈ g.registered) := by
  have hthread : (s.onThread t).connection.thread = t := rfl
  have hphase : (s.onThread t).phase = s.phase := rfl
  have hcheck : s.isRegistered = true →
      (r.alongside g).checkRegistered t = r.checkRegistered s.connection.thread := by
    intro hs
    rw [checkRegistered_of_mem (hr hs), checkRegistered_of_mem (hg hs)]
  unfold step
  rw [hphase, hthread]
  cases hp : s.phase with
  | starting =>
    refine ⟨rfl, ((r.alongside g).register t).registered, rfl, ?_⟩
    intro other hother
    exact mem_register.trans (or_iff_right hother)
  | leaving =>
    refine ⟨rfl, ((r.alongside g).unregister t).registered, rfl, ?_⟩
    intro other hother
    exact mem_unregister.trans (and_iff_left hother)
  | reading => exact ⟨read_onThread s t, g.registered, rfl, fun _ _ => Iff.rfl⟩
  | deserializing payload =>
    have hdeserialize := deserialize_alongside (hcheck (by simp [isRegistered, hp])) payload
    dsimp only
    rw [hdeserialize]
    cases r.deserialize s.connection.thread payload with
    | mk answer behind =>
      cases answer <;> exact ⟨rfl, g.registered, rfl, fun _ _ => Iff.rfl⟩
  | routing b =>
    have hroute := route_alongside (hcheck (by simp [isRegistered, hp])) b.stream
    dsimp only
    rw [hroute]
    cases Router.route r s.connection.thread b.stream with
    | mk answer behind =>
      cases answer with
      | ok found => cases found <;> exact ⟨rfl, g.registered, rfl, fun _ _ => Iff.rfl⟩
      | error e => exact ⟨rfl, g.registered, rfl, fun _ _ => Iff.rfl⟩
  | submitting c b =>
    have hsubmit := submit_alongside (hcheck (by simp [isRegistered, hp])) c b
    dsimp only
    rw [hsubmit]
    cases r.submit s.connection.thread c b with
    | mk answer behind =>
      cases answer <;> exact ⟨rfl, g.registered, rfl, fun _ _ => Iff.rfl⟩
  | releasing b verdict =>
    exact ⟨rfl, g.registered, alongside_record r g .released 1, fun _ _ => Iff.rfl⟩
  | _ => exact ⟨rfl, g.registered, rfl, fun _ _ => Iff.rfl⟩

/-- A connection that has not just dispatched a frame is a user who parks nothing. -/
theorem step_present (s : Session) (stop : Signal) (usable : Bool) (r : Region) (stats : Stats)
    (hheld : g.held = s.holding.length)
    (hnext : (s.step stop usable (r.alongside g) stats).1.phase ≠ .counting .dispatched) :
    ∃ g' : Presence, (s.step stop usable (r.alongside g) stats).2.1 = r.alongside g' ∧
      g'.held = (s.step stop usable (r.alongside g) stats).1.holding.length ∧
      ∀ other, other ≠ s.connection.thread → (other ∈ g'.registered ↔ other ∈ g.registered) := by
  unfold step at hnext ⊢
  cases hp : s.phase with
  | starting =>
    refine ⟨{ g with registered := ((r.alongside g).register s.connection.thread).registered },
      rfl, ?_, ?_⟩
    · simpa [holding, hp] using hheld
    · intro other hother
      exact mem_register.trans (or_iff_right hother)
  | leaving =>
    refine ⟨{ g with registered := ((r.alongside g).unregister s.connection.thread).registered },
      rfl, ?_, ?_⟩
    · simpa [holding, hp] using hheld
    · intro other hother
      exact mem_unregister.trans (and_iff_left hother)
  | reading =>
    refine ⟨g, rfl, ?_, fun _ _ => Iff.rfl⟩
    obtain ⟨reader, source, h | ⟨payload, h⟩ | ⟨e, _, h⟩ | ⟨e, _, h⟩⟩ := read_cases s <;>
      simpa [holding, hp, h, finish] using hheld
  | deserializing payload =>
    have hnone : g.held = 0 := by simpa [holding, hp] using hheld
    dsimp only
    rcases deserialize_cases (r.alongside g) s.connection.thread payload with
      ⟨e, _, h⟩ | ⟨b, _, _, _, h⟩
    · rw [h]
      exact ⟨g, rfl, hnone, fun _ _ => Iff.rfl⟩
    · rw [h]
      exact ⟨_, alongside_acquire r g, congrArg (· + 1) hnone, fun _ _ => Iff.rfl⟩
  | routing b =>
    have hone : g.held = 1 := by simpa [holding, hp] using hheld
    dsimp only
    rcases route_cases (r.alongside g) s.connection.thread b.stream with ⟨c, h⟩ | h | ⟨e, h⟩ <;>
    · rw [h]
      exact ⟨g, rfl, hone, fun _ _ => Iff.rfl⟩
  | submitting c b =>
    have hone : g.held = 0 + 1 := by simpa [holding, hp] using hheld
    rw [hp] at hnext
    dsimp only at hnext ⊢
    rcases submit_cases (r.alongside g) s.connection.thread c b with
      ⟨_, h⟩ | ⟨_, _, h⟩ | ⟨_, _, _, _, h⟩ | ⟨_, _, _, _, h⟩
    · rw [h, alongside_return r hone]
      exact ⟨_, rfl, rfl, fun _ _ => Iff.rfl⟩
    · rw [h, alongside_return r hone]
      exact ⟨_, rfl, rfl, fun _ _ => Iff.rfl⟩
    · rw [h, alongside_return r hone]
      exact ⟨_, rfl, rfl, fun _ _ => Iff.rfl⟩
    · rw [h] at hnext
      exact absurd rfl hnext
  | releasing b verdict =>
    have hone : g.held = 0 + 1 := by simpa [holding, hp] using hheld
    exact ⟨_, alongside_return r hone, rfl, fun _ _ => Iff.rfl⟩
  | configuring =>
    refine ⟨g, rfl, ?_, fun _ _ => Iff.rfl⟩
    cases usable <;> simpa [holding, hp] using hheld
  | checking =>
    refine ⟨g, rfl, ?_, fun _ _ => Iff.rfl⟩
    cases hstop : stop.requested <;> simpa [holding, hp, hstop] using hheld
  | gone => exact ⟨g, rfl, by simpa [holding, hp] using hheld, fun _ _ => Iff.rfl⟩
  | _ => exact ⟨g, rfl, by simpa [holding, hp, finish] using hheld, fun _ _ => Iff.rfl⟩

end Session

namespace Sender

def Phase.counted : Phase → List Event
  | .forwarding _ _ _ _ (.tallying fate) => [fate.event]
  | .forwarding _ _ _ _ .counting => [.bufferReleased]
  | _ => []

theorem step_counted (s : Sender) (stop : Signal) (r : Region) (stats : Stats) :
    (s.step stop r stats).2.2 = stats.countAll s.phase.counted := by
  unfold step
  cases s.phase with
  | visiting rest => cases rest <;> rfl
  | forwarding c b behind rest stage =>
    cases stage with
    | serializing =>
      dsimp only [forward]
      split <;> rfl
    | _ => rfl
  | _ => rfl

/-- The egress thread makes the same step with one user more. -/
theorem step_alongside (s : Sender) (g : Presence) (stop : Signal) (r : Region)
    (stats stats' : Stats) (hg : egressThread ∈ g.registered ↔ egressThread ∈ r.registered) :
    let after := s.step stop r stats
    let after' := s.step stop (r.alongside g) stats'
    after'.1 = after.1 ∧
    ∃ threads, after'.2.1 = after.2.1.alongside { g with registered := threads } ∧
      (∀ other, other ≠ egressThread → (other ∈ threads ↔ other ∈ g.registered)) ∧
      (egressThread ∈ threads ↔ egressThread ∈ after.2.1.registered) := by
  have hcheck := alongside_checkRegistered hg
  unfold step
  cases s.phase with
  | starting =>
    refine ⟨rfl, ((r.alongside g).register egressThread).registered, rfl, ?_, ?_⟩
    · intro other hother
      exact mem_register.trans (or_iff_right hother)
    · exact iff_of_true (mem_register.mpr (.inl rfl)) (mem_register.mpr (.inl rfl))
  | leaving =>
    refine ⟨rfl, ((r.alongside g).unregister egressThread).registered, rfl, ?_, ?_⟩
    · intro other hother
      exact mem_unregister.trans (and_iff_left hother)
    · exact iff_of_false (fun h => (mem_unregister.mp h).2 rfl) fun h => (mem_unregister.mp h).2 rfl
  | polling =>
    have hpoll : s.poll (r.alongside g) = s.poll r := by
      unfold poll
      rw [hcheck]
      rfl
    exact ⟨hpoll, g.registered, rfl, fun _ _ => Iff.rfl, hg⟩
  | visiting rest =>
    cases rest with
    | nil => exact ⟨rfl, g.registered, rfl, fun _ _ => Iff.rfl, hg⟩
    | cons c rest =>
      dsimp only
      rw [handOut_alongside]
      refine ⟨rfl, g.registered, rfl, fun _ _ => Iff.rfl, ?_⟩
      rw [(Steady.handOut _ _ _).registered_eq]
      exact hg
  | forwarding c b behind rest stage =>
    cases stage with
    | serializing =>
      dsimp only [forward]
      rw [serialize_alongside hcheck]
      split <;> exact ⟨rfl, g.registered, rfl, fun _ _ => Iff.rfl, hg⟩
    | releasing =>
      exact ⟨rfl, g.registered, alongside_record r g .released 1, fun _ _ => Iff.rfl, hg⟩
    | _ => exact ⟨rfl, g.registered, rfl, fun _ _ => Iff.rfl, hg⟩
  | _ => exact ⟨rfl, g.registered, rfl, fun _ _ => Iff.rfl, hg⟩

end Sender

end Bridge

end StreamRelay
