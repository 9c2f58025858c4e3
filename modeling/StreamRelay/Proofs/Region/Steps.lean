import StreamRelay.Proofs.Region.Usage

/-!
# Elementary steps

Every call takes a region in use through elementary steps, each of which does one thing under a
stated condition. What a step preserves therefore holds of whatever calls lead to, with a poll and
all that is called during it included.
-/

namespace StreamRelay.Usage
open Region Relation

inductive Step (u : Usage) : Usage → Prop
  | idle : Step u u
  | registration (threads : List Thread) :
    Step u { u with region := { u.region with registered := threads } }
  | creation {c : Channel} {capacity : Nat} (hn : 0 < capacity) (hc : u.region.ring? c = none)
    (ha : capacity ≤ u.region.available) :
    Step u { u with region := { u.region with
      rings := insertRing ⟨c, capacity, []⟩ u.region.rings
      reserved := u.region.reserved + capacity } }
  | linking {source target : StreamId} (hs : (u.region.ring? ⟨source, .input⟩).isSome)
    (ht : (u.region.ring? ⟨target, .output⟩).isSome) :
    Step u { u with region := { u.region with
      links := (source, target) :: u.region.links.filter (·.1 ≠ source) } }
  | finding {c : Channel} (hc : (u.region.ring? c).isSome) :
    Step u { u with handles := c :: u.handles }
  | publication {stream : StreamId} {body : Bytes} {ring : Ring}
    (hr : u.region.ring? ⟨stream, .output⟩ = some ring)
    (hroom : ring.parked.length < ring.capacity) (hb : body.length ≤ u.region.config.slotSize) :
    Step u { u with
      region := (u.region.setRing (ring.park ⟨stream, body⟩)).record .published
      history := u.history ++ [.parked ⟨stream, .output⟩ body] }
  | refusal {stream : StreamId} {ring : Ring} (hr : u.region.ring? ⟨stream, .output⟩ = some ring)
    (hfull : ring.capacity ≤ ring.parked.length) :
    Step u { u with
      region := u.region.record .released
      history := u.history ++ [.refused stream] }
  | consumption {stream : StreamId} {ring : Ring} {b : Buffer} {rest : List Buffer}
    (hr : u.region.ring? ⟨stream, .input⟩ = some ring) (hp : ring.parked = b :: rest) :
    Step u { u with
      region := (u.region.setRing (ring.without 1)).record .consumed
      history := u.history ++ [.taken ⟨stream, .input⟩ b.body] }
  | acquisition {b : Buffer} (hb : b.body.length ≤ u.region.config.slotSize) :
    Step u { u with region := u.region.record .acquired, held := u.held ++ [b] }
  | submission {c : Channel} {position : Nat} {b : Buffer} {ring : Ring} (hc : c ∈ u.handles)
    (hb : u.held[position]? = some b) (hr : u.region.ring? (u.region.target c) = some ring)
    (hroom : ring.parked.length < ring.capacity) :
    Step u { u with
      region := (u.region.setRing (ring.park b)).record .submitted
      held := u.held.eraseIdx position
      history := u.history ++ [.parked (u.region.target c) b.body] }
  | surrender {position : Nat} {b : Buffer} (hb : u.held[position]? = some b) :
    Step u { u with region := u.region.record .released, held := u.held.eraseIdx position }
  | loss {position : Nat} {b : Buffer} (hb : u.held[position]? = some b) :
    Step u { u with region := u.region.record .leaked, held := u.held.eraseIdx position }
  | handing {c : Channel} {ring : Ring} (max : Nat) (hc : c.direction = .output)
    (hr : u.region.ring? c = some ring) :
    Step u (Usage.receive { u with
      region := (u.region.setRing (ring.without max)).record .handedOut
        (ring.parked.take max).length } c.stream (ring.parked.take max))

theorem receive_nil (u : Usage) (stream : StreamId) : u.receive stream [] = u := by
  simp [receive]

theorem handOut_step (u : Usage) {c : Channel} (hc : c.direction = .output) (max : Nat) :
    Step u (Usage.receive { u with region := (u.region.handOut c max).2 } c.stream
      (u.region.handOut c max).1) := by
  rcases handOut_cases u.region c max with h | ⟨ring, hr, h⟩
  · rw [h, receive_nil]
    exact .idle
  · rw [h]
    exact .handing max hc hr

theorem created_step (u : Usage) (c : Channel) (capacity : Nat) :
    Step u (u.created (u.region.createWith c capacity)) := by
  rcases u.created_cases c capacity with h | ⟨hn, hc, ha, h⟩
  · rw [h]
    exact .idle
  · rw [h]
    exact .creation hn hc ha

theorem operate_step (u : Usage) (operation : Operation) : Step u (u.operate operation) := by
  cases operation with
  | create c capacity =>
    cases capacity with
    | none => exact created_step u c u.region.config.ringCapacity
    | some n => exact created_step u c n
  | link source target =>
    rw [operate]
    rcases link_cases u.region source target with ⟨e, h⟩ | ⟨hs, ht, h⟩
    · rw [h]
      exact .idle
    · rw [h]
      exact .linking hs ht
  | register t => exact .registration _
  | unregister t => exact .registration _
  | find t c =>
    rcases findChannel_cases u.region t c with ⟨_, h⟩ | ⟨_, _, h⟩ | ⟨_, hc, h⟩
    · simp only [operate, h]
      exact .idle
    · simp only [operate, h]
      exact .idle
    · simp only [operate, h]
      exact .finding hc
  | publish t stream body =>
    rcases publish_cases u.region t stream body with ⟨e, he, h⟩ | ⟨ring, hr, hfull, h⟩ |
      ⟨ring, _, hb, hr, hroom, h⟩
    · simp only [operate, h]
      cases e with
      | ringFull s n => exact absurd rfl (he s n)
      | _ => exact .idle
    · simp only [operate, h]
      exact .refusal hr hfull
    · simp only [operate, h]
      exact .publication hr hroom hb
  | takeInput t stream =>
    rcases takeInput_cases u.region t stream with ⟨e, h⟩ | h | ⟨ring, b, rest, _, hr, hp, h⟩
    · simp only [operate, h]
      exact .idle
    · simp only [operate, h]
      exact .idle
    · simp only [operate, h]
      exact .consumption hr hp
  | deserialize t raw =>
    rcases deserialize_cases u.region t raw with ⟨e, _, h⟩ | ⟨b, _, _, hb, h⟩
    · simp only [operate, h]
      exact .idle
    · simp only [operate, h]
      exact .acquisition hb
  | submit t c position =>
    rw [operate]
    cases hb : u.held[position]? with
    | none => exact .idle
    | some b =>
      dsimp only
      split
      · rename_i hc
        rcases submit_cases u.region t c b with ⟨_, h⟩ | ⟨_, _, h⟩ | ⟨ring, _, _, _, h⟩ |
          ⟨ring, _, hr, hroom, h⟩
        · rw [h]
          exact .surrender hb
        · rw [h]
          exact .surrender hb
        · rw [h]
          exact .surrender hb
        · rw [h]
          exact .submission hc hb hr hroom
      · exact .idle
  | release position =>
    rw [operate]
    cases hb : u.held[position]? with
    | none => exact .idle
    | some b => exact .surrender hb
  | drop position =>
    rw [operate]
    cases hb : u.held[position]? with
    | none => exact .idle
    | some b => exact .loss hb
  | turn c max =>
    rw [operate]
    split
    · rename_i hc
      exact handOut_step u hc max
    · exact .idle

def Operation.thread? : Operation → Option Thread
  | .register t | .unregister t | .find t _ | .publish t _ _ | .takeInput t _ | .deserialize t _
  | .submit t _ _ => some t
  | .create _ _ | .link _ _ | .release _ | .drop _ | .turn _ _ => none

def Operation.isDrop : Operation → Bool
  | .drop _ => true
  | _ => false

def Operation.isRegistration : Operation → Bool
  | .register _ | .unregister _ => true
  | _ => false

theorem created_steady (u : Usage) (c : Channel) (capacity : Nat) :
    Steady u.region (u.created (u.region.createWith c capacity)).region := by
  rcases u.created_cases c capacity with h | ⟨_, _, _, h⟩
  · rw [h]
    exact .refl u.region
  · rw [h]
    exact ⟨rfl, rfl⟩

/-- Threads are registered and unregistered, and buffers lost, by operations made for that only. -/
theorem operate_steady (u : Usage) {operation : Operation} (hr : operation.isRegistration = false)
    (hd : operation.isDrop = false) : Steady u.region (u.operate operation).region := by
  cases operation with
  | create c capacity =>
    cases capacity with
    | none => exact created_steady u c _
    | some n => exact created_steady u c n
  | link source target => exact .link _ _ _
  | register t => contradiction
  | unregister t => contradiction
  | find t c =>
    rw [operate]
    split <;> exact .refl _
  | publish t stream body =>
    have h := Steady.publish u.region t stream body
    rw [operate]
    split <;> simp_all
  | takeInput t stream =>
    have h := Steady.takeInput u.region t stream
    rw [operate]
    split <;> simp_all
  | deserialize t raw =>
    have h := Steady.deserialize u.region t raw
    rw [operate]
    split <;> simp_all
  | submit t c position =>
    rw [operate]
    cases u.held[position]? with
    | none => exact .refl _
    | some b =>
      have h := Steady.submit u.region t c b
      dsimp only
      split
      · split <;> simp_all
      · exact .refl _
  | release position =>
    rw [operate]
    split
    · exact .refl _
    · exact ⟨rfl, rfl⟩
  | drop position => contradiction
  | turn c max =>
    have h := Steady.handOut u.region c max
    rw [operate]
    split
    · exact h
    · exact .refl _

/-- What one thread calls neither registers another one nor unregisters it. -/
theorem mem_registered_operate (u : Usage) {operation : Operation} {t : Thread}
    (ht : operation.thread? ≠ some t) :
    t ∈ (u.operate operation).region.registered ↔ t ∈ u.region.registered := by
  cases operation with
  | register other =>
    have hne : t ≠ other := fun h => ht (congrArg some h.symm)
    exact mem_register.trans (or_iff_right hne)
  | unregister other =>
    have hne : t ≠ other := fun h => ht (congrArg some h.symm)
    exact mem_unregister.trans (and_iff_left hne)
  | drop position =>
    rw [operate]
    split <;> exact Iff.rfl
  | _ => rw [(operate_steady u rfl rfl).registered_eq]

theorem operate_leaked (u : Usage) {operation : Operation} (hd : operation.isDrop = false) :
    (u.operate operation).region.ledger.leaked = u.region.ledger.leaked := by
  cases operation with
  | register t => rfl
  | unregister t => rfl
  | drop position => contradiction
  | _ => exact (operate_steady u rfl rfl).leaked_eq

mutual

def Call.operations : Call → List Operation
  | .operate operation => [operation]
  | .poll _ _ reactions => operationsIn reactions

def operationsOf : List Call → List Operation
  | [] => []
  | call :: calls => call.operations ++ operationsOf calls

def operationsIn : List (List Call) → List Operation
  | [] => []
  | calls :: rest => operationsOf calls ++ operationsIn rest

end

section
variable {R : Usage → Usage → Prop}

/-- The turns of a poll, with what callers do in between. -/
theorem pollRings_chain (hturn : ∀ u c max, R u (u.operate (.turn c max))) (max : Nat)
    (cs : List Channel) (hcs : ∀ c ∈ cs, c.direction = .output) (region : Region)
    (u : Usage) (reactions : List (Usage → Usage))
    (hreact : ∀ reaction ∈ reactions, ∀ u, ReflTransGen R u (reaction u)) :
    let state := (pollRings max react cs (region, u, reactions)).2
    ReflTransGen R { u with region } { state.2.1 with region := state.1 } := by
  -- each turn is an operation, and the reaction to it a chain; the channels of the poll are fixed
  induction cs generalizing region u reactions with
  | nil => exact .refl
  | cons c cs ih =>
    have ⟨hc, hcs⟩ := List.forall_mem_cons.mp hcs
    have hfirst := hturn { u with region } c max
    rw [operate, if_pos hc] at hfirst
    cases hh : region.handOut c max with
    | mk batch behind =>
      simp only [hh] at hfirst
      simp only [pollRings, hh]
      split
      · rename_i hbatch
        rw [List.isEmpty_iff.mp hbatch, receive_nil] at hfirst
        exact .head hfirst (ih hcs _ _ _ hreact)
      · cases reactions with
        | nil =>
          have hbehind := ih hcs behind (Usage.receive { u with region := behind } c.stream batch)
            [] hreact
          exact .head hfirst hbehind
        | cons reaction rest =>
          have ⟨hreaction, hrest⟩ := List.forall_mem_cons.mp hreact
          let v := reaction (Usage.receive { u with region := behind } c.stream batch)
          have hbehind := ih hcs v.region v rest hrest
          exact .head hfirst (.trans (hreaction _) hbehind)

theorem poll_chain (hturn : ∀ u c max, R u (u.operate (.turn c max))) (u : Usage) (t : Thread)
    (max : Nat) (reactions : List (Usage → Usage))
    (hreact : ∀ reaction ∈ reactions, ∀ u, ReflTransGen R u (reaction u)) :
    ReflTransGen R u (u.poll t max reactions) := by
  unfold poll Region.poll
  by_cases ht : t ∈ u.region.registered
  · rw [checkRegistered_of_mem ht]
    have hout : ∀ c ∈ u.region.outputs, c.direction = .output := fun c hc => by
      simpa using (List.mem_filter.mp hc).2
    exact pollRings_chain hturn max _ hout u.region u reactions hreact
  · rw [checkRegistered_of_not_mem ht]

mutual

theorem perform_chain (hturn : ∀ u c max, R u (u.operate (.turn c max))) (u : Usage) :
    (call : Call) →
    (∀ operation ∈ call.operations, ∀ u, R u (u.operate operation)) →
    ReflTransGen R u (u.perform call)
  | .operate operation, h => .single (h operation (List.mem_singleton.mpr rfl) u)
  | .poll t max reactions, h => poll_chain hturn u t max _ (reactionsOf_chain hturn reactions h)

/-- Calls amount to their operations and turns, one after the other. -/
theorem performAll_chain (hturn : ∀ u c max, R u (u.operate (.turn c max))) (u : Usage) :
    (calls : List Call) →
    (∀ operation ∈ operationsOf calls, ∀ u, R u (u.operate operation)) →
    ReflTransGen R u (u.performAll calls)
  | [], _ => .refl
  | call :: calls, h =>
    .trans (perform_chain hturn u call fun operation ho => h operation (List.mem_append_left _ ho))
      (performAll_chain hturn _ calls fun operation ho => h operation (List.mem_append_right _ ho))

theorem reactionsOf_chain (hturn : ∀ u c max, R u (u.operate (.turn c max))) :
    (reactions : List (List Call)) →
    (∀ operation ∈ operationsIn reactions, ∀ u, R u (u.operate operation)) →
    ∀ reaction ∈ reactionsOf reactions, ∀ u, ReflTransGen R u (reaction u)
  | [], _, _, h, _ => absurd h List.not_mem_nil
  | calls :: rest, h, reaction, hr, u => by
    rcases List.mem_cons.mp hr with rfl | hr
    · exact performAll_chain hturn u calls fun operation ho =>
        h operation (List.mem_append_left _ ho)
    · exact reactionsOf_chain hturn rest (fun operation ho => h operation (List.mem_append_right _ ho))
        reaction hr u

end

end

abbrev Runs : Usage → Usage → Prop := ReflTransGen Step

theorem perform_runs (u : Usage) (call : Call) : Runs u (u.perform call) :=
  perform_chain (fun u c max => operate_step u (.turn c max)) u call
    fun operation _ u => operate_step u operation

theorem performAll_runs (u : Usage) (calls : List Call) : Runs u (u.performAll calls) :=
  performAll_chain (fun u c max => operate_step u (.turn c max)) u calls
    fun operation _ u => operate_step u operation

/-- What every step preserves, any number of steps preserves. -/
theorem Runs.induct {P : Usage → Prop} (step : ∀ u v, P u → Step u v → P v) {u v : Usage}
    (h : Runs u v) (hu : P u) : P v := by
  induction h with
  | refl => exact hu
  | tail _ hstep ih => exact step _ _ ih hstep

/-- What holds of an empty region, and is preserved by every step, holds of every reachable usage.
-/
theorem Reachable.induct {c : Config} {P : Usage → Prop}
    (start : ∀ region, ofConfig c = .ok region → P { region })
    (step : ∀ u v, P u → Step u v → P v) {u : Usage} (h : Reachable c u) : P u := by
  obtain ⟨region, calls, hregion, rfl⟩ := h
  exact (performAll_runs { region } calls).induct step (start region hregion)

end StreamRelay.Usage
