import Mathlib.Logic.Relation
import StreamRelay.Proofs.Region.Operations

/-!
# A region in use

A region together with what its callers have of it: the channels they looked up and the buffers that
are checked out to them. Callers make calls in any order and from any thread, and what a poll hands
out may be used by further calls before the poll goes on. Whatever is called, the region in use goes
through a sequence of elementary steps.
-/

namespace StreamRelay

/-- What is remembered of a call: a body that was put into a ring or taken out of one, or a
publication that found its ring full. -/
inductive Happening
  | parked (channel : Channel) (body : Bytes)
  | taken (channel : Channel) (body : Bytes)
  | refused (stream : StreamId)
  deriving DecidableEq

def Happening.isRefused : Happening → Bool
  | .refused _ => true
  | _ => false

structure Usage where
  region : Region
  /-- The buffers that are checked out. -/
  held : List Buffer := []
  /-- The channels that were looked up. -/
  handles : List Channel := []
  history : List Happening := []

namespace Usage

/-- An operation other than a poll. Held buffers are named by their position; a turn is what a poll
under way does for one ring. -/
inductive Operation
  | create (channel : Channel) (capacity : Option Nat)
  | link (source target : StreamId)
  | register (thread : Thread)
  | unregister (thread : Thread)
  | find (thread : Thread) (channel : Channel)
  | publish (thread : Thread) (stream : StreamId) (body : Bytes)
  | takeInput (thread : Thread) (stream : StreamId)
  | deserialize (thread : Thread) (raw : Bytes)
  | submit (thread : Thread) (channel : Channel) (position : Nat)
  | release (position : Nat)
  | drop (position : Nat)
  | turn (channel : Channel) (max : Nat)

inductive Call
  | operate (operation : Operation)
  | poll (thread : Thread) (max : Nat) (reactions : List (List Call))

def refusals (u : Usage) : Nat := u.history.countP Happening.isRefused

def receive (u : Usage) (stream : StreamId) (batch : List Buffer) : Usage :=
  { u with
    held := u.held ++ batch
    history := u.history ++ batch.map fun b => .taken ⟨stream, .output⟩ b.body }

/-- A creation at which the thread panics is not completed, and does not count. -/
def created (u : Usage) : Option (Except Region.Error Unit × Region) → Usage
  | some (_, region) => { u with region }
  | none => u

/-- Only a channel that was looked up can be submitted to, and only a buffer that is held can be
submitted, released or dropped. -/
def operate (u : Usage) : Operation → Usage
  | .create c (some capacity) => u.created (u.region.createWith c capacity)
  | .create c none => u.created (u.region.create c)
  | .link source target => { u with region := (u.region.link source target).2 }
  | .register t => { u with region := u.region.register t }
  | .unregister t => { u with region := u.region.unregister t }
  | .find t c =>
    match u.region.findChannel t c with
    | .ok c => { u with handles := c :: u.handles }
    | .error _ => u
  | .publish t stream body =>
    match u.region.publish t stream body with
    | (.ok (), region) =>
      { u with region, history := u.history ++ [.parked ⟨stream, .output⟩ body] }
    | (.error (.ringFull _ _), region) =>
      { u with region, history := u.history ++ [.refused stream] }
    | (.error _, region) => { u with region }
  | .takeInput t stream =>
    match u.region.takeInput t stream with
    | (.ok (some body), region) =>
      { u with region, history := u.history ++ [.taken ⟨stream, .input⟩ body] }
    | (_, region) => { u with region }
  | .deserialize t raw =>
    match u.region.deserialize t raw with
    | (.ok b, region) => { u with region, held := u.held ++ [b] }
    | (.error _, region) => { u with region }
  | .submit t c position =>
    match u.held[position]? with
    | none => u
    | some b =>
      if c ∈ u.handles then
        match u.region.submit t c b with
        | (.ok (), region) =>
          { u with
            region
            held := u.held.eraseIdx position
            history := u.history ++ [.parked (u.region.target c) b.body] }
        | (.error _, region) => { u with region, held := u.held.eraseIdx position }
      else u
  | .release position =>
    match u.held[position]? with
    | none => u
    | some _ => { u with region := u.region.release, held := u.held.eraseIdx position }
  | .drop position =>
    match u.held[position]? with
    | none => u
    | some _ => { u with region := u.region.leak, held := u.held.eraseIdx position }
  | .turn c max =>
    if c.direction = .output then
      let (batch, region) := u.region.handOut c max
      { u with region }.receive c.stream batch
    else u

theorem created_held (u : Usage) (answer : Option (Except Region.Error Unit × Region)) :
    (u.created answer).held = u.held := by
  cases answer <;> rfl

theorem created_history (u : Usage) (answer : Option (Except Region.Error Unit × Region)) :
    (u.created answer).history = u.history := by
  cases answer <;> rfl

/-- A creation that is completed adds a ring or is refused. -/
theorem created_cases (u : Usage) (c : Channel) (capacity : Nat) :
    u.created (u.region.createWith c capacity) = u ∨
    (0 < capacity ∧ u.region.ring? c = none ∧ capacity ≤ u.region.available ∧
      u.created (u.region.createWith c capacity) = { u with region := { u.region with
        rings := Region.insertRing ⟨c, capacity, []⟩ u.region.rings
        reserved := u.region.reserved + capacity } }) := by
  rcases Region.createWith_cases u.region c capacity with ⟨e, h⟩ | h | ⟨hn, hc, ha, h⟩
  · exact .inl (by rw [h, created])
  · exact .inl (by rw [h, created])
  · exact .inr ⟨hn, hc, ha, by rw [h, created]⟩

def react : Region.Handler Region (Usage × List (Usage → Usage)) :=
  fun stream batch (region, u, reactions) =>
    let u := { u with region }.receive stream batch
    match reactions with
    | [] => (u.region, u, [])
    | reaction :: rest =>
      let u := reaction u
      (u.region, u, rest)

def poll (u : Usage) (t : Thread) (max : Nat) (reactions : List (Usage → Usage)) : Usage :=
  let (_, region, u, _) := u.region.poll t max react (u, reactions)
  { u with region }

mutual

def perform (u : Usage) : Call → Usage
  | .operate operation => u.operate operation
  | .poll t max reactions => u.poll t max (reactionsOf reactions)

def performAll (u : Usage) : List Call → Usage
  | [] => u
  | call :: calls => (u.perform call).performAll calls

def reactionsOf : List (List Call) → List (Usage → Usage)
  | [] => []
  | calls :: rest => (fun u => u.performAll calls) :: reactionsOf rest

end

/-- A usage that some calls lead to, from a region just made. -/
def Reachable (c : Region.Config) (u : Usage) : Prop :=
  ∃ region calls, Region.ofConfig c = .ok region ∧ u = performAll { region } calls

def tight : Region.Config := { name := "tight", size := 2, slotSize := 1 }

/-- Both slots become the rings of one stream, which is linked to itself. Of two publications the
second finds the ring full; the first is polled and submitted again meanwhile. -/
def relaying : List Call :=
  let t : Thread := { name := "main" }
  [.operate (.register t), .operate (.create ⟨.nil, .input⟩ (some 1)),
    .operate (.create ⟨.nil, .output⟩ (some 1)), .operate (.link .nil .nil),
    .operate (.find t ⟨.nil, .input⟩), .operate (.publish t .nil [7]),
    .operate (.publish t .nil [8]), .poll t 1 [[.operate (.submit t ⟨.nil, .input⟩ 0)]],
    .operate (.deserialize t (StreamId.nil.bytes ++ [9]))]

def relayed : Usage := performAll { region := { config := tight } } relaying

theorem relayed_reachable : Reachable tight relayed := ⟨_, relaying, rfl, rfl⟩

end Usage

end StreamRelay
