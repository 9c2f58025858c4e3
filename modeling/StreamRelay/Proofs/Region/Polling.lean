import StreamRelay.Proofs.Region.Order

/-!
# Polls whose handler uses the region

A poll fixes its rings when it starts: the output rings that there are, by ascending stream. Each has
one turn, in which its oldest buffers are checked out and given to the handler, which may make any
calls meanwhile. So a poll is a sequence of visits, one for each ring, and what changes between two
visits is the work of the handler alone.
-/

namespace StreamRelay

namespace Usage
open Region

variable {α : Type}

/-- The calls that a handler makes, which it chooses by what it gets, what it finds, and what it
remembers. -/
abbrev Plan (α : Type) := StreamId → List Buffer → Usage × α → List Call × α

def Plan.act (plan : Plan α) (stream : StreamId) (batch : List Buffer) (s : Usage × α) : Usage × α :=
  let (calls, memory) := plan stream batch s
  (s.1.performAll calls, memory)

def Plan.handler (plan : Plan α) : Handler Region (Usage × α) :=
  fun stream batch (region, u, memory) =>
    let s := plan.act stream batch (receive { u with region } stream batch, memory)
    (s.1.region, s)

/-- The turn of a ring in a poll: what it finds, the batch that it takes, what there is when the
handler is called, and what the handler leaves. -/
structure Visit (α : Type) where
  channel : Channel
  before : Usage × α
  batch : List Buffer
  taken : Usage
  after : Usage × α

namespace Visit

/-- What a turn does. The oldest buffers of the ring, up to the maximum, are taken out of it and
checked out, and nothing else changes; then the handler is called with them, unless there are
none. -/
structure Valid (v : Visit α) (plan : Plan α) (max : Nat) : Prop where
  ring : ∃ ring, v.before.1.region.ring? v.channel = some ring ∧ v.batch = ring.parked.take max ∧
    v.taken.region.ring? v.channel = some (ring.without max)
  others : ∀ c ≠ v.channel, v.taken.region.ring? c = v.before.1.region.ring? c
  rest : ∃ rings, v.taken.region = { v.before.1.region with
    rings, ledger := v.before.1.region.ledger.record .handedOut v.batch.length }
  held : v.taken.held = v.before.1.held ++ v.batch
  stream : ∀ b ∈ v.batch, b.stream = v.channel.stream
  called : v.batch ≠ [] → v.after = plan.act v.channel.stream v.batch (v.taken, v.before.2)
  passed : v.batch = [] → v.after = v.before

end Visit

variable {plan : Plan α} {max : Nat} {c : Channel} {cs : List Channel} {s : Usage × α}

def threes : StreamId := ⟨List.replicate 16 3, rfl⟩

def furnishing : List Call :=
  let t : Thread := { name := "main" }
  [.operate (.register t), .operate (.create ⟨threes, .output⟩ (some 2)),
    .operate (.create ⟨.nil, .output⟩ (some 1)), .operate (.publish t .nil [7]),
    .operate (.publish t threes [8])]

def furnished : Usage :=
  performAll { region := { config := { name := "spare", size := 4, slotSize := 1 } } } furnishing

end Usage

end StreamRelay
