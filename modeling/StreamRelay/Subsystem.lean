import StreamRelay.Region

/-!
# What the relay needs of a region

The relay uses channels and buffers only through a few operations, so that something may stand
between it and a region. One such thing refuses a given number of calls of each kind before they
reach the region.
-/

namespace StreamRelay

/-- A system of channels with state `σ`, as threads of the relay use it. -/
class Subsystem (σ : Type) where
  register : σ → Thread → Except Region.Error Unit × σ
  unregister : σ → Thread → σ
  findChannel : σ → Thread → Channel → Except Region.Error Channel × σ
  deserialize : σ → Thread → Bytes → Except Region.Error Buffer × σ
  submit : σ → Thread → Channel → Buffer → Except Region.Error Unit × σ
  serialize : σ → Thread → Buffer → Bytes → Except Region.Error Nat × Bytes × σ
  release : σ → σ
  poll {α : Type} : σ → Thread → Nat → Region.Handler σ α → α → Except Region.Error Nat × σ × α

instance : Subsystem Region where
  register r t := (.ok (), r.register t)
  unregister r t := r.unregister t
  findChannel r t c := (r.findChannel t c, r)
  deserialize r t raw := r.deserialize t raw
  submit r t c b := r.submit t c b
  serialize r t b area :=
    let (answer, area) := r.serialize t b area
    (answer, area, r)
  release r := r.release
  poll r t max handler a := r.poll t max handler a

/-- The calls that are still to be refused. A refused serialization claims to have written nothing.
-/
structure Faults where
  register : Nat := 0
  lookup : Nat := 0
  poll : Nat := 0
  serialize : Nat := 0
  deriving DecidableEq, Inhabited

structure Hindered where
  region : Region
  faults : Faults := {}

instance : Subsystem Hindered where
  register h t :=
    if 0 < h.faults.register then
      (.error (.threadNotRegistered "register"),
        { h with faults.register := h.faults.register - 1 })
    else (.ok (), { h with region := h.region.register t })
  unregister h t := { h with region := h.region.unregister t }
  findChannel h t c :=
    if 0 < h.faults.lookup then
      (.error (.threadNotRegistered "lookup"), { h with faults.lookup := h.faults.lookup - 1 })
    else (h.region.findChannel t c, h)
  deserialize h t raw :=
    let (answer, region) := h.region.deserialize t raw
    (answer, { h with region })
  submit h t c b :=
    let (answer, region) := h.region.submit t c b
    (answer, { h with region })
  serialize h t b area :=
    if 0 < h.faults.serialize then
      (.ok 0, area, { h with faults.serialize := h.faults.serialize - 1 })
    else
      let (answer, area) := h.region.serialize t b area
      (answer, area, h)
  release h := { h with region := h.region.release }
  poll h t max handler a :=
    if 0 < h.faults.poll then
      (.error (.threadNotRegistered "poll"), { h with faults.poll := h.faults.poll - 1 }, a)
    else
      let (answer, region, faults, a) := h.region.poll t max
        (fun stream batch (region, faults, a) =>
          let (h, a) := handler stream batch (⟨region, faults⟩, a)
          (h.region, h.faults, a)) (h.faults, a)
      (answer, ⟨region, faults⟩, a)

end StreamRelay
