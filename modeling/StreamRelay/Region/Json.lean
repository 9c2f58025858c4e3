import StreamRelay.Json.Record
import StreamRelay.Json.Value
import StreamRelay.Region

/-!
# JSON forms of a region

How ids, directions, the configuration, channels and the ledger are written as JSON, and the first
three read.
-/

namespace StreamRelay

open Json (Value)

def Json.Value.counters (entries : List (String × Nat)) : Value :=
  .object (entries.map fun (name, n) => (name, .nat n))

def StreamId.toJson (id : StreamId) : Value := .string (toString id)

def StreamId.fromJson : Json.Reader StreamId := Json.parsed fun s => (StreamId.ofText s).toOption

def Direction.toJson (d : Direction) : Value := .string d.name

def Direction.fromJson : Json.Reader Direction :=
  Json.choice [(Direction.name .input, .input), (Direction.name .output, .output)]

namespace Region

def Config.fields : List (Json.Field Config) :=
  [.of "region_name" Json.string fun v c => { c with name := v },
    .of "region_size" Json.word fun v c => { c with size := v },
    .of "slot_size" Json.word fun v c => { c with slotSize := v },
    .of "ring_capacity" Json.word fun v c => { c with ringCapacity := v }]

def Config.fromJson : Json.Reader Config := Json.record Config.fields {}

def Config.toJson (c : Config) : Value :=
  .object [("region_name", .string c.name), ("region_size", .nat c.size),
    ("slot_size", .nat c.slotSize), ("ring_capacity", .nat c.ringCapacity)]

def Ledger.toJson (l : Ledger) : Value := .counters l.entries

def ChannelInfo.toJson (c : ChannelInfo) : Value :=
  .object [("stream_id", c.stream.toJson), ("direction", c.direction.toJson),
    ("capacity", .nat c.capacity), ("queued", .nat c.queued),
    ("linked_to", match c.linkedTo with
      | some id => id.toJson
      | none => .null)]

end Region

end StreamRelay
