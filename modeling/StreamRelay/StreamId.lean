import StreamRelay.Bytes
import StreamRelay.Text.Number

/-!
# Stream ids

A stream is named by sixteen bytes. Ids are ordered as byte strings, and their text is the
hyphenated lower-case form `8-4-4-4-12`.
-/

namespace StreamRelay

structure StreamId where
  bytes : Bytes
  length_eq : bytes.length = 16
  deriving DecidableEq

namespace StreamId

def size : Nat := 16

def nil : StreamId := ⟨List.replicate 16 0, by simp⟩

instance : Inhabited StreamId := ⟨nil⟩

def ofPrefix? (b : Bytes) : Option StreamId :=
  if h : 16 ≤ b.length then some ⟨b.take 16, by simp [h]⟩ else none

def le (a b : StreamId) : Bool := decide (a.bytes ≤ b.bytes)

def sorted (ids : List StreamId) : List StreamId := ids.mergeSort le

def ascending (ids : List StreamId) : List StreamId :=
  (sorted ids).foldr (fun id rest => if rest.head? = some id then rest else id :: rest) []

def ofRandom? (b : Bytes) : Option StreamId :=
  (ofPrefix? b).map fun id =>
    ⟨(id.bytes.modify 6 (fun x => x &&& 0x0f ||| 0x40)).modify 8 (fun x => x &&& 0x3f ||| 0x80),
      by simp [id.length_eq]⟩

def text (id : StreamId) : List Char :=
  let hex (b : Bytes) := b.flatMap Text.hexByte
  let b := id.bytes
  hex (b.take 4) ++ '-' :: hex ((b.drop 4).take 2) ++ '-' :: hex ((b.drop 6).take 2)
    ++ '-' :: hex ((b.drop 8).take 2) ++ '-' :: hex (b.drop 10)

instance : ToString StreamId := ⟨fun id => String.ofList id.text⟩

end StreamId

end StreamRelay
