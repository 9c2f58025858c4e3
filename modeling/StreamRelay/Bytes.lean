/-!
# Bytes

Frames, messages and datagrams are lists of bytes. A text has exactly one byte form, its UTF-8
encoding; bytes that are no such encoding have no text.
-/

namespace StreamRelay

abbrev Bytes := List UInt8

namespace Bytes

def ofText (s : String) : Bytes := s.toUTF8.data.toList

def text? (b : Bytes) : Option String := String.fromUTF8? ⟨b.toArray⟩

def ofUInt16 (n : Nat) : Bytes := [UInt8.ofNat n, UInt8.ofNat (n / 256)]

end Bytes

end StreamRelay
