import StreamRelay.Text.Number

/-!
# Socket addresses

An address of version 4 or 6 and a port. Reading takes octets without leading zeros and ports with
any; version 6 addresses stand in brackets, with `::` for at least one group of zeros, the last two
groups possibly as octets, and a numeric scope behind `%`. Writing shortens the first longest run of
two or more zero groups.
-/

namespace StreamRelay

structure Ipv4 where
  octets : List UInt8
  length_eq : octets.length = 4
  deriving DecidableEq

structure Ipv6 where
  groups : List UInt16
  length_eq : groups.length = 8
  deriving DecidableEq

inductive SocketAddress
  | v4 (ip : Ipv4) (port : UInt16)
  | v6 (ip : Ipv6) (scope : UInt32) (port : UInt16)
  deriving DecidableEq

namespace Ipv4

def of (a b c d : UInt8) : Ipv4 := ⟨[a, b, c, d], rfl⟩

def text (ip : Ipv4) : List Char :=
  ['.'].intercalate (ip.octets.map fun o => Nat.toDigits 10 o.toNat)

end Ipv4

def digitRun (base : Nat) (digit? : Char → Option Nat) (s : List Char) :
    Nat × List Char × List Char :=
  let isDigit c := (digit? c).isSome
  let run := s.takeWhile isDigit
  (run.foldl (fun n c => base * n + (digit? c).getD 0) 0, run, s.dropWhile isDigit)

def take? (c : Char) : List Char → Option (List Char)
  | d :: s => if d = c then some s else none
  | [] => none

namespace Ipv4

def readOctet (s : List Char) : Option (UInt8 × List Char) :=
  let (n, run, rest) := digitRun 10 Text.decimalDigit? s
  if run.length = 0 ∨ 3 < run.length ∨ (run.head? = some '0' ∧ run.length ≠ 1) ∨ 255 < n then none
  else some (UInt8.ofNat n, rest)

def read (s : List Char) : Option (Ipv4 × List Char) := do
  let (a, s) ← readOctet s
  let (b, s) ← readOctet (← take? '.' s)
  let (c, s) ← readOctet (← take? '.' s)
  let (d, s) ← readOctet (← take? '.' s)
  return (of a b c d, s)

def groups (ip : Ipv4) : List UInt16 :=
  match ip.octets with
  | [a, b, c, d] => [a.toUInt16 * 256 + b.toUInt16, c.toUInt16 * 256 + d.toUInt16]
  | _ => []

end Ipv4

namespace Ipv6

def unspecified : Ipv6 := ⟨List.replicate 8 0, by simp⟩

def readGroup (s : List Char) : Option (UInt16 × List Char) :=
  let (n, run, rest) := digitRun 16 Text.hexDigit? s
  if run.length = 0 ∨ 4 < run.length then none else some (UInt16.ofNat n, rest)

/-- At most `limit` groups with colons between them, as far as they go. With two groups to go, four
octets may end them, which is then told. -/
def readGroups : (limit : Nat) → (first : Bool) → List Char → List UInt16 × Bool × List Char
  | 0, _, s => ([], false, s)
  | limit + 1, first, s =>
    match if first then some s else take? ':' s with
    | none => ([], false, s)
    | some start =>
      match if limit = 0 then none else Ipv4.read start with
      | some (ip, rest) => (ip.groups, true, rest)
      | none =>
        match readGroup start with
        | none => ([], false, s)
        | some (g, rest) =>
          let (gs, octets, rest) := readGroups limit false rest
          (g :: gs, octets, rest)

def ofGroups? (gs : List UInt16) : Option Ipv6 :=
  if h : gs.length = 8 then some ⟨gs, h⟩ else none

def read (s : List Char) : Option (Ipv6 × List Char) := do
  let (head, octets, s) := readGroups 8 true s
  if head.length = 8 then return (← ofGroups? head, s)
  else if octets then none
  else
    let s ← take? ':' (← take? ':' s)
    let (tail, _, s) := readGroups (7 - head.length) true s
    return (← ofGroups? (head ++ List.replicate (8 - head.length - tail.length) 0 ++ tail), s)

/-- The first longest run of zero groups: where it starts and its length. -/
def zeroRun (gs : List UInt16) : Nat × Nat :=
  (List.range gs.length).foldl (fun best start =>
    let length := ((gs.drop start).takeWhile (· = 0)).length
    if best.2 < length then (start, length) else best) (0, 0)

def groupText (gs : List UInt16) : List Char :=
  [':'].intercalate (gs.map fun g => Text.hexNumeral g.toNat)

def mapped? (ip : Ipv6) : Option Ipv4 :=
  match ip.groups with
  | [0, 0, 0, 0, 0, 0xffff, ab, cd] =>
    some (Ipv4.of (ab / 256).toUInt8 ab.toUInt8 (cd / 256).toUInt8 cd.toUInt8)
  | _ => none

def text (ip : Ipv6) : List Char :=
  match ip.mapped? with
  | some ip => "::ffff:".toList ++ ip.text
  | none =>
    let (start, length) := zeroRun ip.groups
    if 1 < length then
      groupText (ip.groups.take start) ++ [':', ':'] ++ groupText (ip.groups.drop (start + length))
    else groupText ip.groups

end Ipv6

namespace SocketAddress

def port : SocketAddress → UInt16
  | v4 _ p | v6 _ _ p => p

def readNumber (bound : Nat) (s : List Char) : Option (Nat × List Char) :=
  let (n, run, rest) := digitRun 10 Text.decimalDigit? s
  if run.length = 0 ∨ bound ≤ n then none else some (n, rest)

def readPort (s : List Char) : Option UInt16 := do
  let (n, rest) ← readNumber 65536 (← take? ':' s)
  if rest.isEmpty then some (UInt16.ofNat n) else none

def ofText? (s : List Char) : Option SocketAddress :=
  match Ipv4.read s with
  | some (ip, rest) => (readPort rest).map (v4 ip)
  | none => do
    let (ip, s) ← Ipv6.read (← take? '[' s)
    let (scope, s) ← match s with
      | '%' :: s => readNumber UInt32.size s
      | _ => some (0, s)
    let port ← readPort (← take? ']' s)
    return v6 ip (UInt32.ofNat scope) port

def text : SocketAddress → List Char
  | v4 ip port => ip.text ++ ':' :: Nat.toDigits 10 port.toNat
  | v6 ip scope port =>
    let zone := if scope = 0 then [] else '%' :: Nat.toDigits 10 scope.toNat
    '[' :: ip.text ++ zone ++ ']' :: ':' :: Nat.toDigits 10 port.toNat

instance : ToString SocketAddress := ⟨fun a => String.ofList a.text⟩

def anyLocal : SocketAddress → SocketAddress
  | v4 .. => v4 (Ipv4.of 0 0 0 0) 0
  | v6 .. => v6 Ipv6.unspecified 0 0

end SocketAddress

end StreamRelay
