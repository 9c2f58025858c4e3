import StreamRelay.StreamId
import StreamRelay.Text.Blank

/-!
# Spellings of stream ids

An id may be written as 32 hexadecimal digits or hyphenated, and the hyphenated form also in braces
or behind `urn:uuid:`; digits and scheme in either case, blanks around it ignored. A text that is no
spelling is refused with the first reason found.
-/

namespace StreamRelay.StreamId

inductive Misspelling
  | length (found : Nat)
  | character (found : Char) (index : Nat)
  | groupCount (found : Nat)
  | groupLength (group expected found : Nat)
  deriving DecidableEq, Repr

def Misspelling.message : Misspelling → String
  | .length n => s!"invalid length: found {n}"
  | .character c i => s!"invalid character: found \x60{c}\x60 at {i}"
  | .groupCount n => s!"invalid group count: expected 5, found {n}"
  | .groupLength g e n => s!"invalid group length in group {g}: expected {e}, found {n}"

def hexBytes? : List Char → Option Bytes
  | [] => some []
  | hi :: lo :: rest => do
    let h ← Text.hexDigit? hi
    let l ← Text.hexDigit? lo
    let bytes ← hexBytes? rest
    return UInt8.ofNat (16 * h + l) :: bytes
  | [_] => none

def ofDigits? (s : List Char) : Option StreamId := do
  let bytes ← hexBytes? s
  if h : bytes.length = 16 then some ⟨bytes, h⟩ else none

def joinGroups? : List Nat → List Char → Option (List Char)
  | [], _ => none
  | [n], s => if s.length = n then some s else none
  | n :: ns, s =>
    match s.drop n with
    | '-' :: rest => (joinGroups? ns rest).map (s.take n ++ ·)
    | _ => none

def ofHyphenated? (s : List Char) : Option StreamId :=
  (joinGroups? [8, 4, 4, 4, 12] s).bind ofDigits?

def stripScheme? : List Char → List Char → Option (List Char)
  | [], s => some s
  | l :: ls, c :: s => if c.toLower = l then stripScheme? ls s else none
  | _ :: _, [] => none

def scheme : List Char := "urn:uuid:".toList

def unbrace? : List Char → Option (List Char)
  | '{' :: rest => if rest.getLast? = some '}' then some rest.dropLast else none
  | _ => none

def utf8Length (s : List Char) : Nat := s.foldr (fun c n => c.utf8Size + n) 0

/-- The hyphenated form inside one of its wrappings, told apart by the length of the whole. -/
def hyphenatedPart? (s : List Char) : Option (List Char) :=
  match utf8Length s with
  | 36 => some s
  | 38 => unbrace? s
  | 45 => stripScheme? scheme s
  | _ => none

def spelled? (s : List Char) : Option StreamId :=
  if utf8Length s = 32 then ofDigits? s else (hyphenatedPart? s).bind ofHyphenated?

def hyphens (index : Nat) : List Char → Except (Char × Nat) (List Nat)
  | [] => .ok []
  | c :: s =>
    if c = '-' then (hyphens (index + 1) s).map (index :: ·)
    else if (Text.hexDigit? c).isSome then hyphens (index + 1) s
    else .error (c, index)

/-- Why the groups between four hyphens have wrong lengths: the first hyphen out of place. -/
def misplaced (length : Nat) (group start : Nat) : List (Nat × Nat) → Misspelling
  | [] => .groupLength 4 12 (length - 24)
  | (found, expected) :: rest =>
    if found = start + expected then misplaced length (group + 1) (found + 1) rest
    else .groupLength group expected (found - start)

/-- The reason for refusing the digits and hyphens of `inside`, which begins `offset` bytes into a
text of `length` bytes. With `bare`, hyphens may be missing altogether. -/
def misspellingInside (length offset : Nat) (bare : Bool) (inside : List Char) : Misspelling :=
  match hyphens 0 inside with
  | .error (c, i) => .character c (i + offset)
  | .ok [] => if bare then .length length else .groupCount 1
  | .ok found =>
    if found.length = 4 then misplaced length 0 0 (found.zip [8, 4, 4, 4])
    else .groupCount (found.length + 1)

def misspelling (s : List Char) : Misspelling :=
  let (text, hyphenated) := match hyphenatedPart? s with
    | some inside => (inside, true)
    | none => (s, false)
  let length := utf8Length text
  if length = 0 ∨ 45 < length then .length length
  else if hyphenated then misspellingInside length 0 false text
  else match unbrace? text, stripScheme? scheme text with
    | some inside, _ => misspellingInside length 1 false inside
    | none, some rest => misspellingInside length 9 false rest
    | none, none => misspellingInside length 0 true text

def ofText (s : String) : Except Misspelling StreamId :=
  let inner := Text.trim s.toList
  match spelled? inner with
  | some id => .ok id
  | none => .error (misspelling inner)

end StreamRelay.StreamId
