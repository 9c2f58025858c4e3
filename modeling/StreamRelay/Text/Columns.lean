import StreamRelay.Text.Joining
import StreamRelay.Text.Pictograph

/-!
# Columns of text

How many columns of a terminal a text fills. That is the sum over its characters, except that some
characters that meet are drawn as one: the parts of a pictograph, and letters that join. The text is
read from its end, and what has just been read decides what a character in front of it adds.
-/

namespace StreamRelay.Text

/-- What has been read last, as far as it can be the end of something drawn as one. -/
inductive Follower
  | other
  | lineFeed
  /-- A picture, or several that are drawn as one. -/
  | picture
  | tone
  | flagHalf
  /-- Two or more letters of flags. -/
  | flagHalves
  /-- A joiner in front of a picture. -/
  | joined
  /-- A keycap in front of that. -/
  | joinedKeycap
  /-- One letter of a flag in front of a joiner and a picture. -/
  | joinedFlagHalf
  /-- Pairs of such letters. -/
  | joinedFlags
  /-- Pairs of such letters, and one more. -/
  | joinedFlagsHalf
  /-- The end of the name of a region in front of a joiner and a picture: so many digits, with so
  many letters behind. -/
  | joinedRegion (digits letters : Nat)
  | alef
  | kiratE
  | kiratAi
  | ligature (l : Ligature)
  deriving DecidableEq, Repr

inductive Selector
  | picture
  | text
  | full
  deriving DecidableEq, Repr

def Selector.ofChar? (c : Char) : Option Selector :=
  if c = '\ufe0f' then some .picture
  else if c = '\ufe0e' then some .text
  else if c = '\ufe01' then some .full
  else none

structure Behind where
  follower : Follower := .other
  selector : Option Selector := none
  deriving DecidableEq, Repr

namespace Behind

def survives (s : Selector) : Follower → Bool
  | .alef | .ligature _ => true
  | .joined | .joinedKeycap => s = .picture
  | _ => false

def select (b : Behind) (s : Selector) : Behind where
  follower := if survives s b.follower then b.follower else .other
  selector := some s

def unselect (b : Behind) : Behind :=
  match b.selector with
  | some _ => { follower := if survives .text b.follower then b.follower else .other }
  | none => b

def withoutPicture (b : Behind) : Behind :=
  if b.selector = some .picture then b.unselect else b

end Behind

def keycap : Char := '\u20e3'

def regionEnd : Nat := 0xe007f

def isRegionLetter (c : Char) : Bool := CharRanges.has [(0xe0061, 0xe007a)] c

def isRegionDigit (c : Char) : Bool := CharRanges.has [(0xe0030, 0xe0039)] c

def blackFlag : Nat := 0x1f3f4

/-- A character in front of the name of a region: the name is made of three to six letters, or of
three digits and up to four letters behind. -/
def meetRegion (digits letters : Nat) (c : Char) : Option (Int × Follower) :=
  if isRegionLetter c && digits = 0 && letters < 6 then some (0, .joinedRegion 0 (letters + 1))
  else if isRegionDigit c && letters ≤ 4 && digits < 3 then
    some (0, .joinedRegion (digits + 1) letters)
  else if c.toNat = blackFlag && (digits = 3 || digits = 0 && 3 ≤ letters) then some (0, .picture)
  else none

def meetJoined (c : Char) : Option (Int × Follower) :=
  if c = keycap then some (0, .joinedKeycap)
  else if isFlagHalf c then some (1, .joinedFlagHalf)
  else if isTone c then some (0, .tone)
  else if c.toNat = regionEnd then some (0, .joinedRegion 0 0)
  else if isPicture c then some (0, .picture)
  else none

def meetKirat (ai : Bool) (c : Char) : Option (Int × Follower) :=
  if c.toNat = 0x16d63 then some (0, .other)
  else if ai then none
  else if c.toNat = 0x16d67 then some (0, .kiratAi)
  else if c.toNat = 0x16d68 then some (1, .kiratE)
  else if c.toNat = 0x16d69 then some (0, .other)
  else none

def meet (c : Char) : Follower → Option (Int × Follower)
  | .other | .lineFeed | .joinedKeycap => none
  | .picture => if c = joiner then some (0, .joined) else none
  | .tone =>
    if takesTone c then some (0, .picture) else if c = joiner then some (0, .joined) else none
  | .flagHalf => if isFlagHalf c then some (1, .flagHalves) else none
  | .flagHalves =>
    if isFlagHalf c then some (1, .flagHalves)
    else if c = joiner then some (0, .joined)
    else none
  | .joined => meetJoined c
  | .joinedFlagHalf => if isFlagHalf c then some (-1, .joinedFlags) else none
  | .joinedFlags =>
    if isFlagHalf c then some (3, .joinedFlagsHalf)
    else if c = joiner then some (0, .joined)
    else none
  | .joinedFlagsHalf =>
    if isFlagHalf c then some (-1, .joinedFlags)
    else if c = joiner then some (0, .joined)
    else none
  | .joinedRegion digits letters => meetRegion digits letters c
  | .alef =>
    if lamRanges.has c then some (0, .other)
    else if isTransparent c then some (0, .alef)
    else none
  | .kiratE => meetKirat false c
  | .kiratAi => meetKirat true c
  | .ligature l =>
    if c = joiner then some (0, .ligature l.join)
    else if ignorableMarkRanges.has c then some (0, .ligature l)
    else (l.extend? c).map fun p => (p.1, (p.2.map Follower.ligature).getD .other)

def followerOf (c : Char) : Follower :=
  if alefRanges.has c then .alef
  else if isTone c then .tone
  else if isFlagHalf c then .flagHalf
  else if isPicture c then .picture
  else if c.toNat = 0x16d67 then .kiratE
  else if c.toNat = 0x16d68 then .kiratAi
  else ((Ligature.ofLast? c).map Follower.ligature).getD .other

def isCurlyQuote (c : Char) : Bool := CharRanges.has [(0x2018, 0x2019), (0x201c, 0x201d)] c

/-- The columns that a character adds in front of `b`, and what then stands behind the next. -/
def step (c : Char) (b : Behind) : Int × Behind :=
  if b.selector = some .picture && isSelectable c then
    let counted := b.follower = .joined || b.follower = .joinedKeycap
    (if counted then 0 else 2, { follower := .picture })
  else
    let b := b.withoutPicture
    if c.toNat ≤ lastPlain then
      if c = '\n' then (1, { follower := .lineFeed })
      else (if c = '\r' && b.follower = .lineFeed then 0 else 1, {})
    else match Selector.ofChar? c with
      | some s => (0, b.select s)
      | none =>
        if b.selector = some .text && isNarrowAsText c then (1, {})
        else if b.selector = some .full && isCurlyQuote c then (2, {})
        else
          let (n, f) := (meet c b.unselect.follower).getD (charColumns c, followerOf c)
          (n, { follower := f })

def measure (s : List Char) : Int × Behind :=
  s.foldr (fun c (n, b) =>
    let (m, b) := step c b
    (n + m, b)) (0, {})

def columns (s : List Char) : Nat := (measure s).1.toNat

end StreamRelay.Text
