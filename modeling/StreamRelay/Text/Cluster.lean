import StreamRelay.Text.Pictograph
import StreamRelay.Text.Width

/-!
# Clusters

A cluster is what a reader takes for one character: a letter with its marks, a syllable, a picture
made of several, a flag. Whether two characters that meet belong to one cluster depends on their
roles and, for some of them, on the characters further in front.
-/

namespace StreamRelay.Text

def controlRanges : CharRanges :=
  [(0x0, 0x1f), (0x7f, 0x9f), (0xad, 0xad), (0x61c, 0x61c), (0x180e, 0x180e), (0x200b, 0x200b),
   (0x200e, 0x200f), (0x2028, 0x202e), (0x2060, 0x206f), (0xfeff, 0xfeff), (0xfff0, 0xfffb),
   (0x13430, 0x1343f), (0x1bca0, 0x1bca3), (0x1d173, 0x1d17a), (0xe0000, 0xe001f),
   (0xe0080, 0xe00ff), (0xe01f0, 0xe0fff)]

def prependedRanges : CharRanges :=
  [(0x600, 0x605), (0x6dd, 0x6dd), (0x70f, 0x70f), (0x890, 0x891), (0x8e2, 0x8e2), (0xd4e, 0xd4e),
   (0x110bd, 0x110bd), (0x110cd, 0x110cd), (0x111c2, 0x111c3), (0x113d1, 0x113d1),
   (0x1193f, 0x1193f), (0x11941, 0x11941), (0x11a84, 0x11a89), (0x11d46, 0x11d46),
   (0x11f02, 0x11f02)]

def spacingRanges : CharRanges :=
  [(0x903, 0x903), (0x93b, 0x93b), (0x93e, 0x940), (0x949, 0x94c), (0x94e, 0x94f), (0x982, 0x983),
   (0x9bf, 0x9c0), (0x9c7, 0x9c8), (0x9cb, 0x9cc), (0xa03, 0xa03), (0xa3e, 0xa40), (0xa83, 0xa83),
   (0xabe, 0xac0), (0xac9, 0xac9), (0xacb, 0xacc), (0xb02, 0xb03), (0xb40, 0xb40), (0xb47, 0xb48),
   (0xb4b, 0xb4c), (0xbbf, 0xbbf), (0xbc1, 0xbc2), (0xbc6, 0xbc8), (0xbca, 0xbcc), (0xc01, 0xc03),
   (0xc41, 0xc44), (0xc82, 0xc83), (0xcbe, 0xcbe), (0xcc1, 0xcc1), (0xcc3, 0xcc4), (0xcf3, 0xcf3),
   (0xd02, 0xd03), (0xd3f, 0xd40), (0xd46, 0xd48), (0xd4a, 0xd4c), (0xd82, 0xd83), (0xdd0, 0xdd1),
   (0xdd8, 0xdde), (0xdf2, 0xdf3), (0xe33, 0xe33), (0xeb3, 0xeb3), (0xf3e, 0xf3f), (0xf7f, 0xf7f),
   (0x1031, 0x1031), (0x103b, 0x103c), (0x1056, 0x1057), (0x1084, 0x1084), (0x17b6, 0x17b6),
   (0x17be, 0x17c5), (0x17c7, 0x17c8), (0x1923, 0x1926), (0x1929, 0x192b), (0x1930, 0x1931),
   (0x1933, 0x1938), (0x1a19, 0x1a1a), (0x1a55, 0x1a55), (0x1a57, 0x1a57), (0x1a6d, 0x1a72),
   (0x1b04, 0x1b04), (0x1b3e, 0x1b41), (0x1b82, 0x1b82), (0x1ba1, 0x1ba1), (0x1ba6, 0x1ba7),
   (0x1be7, 0x1be7), (0x1bea, 0x1bec), (0x1bee, 0x1bee), (0x1c24, 0x1c2b), (0x1c34, 0x1c35),
   (0x1ce1, 0x1ce1), (0x1cf7, 0x1cf7), (0xa823, 0xa824), (0xa827, 0xa827), (0xa880, 0xa881),
   (0xa8b4, 0xa8c3), (0xa952, 0xa952), (0xa983, 0xa983), (0xa9b4, 0xa9b5), (0xa9ba, 0xa9bb),
   (0xa9be, 0xa9bf), (0xaa2f, 0xaa30), (0xaa33, 0xaa34), (0xaa4d, 0xaa4d), (0xaaeb, 0xaaeb),
   (0xaaee, 0xaaef), (0xaaf5, 0xaaf5), (0xabe3, 0xabe4), (0xabe6, 0xabe7), (0xabe9, 0xabea),
   (0xabec, 0xabec), (0x11000, 0x11000), (0x11002, 0x11002), (0x11082, 0x11082), (0x110b0, 0x110b2),
   (0x110b7, 0x110b8), (0x1112c, 0x1112c), (0x11145, 0x11146), (0x11182, 0x11182),
   (0x111b3, 0x111b5), (0x111bf, 0x111bf), (0x111ce, 0x111ce), (0x1122c, 0x1122e),
   (0x11232, 0x11233), (0x112e0, 0x112e2), (0x11302, 0x11303), (0x1133f, 0x1133f),
   (0x11341, 0x11344), (0x11347, 0x11348), (0x1134b, 0x1134c), (0x11362, 0x11363),
   (0x113b9, 0x113ba), (0x113ca, 0x113ca), (0x113cc, 0x113cd), (0x11435, 0x11437),
   (0x11440, 0x11441), (0x11445, 0x11445), (0x114b1, 0x114b2), (0x114b9, 0x114b9),
   (0x114bb, 0x114bc), (0x114be, 0x114be), (0x114c1, 0x114c1), (0x115b0, 0x115b1),
   (0x115b8, 0x115bb), (0x115be, 0x115be), (0x11630, 0x11632), (0x1163b, 0x1163c),
   (0x1163e, 0x1163e), (0x116ac, 0x116ac), (0x116ae, 0x116af), (0x1171e, 0x1171e),
   (0x11726, 0x11726), (0x1182c, 0x1182e), (0x11838, 0x11838), (0x11931, 0x11935),
   (0x11937, 0x11938), (0x11940, 0x11940), (0x11942, 0x11942), (0x119d1, 0x119d3),
   (0x119dc, 0x119df), (0x119e4, 0x119e4), (0x11a39, 0x11a39), (0x11a57, 0x11a58),
   (0x11a97, 0x11a97), (0x11b61, 0x11b61), (0x11b65, 0x11b65), (0x11b67, 0x11b67),
   (0x11c2f, 0x11c2f), (0x11c3e, 0x11c3e), (0x11ca9, 0x11ca9), (0x11cb1, 0x11cb1),
   (0x11cb4, 0x11cb4), (0x11d8a, 0x11d8e), (0x11d93, 0x11d94), (0x11d96, 0x11d96),
   (0x11ef5, 0x11ef6), (0x11f03, 0x11f03), (0x11f34, 0x11f35), (0x11f3e, 0x11f3f),
   (0x1612a, 0x1612c), (0x16f51, 0x16f87)]

/-- Characters without a width that are no marks: parts of Hangul syllables, and fillers. -/
def weightlessRanges : CharRanges :=
  [(0x1160, 0x11ff), (0x3164, 0x3164), (0xa8fa, 0xa8fa), (0xd7b0, 0xd7c6), (0xd7cb, 0xd7fb),
   (0xffa0, 0xffa0)]

def heavyMarkRanges : CharRanges := [(0x2d7f, 0x2d7f), (0xff9e, 0xff9f), (0x1f3fb, 0x1f3ff)]

def consonantRanges : CharRanges :=
  [(0x915, 0x939), (0x958, 0x95f), (0x978, 0x97f), (0x995, 0x9a8), (0x9aa, 0x9b0), (0x9b2, 0x9b2),
   (0x9b6, 0x9b9), (0x9dc, 0x9dd), (0x9df, 0x9df), (0x9f0, 0x9f1), (0xa95, 0xaa8), (0xaaa, 0xab0),
   (0xab2, 0xab3), (0xab5, 0xab9), (0xaf9, 0xaf9), (0xb15, 0xb28), (0xb2a, 0xb30), (0xb32, 0xb33),
   (0xb35, 0xb39), (0xb5c, 0xb5d), (0xb5f, 0xb5f), (0xb71, 0xb71), (0xc15, 0xc28), (0xc2a, 0xc39),
   (0xc58, 0xc5a), (0xd15, 0xd3a), (0x1000, 0x102a), (0x103f, 0x103f), (0x1050, 0x1055),
   (0x105a, 0x105d), (0x1061, 0x1061), (0x1065, 0x1066), (0x106e, 0x1070), (0x1075, 0x1081),
   (0x108e, 0x108e), (0x1780, 0x17b3), (0x1a20, 0x1a54), (0x1b0b, 0x1b0c), (0x1b13, 0x1b33),
   (0x1b45, 0x1b4c), (0x1b83, 0x1ba0), (0x1bae, 0x1baf), (0x1bbb, 0x1bbd), (0xa989, 0xa98b),
   (0xa98f, 0xa9b2), (0xa9e0, 0xa9e4), (0xa9e7, 0xa9ef), (0xa9fa, 0xa9fe), (0xaa60, 0xaa6f),
   (0xaa71, 0xaa73), (0xaa7a, 0xaa7a), (0xaa7e, 0xaa7f), (0xaae0, 0xaaea), (0xabc0, 0xabda),
   (0x10a00, 0x10a00), (0x10a10, 0x10a13), (0x10a15, 0x10a17), (0x10a19, 0x10a35),
   (0x11103, 0x11126), (0x11144, 0x11144), (0x11147, 0x11147), (0x11380, 0x11389),
   (0x1138b, 0x1138b), (0x1138e, 0x1138e), (0x11390, 0x113b5), (0x11900, 0x11906),
   (0x11909, 0x11909), (0x1190c, 0x11913), (0x11915, 0x11916), (0x11918, 0x1192f),
   (0x11a00, 0x11a00), (0x11a0b, 0x11a32), (0x11a50, 0x11a50), (0x11a5c, 0x11a83),
   (0x11f04, 0x11f10), (0x11f12, 0x11f33)]

/-- Marks that bind the consonants on their sides to a conjunct. -/
def binderRanges : CharRanges :=
  [(0x94d, 0x94d), (0x9cd, 0x9cd), (0xacd, 0xacd), (0xb4d, 0xb4d), (0xc4d, 0xc4d), (0xd4d, 0xd4d),
   (0x1039, 0x1039), (0x17d2, 0x17d2), (0x1a60, 0x1a60), (0x1b44, 0x1b44), (0x1bab, 0x1bab),
   (0xa9c0, 0xa9c0), (0xaaf6, 0xaaf6), (0x10a3f, 0x10a3f), (0x11133, 0x11133), (0x113d0, 0x113d0),
   (0x1193e, 0x1193e), (0x11a47, 0x11a47), (0x11a99, 0x11a99), (0x11f42, 0x11f42)]

def furtherPictureRanges : CharRanges :=
  [(0x1f02c, 0x1f02f), (0x1f094, 0x1f09f), (0x1f0af, 0x1f0b0), (0x1f0c0, 0x1f0c0),
   (0x1f0d0, 0x1f0d0), (0x1f0f6, 0x1f0ff), (0x1f1ae, 0x1f1e5), (0x1f203, 0x1f20f),
   (0x1f23c, 0x1f23f), (0x1f249, 0x1f24f), (0x1f252, 0x1f25f), (0x1f266, 0x1f2ff),
   (0x1f6da, 0x1f6db), (0x1f6ed, 0x1f6ef), (0x1f6fd, 0x1f6ff), (0x1f7da, 0x1f7df),
   (0x1f7ec, 0x1f7ef), (0x1f7f1, 0x1f7ff), (0x1f80c, 0x1f80f), (0x1f848, 0x1f84f),
   (0x1f85a, 0x1f85f), (0x1f888, 0x1f88f), (0x1f8ae, 0x1f8af), (0x1f8bc, 0x1f8bf),
   (0x1f8c2, 0x1f8cf), (0x1f8d9, 0x1f8ff), (0x1fa58, 0x1fa5f), (0x1fa6e, 0x1fa6f),
   (0x1fa7d, 0x1fa7f), (0x1fac7, 0x1fac7), (0x1fac9, 0x1facb), (0x1fade, 0x1fade),
   (0x1faec, 0x1faee), (0x1fafb, 0x1faff), (0x1fc00, 0x1fffd)]

inductive Role
  | other
  | control
  | mark
  | binder
  | spacing
  | joiner
  | prepended
  | consonant
  | picture
  | flagHalf
  /-- The parts of Hangul syllables, in their order. -/
  | leading
  | vowel
  | final
  /-- Hangul syllables without and with a final. -/
  | openSyllable
  | closedSyllable
  deriving DecidableEq, Repr

def hangulRole? (c : Char) : Option Role :=
  if CharRanges.has [(0x1100, 0x115f), (0xa960, 0xa97c)] c then some .leading
  else if CharRanges.has [(0x1160, 0x11a7), (0xd7b0, 0xd7c6)] c then some .vowel
  else if CharRanges.has [(0x11a8, 0x11ff), (0xd7cb, 0xd7fb)] c then some .final
  else if CharRanges.has [(0xac00, 0xd7a3)] c then
    some (if (c.toNat - 0xac00) % 28 = 0 then .openSyllable else .closedSyllable)
  else none

def kiratVowelRanges : CharRanges := [(0x16d63, 0x16d63), (0x16d67, 0x16d6a)]

def roleOf (c : Char) : Role :=
  if controlRanges.has c then .control
  else if c.toNat ≤ lastPlain then .other
  else if c = '\u200d' then .joiner
  else if prependedRanges.has c then .prepended
  else if binderRanges.has c then .binder
  else if heavyMarkRanges.has c || charColumns c = 0 && !weightlessRanges.has c then .mark
  else if spacingRanges.has c then .spacing
  else if consonantRanges.has c then .consonant
  else if isFlagHalf c then .flagHalf
  else if isPicture c || isSelectable c || furtherPictureRanges.has c then .picture
  else if kiratVowelRanges.has c then .vowel
  else (hangulRole? c).getD .other

/-- What the characters in front of a place are the beginning of. -/
inductive Opening
  | nothing
  /-- A picture, with marks behind. -/
  | picture
  /-- The same with a joiner behind. -/
  | joined
  /-- A consonant, with marks behind. -/
  | consonant
  /-- The same with a binder among the marks. -/
  | bound
  /-- An odd number of letters of flags. -/
  | flag
  deriving DecidableEq, Repr

structure Front where
  role : Role
  opening : Opening
  deriving DecidableEq, Repr

def Front.start : Front := ⟨.control, .nothing⟩

namespace Opening

def after (o : Opening) (c : Char) : Role → Opening
  | .picture => .picture
  | .consonant => .consonant
  | .flagHalf => if o = .flag then .nothing else .flag
  | .mark =>
    match o with
    | .picture => .picture
    | .consonant | .bound => if c = '\u200c' then .nothing else o
    | _ => .nothing
  | .binder =>
    match o with
    | .picture => .picture
    | .consonant | .bound => .bound
    | _ => .nothing
  | .joiner =>
    match o with
    | .picture => .joined
    | .consonant | .bound => o
    | _ => .nothing
  | _ => .nothing

end Opening

def sameSyllable : Role → Role → Bool
  | .leading, r => r ∈ [Role.leading, .vowel, .openSyllable, .closedSyllable]
  | .openSyllable, r | .vowel, r => r ∈ [Role.vowel, .final]
  | .closedSyllable, r | .final, r => r = .final
  | _, _ => false

def Front.continues (f : Front) (r : Role) : Bool :=
  if f.role = .control || r = .control then false
  else
    f.role = .prepended || sameSyllable f.role r ||
    match r with
    | .mark | .binder | .spacing | .joiner => true
    | .picture => f.opening = .joined
    | .consonant => f.opening = .bound
    | .flagHalf => f.opening = .flag
    | _ => false

/-- A text that is being cut: the place that has been reached, and the clusters in front of it, the
last one first and each of them from its end. -/
structure Cutting where
  front : Front := .start
  clusters : List (List Char) := []

def Cutting.push (t : Cutting) (c : Char) : Cutting :=
  let r := roleOf c
  let front := ⟨r, t.front.opening.after c r⟩
  match t.clusters with
  | cluster :: rest =>
    if t.front.continues r then ⟨front, (c :: cluster) :: rest⟩
    else ⟨front, [c] :: cluster :: rest⟩
  | [] => ⟨front, [[c]]⟩

def clusters (s : List Char) : List (List Char) :=
  (s.foldl Cutting.push {}).clusters.reverse.map List.reverse

end StreamRelay.Text
