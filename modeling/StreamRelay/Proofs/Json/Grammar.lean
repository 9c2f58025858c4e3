import StreamRelay.Json.Lexeme

/-!
# The grammar of JSON

Which texts are JSON, apart from any reader. In a string that is passed over a unit of four
hexadecimal digits may be anything; what a string says, if it says something, is told by how it is
spelled. Blanks may stand around every value and every mark of an object or a list.
-/

namespace StreamRelay.Json

def Blank (s : List Char) : Prop := ∀ c ∈ s, isSpace c = true

instance (s : List Char) : Decidable (Blank s) :=
  decidable_of_iff (s.all isSpace = true) List.all_eq_true

structure IsDigits (s : List Char) : Prop where
  ne_nil : s ≠ []
  all : ∀ c ∈ s, isDigit c = true

instance (s : List Char) : Decidable (IsDigits s) :=
  decidable_of_iff (s ≠ [] ∧ s.all isDigit = true)
    ⟨fun h => ⟨h.1, List.all_eq_true.mp h.2⟩, fun h => ⟨h.ne_nil, List.all_eq_true.mpr h.all⟩⟩

inductive IsFraction : List Char → Prop
  | none : IsFraction []
  | some {s : List Char} (h : IsDigits s) : IsFraction ('.' :: s)

inductive IsExponent : List Char → Prop
  | none : IsExponent []
  | some {e : Char} {sign s : List Char} (he : e = 'e' ∨ e = 'E')
    (hsign : sign = [] ∨ sign = ['+'] ∨ sign = ['-']) (h : IsDigits s) :
    IsExponent (e :: (sign ++ s))

inductive IsNumeral : List Char → Prop
  | mk {whole fraction exponent : List Char} (hw : IsDigits whole)
    (hzero : whole.head? = some '0' → whole.length = 1) (hf : IsFraction fraction)
    (he : IsExponent exponent) : IsNumeral (whole ++ (fraction ++ exponent))

inductive IsNumber : List Char → Prop
  | positive {s : List Char} (h : IsNumeral s) : IsNumber s
  | negative {s : List Char} (h : IsNumeral s) : IsNumber ('-' :: s)

structure IsPlain (c : Char) : Prop where
  not_control : isControl c = false
  ne_quote : c ≠ '"'
  ne_backslash : c ≠ '\\'

inductive IsUnit : List Char → Nat → Prop
  | mk {a b c d : Char} {h i j k : Nat} (ha : Text.hexDigit? a = some h)
    (hb : Text.hexDigit? b = some i) (hc : Text.hexDigit? c = some j)
    (hd : Text.hexDigit? d = some k) : IsUnit [a, b, c, d] (((h * 16 + i) * 16 + j) * 16 + k)

inductive IsText : List Char → Prop
  | nil : IsText []
  | plain {c : Char} {s : List Char} (hc : IsPlain c) (h : IsText s) : IsText (c :: s)
  | short {e : Char} {s : List Char} (he : (shortEscape? e).isSome = true) (h : IsText s) :
    IsText ('\\' :: e :: s)
  | unit {u s : List Char} {n : Nat} (hu : IsUnit u n) (h : IsText s) :
    IsText ('\\' :: 'u' :: (u ++ s))

/-- The inside of a string and the characters for which it stands. Surrogates come in pairs. -/
inductive Spells : List Char → List Char → Prop
  | nil : Spells [] []
  | plain {c : Char} {s text : List Char} (hc : IsPlain c) (h : Spells s text) :
    Spells (c :: s) (c :: text)
  | short {e c : Char} {s text : List Char} (he : shortEscape? e = some c) (h : Spells s text) :
    Spells ('\\' :: e :: s) (c :: text)
  | unit {u s text : List Char} {n : Nat} (hu : IsUnit u n) (hl : isLeading n = false)
    (ht : isTrailing n = false) (h : Spells s text) :
    Spells ('\\' :: 'u' :: (u ++ s)) (Char.ofNat n :: text)
  | pair {u v s text : List Char} {n m : Nat} (hu : IsUnit u n) (hl : isLeading n = true)
    (hv : IsUnit v m) (ht : isTrailing m = true) (h : Spells s text) :
    Spells ('\\' :: 'u' :: (u ++ '\\' :: 'u' :: (v ++ s)))
      (Char.ofNat (0x10000 + (n - 0xd800) * 0x400 + (m - 0xdc00)) :: text)

/-- What a part of a text is: a value, an item of a list with the blanks around it, a member of an
object, or several of these with commas between them. -/
inductive Form
  | value
  | item
  | items
  | member
  | members

inductive Derives : Form → List Char → Prop
  | null : Derives .value "null".toList
  | true : Derives .value "true".toList
  | false : Derives .value "false".toList
  | number {s : List Char} (h : IsNumber s) : Derives .value s
  | string {s : List Char} (h : IsText s) : Derives .value ('"' :: (s ++ ['"']))
  | emptyList {w : List Char} (hw : Blank w) : Derives .value ('[' :: (w ++ [']']))
  | list {s : List Char} (h : Derives .items s) : Derives .value ('[' :: (s ++ [']']))
  | emptyObject {w : List Char} (hw : Blank w) : Derives .value ('{' :: (w ++ ['}']))
  | object {s : List Char} (h : Derives .members s) : Derives .value ('{' :: (s ++ ['}']))
  | item {front s back : List Char} (hf : Blank front) (h : Derives .value s) (hb : Blank back) :
    Derives .item (front ++ (s ++ back))
  | lastItem {s : List Char} (h : Derives .item s) : Derives .items s
  | moreItems {s t : List Char} (h : Derives .item s) (ht : Derives .items t) :
    Derives .items (s ++ ',' :: t)
  | member {front key middle s : List Char} (hf : Blank front) (hk : IsText key)
    (hm : Blank middle) (h : Derives .item s) :
    Derives .member (front ++ '"' :: (key ++ '"' :: (middle ++ ':' :: s)))
  | lastMember {s : List Char} (h : Derives .member s) : Derives .members s
  | moreMembers {s t : List Char} (h : Derives .member s) (ht : Derives .members t) :
    Derives .members (s ++ ',' :: t)

abbrev IsValue (s : List Char) : Prop := Derives .value s

end StreamRelay.Json
