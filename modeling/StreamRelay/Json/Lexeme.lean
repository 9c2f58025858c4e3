import StreamRelay.Text.Number

/-!
# Lexemes of JSON

Readers take a value from the front of a text and return what is behind it. They stop at the first
fault, and a fault says only of which kind it is: the text ended, it is no JSON, or it is JSON of
the wrong type or value. This module reads blanks, keywords, strings and numbers.
-/

namespace StreamRelay.Json

inductive Fault
  | ended
  | malformed
  | mismatch
  deriving DecidableEq, Repr

abbrev Reader (α : Type) := List Char → Except Fault (α × List Char)

def isSpace (c : Char) : Bool := c = ' ' || c = '\n' || c = '\t' || c = '\r'

def skipSpace (s : List Char) : List Char := s.dropWhile isSpace

def keyword : (expected : List Char) → Reader Unit
  | [], s => .ok ((), s)
  | _ :: _, [] => .error .ended
  | l :: ls, c :: s => if c = l then keyword ls s else .error .malformed

def isControl (c : Char) : Bool := c.toNat < 0x20

def shortEscape? : Char → Option Char
  | '"' => some '"'
  | '\\' => some '\\'
  | '/' => some '/'
  | 'b' => some '\x08'
  | 'f' => some '\x0c'
  | 'n' => some '\n'
  | 'r' => some '\r'
  | 't' => some '\t'
  | _ => none

/-- Four hexadecimal digits. Fewer than four bytes of text count as its end, whatever they are. -/
def hexUnit : Reader Nat
  | a :: b :: c :: d :: rest =>
    match Text.hexDigit? a, Text.hexDigit? b, Text.hexDigit? c, Text.hexDigit? d with
    | some h, some i, some j, some k => .ok (((h * 16 + i) * 16 + j) * 16 + k, rest)
    | _, _, _, _ => .error .malformed
  | s => .error (if 4 ≤ s.foldr (fun c n => c.utf8Size + n) 0 then .malformed else .ended)

def isLeading (n : Nat) : Bool := 0xd800 ≤ n && n ≤ 0xdbff

def isTrailing (n : Nat) : Bool := 0xdc00 ≤ n && n ≤ 0xdfff

def unicodeEscape (s : List Char) : Except Fault (Char × List Char) :=
  match hexUnit s with
  | .error e => .error e
  | .ok (n, rest) =>
    if isTrailing n then .error .malformed
    else if isLeading n then
      match rest with
      | [] | ['\\'] => .error .ended
      | '\\' :: 'u' :: rest' =>
        match hexUnit rest' with
        | .error e => .error e
        | .ok (m, rest'') =>
          if isTrailing m then
            .ok (Char.ofNat (0x10000 + (n - 0xd800) * 0x400 + (m - 0xdc00)), rest'')
          else .error .malformed
      | _ => .error .malformed
    else .ok (Char.ofNat n, rest)

def escape : Reader Char
  | [] => .error .ended
  | 'u' :: rest => unicodeEscape rest
  | c :: rest => match shortEscape? c with
    | some e => .ok (e, rest)
    | none => .error .malformed

theorem hexUnit_shorter {s rest : List Char} {n : Nat} (h : hexUnit s = .ok (n, rest)) :
    rest.length < s.length := by
  unfold hexUnit at h
  split at h
  · split at h <;> simp at h
    simp [← h.2]; omega
  · simp at h

theorem unicodeEscape_shorter {s rest : List Char} {c : Char}
    (h : unicodeEscape s = .ok (c, rest)) : rest.length < s.length := by
  unfold unicodeEscape at h
  split at h
  · simp at h
  · rename_i hn
    have h1 := hexUnit_shorter hn
    split at h
    · simp at h
    split at h
    · split at h
      · simp at h
      · simp at h
      · split at h
        · simp at h
        · rename_i hm
          have h2 := hexUnit_shorter hm
          split at h <;> simp at h
          obtain ⟨_, rfl⟩ := h
          simp at h1
          omega
      · simp at h
    · simp at h
      obtain ⟨_, rfl⟩ := h
      exact h1

theorem escape_shorter {s rest : List Char} {c : Char} (h : escape s = .ok (c, rest)) :
    rest.length < s.length := by
  unfold escape at h
  split at h
  · simp at h
  · have := unicodeEscape_shorter h
    simp
    omega
  · split at h <;> simp at h
    simp [h.2]

def stringRest (s : List Char) : Except Fault (List Char × List Char) :=
  match s with
  | [] => .error .ended
  | '"' :: rest => .ok ([], rest)
  | '\\' :: rest =>
    match _h : escape rest with
    | .error e => .error e
    | .ok (c, rest') => (stringRest rest').map fun p => (c :: p.1, p.2)
  | c :: rest =>
    if isControl c then .error .malformed else (stringRest rest).map fun p => (c :: p.1, p.2)
termination_by s.length
decreasing_by
  · have := escape_shorter _h
    simp
    omega
  · simp

/-- The end of a string that is only passed over: escapes must have their form, but surrogates need
no partner. -/
def skipStringRest : Reader Unit
  | [] => .error .ended
  | '"' :: rest => .ok ((), rest)
  | '\\' :: 'u' :: rest =>
    match rest with
    | a :: b :: c :: d :: rest' =>
      match hexUnit [a, b, c, d] with
      | .error e => .error e
      | .ok _ => skipStringRest rest'
    | _ => (hexUnit rest).map fun _ => ((), [])
  | '\\' :: c :: rest => if (shortEscape? c).isSome then skipStringRest rest else .error .malformed
  | ['\\'] => .error .ended
  | c :: rest => if isControl c then .error .malformed else skipStringRest rest

structure Numeral where
  whole : List Char
  fraction : List Char := []
  exponent : Option (Bool × List Char) := none
  deriving DecidableEq

def isDigit (c : Char) : Bool := (Text.decimalDigit? c).isSome

/-- One or more digits; `atEnd` is the fault of a text that ends before the first. -/
def digits (atEnd : Fault) : Reader (List Char)
  | [] => .error atEnd
  | c :: s =>
    if isDigit c then .ok (c :: s.takeWhile isDigit, s.dropWhile isDigit) else .error .malformed

def exponentPart (atEnd : Fault) : Reader (Option (Bool × List Char))
  | 'e' :: s | 'E' :: s =>
    let (positive, s') := match s with
      | '+' :: s' => (true, s')
      | '-' :: s' => (false, s')
      | _ => (true, s)
    (digits atEnd s').map fun p => (some (positive, p.1), p.2)
  | s => .ok (none, s)

def fractionPart (atEnd : Fault) : Reader (List Char)
  | '.' :: s => digits atEnd s
  | s => .ok ([], s)

def numeral (atEnd : Fault) : Reader Numeral := fun s => do
  let (whole, rest) ← digits atEnd s
  if whole.head? = some '0' ∧ whole.length ≠ 1 then throw .malformed
  let (fraction, rest) ← fractionPart atEnd rest
  let (exponent, rest) ← exponentPart atEnd rest
  return (⟨whole, fraction, exponent⟩, rest)

/-- The nearest number with 53 significant bits; of two equally near ones the even one. -/
def nearestDouble (n : Nat) : Nat :=
  if n < Nat.pow 2 53 then n
  else
    let unit := Nat.pow 2 (n.log2 - 52)
    let below := n / unit
    let up := unit < 2 * (n % unit) ∨ (unit = 2 * (n % unit) ∧ below % 2 = 1)
    (if up then below + 1 else below) * unit

/-- The digits of a number as far as they fit a word, and the power of ten to scale them by. -/
def Numeral.scaled (x : Numeral) : Nat × Int :=
  let take (step : Bool → Int) (start : Nat × Int) (ds : List Char) : Nat × Int :=
    let (n, e, _) := ds.foldl (fun (n, e, full) c =>
      let m := 10 * n + (Text.decimalDigit? c).getD 0
      if full ∨ Text.wordSize ≤ m then (n, e + step true, true) else (m, e + step false, false))
      (start.1, start.2, false)
    (n, e)
  let whole := take (fun skipped => if skipped then 1 else 0) (0, 0) x.whole
  let (n, e) := take (fun skipped => if skipped then 0 else -1) whole x.fraction
  match x.exponent with
  | none => (n, e)
  | some (positive, ds) =>
    let power : Int := (Text.digitsValue? ds).getD 0
    (n, if positive then e + power else e - power)

def Numeral.overflows (x : Numeral) : Bool :=
  let (n, e) := x.scaled
  if n = 0 ∨ e < 0 then false
  else if 308 < e then true
  else decide (Nat.pow 2 1024 - Nat.pow 2 970 ≤
    nearestDouble n * nearestDouble (Nat.pow 10 e.toNat))

def Numeral.word? (x : Numeral) : Option Nat :=
  if x.fraction.isEmpty ∧ x.exponent.isNone then Text.unsigned? Text.wordSize x.whole else none

def finiteNumeral : Reader Numeral := fun s => do
  let (x, rest) ← numeral .ended s
  if x.word?.isNone ∧ x.overflows then throw .malformed
  return (x, rest)

end StreamRelay.Json
