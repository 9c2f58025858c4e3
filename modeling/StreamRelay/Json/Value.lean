import StreamRelay.Json.Lexeme

/-!
# JSON values

Values as trees, written compactly with the fewest escapes, and read back. Reading bounds the
nesting and refuses numbers that no double can hold; of equal keys all are kept.
-/

namespace StreamRelay.Json

/-- A number: a word, or any other number as it was written. -/
inductive Number
  | word (n : Nat)
  | written (literal : List Char)
  deriving DecidableEq

inductive Value
  | null
  | bool (b : Bool)
  | number (n : Number)
  | string (s : String)
  | list (items : List Value)
  | object (members : List (String × Value))

namespace Value

instance : Inhabited Value := ⟨.null⟩

def nat (n : Nat) : Value := .number (.word n)

def escaped (c : Char) : List Char :=
  match c with
  | '"' => ['\\', '"']
  | '\\' => ['\\', '\\']
  | '\x08' => ['\\', 'b']
  | '\x0c' => ['\\', 'f']
  | '\n' => ['\\', 'n']
  | '\r' => ['\\', 'r']
  | '\t' => ['\\', 't']
  | _ =>
    if isControl c then
      ['\\', 'u', '0', '0', Text.hexDigit (c.toNat / 16), Text.hexDigit (c.toNat % 16)]
    else [c]

def quote (s : String) : List Char := '"' :: s.toList.flatMap escaped ++ ['"']

def Number.chars : Number → List Char
  | .word n => Nat.toDigits 10 n
  | .written literal => literal

mutual

def chars : Value → List Char
  | .null => "null".toList
  | .bool b => (if b then "true" else "false").toList
  | .number n => Number.chars n
  | .string s => quote s
  | .list items => '[' :: itemChars items ++ [']']
  | .object members => '{' :: memberChars members ++ ['}']

def itemChars : List Value → List Char
  | [] => []
  | [v] => v.chars
  | v :: vs => v.chars ++ ',' :: itemChars vs

def memberChars : List (String × Value) → List Char
  | [] => []
  | [(k, v)] => quote k ++ ':' :: v.chars
  | (k, v) :: ms => quote k ++ ':' :: v.chars ++ ',' :: memberChars ms

end

def render (v : Value) : String := String.ofList v.chars

def maxDepth : Nat := 127

def readNumber (sign : List Char) : Reader Value := fun s => do
  let (x, rest) ← finiteNumeral s
  match sign, x.word? with
  | [], some n => .ok (nat n, rest)
  | _, _ => .ok (.number (.written (sign ++ s.take (s.length - rest.length))), rest)

mutual

def read (depth : Nat) : (bound : Nat) → Reader Value
  | 0, _ => .error .ended
  | bound + 1, s =>
    match skipSpace s with
    | [] => .error .ended
    | 'n' :: s => (keyword "ull".toList s).map fun p => (.null, p.2)
    | 't' :: s => (keyword "rue".toList s).map fun p => (.bool true, p.2)
    | 'f' :: s => (keyword "alse".toList s).map fun p => (.bool false, p.2)
    | '"' :: s => (stringRest s).map fun p => (.string (String.ofList p.1), p.2)
    | '-' :: s => readNumber ['-'] s
    | '[' :: s =>
      if depth = 0 then .error .malformed
      else (readItems (depth - 1) bound true s).map fun p => (.list p.1, p.2)
    | '{' :: s =>
      if depth = 0 then .error .malformed
      else (readMembers (depth - 1) bound true s).map fun p => (.object p.1, p.2)
    | c :: s => if isDigit c then readNumber [] (c :: s) else .error .malformed

def readItems (depth : Nat) : (bound : Nat) → (first : Bool) → Reader (List Value)
  | 0, _, _ => .error .ended
  | bound + 1, first, s =>
    match skipSpace s with
    | [] => .error .ended
    | ']' :: rest => .ok ([], rest)
    | c :: rest => do
      let start ← if first then pure (c :: rest)
        else if c = ',' then pure rest else throw .malformed
      let (v, rest) ← read depth bound start
      let (vs, rest) ← readItems depth bound false rest
      return (v :: vs, rest)

def readMembers (depth : Nat) : (bound : Nat) → (first : Bool) → Reader (List (String × Value))
  | 0, _, _ => .error .ended
  | bound + 1, first, s =>
    match skipSpace s with
    | [] => .error .ended
    | '}' :: rest => .ok ([], rest)
    | c :: rest => do
      let start ← if first then pure (c :: rest)
        else if c = ',' then pure (skipSpace rest) else throw .malformed
      match start with
      | [] => .error .ended
      | '"' :: rest => do
        let (key, rest) ← stringRest rest
        match skipSpace rest with
        | [] => .error .ended
        | ':' :: rest => do
          let (v, rest) ← read depth bound rest
          let (ms, rest) ← readMembers depth bound false rest
          return ((String.ofList key, v) :: ms, rest)
        | _ => .error .malformed
      | _ => .error .malformed

end

def ofText (text : String) : Except Fault Value := do
  let s := text.toList
  let (v, rest) ← read maxDepth (2 * s.length + 2) s
  if (skipSpace rest).isEmpty then .ok v else .error .malformed

end Value

end StreamRelay.Json
