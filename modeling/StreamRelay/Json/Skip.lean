import StreamRelay.Json.Lexeme

/-!
# Passing over values

A value that nobody asks for must still be JSON, nested to any depth. The brackets still open are
kept in a list, so the depth costs nothing; numbers are not evaluated and surrogates not paired.
-/

namespace StreamRelay.Json

inductive Bracket
  | list
  | object
  deriving DecidableEq

def Bracket.closing : Bracket → Char
  | .list => ']'
  | .object => '}'

/-- What may stand at a place: a value, the first entry or the end of what was just opened, or
whatever follows a value. -/
inductive Place
  | value
  | opened
  | after
  deriving DecidableEq

def skipKey (s : List Char) : Except Fault (List Char) :=
  match skipSpace s with
  | [] => .error .ended
  | '"' :: rest => do
    let (_, rest) ← skipStringRest rest
    match skipSpace rest with
    | [] => .error .ended
    | ':' :: rest => .ok rest
    | _ => .error .malformed
  | _ => .error .malformed

def skipStart : Reader (Option Bracket)
  | [] => .error .ended
  | '[' :: s => .ok (some .list, s)
  | '{' :: s => .ok (some .object, s)
  | '"' :: s => (skipStringRest s).map fun p => (none, p.2)
  | '-' :: s => (numeral .malformed s).map fun p => (none, p.2)
  | 'n' :: s => (keyword "ull".toList s).map fun p => (none, p.2)
  | 't' :: s => (keyword "rue".toList s).map fun p => (none, p.2)
  | 'f' :: s => (keyword "alse".toList s).map fun p => (none, p.2)
  | c :: s =>
    if isDigit c then (numeral .malformed (c :: s)).map fun p => (none, p.2) else .error .malformed

/-- Pass over the rest of a value. `brackets` are those still open, the innermost first. -/
def skipFrom : (bound : Nat) → Place → (brackets : List Bracket) → List Char →
    Except Fault (List Char)
  | _, .after, [], s => .ok s
  | 0, _, _, _ => .error .ended
  | bound + 1, .value, brackets, s => do
    let (start, rest) ← skipStart (skipSpace s)
    match start with
    | none => skipFrom bound .after brackets rest
    | some b => skipFrom bound .opened (b :: brackets) rest
  | bound + 1, .opened, [], s => skipFrom bound .value [] s
  | bound + 1, .opened, b :: brackets, s =>
    match skipSpace s with
    | [] => .error .ended
    | c :: rest =>
      if c = b.closing then skipFrom bound .after brackets rest
      else match b with
        | .list => skipFrom bound .value (b :: brackets) (c :: rest)
        | .object => do skipFrom bound .value (b :: brackets) (← skipKey (c :: rest))
  | bound + 1, .after, b :: brackets, s =>
    match skipSpace s with
    | [] => .error .ended
    | c :: rest =>
      if c = b.closing then skipFrom bound .after brackets rest
      else if c = ',' then
        match b with
        | .list => skipFrom bound .value (b :: brackets) rest
        | .object => do skipFrom bound .value (b :: brackets) (← skipKey rest)
      else .error .malformed

def skipValue : Reader Unit := fun s =>
  (skipFrom (2 * s.length + 2) .value [] s).map fun rest => ((), rest)

end StreamRelay.Json
