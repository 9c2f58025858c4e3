import StreamRelay.Json.Skip

/-!
# Typed reading

Readers for the shapes that settings have: words, texts, names of a choice, and records. A record is
an object with known keys, each at most once, or a list of its fields in order; what is missing
keeps its default, and members with other keys are passed over.
-/

namespace StreamRelay.Json

/-- The fault of a value of the wrong type: it is still read as far as needed to tell that it is a
value. The text does not begin with a blank. -/
def wrongType : List Char → Fault
  | [] => .ended
  | '[' :: _ | '{' :: _ => .mismatch
  | '"' :: s => faultOf (stringRest s)
  | '-' :: s => faultOf (finiteNumeral s)
  | 'n' :: s => faultOf (keyword "ull".toList s)
  | 't' :: s => faultOf (keyword "rue".toList s)
  | 'f' :: s => faultOf (keyword "alse".toList s)
  | c :: s => if isDigit c then faultOf (finiteNumeral (c :: s)) else .malformed
where
  faultOf {α : Type} : Except Fault α → Fault
    | .error e => e
    | .ok _ => .mismatch

def word : Reader Nat := fun s =>
  match skipSpace s with
  | [] => .error .ended
  | c :: s =>
    if isDigit c then do
      let (x, rest) ← finiteNumeral (c :: s)
      match x.word? with
      | some n => .ok (n, rest)
      | none => .error .mismatch
    else .error (wrongType (c :: s))

def string : Reader String := fun s =>
  match skipSpace s with
  | '"' :: rest => (stringRest rest).map fun p => (String.ofList p.1, p.2)
  | s => .error (wrongType s)

def parsed {α : Type} (parse : String → Option α) : Reader α := fun s => do
  let (t, rest) ← string s
  match parse t with
  | some a => .ok (a, rest)
  | none => .error .mismatch

def colon : Reader Unit := fun s =>
  match skipSpace s with
  | [] => .error .ended
  | ':' :: rest => .ok ((), rest)
  | _ => .error .malformed

def null : Reader Unit := fun s =>
  match skipSpace s with
  | 'n' :: rest => keyword "ull".toList rest
  | s => .error (wrongType s)

/-- One of some names, as a string or as the only key of an object whose value is null. -/
def choice {α : Type} (names : List (String × α)) : Reader α := fun s =>
  let name : Reader α := parsed fun t => names.lookup t
  match skipSpace s with
  | [] => .error .ended
  | '"' :: rest => name ('"' :: rest)
  | '{' :: rest =>
    match skipSpace rest with
    | [] => .error .ended
    | '"' :: rest => do
      let (a, rest) ← name ('"' :: rest)
      let (_, rest) ← colon rest
      let (_, rest) ← null rest
      match skipSpace rest with
      | [] => .error .ended
      | '}' :: rest => .ok (a, rest)
      | _ => .error .malformed
    | _ => .error .malformed
  | _ => .error .malformed

structure Field (ρ : Type) where
  key : String
  read : Reader (ρ → ρ)

def Field.of {ρ α : Type} (key : String) (read : Reader α) (set : α → ρ → ρ) : Field ρ where
  key := key
  read s := (read s).map fun p => (set p.1, p.2)

section

variable {ρ : Type}

/-- The members of an object behind its opening brace or behind a member, up to the closing brace.
`seen` are the known keys so far; `first` says that none has been read yet. -/
def members (fields : List (Field ρ)) : (bound : Nat) → (first : Bool) → (seen : List String) →
    ρ → Reader ρ
  | 0, _, _, _, _ => .error .ended
  | bound + 1, first, seen, r, s =>
    match skipSpace s with
    | [] => .error .ended
    | '}' :: rest => .ok (r, rest)
    | c :: rest => do
      let start ← if first then pure (c :: rest)
        else if c = ',' then pure (skipSpace rest) else throw .malformed
      match start with
      | [] => .error .ended
      | '"' :: rest => do
        let (key, rest) ← stringRest rest
        let key := String.ofList key
        match fields.find? (·.key = key) with
        | none => do
          let (_, rest) ← colon rest
          let (_, rest) ← skipValue rest
          members fields bound false seen r rest
        | some field => do
          if key ∈ seen then throw .mismatch
          let (_, rest) ← colon rest
          let (set, rest) ← field.read rest
          members fields bound false (key :: seen) (set r) rest
      | _ => .error .malformed

def closeList (r : ρ) : Reader ρ := fun s =>
  match skipSpace s with
  | [] => .error .ended
  | ']' :: rest => .ok (r, rest)
  | _ => .error .malformed

def elements : (fields : List (Field ρ)) → (first : Bool) → ρ → Reader ρ
  | [], _, r, s => closeList r s
  | field :: fields, first, r, s =>
    match skipSpace s with
    | [] => .error .ended
    | ']' :: rest => .ok (r, rest)
    | c :: rest => do
      let start ← if first then pure (c :: rest)
        else if c = ',' then pure (skipSpace rest) else throw .malformed
      match start with
      | [] => .error .ended
      | ']' :: _ => .error .malformed
      | _ => do
        let (set, rest) ← field.read start
        elements fields false (set r) rest

def record (fields : List (Field ρ)) (default : ρ) : Reader ρ := fun s =>
  match skipSpace s with
  | [] => .error .ended
  | '{' :: rest => members fields (rest.length + 1) true [] default rest
  | '[' :: rest => elements fields true default rest
  | s => .error (wrongType s)

end

def document {α : Type} (read : Reader α) (text : String) : Except Fault α := do
  let (a, rest) ← read text.toList
  if (skipSpace rest).isEmpty then .ok a else .error .malformed

end StreamRelay.Json
