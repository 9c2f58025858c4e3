import StreamRelay.CommandLine.Option
import StreamRelay.Text.Split

/-!
# Levels of a command line

A level is what stands in front of a command, or behind it. Words are read from left to right. The
value of an option in a word of its own is taken in only when the next option or the end of the
level comes, so a word that is out of place is found before a value that is wrong.
-/

namespace StreamRelay.CommandLine

inductive Word
  /-- Behind `--` no word is an option. -/
  | escape
  | long (name : String) (value : Option String)
  | short (letters : List Char)
  | plain
  deriving DecidableEq

def Word.of (s : String) : Word :=
  match s.toList with
  | ['-', '-'] => .escape
  | '-' :: '-' :: rest =>
    match Text.splitFirst? '=' rest with
    | some (name, value) => .long (String.ofList name) (some (String.ofList value))
    | none => .long (String.ofList rest) none
  | '-' :: c :: rest => .short (c :: rest)
  | _ => .plain

/-- An option whose value is still to be taken in, and this value once it was read. -/
structure Pending (ρ : Type) where
  name : String
  intake : Intake ρ
  value : Option String := none

structure Level (ρ : Type) where
  filled : ρ
  given : List String := []
  pending : Option (Pending ρ) := none

namespace Level

variable {ρ : Type}

def accept (l : Level ρ) (name : String) (intake : Intake ρ) (value : String) :
    Except Stop (Level ρ) :=
  if !intake.repeatable && l.given.contains name then .error .conflict
  else (intake.read value).map fun set =>
    { l with filled := set l.filled, given := name :: l.given }

def settle (l : Level ρ) : Except Stop (Level ρ) :=
  match l.pending with
  | none => .ok l
  | some p => match p.value with
    | none => .error .invalidValue
    | some value => { l with pending := none }.accept p.name p.intake value

def option (l : Level ρ) (o : Opt ρ) (attached : Option String) : Except Stop (Level ρ) :=
  match o.action, attached with
  | .value intake, some value => do (← l.settle).accept o.name intake value
  | .value intake, none => do return { ← l.settle with pending := some { name := o.name, intake } }
  | _, some _ => .error .needlessValue
  | .help, none => do
    let _ ← l.settle
    throw .help
  | .version, none => do
    let _ ← l.settle
    throw .version
  | .switch set, none => do
    let l ← l.settle
    if l.given.contains o.name then throw .conflict
    return { l with filled := set l.filled, given := o.name :: l.given }

def letters (options : List (Opt ρ)) (l : Level ρ) : List Char → Except Stop (Level ρ)
  | [] => .ok l
  | c :: rest =>
    match options.find? (·.short = some c) with
    | none => .error .unknownArgument
    | some o =>
      if o.takesValue then
        l.option o (match rest with
          | [] => none
          | '=' :: value => some (String.ofList value)
          | value => some (String.ofList value))
      else do letters options (← l.option o none) rest

def isWaiting (l : Level ρ) : Bool :=
  match l.pending with
  | some p => p.value.isNone
  | none => false

def supply? (l : Level ρ) (s : String) : Option (Level ρ) :=
  match l.pending with
  | some ⟨name, intake, none⟩ => some { l with pending := some ⟨name, intake, some s⟩ }
  | _ => none

/-- Read words up to the name of a command, which is returned with the words behind it. `stray`
tells what a word is that is neither, given whether it stands behind `--`. -/
def scan (options : List (Opt ρ)) (commands : List String) (stray : Bool → String → Stop) :
    (escaped : Bool) → Level ρ → List String →
      Except Stop (Level ρ × Option (String × List String))
  | _, l, [] => .ok (l, none)
  | true, _, w :: _ => .error (stray true w)
  | false, l, w :: ws =>
    if !l.isWaiting && commands.contains w then .ok (l, some (w, ws))
    else match Word.of w with
      | .escape => scan options commands stray true l ws
      | .long name value =>
        match options.find? (·.name = name) with
        | none => .error .unknownArgument
        | some o => do scan options commands stray false (← l.option o value) ws
      | .short cs => do scan options commands stray false (← l.letters options cs) ws
      | .plain =>
        match l.supply? w with
        | some l => scan options commands stray false l ws
        | none => .error (stray false w)

def fromEnvironment (environment : List (String × String)) :
    (options : List (Opt ρ)) → Level ρ → Except Stop (Level ρ)
  | [], l => .ok l
  | o :: os, l =>
    match o.action, o.variableName.bind (List.lookup · environment) with
    | .value intake, some value =>
      if l.given.contains o.name then fromEnvironment environment os l
      else do fromEnvironment environment os (← l.accept o.name intake value)
    | _, _ => fromEnvironment environment os l

end Level

structure Grammar (ρ : Type) where
  options : List (Opt ρ)
  default : ρ
  /-- Of these options only one may be given. -/
  exclusive : List String := []
  required : List String := []

def Grammar.read {ρ : Type} (g : Grammar ρ) (environment : List (String × String))
    (words : List String) : Except Stop ρ := do
  let stray := fun _ _ => Stop.unknownArgument
  let (l, _) ← Level.scan g.options [] stray false { filled := g.default } words
  let l ← (← l.settle).fromEnvironment environment g.options
  if 1 < (g.exclusive.filter l.given.contains).length then throw .conflict
  if !g.required.all l.given.contains then throw .missingOption
  return l.filled

end StreamRelay.CommandLine
