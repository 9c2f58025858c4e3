import StreamRelay.Text.Number

/-!
# Options

An option changes a record that is filled in while a command line is read. It is a switch, takes a
value, or asks for a text about the program instead. Taking in a value may fail, and an option that
holds one value may be given only once.
-/

namespace StreamRelay.CommandLine

inductive Stop
  /-- A text about the program is asked for. -/
  | help
  | version
  /-- Nothing was given where a command is needed. -/
  | nothingGiven
  | missingCommand
  | unknownCommand
  | unknownArgument
  | missingOption
  /-- The value is missing, empty where it must not be, or not one of some words. -/
  | invalidValue
  /-- The value cannot be read. -/
  | unreadableValue
  /-- A value for an option that takes none. -/
  | needlessValue
  | conflict
  deriving DecidableEq, Repr

/-- The exit code; asking for a text is no failure. -/
def Stop.code : Stop → Nat
  | .help | .version => 0
  | _ => 2

structure Intake (ρ : Type) where
  /-- Whether the option adds to what was given before. -/
  repeatable : Bool := false
  read : String → Except Stop (ρ → ρ)

inductive Action (ρ : Type)
  | help
  | version
  | switch (set : ρ → ρ)
  | value (intake : Intake ρ)

structure Opt (ρ : Type) where
  name : String
  short : Option Char := none
  /-- The environment variable that stands in for the option. -/
  variableName : Option String := none
  action : Action ρ

namespace Opt

variable {ρ α : Type}

def single (name : String) (read : String → Except Stop α) (set : α → ρ → ρ)
    (short : Option Char := none) (variableName : Option String := none) : Opt ρ where
  name := name
  short := short
  variableName := variableName
  action := .value { read := fun s => (read s).map set }

def many (name : String) (read : String → Except Stop α) (set : α → ρ → ρ) : Opt ρ where
  name := name
  action := .value { repeatable := true, read := fun s => (read s).map set }

def takesValue (o : Opt ρ) : Bool :=
  match o.action with
  | .value _ => true
  | _ => false

def within {τ : Type} (modify : (ρ → ρ) → τ → τ) (o : Opt ρ) : Opt τ where
  name := o.name
  short := o.short
  variableName := o.variableName
  action := match o.action with
    | .help => .help
    | .version => .version
    | .switch set => .switch (modify set)
    | .value intake => .value { intake with read := fun s => (intake.read s).map modify }

end Opt

def anyText (s : String) : Except Stop String := .ok s

def path (s : String) : Except Stop String := if s.isEmpty then .error .invalidValue else .ok s

def size (s : String) : Except Stop Nat :=
  match Text.unsigned? Text.wordSize s.toList with
  | some n => .ok n
  | none => .error .unreadableValue

def word {α : Type} (words : List (String × α)) (s : String) : Except Stop α :=
  match words.lookup s with
  | some a => .ok a
  | none => .error .invalidValue

def readBy {α : Type} (parse : String → Option α) (s : String) : Except Stop α :=
  match parse s with
  | some a => .ok a
  | none => .error .unreadableValue

end StreamRelay.CommandLine
