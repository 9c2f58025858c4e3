import StreamRelay.Text.Blank
import StreamRelay.Text.Number
import StreamRelay.Text.Split

/-!
# Durations

A duration is written as a positive number of seconds, or of milliseconds with the unit `ms`; blanks
around it do not count. It is shown in milliseconds below one second and in seconds from there on.
-/

namespace StreamRelay

structure Duration where
  millis : Nat
  deriving DecidableEq, Repr

namespace Duration

inductive Fault
  | empty
  | notNumber (text : String)
  | zero
  deriving DecidableEq, Repr

def Fault.message : Fault → String
  | .empty => "duration must not be empty"
  | .notNumber text => s!"invalid duration value: {text}"
  | .zero => "duration must be greater than zero"

def splitUnit (s : List Char) : List Char × Nat :=
  match Text.dropEnd? ['m', 's'] s, Text.dropEnd? ['s'] s with
  | some number, _ => (number, 1)
  | none, some number => (number, 1000)
  | none, none => (s, 1000)

def ofTrimmed (s : List Char) : Except Fault Duration :=
  if s.isEmpty then .error .empty
  else
    let (number, unit) := splitUnit s
    match Text.unsigned? Text.wordSize number with
    | none => .error (.notNumber (String.ofList s))
    | some 0 => .error .zero
    | some n => .ok ⟨n * unit⟩

def ofText (s : String) : Except Fault Duration := ofTrimmed (Text.trim s.toList)

def decimals (thousandths : Nat) : List Char :=
  let digits := Nat.toDigits 10 (1000 + thousandths) |>.drop 1
  (digits.reverse.dropWhile (· = '0')).reverse

def text (d : Duration) : List Char :=
  if d.millis < 1000 then Nat.toDigits 10 d.millis ++ ['m', 's']
  else
    let fraction := decimals (d.millis % 1000)
    Nat.toDigits 10 (d.millis / 1000)
      ++ (if fraction.isEmpty then [] else '.' :: fraction) ++ ['s']

instance : ToString Duration := ⟨fun d => String.ofList d.text⟩

end Duration

end StreamRelay
