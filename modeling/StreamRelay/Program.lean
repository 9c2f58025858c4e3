import StreamRelay.Command.Collect
import StreamRelay.Command.Forward
import StreamRelay.Command.Version

/-!
# The program

From the words of a command line to what is printed and the exit code. A command that waits, for the
time given to a bridge or for datagrams, is described by what it prints before and how it ends
after.
-/

namespace StreamRelay.Program

open CommandLine (Invocation Format Stop)

structure Ending where
  output : Bytes := []
  code : Nat := Exit.success
  error : Option String := none
  deriving DecidableEq

namespace Ending

/-- That the thread panicked is not told as the failure of a command. -/
def failed (f : Failure) (output : Bytes := []) : Ending where
  output := output
  code := f.code
  error := if f.code = Exit.panicked then none else some f.message

def of : Except Failure Bytes → Ending
  | .ok output => { output }
  | .error f => failed f

end Ending

inductive Activity
  | ended (e : Ending)
  /-- It prints something, waits for so many milliseconds or until it is stopped, and ends. -/
  | waiting (output : Bytes) (millis : Option Nat) (after : Ending)

def Activity.ending : Activity → Ending
  | .ended e => e
  | .waiting output _ e => { e with output := output ++ e.output }

structure World where
  environment : List (String × String) := []
  files : Files
  host : Host
  /-- What is received by a collector, before nothing more comes. -/
  receptions : List Command.Collect.Reception := []

/-- The format of results where none is asked for and the output is no terminal. -/
def defaultFormat : Format := .json

def usage : String := s!"Usage: {Command.Version.programName} [OPTIONS] <COMMAND>"

/-- How a command line ends that is not carried out. What is wrong with it is told apart from the
results, and not as the failure of a command. -/
def stopped (s : Stop) : Ending where
  output := match s with
    | .help => Bytes.line usage
    | .version => Command.Version.print {}
    | _ => []
  code := s.code

def perform (w : World) (i : Invocation) : Activity :=
  let format := i.general.format.getD defaultFormat
  match i.command with
  | .version o => .ended { output := Command.Version.print o }
  | .forward o => .ended (.of (Command.Forward.run w.files w.host {} o format).1)
  | .run o =>
    match Command.Run.start w.files w.host o format with
    | .error f => .ended (.failed f)
    | .ok (bridge, runFor, started) =>
      .waiting started (runFor.map (·.millis)) { output := Command.Run.stop bridge format }
  | .collect o =>
    match Command.Collect.listen w.host o with
    | .error f => .ended (.failed f)
    | .ok (idle, _, _) =>
      let silence := idle.toList.map fun limit => Command.Collect.Reception.silence limit.millis
      match Command.Collect.receive o idle format 0 (w.receptions ++ silence) with
      | (.ok (), output) => .waiting [] none { output }
      | (.error f, output) => .waiting [] (idle.map (·.millis)) (.failed f output)

def activity (w : World) (words : List String) : Activity :=
  match Invocation.ofWords w.environment words with
  | .error s => .ended (stopped s)
  | .ok i => perform w i

end StreamRelay.Program
