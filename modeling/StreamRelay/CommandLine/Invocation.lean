import StreamRelay.CommandLine.Level
import StreamRelay.Frame
import StreamRelay.Net.Address
import StreamRelay.StreamId.Spelling

/-!
# Invocations

The commands of the program with their options, and the general options, which may stand in front of
a command and behind it; what stands behind wins.
-/

namespace StreamRelay.CommandLine

inductive Format
  | json
  | table
  | pretty
  | raw
  deriving DecidableEq, Repr

inductive LogFormat
  | text
  | json
  deriving DecidableEq, Repr

inductive LogLevel
  | error
  | warn
  | info
  | debug
  | trace
  deriving DecidableEq, Repr

structure General where
  format : Option Format := none
  logFormat : Option LogFormat := none
  logLevel : Option LogLevel := none
  deriving DecidableEq, Repr

def General.over (inner outer : General) : General where
  format := inner.format <|> outer.format
  logFormat := inner.logFormat <|> outer.logFormat
  logLevel := inner.logLevel <|> outer.logLevel

def General.options : List (Opt General) :=
  [.single "format"
      (word [("json", Format.json), ("table", .table), ("pretty", .pretty), ("raw", .raw)])
      fun v g => { g with format := some v },
    .single "log-format" (word [("text", LogFormat.text), ("json", .json)])
      fun v g => { g with logFormat := some v },
    .single "log-level"
      (word [("error", LogLevel.error), ("warn", .warn), ("info", .info), ("debug", .debug),
        ("trace", .trace)])
      fun v g => { g with logLevel := some v }]

def address : String → Except Stop SocketAddress :=
  readBy fun s => SocketAddress.ofText? s.toList

def streamId : String → Except Stop StreamId := readBy fun s => (StreamId.ofText s).toOption

def streamIds (s : String) : Except Stop (List StreamId) :=
  (Text.split ',' s.toList).mapM fun part => streamId (String.ofList part)

def link? (s : String) : Option (StreamId × StreamId) := do
  let (source, target) ← Text.splitFirst? '=' s.toList
  let source ← (StreamId.ofText (String.ofList source)).toOption
  let target ← (StreamId.ofText (String.ofList target)).toOption
  return (source, target)

def trailing : String → Except Stop Trailing :=
  word [(Trailing.name .reject, .reject), (Trailing.name .carryOver, .carryOver)]

structure RunOptions where
  config : Option String := none
  listen : Option SocketAddress := none
  collector : Option SocketAddress := none
  region : Option String := none
  regionSize : Option Nat := none
  trailing : Option Trailing := none
  egressInterval : Option String := none
  input : List StreamId := []
  output : List StreamId := []
  loopback : List (StreamId × StreamId) := []
  runFor : Option String := none
  deriving DecidableEq

def RunOptions.options : List (Opt RunOptions) :=
  [.single "config" path (fun v r => { r with config := some v }) none (some "RINGBRIDGE_CONFIG"),
    .single "listen" address (fun v r => { r with listen := some v }) none
      (some "RINGBRIDGE_LISTEN"),
    .single "collector" address (fun v r => { r with collector := some v }) none
      (some "RINGBRIDGE_COLLECTOR"),
    .single "region" anyText (fun v r => { r with region := some v }) none
      (some "RINGBRIDGE_REGION"),
    .single "region-size" size (fun v r => { r with regionSize := some v }) none
      (some "RINGBRIDGE_REGION_SIZE"),
    .single "trailing-bytes" CommandLine.trailing (fun v r => { r with trailing := some v }) none
      (some "RINGBRIDGE_TRAILING_BYTES"),
    .single "egress-interval" anyText fun v r => { r with egressInterval := some v },
    .many "input" streamIds fun v r => { r with input := r.input ++ v },
    .many "output" streamIds fun v r => { r with output := r.output ++ v },
    .many "loopback" (readBy link?) fun v r => { r with loopback := r.loopback ++ [v] },
    .single "run-for" anyText fun v r => { r with runFor := some v }]

inductive Payload
  | nothing
  | json (text : String)
  | data (text : String)
  | file (path : String)
  deriving DecidableEq, Repr

structure ForwardOptions where
  address : SocketAddress := .v4 (Ipv4.of 127 0 0 1) 20787
  stream : StreamId := StreamId.nil
  payload : Payload := .nothing
  maxFrame : Nat := Frame.defaultMaxFrame
  timeout : String := "5s"
  deriving DecidableEq

def ForwardOptions.options : List (Opt ForwardOptions) :=
  [.single "addr" CommandLine.address fun v r => { r with address := v },
    .single "stream-id" streamId (fun v r => { r with stream := v }) (some 's'),
    .single "json" anyText fun v r => { r with payload := .json v },
    .single "data" anyText fun v r => { r with payload := .data v },
    .single "file" path fun v r => { r with payload := .file v },
    .single "max-frame-size" size fun v r => { r with maxFrame := v },
    .single "timeout" anyText fun v r => { r with timeout := v }]

structure CollectOptions where
  bind : SocketAddress := .v4 (Ipv4.of 0 0 0 0) 20788
  /-- The streams whose messages are printed; without it all are. -/
  streams : Option (List StreamId) := none
  count : Option Nat := none
  idleTimeout : Option String := none
  deriving DecidableEq

def CollectOptions.options : List (Opt CollectOptions) :=
  [.single "bind" address fun v r => { r with bind := v },
    .many "streams" streamIds fun v r => { r with streams := some (r.streams.getD [] ++ v) },
    .single "count" size fun v r => { r with count := some v },
    .single "idle-timeout" anyText fun v r => { r with idleTimeout := some v }]

structure VersionOptions where
  extended : Bool := false
  deriving DecidableEq, Repr

def VersionOptions.options : List (Opt VersionOptions) :=
  [{ name := "extended", action := .switch fun _ => ⟨true⟩ }]

inductive Command
  | run (o : RunOptions)
  | forward (o : ForwardOptions)
  | collect (o : CollectOptions)
  | version (o : VersionOptions)
  deriving DecidableEq

structure Invocation where
  general : General
  command : Command
  deriving DecidableEq

def helpOption {ρ : Type} : Opt ρ := { name := "help", short := some 'h', action := .help }

def grammar {ρ : Type} (options : List (Opt ρ)) (default : ρ) (exclusive : List String := [])
    (required : List String := []) : Grammar (ρ × General) where
  options := options.map (.within fun f p => (f p.1, p.2))
    ++ General.options.map (.within fun f p => (p.1, f p.2)) ++ [helpOption]
  default := (default, {})
  exclusive := exclusive
  required := required

abbrev Behind := List (String × String) → List String → Except Stop (Command × General)

def behind {ρ : Type} (g : Grammar (ρ × General)) (command : ρ → Command) : Behind :=
  fun environment words => (g.read environment words).map fun p => (command p.1, p.2)

def commands : List (String × Behind) :=
  [("run", behind (grammar RunOptions.options {}) .run),
    ("forward", behind (grammar ForwardOptions.options {} ["json", "data", "file"] ["stream-id"])
      .forward),
    ("collect", behind (grammar CollectOptions.options {}) .collect),
    ("version", behind (grammar VersionOptions.options {}) .version)]

def commandNames : List String := commands.map (·.1) ++ ["help"]

def frontOptions : List (Opt General) :=
  General.options ++ [helpOption, { name := "version", short := some 'V', action := .version }]

def strayInFront (escaped : Bool) (word : String) : Stop :=
  if escaped && commandNames.contains word then .unknownArgument else .unknownCommand

def helpAbout : List String → Stop
  | [] => .help
  | [name] => if commandNames.contains name then .help else .unknownCommand
  | _ => .unknownCommand

def Invocation.ofWords (environment : List (String × String)) (words : List String) :
    Except Stop Invocation := do
  let (front, found) ←
    Level.scan frontOptions commandNames strayInFront false { filled := {} } words
  match found with
  | none =>
    let front ← front.settle
    throw (if front.given.isEmpty then .nothingGiven else .missingCommand)
  | some (name, rest) =>
    match commands.lookup name with
    | none => throw (helpAbout rest)
    | some read =>
      let (command, inner) ← read environment rest
      let front ← front.settle
      return ⟨inner.over front.filled, command⟩

end StreamRelay.CommandLine
