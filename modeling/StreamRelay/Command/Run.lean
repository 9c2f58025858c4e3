import StreamRelay.Bridge
import StreamRelay.Exit
import StreamRelay.Files
import StreamRelay.Output

/-!
# Running a bridge

The settings are the defaults, changed by the settings file and then by the options. The region gets
the channels that the options name, each once however often it is named, and the links. The bridge
then runs until it is stopped.
-/

namespace StreamRelay

namespace Command

open CommandLine (RunOptions Format)

def duration (s : String) : Except Failure Duration :=
  (Duration.ofText s).mapError Failure.ofDuration

namespace Run

def settings (files : Files) (o : RunOptions) : Except Failure Settings := do
  let base : Settings ← match o.config with
    | none => pure {}
    | some path =>
      (Settings.ofFile path (files path)).mapError (Failure.ofBridge "config load failed")
  let interval ← match o.egressInterval with
    | none => pure base.egressInterval
    | some s => (duration s).map fun d => min d.millis (Text.wordSize - 1)
  let settings := { base with
    listen := o.listen.getD base.listen
    collector := o.collector.getD base.collector
    region.name := o.region.getD base.region.name
    region.size := o.regionSize.getD base.region.size
    trailing := o.trailing.getD base.trailing
    egressInterval := interval }
  settings.check.mapError (Failure.ofBridge "invalid configuration")
  return settings

def inputs (o : RunOptions) : List StreamId :=
  StreamId.ascending (o.input ++ o.loopback.map (·.1))

def outputs (o : RunOptions) : List StreamId :=
  StreamId.ascending (o.output ++ o.loopback.map (·.2))

def changes (context : String) :
    List (Region → Option (Except Region.Error Unit × Region)) → Region →
      Except Failure Unit × Region
  | [], r => (.ok (), r)
  | f :: fs, r =>
    match f r with
    | none => (.error Failure.panicked, r)
    | some (.error e, r) => (.error (Failure.ofRegion context e), r)
    | some (.ok (), r) => changes context fs r

def createChannels (o : RunOptions) (r : Region) : Except Failure Unit × Region :=
  let create (d : Direction) (ids : List StreamId) :=
    ids.map fun id (r : Region) => r.create ⟨id, d⟩
  match changes "channel setup failed"
    (create .input (inputs o) ++ create .output (outputs o)) r with
  | (.error e, r) => (.error e, r)
  | (.ok (), r) =>
    changes "loopback setup failed" (o.loopback.map fun l r => some (r.link l.1 l.2)) r

def openRegion (settings : Settings) : Except Failure Region :=
  (Region.ofConfig settings.region).mapError (Failure.ofRegion "region setup failed")

/-- Start a bridge. Gives the bridge, how long it is to run, and what is announced. -/
def start (files : Files) (host : Host) (o : RunOptions) (format : Format) :
    Except Failure (Bridge Region × Option Duration × Bytes) := do
  let settings ← Run.settings files o
  let runFor ← o.runFor.mapM duration
  let (answer, r) := createChannels o (← openRegion settings)
  answer
  let failed := Failure.ofBridge "bridge start failed"
  let host ← (host.openCollector settings.collector).mapError (failed <| .transport ·)
  let sink := DatagramSink.toAddress host settings.collector
  let (bridge, _) ← (Bridge.start host settings sink r).mapError failed
  let started : Output.Started := {
    listen := bridge.listen
    collector := sink.description
    region := settings.region.name
    channels := bridge.system.channels }
  return (bridge, runFor, started.print format)

def stop (bridge : Bridge Region) (format : Format) : Bytes :=
  let bridge := bridge.stop
  let stopped : Output.Stopped := ⟨bridge.stats, bridge.system.ledger⟩
  stopped.print format

end Run

end Command

end StreamRelay
