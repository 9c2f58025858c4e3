import StreamRelay.Output
import StreamRelay.Settings

/-!
# Version

The version of the program and, in the extended form, what it was built for and its defaults.
-/

namespace StreamRelay.Command.Version

open CommandLine (VersionOptions)

def programName : String := "ringbridge"

def programVersion : String := "0.1.0"

def build : List (String × String) :=
  [("name", programName), ("version", programVersion), ("target_os", "linux"),
    ("target_arch", "x86_64"), ("rustc", "unknown"), ("git_hash", "unknown")]

def defaults : String :=
  let settings : Settings := {}
  s!"listen={settings.listen} collector={settings.collector} max_frame={settings.maxFrame}"

def print (o : VersionOptions) : Bytes :=
  if o.extended then
    (build ++ [("defaults", defaults)]).flatMap fun (key, value) => Bytes.line s!"{key}: {value}"
  else Bytes.line s!"{programName} {programVersion}"

end StreamRelay.Command.Version
