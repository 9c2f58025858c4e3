import StreamRelay.Command.Run
import StreamRelay.Proofs.Settings.Defaults

/-!
# Settings that options override

Options override the settings of a file or the defaults field by field. None of the fields that they
override is ever found invalid, so the check after them cannot fail: there are settings unless the
file cannot be loaded or the interval is no duration.
-/

namespace Except

variable {ε ε' α β : Type} {x : Except ε α}

end Except

namespace StreamRelay

namespace Settings

variable {s : Settings}

end Settings

namespace Command.Run
open CommandLine

variable {files : Files} {o : RunOptions} {base s : Settings}

/-- The interval of the options, at most the largest word, or else that of `base`. -/
def interval (o : RunOptions) (base : Settings) : Except Duration.Fault Nat :=
  match o.egressInterval with
  | none => .ok base.egressInterval
  | some text => (Duration.ofText text).map fun d => min d.millis (2 ^ 64 - 1)

/-- The settings that options override: the defaults, with those in their place that the named file
gives. The region has its own keys, and what it holds is valid. -/
inductive Loads (files : Files) (o : RunOptions) : Settings → Prop
  | defaults (hpath : o.config = none) : Loads files o {}
  | file {path text : String} {bytes : Bytes} {c : Settings} {inner outer : List String}
    (hpath : o.config = some path) (hbytes : files path = .ok bytes)
    (htext : bytes.text? = some text) (hgives : Settings.Gives text c inner outer)
    (hvalid : (Settings.overlay {} c inner outer).validate = .ok ()) :
    Loads files o (Settings.overlay {} c inner outer)

theorem Loads.validate (h : Loads files o base) : base.validate = .ok () := by
  cases h with
  | defaults _ => rfl
  | file _ _ _ _ hvalid => exact hvalid

end Command.Run

end StreamRelay
