import Mend.Json
import Mend.Options

/-!
# Options as records

The record of the options of a run. A path stands as its text, and an option that was left out is null.
-/

namespace Mend

open Json (Value)

/-- The record of the options. An option without its argument is an empty list. -/
def Options.record (o : Options) : Value :=
  let given (s : Switch) (v : Value) : Value := if o.emptied.elem s then .list [] else v
  let path (s : Switch) (p : Option Path) : Value := given s (.textOrNull (p.map Path.text))
  .record [("diagnostics", path .diagnostics (some o.diagnostics)),
    ("config", path .config o.config), ("workspace", path .workspace o.workspace),
    ("docs", path .docs o.docs), ("dry_run", .bool o.dryRun),
    ("no_generator", .bool o.noGenerator), ("no_apply", .bool o.noApply),
    ("max_patches", given .maxPatches ((o.maxPatches.map Value.int).getD .null)),
    ("metrics_out", path .metricsOut o.metricsOut), ("debug", .bool o.debug),
    ("format", given .format (.textOrNull (o.format.map LogFormat.name)))]

end Mend
