import SpanTags.Proofs.Service.Preview
import SpanTags.Proofs.Settings.Rules

namespace SpanTags

-- The settings with other rules for one direction.
def Settings.withRules (settings : Settings) (rules : Option Text) : Direction → Settings
  | .request => { settings with request := rules }
  | .response => { settings with response := rules }

-- The settings that a preview speaks of: with the rules that it brings, checked like all rules.
def Preview.chosen (preview : Preview) (settings : Settings) : Except Field.Issue Settings :=
  match preview.rules with
  | none => .ok settings
  | some source => do
    let rules ← Settings.rulesField (some (.scalar (.text source)))
    return settings.withRules rules preview.direction

section Settings

variable {source : Text} {set : RuleSet} {settings : Settings} {tracer : Tracer} {app : App}

end Settings

namespace App

variable {app : App}

variable {settings : Settings} {tracer : Tracer} {preview : Preview} {rules : RuleSet}

end App

end SpanTags
