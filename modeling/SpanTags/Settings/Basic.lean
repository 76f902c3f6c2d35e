import SpanTags.Field
import SpanTags.Rule.RuleSet
import SpanTags.Log.Basic
import SpanTags.Tag.Walk

namespace SpanTags

-- What is tagged and how much of it. Without rules a direction is not tagged at all.
structure Settings where
  request : Option Text
  response : Option Text
  maxDepth : Int
  maxTags : Int
  logLevel : Level

namespace Settings

def levels : List (Text × Level) :=
  [Level.debug, .info, .warning, .error].map fun level => (level.name, level)

-- Rules are stored without the blanks around them, once they are known to be well formed.
def checkRules (given : Option Text) : Except Field.Issue (Option Text) :=
  let rules := (given.getD []).strip
  if rules = [] then .ok none
  else match RuleSet.parse rules with
  | .ok _ => .ok (some rules)
  | .error fault => .error (.rules fault)

def rulesField : Option Given → Except Field.Issue (Option Text)
  | none => .ok none
  | some given => do checkRules (← Field.textOrNull given)

def integerField (default least most : Int) : Option Given → Except Field.Issue Int
  | none => .ok default
  | some given => Field.integerWithin least most given

def levelField : Option Given → Except Field.Issue Level
  | none => .ok .info
  | some given => Field.choice levels given

-- All issues are reported, in the order of the fields. Other names are passed over.
def validate (given : List (Text × Given)) : Except (List (Text × Field.Issue)) Settings :=
  let get (name : Text) := Ordered.get? name given
  let request := rulesField (get "request")
  let response := rulesField (get "response")
  let maxDepth := integerField Tag.defaultMaxDepth 1 100 (get "max_depth")
  let maxTags := integerField Tag.defaultMaxTags 2 10000 (get "max_tags")
  let logLevel := levelField (get "log_level")
  match request, response, maxDepth, maxTags, logLevel with
  | .ok request, .ok response, .ok maxDepth, .ok maxTags, .ok logLevel =>
    .ok { request, response, maxDepth, maxTags, logLevel }
  | _, _, _, _, _ =>
    .error (Field.issues "request" request ++ Field.issues "response" response ++
      Field.issues "max_depth" maxDepth ++ Field.issues "max_tags" maxTags ++
      Field.issues "log_level" logLevel)

def ruleSet? (rules : Option Text) : Except RuleFault (Option RuleSet) :=
  match rules with
  | none => .ok none
  | some source => some <$> RuleSet.parse source

def requestRules (settings : Settings) : Except RuleFault (Option RuleSet) :=
  ruleSet? settings.request

def responseRules (settings : Settings) : Except RuleFault (Option RuleSet) :=
  ruleSet? settings.response

def limits (settings : Settings) : Limits :=
  ⟨settings.maxDepth, settings.maxTags⟩

end Settings

end SpanTags
