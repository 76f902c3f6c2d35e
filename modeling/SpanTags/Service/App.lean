import SpanTags.Tracing
import SpanTags.Settings.Load
import SpanTags.Service.Preview.Basic

namespace SpanTags

-- An application that tags what it serves. A direction without rules is not tagged.
structure App where
  request : Option RuleSet
  response : Option RuleSet
  limits : Limits
  tracer : Tracer

namespace App

def rules (app : App) : Direction → Option RuleSet
  | .request => app.request
  | .response => app.response

inductive Fault
  | settings (fault : Settings.LoadFault)
  | limit (fault : Tracing.LimitFault)
  | rules (fault : RuleFault)

-- What creating an application comes to: the session as it is left, the notes with the
-- thresholds at which they were made, and the application.
structure Creation where
  session : Session
  notes : List (Level × Note)
  outcome : Except Fault App

namespace Creation

def lines (creation : Creation) (clock : Clock) : Except RecordFault (List Text) :=
  Note.linesOf clock creation.notes

end Creation

def chooseSettings (surroundings : Surroundings) :
    Option Settings → Except Settings.LoadFault (Settings × List Note)
  | some settings => .ok (settings, [])
  | none => do
    let (settings, note) ← Settings.load surroundings none
    return (settings, [note])

-- The tracer that is given, or else that of the tracing, which is set up if need be.
def chooseTracer (surroundings : Surroundings) (maxTags : Int) (tracing : Option Tracing) :
    Option Tracer → Except Tracing.LimitFault (Option Tracing × Tracer × List Note)
  | some tracer => .ok (tracing, tracer, [])
  | none => do
    let (tracing, notes) ←
      Tracing.init surroundings.environment Tracing.defaultService maxTags tracing
    return (some tracing, .ofTracing tracing, notes)

def ofSettings (settings : Settings) (tracer : Tracer) : Except RuleFault App := do
  return {
    request := ← settings.requestRules
    response := ← settings.responseRules
    limits := settings.limits
    tracer }

-- Settings come first, then the threshold, the tracing and the rules. The threshold is
-- that of the settings from then on.
def create (surroundings : Surroundings) (settings : Option Settings) (tracer : Option Tracer)
    (session : Session) : Creation :=
  match chooseSettings surroundings settings with
  | .error fault => ⟨session, [], .error (.settings fault)⟩
  | .ok (settings, loaded) =>
    let notes := loaded.map (session.threshold, ·)
    let session := { session with threshold := settings.logLevel }
    match chooseTracer surroundings settings.maxTags session.tracing tracer with
    | .error fault => ⟨session, notes, .error (.limit fault)⟩
    | .ok (tracing, tracer, repeated) =>
      let notes := notes ++ repeated.map (session.threshold, ·)
      let session := { session with tracing }
      match ofSettings settings tracer with
      | .error fault => ⟨session, notes, .error (.rules fault)⟩
      | .ok app =>
        let created := Note.appCreated app.request.isSome app.response.isSome
        ⟨session, notes ++ [(session.threshold, created)], .ok app⟩

end App

end SpanTags
