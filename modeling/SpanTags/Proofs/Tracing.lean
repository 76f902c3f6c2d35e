import SpanTags.Proofs.Log.Writing
import SpanTags.Proofs.Session

namespace SpanTags

namespace Note

-- The warning that a budget is no longer taken, with its numbers as they are written.
def limitsLine (time applied requested : Text) : Text :=
  "\x7b" ++ Text.join ", " ["\"ts\": " ++ time, "\"level\": \"warning\"",
    "\"msg\": \"span_limits_already_set\"", "\"applied\": " ++ applied,
    "\"requested\": " ++ requested] ++ "\x7d\n"

theorem writeEntries_limits (time : Time) (applied requested : Int) :
    Json.writeEntries .line
        [("ts", .int time.stamp), ("level", .text "warning"),
          ("msg", .text "span_limits_already_set"), ("applied", .int applied),
          ("requested", .int requested)] = (do
      let a ← Json.writeInt applied
      let r ← Json.writeInt requested
      return ["\"ts\": " ++ Text.ofInt time.stamp, "\"level\": \"warning\"",
        "\"msg\": \"span_limits_already_set\"", "\"applied\": " ++ a, "\"requested\": " ++ r]) := by
  simp only [Json.writeEntries, Json.write_int, Json.write_text, Json.nameOf_ofText,
    Json.writeInt_stamp]
  cases Json.writeInt applied with
  | error fault => rfl
  | ok a =>
      cases Json.writeInt requested with
      | error fault => rfl
      | ok r => rfl

theorem line_limitsAlreadySet (time : Time) (applied requested : Int) :
    (limitsAlreadySet applied requested).record.line time = (do
      let a ← Json.writeInt applied
      let r ← Json.writeInt requested
      return limitsLine (Text.ofInt time.stamp) a r).mapError RecordFault.json := by
  have hsafe : Redaction.sanitize (.object (Ordered.putAll
        (limitsAlreadySet applied requested).record [("ts", .int time.stamp)])) =
      .ok (.dict [("ts", .int time.stamp), ("level", .text "warning"),
        ("msg", .text "span_limits_already_set"), ("applied", .int applied),
        ("requested", .int requested)]) := rfl
  simp only [Record.line, hsafe, Json.write, writeEntries_limits]
  cases Json.writeInt applied with
  | error fault => rfl
  | ok a =>
      cases Json.writeInt requested with
      | error fault => rfl
      | ok r =>
          refine congrArg Except.ok ?_
          rw [limitsLine, List.append_assoc]
          rfl

-- The warning is lost only if one of its numbers has too many digits.
theorem lines_limitsAlreadySet (time : Time) (threshold : Level) {applied requested : Int}
    (hlow : -11 ≤ applied) (hless : applied < requested) :
    (limitsAlreadySet applied requested).lines time threshold =
      if threshold.isWritten .warning = true then
        if requested.natAbs < 10 ^ digitLimit then
          .ok [limitsLine (Text.ofInt time.stamp) (Text.ofInt applied) (Text.ofInt requested)]
        else .error (.json (.number ⟨none⟩))
      else .ok [] := by
  have hwarning : (limitsAlreadySet applied requested).level = .warning := rfl
  have hlarge : 11 < 10 ^ digitLimit := by decide +kernel
  rw [lines, Record.lines, level_record, hwarning, line_limitsAlreadySet, Json.writeInt_eq_ite,
    Json.writeInt_eq_ite]
  generalize 10 ^ digitLimit = most at hlarge
  by_cases hwritten : threshold.isWritten .warning = true
  · rw [if_pos hwritten]
    by_cases hrequested : requested.natAbs < most
    · rw [if_pos hrequested, if_pos (show applied.natAbs < most by omega), if_pos hrequested]
      simp only [bind, Except.bind, if_pos hwritten]
      rfl
    · rw [if_neg hrequested, if_neg hrequested]
      split <;> (simp only [bind, Except.bind, if_pos hwritten]; rfl)
  · rw [if_neg hwritten]
    simp only [bind, Except.bind, if_neg hwritten]
    rfl

end Note

namespace Tracing

-- A request to set the tracing up, the environment that it meets, the time on the clock, and
-- the level from which on records are written then.
structure Request where
  environment : List (Text × Text)
  clock : Clock
  threshold : Level
  service : Text
  maxTags : Int

namespace Request

inductive Fault
  | limit (fault : LimitFault)
  | record (fault : RecordFault)

-- The tracing after a request, with the lines that are written or the fault it ends with.
abbrev Answer := Option Tracing × Except Fault (List Text)

def answer (request : Request) (tracing : Option Tracing) : Answer :=
  match init request.environment request.service request.maxTags tracing with
  | .error fault => (tracing, .error (.limit fault))
  | .ok (set, notes) =>
    (some set,
      (Session.write ⟨request.threshold, some set, .invalid⟩ request.clock notes).mapError .record)

def answers : Option Tracing → List Request → List Answer
  | _, [] => []
  | tracing, request :: rest =>
    request.answer tracing :: answers (request.answer tracing).1 rest

-- Fewer tags than these do not make a limit.
def isRefused (request : Request) : Bool :=
  request.maxTags < -11

-- What a request sets up if it is the first one that is not refused.
def tracing (request : Request) : Tracing where
  maxTags := request.maxTags
  service := if request.service.isEmpty then "unknown_service" else request.service
  endpoint :=
    (request.environment.lookup ("OTEL_EXPORTER_OTLP_ENDPOINT" : Text)).getD
      "http://localhost:4318" ++ "/v1/traces"
  spanLimit := if request.maxTags = -11 then none else some (3 * request.maxTags + 32).toNat

-- What comes of a request once there is a tracing.
def reply (request : Request) (tracing : Tracing) : Except Fault (List Text) :=
  if tracing.maxTags < request.maxTags ∧ request.threshold.isWritten .warning = true then
    if request.maxTags.natAbs < 10 ^ digitLimit then
      .ok [Note.limitsLine (Text.ofInt (request.clock 0).stamp) (Text.ofInt tracing.maxTags)
        (Text.ofInt request.maxTags)]
    else .error (.record (.json (.number ⟨none⟩)))
  else .ok []

variable {request : Request}

theorem answer_of_isRefused (h : request.isRefused = true) :
    request.answer none = (none, .error (.limit ⟨3 * request.maxTags + 32⟩)) := by
  have hlow : request.maxTags < -11 := of_decide_eq_true h
  have hlimit : spanLimit? (wantedLimit request.maxTags) = .error ⟨3 * request.maxTags + 32⟩ := by
    unfold spanLimit? wantedLimit
    rw [if_neg (by omega), if_pos (by omega)]
  simp only [answer, init, create, hlimit]
  rfl

theorem answer_of_not_isRefused (h : request.isRefused = false) :
    request.answer none = (some request.tracing, .ok []) := by
  have hlow : -11 ≤ request.maxTags := Int.not_lt.mp (of_decide_eq_false h)
  have hlimit : spanLimit? (wantedLimit request.maxTags) = .ok request.tracing.spanLimit := by
    unfold spanLimit? wantedLimit tracing
    by_cases hnone : request.maxTags = -11
    · rw [if_pos (by omega), if_pos hnone]
    · rw [if_neg (by omega), if_neg (by omega), if_neg hnone]
  simp only [answer, init, create, hlimit]
  rfl

theorem answer_some {tracing : Tracing} (hlow : -11 ≤ tracing.maxTags) :
    request.answer (some tracing) = (some tracing, request.reply tracing) := by
  unfold answer init reply
  dsimp only
  by_cases hless : tracing.maxTags < request.maxTags
  · rw [if_pos hless, Session.write_singleton, Note.lines_limitsAlreadySet _ _ hlow hless]
    dsimp only
    by_cases hwritten : request.threshold.isWritten .warning = true
    · have hboth : tracing.maxTags < request.maxTags ∧
          request.threshold.isWritten .warning = true := ⟨hless, hwritten⟩
      rw [if_pos hwritten, if_pos hboth]
      by_cases hfits : request.maxTags.natAbs < 10 ^ digitLimit
      · rw [if_pos hfits, if_pos hfits]
        rfl
      · rw [if_neg hfits, if_neg hfits]
        rfl
    · rw [if_neg hwritten, if_neg (fun h => hwritten h.2)]
      rfl
  · rw [if_neg hless, if_neg (fun h => hless h.1)]
    rfl

theorem answers_some {tracing : Tracing} (hlow : -11 ≤ tracing.maxTags)
    (requests : List Request) :
    answers (some tracing) requests =
      requests.map fun request => (some tracing, request.reply tracing) := by
  induction requests with
  | nil => rfl
  | cons request rest ih => rw [answers, answer_some hlow, ih, List.map_cons]

theorem spanLimit_tracing (h : request.isRefused = false) :
    request.maxTags = -11 ∧ request.tracing.spanLimit = none ∨
      ∃ limit : Nat, request.tracing.spanLimit = some limit ∧ limit = 3 * request.maxTags + 32 := by
  have hlow : -11 ≤ request.maxTags := Int.not_lt.mp (of_decide_eq_false h)
  unfold tracing
  by_cases hnone : request.maxTags = -11
  · exact .inl ⟨hnone, if_pos hnone⟩
  · exact .inr ⟨_, if_neg hnone, by omega⟩

-- Nothing is set up before the first request that is not refused, and afterwards there is
-- what that one asked for, whatever else is asked. Of later requests only those for more
-- tags are warned of, each of them by one line if warnings are written.
theorem answers_none (requests : List Request) :
    answers none requests =
        (requests.takeWhile isRefused).map
            (fun request => (none, .error (.limit ⟨3 * request.maxTags + 32⟩))) ++
          (match requests.dropWhile isRefused with
            | [] => []
            | first :: later =>
              (some first.tracing, .ok []) ::
                later.map fun request => (some first.tracing, request.reply first.tracing)) ∧
      ∀ answer ∈ answers none requests, ∀ tracing, answer.1 = some tracing →
        tracing.maxTags = -11 ∧ tracing.spanLimit = none ∨
          ∃ limit : Nat, tracing.spanLimit = some limit ∧ limit = 3 * tracing.maxTags + 32 := by
  induction requests with
  | nil => exact ⟨rfl, List.forall_mem_nil _⟩
  | cons request rest ih =>
      cases hrefused : request.isRefused with
      | true =>
          rw [answers, answer_of_isRefused hrefused, List.takeWhile_cons_of_pos hrefused,
            List.dropWhile_cons_of_pos hrefused, List.map_cons, List.cons_append, ← ih.1]
          exact ⟨rfl, List.forall_mem_cons.mpr ⟨nofun, ih.2⟩⟩
      | false =>
          have hlow : -11 ≤ request.tracing.maxTags := Int.not_lt.mp (of_decide_eq_false hrefused)
          have hnot : ¬ request.isRefused = true := ne_true_of_eq_false hrefused
          rw [answers, answer_of_not_isRefused hrefused, answers_some hlow,
            List.takeWhile_cons_of_neg hnot, List.dropWhile_cons_of_neg hnot]
          refine ⟨rfl, List.forall_mem_cons.mpr ⟨?_, List.forall_mem_map.mpr ?_⟩⟩
          · rintro tracing ⟨⟩
            exact spanLimit_tracing hrefused
          · rintro later - tracing ⟨⟩
            exact spanLimit_tracing hrefused

-- The budget whose limit is written like the sign for no limit, and one that is too long to
-- be written.
theorem answers_none_unlimited :
    let clock : Clock := fun _ => ⟨1700000000125⟩
    let first : Request := ⟨[], clock, .warning, "payload-tagger", -11⟩
    let later : Request := ⟨[], clock, .warning, "payload-tagger", (10 ^ digitLimit : Nat)⟩
    ∃ tracing, answers none [first, later] =
        [(some tracing, .ok []), (some tracing, .error (.record (.json (.number ⟨none⟩))))] ∧
      tracing.maxTags = -11 ∧ tracing.maxTags < later.maxTags ∧ tracing.spanLimit = none := by
  intro clock first later
  have hfirst : first.isRefused = false := by decide
  have hless : first.tracing.maxTags < later.maxTags :=
    Int.lt_of_lt_of_le (by decide) (Int.natCast_nonneg _)
  have hlong : ¬ later.maxTags.natAbs < 10 ^ digitLimit := by
    rw [Int.natAbs_natCast]
    exact Nat.lt_irrefl _
  have hreply : later.reply first.tracing = .error (.record (.json (.number ⟨none⟩))) := by
    rw [reply, if_pos ⟨hless, rfl⟩, if_neg hlong]
  refine ⟨first.tracing, ?_, rfl, hless, rfl⟩
  rw [answers, answer_of_not_isRefused hfirst, answers_some (Int.le_refl _), List.map_singleton,
    hreply]

end Request

end Tracing

end SpanTags
