import SpanTags.Proofs.Json.Line
import SpanTags.Proofs.Log.Writing
import SpanTags.Proofs.Redaction.Sanitizing

namespace SpanTags

namespace Value

mutual

-- Payloads that differ at most in what stands under sensitive keys, at any depth.
inductive OpenlyAlike : Value → Value → Prop
  | scalar (s : Scalar) : OpenlyAlike (.scalar s) (.scalar s)
  | list {items items' : List Value} (h : OpenlyAlikeItems items items') :
      OpenlyAlike (.list items) (.list items')
  | tuple {items items' : List Value} (h : OpenlyAlikeItems items items') :
      OpenlyAlike (.tuple items) (.tuple items')
  | dict {entries entries' : List (Key × Value)} (h : OpenlyAlikeEntries entries entries') :
      OpenlyAlike (.dict entries) (.dict entries')

inductive OpenlyAlikeItems : List Value → List Value → Prop
  | nil : OpenlyAlikeItems [] []
  | cons {v w : Value} {items items' : List Value} (h : OpenlyAlike v w)
      (hrest : OpenlyAlikeItems items items') : OpenlyAlikeItems (v :: items) (w :: items')

inductive OpenlyAlikeEntries : List (Key × Value) → List (Key × Value) → Prop
  | nil : OpenlyAlikeEntries [] []
  | hidden {key : Key} (hkey : key.IsSensitive) (v w : Value)
      {entries entries' : List (Key × Value)} (hrest : OpenlyAlikeEntries entries entries') :
      OpenlyAlikeEntries ((key, v) :: entries) ((key, w) :: entries')
  | shown (key : Key) {v w : Value} (h : OpenlyAlike v w)
      {entries entries' : List (Key × Value)} (hrest : OpenlyAlikeEntries entries entries') :
      OpenlyAlikeEntries ((key, v) :: entries) ((key, w) :: entries')

end

mutual

-- What is no key of a table is told by the containers alone.
theorem OpenlyAlike.unhashable?_eq {v w : Value} (h : v.OpenlyAlike w) :
    v.unhashable? = w.unhashable? := by
  cases v with
  | tuple items =>
      cases h with
      | tuple h => exact h.unhashableIn?_eq
  | _ =>
      cases h
      rfl

theorem OpenlyAlikeItems.unhashableIn?_eq {items items' : List Value}
    (h : OpenlyAlikeItems items items') : unhashableIn? items = unhashableIn? items' := by
  cases items with
  | nil =>
      cases h
      rfl
  | cons v rest =>
      cases h with
      | cons h hrest => rw [unhashableIn?, unhashableIn?, h.unhashable?_eq, hrest.unhashableIn?_eq]

end

end Value

namespace Redaction

open Value

mutual

-- Sanitizing makes them the same, or fails on both alike.
theorem sanitize_eq_of_openlyAlike {v w : Value} (h : v.OpenlyAlike w) :
    sanitize v = sanitize w := by
  cases v with
  | scalar s =>
      cases h
      rfl
  | list items =>
      cases h with
      | list h => rw [sanitize, sanitize, sanitizeItems_eq_of_openlyAlike h]
  | tuple items =>
      cases h with
      | tuple h => rw [sanitize, sanitize, sanitizeItems_eq_of_openlyAlike h]
  | dict entries =>
      cases h with
      | dict h => rw [sanitize, sanitize, sanitizeEntries_eq_of_openlyAlike h]

theorem sanitizeItems_eq_of_openlyAlike {items items' : List Value}
    (h : OpenlyAlikeItems items items') : sanitizeItems items = sanitizeItems items' := by
  cases items with
  | nil =>
      cases h
      rfl
  | cons v rest =>
      cases h with
      | cons h hrest =>
          rw [sanitizeItems, sanitizeItems, sanitize_eq_of_openlyAlike h,
            sanitizeItems_eq_of_openlyAlike hrest]

theorem sanitizeEntries_eq_of_openlyAlike {entries entries' : List (Key × Value)}
    (h : OpenlyAlikeEntries entries entries') :
    sanitizeEntries entries = sanitizeEntries entries' := by
  match entries with
  | [] =>
      cases h
      rfl
  | (key, v) :: rest =>
      cases h with
      | hidden hkey v w hrest =>
          rw [sanitizeEntries, sanitizeEntries, isSensitive_eq_true_iff.mpr hkey,
            sanitizeEntries_eq_of_openlyAlike hrest]
          rfl
      | shown key h hrest =>
          rw [sanitizeEntries, sanitizeEntries, sanitize_eq_of_openlyAlike h,
            sanitizeEntries_eq_of_openlyAlike hrest]

end

end Redaction

namespace Record

variable {record record' : Record}

-- Values that may stand under a name in records that differ at most in secrets.
def EntryAlike (name : Text) (v w : Value) : Prop :=
  Key.IsSensitive (.ofText name) ∨ v.OpenlyAlike w

theorem openlyAlikeEntries_iff :
    Value.OpenlyAlikeEntries (record.map fun (name, v) => (Key.ofText name, v))
        (record'.map fun (name, v) => (Key.ofText name, v)) ↔
      Ordered.Related EntryAlike record record' := by
  constructor
  · intro h
    induction record generalizing record' with
    | nil =>
        cases record' with
        | nil => exact .nil
        | cons => cases h
    | cons entry rest ih =>
        cases record' with
        | nil => cases h
        | cons entry' rest' =>
            obtain ⟨name, v⟩ := entry
            obtain ⟨name', w⟩ := entry'
            cases h with
            | hidden hkey _ _ hrest => exact .cons ⟨rfl, .inl hkey⟩ (ih hrest)
            | shown _ h hrest => exact .cons ⟨rfl, .inr h⟩ (ih hrest)
  · intro h
    induction h with
    | nil => exact .nil
    | @cons entry entry' rest rest' hfirst _ ih =>
        obtain ⟨name, v⟩ := entry
        obtain ⟨name', w⟩ := entry'
        obtain ⟨rfl, hkey | hvalue⟩ := hfirst
        · exact .hidden hkey v w ih
        · exact .shown (.ofText name') hvalue ih

theorem openlyAlike_object_iff :
    (Value.object record).OpenlyAlike (.object record') ↔
      Ordered.Related EntryAlike record record' := by
  rw [← openlyAlikeEntries_iff]
  exact ⟨fun h => by cases h; assumption, .dict⟩

theorem level_eq_of_related (h : Ordered.Related EntryAlike record record') :
    record.level = record'.level := by
  have hopen : ¬ Key.IsSensitive "level" := by
    rw [← Redaction.isSensitive_eq_true_iff]
    decide
  rcases h.get? "level" with ⟨hnone, hnone'⟩ | ⟨v, w, hv, hw, halike⟩
  · simp only [level, hnone, hnone']
  · have halike := halike.resolve_left hopen
    simp only [level, hv, hw]
    cases halike with
    | scalar s => rfl
    | list h => rfl
    | tuple h =>
        dsimp only
        rw [(Value.OpenlyAlike.tuple h).unhashable?_eq]
    | dict h => rfl

theorem line_eq_of_related (time : Time) (h : Ordered.Related EntryAlike record record') :
    record.line time = record'.line time := by
  have hstart : Ordered.Related EntryAlike [("ts", .int time.stamp)] [("ts", .int time.stamp)] :=
    .cons ⟨rfl, .inr (.scalar _)⟩ .nil
  have hstamped := openlyAlike_object_iff.mpr (h.putAll hstart)
  simp only [line, Redaction.sanitize_eq_of_openlyAlike hstamped]

-- A line is ASCII without control characters up to the line feed that ends it.
theorem exists_body_of_line {time : Time} {written : Text} (h : record.line time = .ok written) :
    ∃ body : Text, written = body ++ "\n" ∧ body.IsVisible := by
  unfold line at h
  dsimp only at h
  split at h
  · contradiction
  · split at h
    · contradiction
    · rename_i body hbody
      exact ⟨body, (Except.ok.inj h).symm, Json.isVisible_write hbody⟩

theorem lines_cases {time : Time} {threshold : Level} {written : List Text}
    (h : record.lines time threshold = .ok written) :
    written = [] ∨ ∃ line, record.line time = .ok line ∧ written = [line] := by
  obtain ⟨level, -, h⟩ := exists_of_bind_eq_ok h
  split at h
  · obtain ⟨line, hline, h⟩ := exists_of_bind_eq_ok h
    exact .inr ⟨line, hline, (Except.ok.inj h).symm⟩
  · exact .inl (Except.ok.inj h).symm

-- What stands under sensitive keys shows neither in the line of a record nor in its fault,
-- and no record can write more than its own line.
theorem lines_eq_of_openlyAlike (time : Time) (threshold : Level) {record record' : Record}
    (h : (Value.object record).OpenlyAlike (.object record')) :
    record.lines time threshold = record'.lines time threshold ∧
      ∀ written, record.lines time threshold = .ok written →
        written = [] ∨ ∃ body : Text, written = [body ++ "\n"] ∧
          ∀ c ∈ body, 0x20 ≤ c.val ∧ c.val ≤ 0x7E := by
  have hrelated := openlyAlike_object_iff.mp h
  refine ⟨?_, fun written hwritten => ?_⟩
  · simp only [lines, level_eq_of_related hrelated, line_eq_of_related time hrelated]
  · refine (lines_cases hwritten).imp_right fun ⟨line, hline, heq⟩ => ?_
    obtain ⟨body, rfl, hbody⟩ := exists_body_of_line hline
    refine ⟨body, heq, fun c hc => ?_⟩
    simpa [CodePoint.within] using hbody c hc

-- A line feed and half of a surrogate pair in a text, and secrets of other sorts at two depths.
theorem lines_eq_of_openlyAlike_line_feed :
    let half : CodePoint := ⟨0xD800, by decide⟩
    let unnamed : Key := .scalar .null
    let time : Time := ⟨1700000000125⟩
    let record (one other : Value) : Record :=
      [("level", .text "error"), ("msg", .text ("a\n" ++ [half])), ("Token", one),
        ("items", .tuple [.dict [(unnamed, .float (.infinite true)), ("PASSWORD", other)]])]
    (Value.object (record (.text "s1") (.list [.bool true]))).OpenlyAlike
        (.object (record .null (.text "s2"))) ∧
      (record (.text "s1") (.list [.bool true])).lines time .info =
        (record .null (.text "s2")).lines time .info ∧
      (record .null (.text "s2")).lines time .info = .ok
        [Text.join ", " ["\x7b\"ts\": 1700000000125", "\"level\": \"error\"",
          "\"msg\": \"a\\n\\ud800\"", "\"Token\": \"redacted\"",
          "\"items\": [\x7b\"null\": -Infinity, \"PASSWORD\": \"redacted\"\x7d]\x7d\n"]] := by
  intro half unnamed time record
  have hsensitive : ∀ key ∈ (["Token", "PASSWORD"] : List Key), key.IsSensitive := by
    simp only [← Redaction.isSensitive_eq_true_iff, List.forall_mem_cons]
    decide
  have halike : (Value.object (record (.text "s1") (.list [.bool true]))).OpenlyAlike
      (.object (record .null (.text "s2"))) :=
    .dict <| .shown _ (.scalar _) <| .shown _ (.scalar _) <|
      .hidden (hsensitive _ (by simp)) _ _ <|
        .shown _ (.tuple <| .cons (.dict <| .shown _ (.scalar _) <|
          .hidden (hsensitive _ (by simp)) _ _ .nil) .nil) .nil
  exact ⟨halike, (lines_eq_of_openlyAlike time .info halike).1, by decide +kernel⟩

end Record

end SpanTags
