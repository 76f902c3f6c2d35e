import SpanTags.Proofs.Log.Writing
import SpanTags.Proofs.Number.Extent
import SpanTags.Proofs.Walk.Inclusion
import SpanTags.Proofs.Walk.TagSet

namespace SpanTags

section Extent

-- A whole number has an end even if it is the value of a double.
theorem Tag.length_floatText_le (x : Double) : (floatText x).length ≤ maxLength := by
  have htext : x.text.length ≤ maxLength := x.length_text_le.trans (by decide)
  unfold floatText
  split
  · rename_i n _
    by_cases hn : n.natAbs < wholeLimit
    · rw [if_pos hn]
      exact (Text.length_ofInt_le (by decide) hn).trans (by decide)
    · rw [if_neg hn]
      exact htext
  · exact htext

-- The digit limit leaves a whole number shorter than the longest text.
theorem Tag.length_leafText_le {key : Text} {s : Scalar} {text : Text}
    (h : leafText key s = .ok text) : text.length ≤ maxLength := by
  have hmark : Redaction.mark.length ≤ maxLength := by decide
  cases s with
  | null =>
      obtain rfl := Except.ok.inj h
      decide
  | bool b =>
      obtain rfl := Except.ok.inj h
      cases b <;> decide
  | int n =>
      have hwritten : writeWhole n = .ok text := h
      unfold writeWhole at hwritten
      split at hwritten
      · rename_i hn
        obtain rfl := Except.ok.inj hwritten
        exact (Text.length_ofInt_le (by decide) hn).trans (by decide)
      · cases hwritten
  | float x =>
      obtain rfl := Except.ok.inj h
      exact length_floatText_le x
  | text t =>
      obtain rfl := Except.ok.inj h
      split
      · exact hmark
      · exact List.length_take_le _ _
  | bytes b =>
      obtain rfl := Except.ok.inj h
      split
      · exact hmark
      · exact List.length_take_le _ _

end Extent

namespace Walk

variable {ε : Type} {root : Text} {walk later : Walk ε}

theorem Step.length_le (h : Step root walk later)
    (hwalk : ∀ emission ∈ walk.emissions, emission.2.length ≤ Tag.maxLength) :
    ∀ emission ∈ later.emissions, emission.2.length ≤ Tag.maxLength := by
  have hemit (path text : Text) (htext : text.length ≤ Tag.maxLength) :
      ∀ emission ∈ (walk.emit path (.ok text)).emissions, emission.2.length ≤ Tag.maxLength := by
    rw [emissions_emit_ok, List.forall_mem_append, List.forall_mem_singleton]
    exact ⟨hwalk, htext⟩
  cases h with
  | asked keys isLast => rwa [emissions_asked]
  | entered keys => rwa [emissions_entered]
  | leaf keys s hleft =>
      cases hleaf : Tag.leafText (Tag.ownKey root keys) s with
      | ok text => exact hemit _ text (Tag.length_leafText_le hleaf)
      | error fault => exact hwalk
  | truncated keys hleft => exact hemit _ Tag.truncated (by decide)
  | marked hleft => exact hwalk
  | failed fault => exact hwalk

-- Whatever is walked through, no text is longer than it may be.
theorem Steps.length_le {limits : Limits} (h : Steps root (start limits) walk) :
    ∀ emission ∈ walk.emissions, emission.2.length ≤ Tag.maxLength := by
  induction h with
  | refl => exact List.forall_mem_nil _
  | tail _ step ih => exact step.length_le ih

end Walk

-- The marker, or a text that is no longer than it may be.
def Tag.Bounded (tag : Text × TagValue) : Prop :=
  tag = (trimmedName, .marker) ∨ ∃ text, tag.2 = .text text ∧ text.length ≤ maxLength

theorem Tagging.bounded_ofValue {ε : Type} (mask : Mask ε) (limits : Limits) (root : Text)
    (v : Value) : ∀ tag ∈ (ofValue mask limits root v).tagSet, Tag.Bounded tag := by
  intro tag htag
  rcases tagSet_eq_nil_or (ofValue mask limits root v) with hnil | htags
  · rw [hnil] at htag
    contradiction
  · rw [htags] at htag
    rcases Walk.mem_tags_cases htag with hmarker | ⟨emission, hemission, rfl⟩
    · exact .inl hmarker
    · have hlength := (Walk.run_steps limits v).length_le emission hemission
      exact .inr ⟨emission.2, rfl, hlength⟩

theorem Value.Plain.value_of_mem_nodesAt {v : Value} (hv : v.Plain) :
    ∀ (way : List (Text × Value)), ∀ node ∈ nodesAt way v, node.value.Plain :=
  hv.forall_nodesAt (fun _ h => h.children) hv

-- A note for those who look closely, with no number in it but the limit for the tags.
def Note.IsDetail (maxTags : Int) (note : Note) : Prop :=
  note.level = .debug ∧ ∀ n ∈ note.numbers, n = maxTags

theorem Tagging.notes_ofValue {ε : Type} (mask : Mask ε) (limits : Limits) (root : Text)
    (v : Value) : ∀ note ∈ (ofValue mask limits root v).notes, note.IsDetail limits.maxTags := by
  unfold ofValue notesOf
  dsimp only
  split
  · split
    · rw [List.forall_mem_singleton]
      exact ⟨rfl, fun n hn => List.mem_singleton.mp hn⟩
    · exact List.forall_mem_nil _
  · exact List.forall_mem_nil _

-- The limit of trimmed tags shows in their record, if it has not too many digits.
theorem Note.lines_tagsTrimmed (time : Time) (root : Text) {maxTags : Int}
    (h : 10 ^ digitLimit ≤ maxTags.natAbs) :
    (tagsTrimmed root maxTags).lines time .debug = .error (.json (.number ⟨none⟩)) := by
  have hsafe : Redaction.sanitize (.object (Ordered.putAll (tagsTrimmed root maxTags).record
        [("ts", .int time.stamp)])) =
      .ok (.dict [("ts", .int time.stamp), ("level", .text "debug"),
        ("msg", .text "payload_tags_trimmed"), ("prefix", .text root),
        ("max_tags", .int maxTags)]) := rfl
  have hwrite : Json.writeInt maxTags = .error (.number ⟨none⟩) := by
    rw [Json.writeInt_eq_ite, if_neg (Nat.not_lt.mpr h)]
  have hline : (tagsTrimmed root maxTags).record.line time = .error (.json (.number ⟨none⟩)) := by
    simp only [Record.line, hsafe, Json.write, Json.writeEntries, Json.write_int, Json.write_text,
      Json.nameOf_ofText, Json.writeInt_stamp, hwrite]
    rfl
  rw [lines, Record.lines, level_record, hline]
  rfl

theorem Level.isWritten_debug_iff {threshold : Level} :
    threshold.isWritten .debug = true ↔ threshold = .debug := by
  cases threshold <;> decide

namespace Body

variable {ε : Type} {mask : Mask ε} {nestingLimit : Nat}

-- A body gives tags, if only none, whatever it and its content type are.
theorem exists_tags_tag (hmask : mask.Total) (limits : Limits) (root : Text)
    (body contentType : Value) :
    ∃ tags, (tag nestingLimit mask limits root body contentType).tags = .ok tags := by
  by_cases hjson : isJson contentType = true
  · cases hbody : decode nestingLimit body with
    | ok v => exact ⟨_, tags_tag hmask hjson hbody limits root⟩
    | error fault =>
        refine ⟨[], ?_⟩
        simp only [tag, hjson, if_true, hbody]
        rfl
  · refine ⟨[], ?_⟩
    simp only [tag, hjson]
    rfl

theorem notes_tag (nestingLimit : Nat) (mask : Mask ε) (limits : Limits) (root : Text)
    (body contentType : Value) :
    ∀ note ∈ (tag nestingLimit mask limits root body contentType).notes,
      note.IsDetail limits.maxTags := by
  unfold tag
  split
  · split
    · exact Tagging.notes_ofValue mask limits root _
    · rw [List.forall_mem_singleton]
      exact ⟨rfl, List.forall_mem_nil _⟩
  · exact List.forall_mem_nil _

theorem bounded_tag (nestingLimit : Nat) (mask : Mask ε) (limits : Limits) (root : Text)
    (body contentType : Value) :
    ∀ entry ∈ (tag nestingLimit mask limits root body contentType).tagSet,
      Tag.Bounded entry := by
  unfold tag
  split
  · split
    · exact Tagging.bounded_ofValue mask limits root _
    · exact List.forall_mem_nil _
  · exact List.forall_mem_nil _

-- Only where the marker's name is among the tags is there a note with a number in it.
theorem notes_tag_cases {limits : Limits} {root : Text} {body contentType : Value} {tags : Tags}
    (h : (tag nestingLimit mask limits root body contentType).tags = .ok tags) :
    Tag.trimmedName ∈ tags.map Prod.fst ∧
        (tag nestingLimit mask limits root body contentType).notes =
          [.tagsTrimmed root limits.maxTags] ∨
      Tag.trimmedName ∉ tags.map Prod.fst ∧
        ∀ note ∈ (tag nestingLimit mask limits root body contentType).notes,
          note.numbers = [] := by
  unfold tag at h ⊢
  split at h
  · split at h
    · rename_i v _
      have hresult : (Walk.run mask root limits v).result = .ok tags := h
      simp only [if_true, *, Tagging.ofValue, Tagging.notesOf, ← Ordered.has_eq_true_iff]
      by_cases hmarker : Ordered.has Tag.trimmedName tags = true
      · exact .inl ⟨hmarker, if_pos hmarker⟩
      · rw [if_neg hmarker]
        exact .inr ⟨hmarker, List.forall_mem_nil _⟩
    · obtain rfl : [] = tags := Except.ok.inj h
      simp only [if_true, *]
      exact .inr ⟨List.not_mem_nil, List.forall_mem_singleton.mpr rfl⟩
  · obtain rfl : [] = tags := Except.ok.inj h
    simp only [*]
    exact .inr ⟨List.not_mem_nil, List.forall_mem_nil _⟩

-- Whatever a body is, tagging it ends with tags whose texts are all bounded, and none of the
-- numbers that it is found to hold is too long to be shown. What is logged on the way can be
-- written, unless the debug record of trimmed tags is to show a limit of too many digits.
theorem tags_tag_bounded (nestingLimit : Nat) (set : RuleSet) (limits : Limits) (root : Text)
    (body contentType : Value) :
    ∃ tags, (tag nestingLimit set.mask limits root body contentType).tags = .ok tags ∧
      (tags.map Prod.fst).Nodup ∧
      (∀ entry ∈ tags, entry = (Tag.trimmedName, .marker) ∨
        ∃ text, entry.2 = .text text ∧ text.length ≤ 5000) ∧
      (∀ v, decode nestingLimit body = .ok v → ∀ node ∈ v.nodes, ∀ s, node.value = .scalar s →
        ∀ key, ∃ text, Tag.leafText key s = .ok text) ∧
      ∀ (session : Session) (clock : Clock),
        let written := session.write clock
          (tag nestingLimit set.mask limits root body contentType).notes
        if session.threshold = .debug ∧ Tag.trimmedName ∈ tags.map Prod.fst ∧
            10 ^ digitLimit ≤ limits.maxTags.natAbs then
          written = .error (.json (.number ⟨none⟩))
        else ∃ lines, written = .ok lines := by
  obtain ⟨tags, htags⟩ := exists_tags_tag set.mask_total limits root body contentType
  have hset : (tag nestingLimit set.mask limits root body contentType).tagSet = tags := by
    rw [Tagging.tagSet, htags]
  refine ⟨tags, htags, ?_, ?_, ?_, ?_⟩
  · rw [← hset]
    exact (tagSet_tag nestingLimit set.mask limits root body contentType).nodup
  · intro entry hentry
    rw [← hset] at hentry
    exact bounded_tag nestingLimit set.mask limits root body contentType entry hentry
  · intro v hbody node hn s hs key
    have hv : v.Plain := (Json.decoded_of_readBody hbody).plain
    have hplain : (Value.scalar s).Plain := hs ▸ hv.value_of_mem_nodesAt [] node hn
    exact ⟨_, Tag.leafText_of_isPlain (Value.plain_scalar_iff.mp hplain) key⟩
  · intro session clock
    dsimp only
    split_ifs with hlost
    · obtain ⟨hdebug, hmarker, hlong⟩ := hlost
      rcases notes_tag_cases htags with ⟨-, hnotes⟩ | ⟨hnone, -⟩
      · rw [hnotes, Session.write_singleton, hdebug]
        exact Note.lines_tagsTrimmed _ root hlong
      · exact absurd hmarker hnone
    · apply Session.exists_write
      intro note hnote hlevel n hn
      obtain ⟨hdetail, hnumbers⟩ := notes_tag _ _ _ _ _ _ note hnote
      rw [hdetail, Level.isWritten_debug_iff] at hlevel
      rcases notes_tag_cases htags with ⟨hmarker, -⟩ | ⟨-, hnone⟩
      · rw [hnumbers n hn]
        exact Nat.not_le.mp fun hlong => hlost ⟨hlevel, hmarker, hlong⟩
      · rw [hnone note hnote] at hn
        contradiction

-- A body with a tag too many, which is logged.
theorem tags_tag_bounded_trimmed :
    let set : RuleSet := ⟨["*"], [[.wildcard]]⟩
    let limits : Limits := ⟨10, 2⟩
    let session : Session := { Session.start with threshold := .debug }
    let clock : Clock := fun _ => ⟨1700000000125⟩
    let tagging := tag 990 set.mask limits "r" (.text "[1e400, null]") (.text "json")
    tagging.tags = .ok [("r.0", .text "inf"), (Tag.trimmedName, .marker)] ∧
      limits.maxTags.natAbs < 10 ^ digitLimit ∧
      ∃ lines, session.write clock tagging.notes = .ok lines := by
  intro set limits session clock tagging
  have hlimit : limits.maxTags.natAbs < 10 ^ digitLimit := by decide +kernel
  obtain ⟨tags, -, -, -, -, hwrite⟩ :=
    tags_tag_bounded 990 set limits "r" (.text "[1e400, null]") (.text "json")
  have hkept := hwrite session clock
  dsimp only at hkept
  rw [if_neg fun h => Nat.not_le.mpr hlimit h.2.2] at hkept
  exact ⟨by decide +kernel, hlimit, hkept⟩

-- Limits of 4301 digits, above zero and below it. The tags are as they should be, but the
-- record of their trimming cannot be written.
theorem tags_tag_bounded_unwritable :
    let set : RuleSet := ⟨["*"], [[.wildcard]]⟩
    let session : Session := { Session.start with threshold := .debug }
    let clock : Clock := fun _ => ⟨1700000000125⟩
    let tagging (maxTags : Int) :=
      tag 990 set.mask ⟨10, maxTags⟩ Tag.trimmedName (.text "1") (.text "json")
    (tagging (10 ^ digitLimit)).tags = .ok [(Tag.trimmedName, .text "1")] ∧
      (tagging (-10 ^ digitLimit)).tags = .ok [(Tag.trimmedName, .marker)] ∧
      ∀ maxTags ∈ ([10 ^ digitLimit, -10 ^ digitLimit] : List Int),
        session.write clock (tagging maxTags).notes = .error (.json (.number ⟨none⟩)) := by
  intro set session clock tagging
  refine ⟨by decide +kernel, by decide +kernel, by decide +kernel⟩

end Body

end SpanTags
