import SpanTags.Proofs.Settings
import SpanTags.Proofs.Yaml.Item

namespace SpanTags.Settings.File

open Yaml (Item Content)

variable (content : Content)

-- What a table holds under a name, and null if there is no such entry.
def member (name : Text) (item : Item) : Item :=
  content.resolve ((Ordered.get? (Item.text name) item.entries).getD .null)

def tagging : Item := member content "payload_tagging" content.root

def level : Item := member content "level" (member content "logging" content.root)

-- Either a table, or one of the values that count as none.
def IsTable (item : Item) : Prop :=
  item.isNothing = true ∨ ∃ entries, item = .dict entries

-- Documents that tell the fields from each other: each part of them is a table or missing, and
-- the fields have texts as names.
structure Regular : Prop where
  root : IsTable content.root
  tagging : IsTable (tagging content)
  names : ∀ entry ∈ (File.tagging content).entries, ∃ name, entry.1 = Item.text name
  logging : IsTable (member content "logging" content.root)

-- What a document gives for a field: a level under logging for that field, else the entry of
-- its name.
def value? (field : Text) : Option Given :=
  if field = "log_level" ∧ (level content).isNothing = false then
    some (given content (level content))
  else (Ordered.get? (Item.text field) (tagging content).entries).map (given content)

variable {content}

theorem entry_eq {name : Text} {item : Item} (h : IsTable item) :
    entry content name item = .ok (member content name item) := by
  unfold entry member
  split
  · rename_i hnothing
    rw [Item.entries_eq_nil_of_isNothing hnothing]
    rfl
  · rename_i hsome
    rcases h with hnothing | ⟨entries, rfl⟩
    · exact absurd hnothing hsome
    · rfl

theorem entries_eq {item : Item} (h : IsTable item) :
    entries content item = .ok item.entries := by
  unfold entries
  split
  · rename_i hnothing
    rw [Item.entries_eq_nil_of_isNothing hnothing]
  · rename_i hsome
    rcases h with hnothing | ⟨entries, rfl⟩
    · exact absurd hnothing hsome
    · rfl

theorem exists_table {entries : List (Item × Item)}
    (h : ∀ entry ∈ entries, ∃ name, entry.1 = Item.text name) :
    ∃ table : List (Text × Item), entries = table.map (Prod.map Item.text id) := by
  induction entries with
  | nil => exact ⟨[], rfl⟩
  | cons entry rest ih =>
      obtain ⟨⟨name, hname⟩, hrest⟩ := List.forall_mem_cons.mp h
      obtain ⟨table, rfl⟩ := ih hrest
      refine ⟨(name, entry.2) :: table, congrArg (· :: _) ?_⟩
      exact Prod.ext hname rfl

theorem named_eq (table : List (Text × Item)) :
    named content (table.map (Prod.map Item.text id)) =
      .ok (table.map (Prod.map id (given content))) := by
  rw [named, mapM_eq_ok_iff, List.forall₂_map_left_iff, List.forall₂_map_right_iff,
    List.forall₂_same]
  exact fun _ _ => rfl

-- A document gives a field the same whatever it gives the others.
theorem exists_fields (h : Regular content)
    (hentries : Ordered.ofPairs (tagging content).entries = (tagging content).entries) :
    ∃ values, fields content = .ok values ∧
      ∀ field, Ordered.get? field values = value? content field := by
  obtain ⟨table, htable⟩ := exists_table h.names
  have hfields : fields content = named content
      (if (level content).isNothing then (tagging content).entries
        else Ordered.put (Item.text "log_level") (level content) (tagging content).entries) := by
    unfold fields
    rw [entry_eq h.root, entry_eq h.root]
    show (entries content (tagging content) >>= fun values => entry content "level" _ >>= _) = _
    rw [entries_eq h.tagging, entry_eq h.logging]
    show named content _ = _
    rw [hentries]
    rfl
  have hget (field : Text) (values : List (Text × Item)) :
      Ordered.get? field (values.map (Prod.map id (given content))) =
        (Ordered.get? field values).map (given content) :=
    Ordered.get?_map (fun _ _ => rfl) (given content) field values
  rw [hfields]
  unfold value?
  rw [htable, Ordered.put_map Item.text_beq_text]
  cases (level content).isNothing with
  | true =>
      refine ⟨_, named_eq table, fun field => ?_⟩
      rw [hget, if_neg (by simp), Ordered.get?_map Item.text_beq_text, Option.map_id]
      rfl
  | false =>
      refine ⟨_, named_eq _, fun field => ?_⟩
      rw [hget, Ordered.get?_put, Ordered.get?_map Item.text_beq_text, Option.map_id]
      by_cases hfield : field = "log_level"
      · simp [hfield]
      · simp [hfield, Ne.symm hfield]

end SpanTags.Settings.File
