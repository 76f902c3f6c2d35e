import SpanTags.Proofs.Mask.Admission
import SpanTags.Proofs.Walk.Step

namespace SpanTags

-- What is tagged for a plain scalar that is found under `key`.
def Scalar.tagText (key : Text) : Scalar → Text
  | .null => "null"
  | .bool b => if b then "true" else "false"
  | .int n => Text.ofInt n
  | .float x => Tag.floatText x
  | .text t => if key ∈ Redaction.keys then "redacted" else t.take 5000
  | .bytes _ => []

theorem Tag.leafText_of_isPlain {s : Scalar} (hs : s.IsPlain) (key : Text) :
    Tag.leafText key s = .ok (s.tagText key) := by
  cases s with
  | null => rfl
  | bool b => rfl
  | int n =>
      have hn : n.natAbs < 10 ^ digitLimit := hs
      simp only [leafText, numberText, Scalar.toText, Scalar.display, writeWhole, hn, ite_true,
        Scalar.tagText]
  | float x => rfl
  | text t => simp [leafText, Scalar.tagText, Redaction.isRedacted, Redaction.mark, maxLength]
  | bytes b => exact hs.elim

namespace Walk

variable {ε : Type}

section Children

variable (mask : Mask ε) (maxDepth : Int) (root : Text)

-- Visits those of the children that the mask admits.
def visitChildren (keys : List Text) (cursor : mask.Cursor) (children : List (Text × Value))
    (walk : Walk ε) : Walk ε :=
  children.foldl (fun walk child =>
    walk.enter mask cursor keys (.ok child.1) (!child.2.isContainer)
      (fun keys cursor walk => visit mask maxDepth root keys cursor child.2 walk)) walk

variable {mask maxDepth root} {keys : List Text} {cursor : mask.Cursor} {walk : Walk ε}

theorem visitItems_eq (place : Nat) (items : List Value) :
    visitItems mask maxDepth root keys cursor place items walk =
      visitChildren mask maxDepth root keys cursor (Value.numbered place items) walk := by
  induction items generalizing place walk with
  | nil => rfl
  | cons v rest ih => simp only [visitItems, ih, visitChildren, Value.numbered, List.foldl_cons]

theorem visitEntries_eq (entries : List (Text × Value)) :
    visitEntries mask maxDepth root keys cursor
        (entries.map fun (name, value) => (Key.ofText name, value)) walk =
      visitChildren mask maxDepth root keys cursor entries walk := by
  induction entries generalizing walk with
  | nil => rfl
  | cons entry rest ih =>
      simp only [List.map_cons, visitEntries, ih, visitChildren, List.foldl_cons]
      rfl

theorem visit_scalar {s : Scalar} (hs : s.IsPlain) :
    visit mask maxDepth root keys cursor (.scalar s) walk =
      if walk.left = 0 then walk.mark
      else walk.emit (Tag.path root keys) (.ok (s.tagText (Tag.ownKey root keys))) := by
  simp only [visit, Tag.leafText_of_isPlain hs, mark]

-- Lists, tuples and dictionaries are visited alike.
theorem visit_container {v : Value} (hv : v.Plain) (hc : v.isContainer = true) :
    visit mask maxDepth root keys cursor v walk =
      if walk.left = 0 then walk.mark
      else if maxDepth ≤ keys.length then walk.emit (Tag.path root keys) (.ok Tag.truncated)
      else visitChildren mask maxDepth root keys cursor v.children walk := by
  cases hv with
  | scalar hs => contradiction
  | list h => simp only [visit, visitItems_eq, Value.children, mark]
  | tuple h => simp only [visit, visitItems_eq, Value.children, mark]
  | object h =>
      rw [Value.children_object, ← visitEntries_eq]
      simp only [Value.object, visit, mark]

end Children

end Walk

end SpanTags
