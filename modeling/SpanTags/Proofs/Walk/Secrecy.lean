import SpanTags.Proofs.Payload.Secret
import SpanTags.Proofs.Walk.Step
import SpanTags.Tracing
import SpanTags.Tag.Body
import Mathlib.Data.List.Basic

namespace SpanTags

theorem Tag.ownKey_concat (root : Text) (keys : List Text) (key : Text) :
    ownKey root (keys ++ [key]) = key := by
  simp [ownKey]

namespace Walk

variable {ε : Type} {mask : Mask ε} {maxDepth : Int} {root : Text}

-- A walk is the same if what it goes on with inside an admitted entry is.
theorem enter_congr {cursor : mask.Cursor} {keys : List Text} {key : Except TooManyDigits Text}
    {isLast : Bool} {inside inside' : List Text → mask.Cursor → Walk ε → Walk ε}
    (h : ∀ name, key = .ok name → mask.canTag cursor name isLast = .ok true → ∀ walk,
      inside (keys ++ [name]) (mask.next cursor name) walk =
        inside' (keys ++ [name]) (mask.next cursor name) walk)
    (walk : Walk ε) :
    walk.enter mask cursor keys key isLast inside =
      walk.enter mask cursor keys key isLast inside' := by
  unfold enter
  split
  · rfl
  · rfl
  · rename_i name _
    dsimp only
    split
    · rfl
    · rfl
    · rename_i hadmitted
      exact h name rfl hadmitted _

mutual

-- Alike payloads are walked through alike: a text is only looked at where none is secret.
theorem visit_alike {secret : Bool} {v w : Value} (h : v.Alike secret w) {keys : List Text}
    (hsecret : secret = true → Redaction.isRedacted (Tag.ownKey root keys) = true)
    (cursor : mask.Cursor) (walk : Walk ε) :
    visit mask maxDepth root keys cursor v walk = visit mask maxDepth root keys cursor w walk := by
  cases v with
  | scalar s =>
      cases h with
      | scalar => rfl
      | secret t u => simp only [visit, Tag.leafText, hsecret rfl, if_true]
  | list items =>
      cases h with
      | list h => simp only [visit, visitItems_alike h]
  | tuple items =>
      cases h with
      | tuple h => simp only [visit, visitItems_alike h]
  | dict entries =>
      cases h with
      | dict h => simp only [visit, visitEntries_alike h]

theorem visitItems_alike {items items' : List Value} (h : Value.AlikeItems items items')
    (keys : List Text) (cursor : mask.Cursor) (place : Nat) (walk : Walk ε) :
    visitItems mask maxDepth root keys cursor place items walk =
      visitItems mask maxDepth root keys cursor place items' walk := by
  cases items with
  | nil =>
      cases h
      rfl
  | cons v rest =>
      cases h with
      | cons h hrest =>
          simp only [visitItems, ← h.isContainer_eq]
          rw [← visitItems_alike hrest]
          congr 1
          exact enter_congr (fun _ _ _ => visit_alike h nofun _) walk

theorem visitEntries_alike {entries entries' : List (Key × Value)}
    (h : Value.AlikeEntries entries entries') (keys : List Text) (cursor : mask.Cursor)
    (walk : Walk ε) :
    visitEntries mask maxDepth root keys cursor entries walk =
      visitEntries mask maxDepth root keys cursor entries' walk := by
  match entries with
  | [] =>
      cases h
      rfl
  | (key, v) :: rest =>
      cases h with
      | cons key hvalue hrest =>
          simp only [visitEntries, ← hvalue.isContainer_eq]
          rw [← visitEntries_alike hrest]
          congr 1
          refine enter_congr (fun name hname _ => visit_alike hvalue (fun hsecret => ?_) _) walk
          rw [Tag.ownKey_concat]
          exact Key.isRedacted_of_isSecret hsecret hname

end

end Walk

namespace Tagging

variable {ε : Type} {mask : Mask ε} {limits : Limits} {root : Text} {v w : Value}

theorem ofValue_alike (h : v.Alike (Redaction.isRedacted (Text.lastPiece '.' root)) w) :
    ofValue mask limits root v = ofValue mask limits root w := by
  have hroot : Redaction.isRedacted (Text.lastPiece '.' root) = true →
      Redaction.isRedacted (Tag.ownKey root []) = true := id
  simp only [ofValue, Walk.run, Walk.visit_alike h hroot]

-- Secret texts have no influence on the tags or their order, on what the mask is asked, or
-- on what is logged, however much of that is written.
theorem tags_eq_of_alike (mask : Mask ε) (limits : Limits) (root : Text) {v w : Value}
    (h : v.Alike (Redaction.isRedacted (Text.lastPiece '.' root)) w) :
    (ofValue mask limits root v).tags = (ofValue mask limits root w).tags ∧
      (ofValue mask limits root v).walk.log = (ofValue mask limits root w).walk.log ∧
      ∀ (session : Session) (clock : Clock),
        session.write clock (ofValue mask limits root v).notes =
          session.write clock (ofValue mask limits root w).notes := by
  rw [ofValue_alike h]
  exact ⟨rfl, rfl, fun _ _ => rfl⟩

-- The key that is refused, and the number under a secret key, are no secrets.
theorem tags_eq_of_alike_nested :
    let payload (one other : Text) : Value := .object
      [("user", .object [("token", .text one), ("a.token", .text "kept"), ("password", .int 7)]),
        ("items", .list [.object [("authorization", .text other)], .text "free"])]
    let mask := Mask.refusing ["a.token"] []
    (payload "s1" "t1").Alike false (payload "another" "") ∧
      (ofValue mask ⟨9, 4⟩ "r" (payload "s1" "t1")).tags =
        (ofValue mask ⟨9, 4⟩ "r" (payload "another" "")).tags ∧
      (ofValue mask ⟨9, 4⟩ "r" (payload "another" "")).tags = .ok
        [("r.user.token", .text "redacted"), ("r.user.password", .text "7"),
          ("r.items.0.authorization", .text "redacted"), (Tag.trimmedName, .marker)] := by
  intro payload mask
  have halike : (payload "s1" "t1").Alike false (payload "another" "") :=
    .dict <| .cons _ (.dict <| .cons _ (.secret _ _) (Value.alikeEntries_refl _)) <|
      .cons _ (.list <| .cons (.dict <| .cons _ (.secret _ _) .nil) (Value.alikeItems_refl _)) .nil
  exact ⟨halike, (tags_eq_of_alike mask ⟨9, 4⟩ "r" halike).1, by decide +kernel⟩

end Tagging

end SpanTags
