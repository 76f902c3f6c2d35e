import SpanTags.Proofs.Walk.Secrecy

namespace SpanTags

theorem Tag.leafText_text_congr {t u : Text} (h : t.take maxLength = u.take maxLength)
    (key : Text) : leafText key (.text t) = leafText key (.text u) := by
  simp only [leafText, h]

namespace Walk

variable {ε : Type}

section Relation

variable (mask : Mask ε) (maxDepth : Int)

mutual

-- Payloads that a walk cannot tell apart when it comes to them at the cursor with `depth`
-- keys behind it. They may differ in what is in a container at the depth limit, in the
-- entries that the mask does not admit, and past the end of what is kept of a text.
inductive SeenAlike : Nat → mask.Cursor → Value → Value → Prop
  | scalar {depth : Nat} {cursor : mask.Cursor} (s : Scalar) :
      SeenAlike depth cursor (.scalar s) (.scalar s)
  | text {depth : Nat} {cursor : mask.Cursor} {t u : Text}
      (h : t.take Tag.maxLength = u.take Tag.maxLength) :
      SeenAlike depth cursor (.scalar (.text t)) (.scalar (.text u))
  | cut {depth : Nat} {cursor : mask.Cursor} {v w : Value} (hdepth : maxDepth ≤ depth)
      (hv : v.isContainer = true) (hw : w.isContainer = true) : SeenAlike depth cursor v w
  | list {depth : Nat} {cursor : mask.Cursor} {items items' : List Value}
      (h : SeenAlikeItems depth cursor 0 items items') :
      SeenAlike depth cursor (.list items) (.list items')
  | tuple {depth : Nat} {cursor : mask.Cursor} {items items' : List Value}
      (h : SeenAlikeItems depth cursor 0 items items') :
      SeenAlike depth cursor (.tuple items) (.tuple items')
  | dict {depth : Nat} {cursor : mask.Cursor} {entries entries' : List (Key × Value)}
      (h : SeenAlikeEntries depth cursor entries entries') :
      SeenAlike depth cursor (.dict entries) (.dict entries')

-- What is told of every entry is whether it is a scalar. Only one that is admitted is
-- looked into.
inductive SeenAlikeItems : Nat → mask.Cursor → Nat → List Value → List Value → Prop
  | nil {depth : Nat} {cursor : mask.Cursor} {place : Nat} :
      SeenAlikeItems depth cursor place [] []
  | cons {depth : Nat} {cursor : mask.Cursor} {place : Nat} {v w : Value}
      {items items' : List Value} (hsort : v.isContainer = w.isContainer)
      (h : mask.canTag cursor (Text.ofNat place) (!v.isContainer) = .ok true →
        SeenAlike (depth + 1) (mask.next cursor (Text.ofNat place)) v w)
      (hrest : SeenAlikeItems depth cursor (place + 1) items items') :
      SeenAlikeItems depth cursor place (v :: items) (w :: items')

inductive SeenAlikeEntries :
    Nat → mask.Cursor → List (Key × Value) → List (Key × Value) → Prop
  | nil {depth : Nat} {cursor : mask.Cursor} : SeenAlikeEntries depth cursor [] []
  | cons {depth : Nat} {cursor : mask.Cursor} (key : Key) {v w : Value}
      {entries entries' : List (Key × Value)} (hsort : v.isContainer = w.isContainer)
      (h : ∀ name, key.toText = .ok name →
        mask.canTag cursor name (!v.isContainer) = .ok true →
          SeenAlike (depth + 1) (mask.next cursor name) v w)
      (hrest : SeenAlikeEntries depth cursor entries entries') :
      SeenAlikeEntries depth cursor ((key, v) :: entries) ((key, w) :: entries')

end

end Relation

variable {mask : Mask ε} {maxDepth : Int} {root : Text}

mutual

theorem seenAlike_refl (depth : Nat) (cursor : mask.Cursor) (v : Value) :
    SeenAlike mask maxDepth depth cursor v v := by
  cases v with
  | scalar s => exact .scalar s
  | list items => exact .list (seenAlikeItems_refl depth cursor 0 items)
  | tuple items => exact .tuple (seenAlikeItems_refl depth cursor 0 items)
  | dict entries => exact .dict (seenAlikeEntries_refl depth cursor entries)

theorem seenAlikeItems_refl (depth : Nat) (cursor : mask.Cursor) (place : Nat)
    (items : List Value) : SeenAlikeItems mask maxDepth depth cursor place items items := by
  cases items with
  | nil => exact .nil
  | cons v rest =>
      exact .cons rfl (fun _ => seenAlike_refl _ _ v)
        (seenAlikeItems_refl depth cursor (place + 1) rest)

theorem seenAlikeEntries_refl (depth : Nat) (cursor : mask.Cursor)
    (entries : List (Key × Value)) :
    SeenAlikeEntries mask maxDepth depth cursor entries entries := by
  match entries with
  | [] => exact .nil
  | (key, v) :: rest =>
      exact .cons key rfl (fun _ _ _ => seenAlike_refl _ _ v)
        (seenAlikeEntries_refl depth cursor rest)

end

-- A container at the depth limit is not looked into.
theorem visit_cut {v : Value} (hv : v.isContainer = true) {keys : List Text}
    (hdepth : maxDepth ≤ keys.length) (cursor : mask.Cursor) (walk : Walk ε) :
    visit mask maxDepth root keys cursor v walk =
      if walk.left = 0 then walk.mark
      else walk.emit (Tag.path root keys) (.ok Tag.truncated) := by
  cases v with
  | scalar s => contradiction
  | _ => simp only [visit, hdepth, if_true, mark]

mutual

-- The cursor and the number of keys on the way decide what may differ, so both runs carry
-- the same ones to the same entries.
theorem visit_seenAlike {v w : Value} {keys : List Text} {cursor : mask.Cursor}
    (h : SeenAlike mask maxDepth keys.length cursor v w) (walk : Walk ε) :
    visit mask maxDepth root keys cursor v walk = visit mask maxDepth root keys cursor w walk := by
  cases v with
  | scalar s =>
      cases h with
      | scalar => rfl
      | text h => simp only [visit, Tag.leafText_text_congr h]
      | cut _ hv => contradiction
  | list items =>
      cases h with
      | cut hdepth hv hw => rw [visit_cut hv hdepth, visit_cut hw hdepth]
      | list h => simp only [visit, visitItems_seenAlike h]
  | tuple items =>
      cases h with
      | cut hdepth hv hw => rw [visit_cut hv hdepth, visit_cut hw hdepth]
      | tuple h => simp only [visit, visitItems_seenAlike h]
  | dict entries =>
      cases h with
      | cut hdepth hv hw => rw [visit_cut hv hdepth, visit_cut hw hdepth]
      | dict h => simp only [visit, visitEntries_seenAlike h]

theorem visitItems_seenAlike {items items' : List Value} {keys : List Text}
    {cursor : mask.Cursor} {place : Nat}
    (h : SeenAlikeItems mask maxDepth keys.length cursor place items items') (walk : Walk ε) :
    visitItems mask maxDepth root keys cursor place items walk =
      visitItems mask maxDepth root keys cursor place items' walk := by
  cases items with
  | nil =>
      cases h
      rfl
  | cons v rest =>
      cases h with
      | cons hsort h hrest =>
          simp only [visitItems, ← hsort]
          rw [← visitItems_seenAlike hrest]
          congr 1
          refine enter_congr (fun name hname hadmitted => visit_seenAlike ?_) walk
          obtain rfl := Except.ok.inj hname
          simpa using h hadmitted

theorem visitEntries_seenAlike {entries entries' : List (Key × Value)} {keys : List Text}
    {cursor : mask.Cursor}
    (h : SeenAlikeEntries mask maxDepth keys.length cursor entries entries') (walk : Walk ε) :
    visitEntries mask maxDepth root keys cursor entries walk =
      visitEntries mask maxDepth root keys cursor entries' walk := by
  match entries with
  | [] =>
      cases h
      rfl
  | (key, v) :: rest =>
      cases h with
      | cons key hsort h hrest =>
          simp only [visitEntries, ← hsort]
          rw [← visitEntries_seenAlike hrest]
          congr 1
          refine enter_congr (fun name hname hadmitted => visit_seenAlike ?_) walk
          simpa using h name hname hadmitted

end

end Walk

namespace Tagging

variable {ε : Type} {mask : Mask ε} {v w : Value}

-- What the walk does not look at has no influence on the tags or their order, on what the
-- mask is asked and in which order, or on what is logged.
theorem tags_eq_of_seenAlike (limits : Limits) (root : Text)
    (h : Walk.SeenAlike mask limits.maxDepth 0 mask.head v w) :
    (ofValue mask limits root v).tags = (ofValue mask limits root w).tags ∧
      (ofValue mask limits root v).walk.log = (ofValue mask limits root w).walk.log ∧
      (ofValue mask limits root v).notes = (ofValue mask limits root w).notes := by
  have hrun : Walk.run mask root limits v = Walk.run mask root limits w := by
    unfold Walk.run
    exact Walk.visit_seenAlike h (Walk.start limits)
  simp only [ofValue, hrun, and_self]

-- The containers under `x` are at the depth limit, `pin` is refused, and the two notes
-- begin with the same 5000 code points.
theorem tags_eq_of_seenAlike_cut_off :
    let payload (deep pin : Value) (ending : Text) : Value := .object
      [("deep", .object [("x", deep)]), ("pin", pin),
        ("note", .text (List.replicate 5000 ('a' : CodePoint) ++ ending)), ("last", .int 7)]
    let mask := Mask.refusing ["pin"] []
    let v := payload (.list [.int 1, .text "s"]) (.object [("a", .int 1)]) "b"
    let w := payload (.object [("y", .null)]) (.list []) "cde"
    Walk.SeenAlike mask 2 0 mask.head v w ∧
      (ofValue mask ⟨2, 3⟩ "r" v).tags = (ofValue mask ⟨2, 3⟩ "r" w).tags ∧
      (ofValue mask ⟨2, 3⟩ "r" v).walk.log = (ofValue mask ⟨2, 3⟩ "r" w).walk.log := by
  intro payload mask v w
  have hrefused : ∀ name, Key.toText (.ofText "pin") = .ok name →
      mask.canTag mask.head name false = .ok true →
        Walk.SeenAlike mask 2 1 (mask.next mask.head name) (.object [("a", .int 1)]) (.list []) := by
    intro name hname hadmitted
    obtain rfl := Except.ok.inj hname
    exact absurd hadmitted (by decide)
  have hnotes (ending : Text) :
      (List.replicate 5000 ('a' : CodePoint) ++ ending).take Tag.maxLength =
        List.replicate 5000 ('a' : CodePoint) :=
    List.take_left' List.length_replicate
  have hscalar (t u : Text) : (Value.text t).isContainer = (Value.text u).isContainer := rfl
  have hseen : Walk.SeenAlike mask 2 0 mask.head v w :=
    .dict <|
      .cons _ rfl (fun _ _ _ => .dict <|
        .cons _ rfl (fun _ _ _ => .cut (by decide) rfl rfl) .nil) <|
      .cons _ rfl hrefused <|
      .cons _ (hscalar _ _) (fun _ _ _ => .text ((hnotes _).trans (hnotes _).symm)) <|
      Walk.seenAlikeEntries_refl _ _ _
  obtain ⟨htags, hlog, -⟩ := tags_eq_of_seenAlike ⟨2, 3⟩ "r" hseen
  exact ⟨hseen, htags, hlog⟩

end Tagging

end SpanTags
