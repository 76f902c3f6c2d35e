import SpanTags.Payload.Display
import SpanTags.Redaction

namespace SpanTags

-- A key under which texts are hidden. One that is no text never is.
def Key.isSecret : Key → Bool
  | .scalar (.text t) => Redaction.isRedacted t
  | _ => false

theorem Key.isRedacted_of_isSecret {key : Key} {name : Text} (h : key.isSecret = true)
    (hname : key.toText = .ok name) : Redaction.isRedacted name = true := by
  cases key with
  | tuple items => simp [isSecret] at h
  | scalar s =>
      cases s with
      | text t =>
          obtain rfl : t = name := Except.ok.inj hname
          exact h
      | _ => simp [isSecret] at h

namespace Value

mutual

-- Payloads that differ at most in texts which stand directly under secret keys. The flag
-- tells whether a text in their own place is one.
inductive Alike : Bool → Value → Value → Prop
  | scalar {secret : Bool} (s : Scalar) : Alike secret (.scalar s) (.scalar s)
  | secret (t u : Text) : Alike true (.scalar (.text t)) (.scalar (.text u))
  | list {secret : Bool} {items items' : List Value} (h : AlikeItems items items') :
      Alike secret (.list items) (.list items')
  | tuple {secret : Bool} {items items' : List Value} (h : AlikeItems items items') :
      Alike secret (.tuple items) (.tuple items')
  | dict {secret : Bool} {entries entries' : List (Key × Value)}
      (h : AlikeEntries entries entries') : Alike secret (.dict entries) (.dict entries')

inductive AlikeItems : List Value → List Value → Prop
  | nil : AlikeItems [] []
  | cons {v w : Value} {items items' : List Value} (h : Alike false v w)
      (hrest : AlikeItems items items') : AlikeItems (v :: items) (w :: items')

inductive AlikeEntries : List (Key × Value) → List (Key × Value) → Prop
  | nil : AlikeEntries [] []
  | cons (key : Key) {v w : Value} {entries entries' : List (Key × Value)}
      (h : Alike key.isSecret v w) (hrest : AlikeEntries entries entries') :
      AlikeEntries ((key, v) :: entries) ((key, w) :: entries')

end

theorem Alike.isContainer_eq {secret : Bool} {v w : Value} (h : Alike secret v w) :
    v.isContainer = w.isContainer := by
  cases h <;> rfl

mutual

theorem alike_refl (secret : Bool) (v : Value) : Alike secret v v := by
  cases v with
  | scalar s => exact .scalar s
  | list items => exact .list (alikeItems_refl items)
  | tuple items => exact .tuple (alikeItems_refl items)
  | dict entries => exact .dict (alikeEntries_refl entries)

theorem alikeItems_refl (items : List Value) : AlikeItems items items := by
  cases items with
  | nil => exact .nil
  | cons v rest => exact .cons (alike_refl false v) (alikeItems_refl rest)

theorem alikeEntries_refl (entries : List (Key × Value)) : AlikeEntries entries entries := by
  match entries with
  | [] => exact .nil
  | (key, v) :: rest => exact .cons key (alike_refl key.isSecret v) (alikeEntries_refl rest)

end

-- Dictionaries with the same texts as keys are alike if they are so key by key.
theorem alike_object {secret : Bool} {names : List Text} {f g : Text → Value}
    (h : ∀ name ∈ names, Alike (Redaction.isRedacted name) (f name) (g name)) :
    Alike secret (object (names.map fun name => (name, f name)))
      (object (names.map fun name => (name, g name))) := by
  refine .dict ?_
  induction names with
  | nil => exact .nil
  | cons name rest ih =>
      exact .cons (.ofText name) (h name List.mem_cons_self)
        (ih fun other ho => h other (List.mem_cons_of_mem _ ho))

end Value

end SpanTags
