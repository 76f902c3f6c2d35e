import SpanTags.Proofs.Except
import SpanTags.Proofs.Payload.Position
import SpanTags.Redaction

namespace SpanTags

-- A key under which a record shows nothing, whatever the case of its letters.
def Key.IsSensitive (key : Key) : Prop :=
  ∃ name, key.toText = .ok name ∧ name.asciiLower ∈ Redaction.keys

-- No entry on the way is hidden.
def Key.Open (way : List (Option Key)) : Prop :=
  ∀ key, some key ∈ way → ¬ key.IsSensitive

namespace Value

-- The same scalar, a list of as many items, or a dictionary with the same keys in the same
-- order; what is inside them is left open.
def Outlines : Value → Value → Prop
  | .scalar s, w => w = .scalar s
  | .list items, w => ∃ shown, w = .list shown ∧ shown.length = items.length
  | .tuple items, w => ∃ shown, w = .list shown ∧ shown.length = items.length
  | .dict entries, w => ∃ shown, w = .dict shown ∧ shown.map Prod.fst = entries.map Prod.fst

-- What outlines a value is no tuple.
theorem Outlines.outlines_self {v w : Value} (h : v.Outlines w) : w.Outlines w := by
  cases v with
  | scalar s =>
      obtain rfl : w = .scalar s := h
      rfl
  | list items =>
      obtain ⟨shown, rfl, -⟩ := h
      exact ⟨shown, rfl, rfl⟩
  | tuple items =>
      obtain ⟨shown, rfl, -⟩ := h
      exact ⟨shown, rfl, rfl⟩
  | dict entries =>
      obtain ⟨shown, rfl, -⟩ := h
      exact ⟨shown, rfl, rfl⟩

-- Every key has a text, apart from those that are only found inside hidden entries.
def Readable (v : Value) : Prop :=
  ∀ place way key x, v.at? place = some (way ++ [some key], x) → Key.Open way →
    ∃ name, key.toText = .ok name

namespace Readable

variable {v x : Value} {n : Nat} {key : Option Key}

theorem exists_toText (h : v.Readable) {own : Key} (hx : v.inside[n]? = some (some own, x)) :
    ∃ name, own.toText = .ok name := by
  have hplace : v.at? [n] = some ([] ++ [some own], x) :=
    at?_cons_eq_some_iff.mpr ⟨_, x, [], hx, rfl, rfl⟩
  exact h _ _ _ _ hplace nofun

theorem inside (h : v.Readable) (hx : v.inside[n]? = some (key, x))
    (hkey : ∀ own, key = some own → ¬ own.IsSensitive) : x.Readable := by
  intro place way own y hy hway
  have hplace : v.at? (n :: place) = some (key :: way ++ [some own], y) :=
    at?_cons_eq_some_iff.mpr ⟨key, x, _, hx, hy, rfl⟩
  refine h _ _ _ _ hplace fun other hother => ?_
  rcases List.mem_cons.mp hother with hother | hother
  · exact hkey other hother.symm
  · exact hway other hother

end Readable

end Value

namespace Redaction

section Key

variable {key : Key}

theorem isSensitive_of_toText {name : Text} (h : key.toText = .ok name) :
    isSensitive key = .ok (decide (name.asciiLower ∈ keys)) := by
  unfold isSensitive
  rw [h]
  rfl

theorem isSensitive_eq_true_iff : isSensitive key = .ok true ↔ key.IsSensitive := by
  constructor
  · intro h
    obtain ⟨name, hname, h⟩ := exists_of_bind_eq_ok h
    exact ⟨name, hname, of_decide_eq_true (Except.ok.inj h)⟩
  · rintro ⟨name, hname, hmem⟩
    rw [isSensitive_of_toText hname, decide_eq_true hmem]

end Key

-- What is put in the place of something inside a container.
def shown : Option Key × Value → Except TooManyDigits Value
  | (none, v) => sanitize v
  | (some key, v) => do if ← isSensitive key then pure (.text mark) else sanitize v

theorem shown_of_isSensitive {key : Key} (h : key.IsSensitive) (v : Value) :
    shown (some key, v) = .ok (.text mark) := by
  rw [shown, isSensitive_eq_true_iff.mpr h]
  rfl

theorem shown_of_toText {key : Key} {name : Text} (hname : key.toText = .ok name)
    (h : ¬ key.IsSensitive) (v : Value) : shown (some key, v) = sanitize v := by
  have hnot : name.asciiLower ∉ keys := fun hmem => h ⟨name, hname, hmem⟩
  rw [shown, isSensitive_of_toText hname, decide_eq_false hnot]
  rfl

-- The mark for a secret, and otherwise the value without its own secrets.
theorem shown_eq_ok_cases {key : Option Key} {v w : Value} (h : shown (key, v) = .ok w) :
    (∃ own, key = some own ∧ own.IsSensitive ∧ w = .text mark) ∨
      (∀ own, key = some own → (∃ name, own.toText = .ok name) ∧ ¬ own.IsSensitive) ∧
        sanitize v = .ok w := by
  cases key with
  | none => exact .inr ⟨nofun, h⟩
  | some own =>
      by_cases hsecret : own.IsSensitive
      · rw [shown_of_isSensitive hsecret] at h
        exact .inl ⟨own, rfl, hsecret, (Except.ok.inj h).symm⟩
      · obtain ⟨_, hkey, -⟩ := exists_of_bind_eq_ok h
        obtain ⟨name, hname, -⟩ := exists_of_bind_eq_ok hkey
        rw [shown_of_toText hname hsecret] at h
        refine .inr ⟨fun other hother => ?_, h⟩
        obtain rfl := Option.some.inj hother
        exact ⟨⟨name, hname⟩, hsecret⟩

theorem sanitizeItems_eq (items : List Value) : sanitizeItems items = items.mapM sanitize := by
  induction items with
  | nil => rfl
  | cons v rest ih => rw [sanitizeItems, ih, List.mapM_cons]

theorem sanitizeEntries_eq (entries : List (Key × Value)) :
    sanitizeEntries entries =
      entries.mapM fun entry => do return (entry.1, ← shown (some entry.1, entry.2)) := by
  induction entries with
  | nil => rfl
  | cons entry rest ih =>
      rw [sanitizeEntries, ih, List.mapM_cons, shown]
      cases isSensitive entry.1 with
      | error fault => rfl
      | ok secret =>
          cases secret with
          | true => rfl
          | false => cases sanitize entry.2 <;> rfl

variable {v w : Value}

-- What is shown in the place of each thing inside a container, in the same order.
def ShownEach (inside inside' : List (Option Key × Value)) : Prop :=
  List.Forall₂ (fun child child' => child'.1 = child.1 ∧ shown child = .ok child'.2) inside inside'

theorem shownEach_items_iff {items items' : List Value} :
    ShownEach (items.map fun v => (none, v)) (items'.map fun v => (none, v)) ↔
      items.mapM sanitize = .ok items' := by
  rw [ShownEach, List.forall₂_map_left_iff, List.forall₂_map_right_iff, mapM_eq_ok_iff]
  simp only [shown, true_and]

-- An entry keeps its key.
theorem shownEach_entries_iff {entries entries' : List (Key × Value)} :
    ShownEach (entries.map fun (key, v) => (some key, v))
        (entries'.map fun (key, v) => (some key, v)) ↔
      entries.mapM (fun entry => do return (entry.1, ← shown (some entry.1, entry.2))) =
        .ok entries' := by
  have hentry : ∀ entry entry' : Key × Value,
      (do return (entry.1, ← shown (some entry.1, entry.2))) = Except.ok entry' ↔
        some entry'.1 = some entry.1 ∧ shown (some entry.1, entry.2) = .ok entry'.2 := by
    intro entry entry'
    rw [Option.some.injEq]
    constructor
    · intro h
      obtain ⟨w, hw, h⟩ := exists_of_bind_eq_ok h
      obtain rfl := Except.ok.inj h
      exact ⟨rfl, hw⟩
    · rintro ⟨hkey, hw⟩
      rw [hw, ← hkey]
      rfl
  rw [ShownEach, List.forall₂_map_left_iff, List.forall₂_map_right_iff, mapM_eq_ok_iff]
  simp only [hentry]

theorem ShownEach.keys_eq {inside inside' : List (Option Key × Value)}
    (h : ShownEach inside inside') : inside'.map Prod.fst = inside.map Prod.fst := by
  induction h with
  | nil => rfl
  | cons hfirst _ ih => rw [List.map_cons, List.map_cons, hfirst.1, ih]

variable {v w : Value}

-- A container keeps its outline, and each thing in it is shown by itself.
theorem sanitize_eq_ok_iff :
    sanitize v = .ok w ↔ v.Outlines w ∧ ShownEach v.inside w.inside := by
  have hitems : ∀ items : List Value, Value.list <$> sanitizeItems items = .ok w ↔
      (∃ items', w = .list items' ∧ items'.length = items.length) ∧
        ShownEach (items.map fun v => (none, v)) w.inside := by
    intro items
    rw [sanitizeItems_eq, map_eq_ok_iff]
    constructor
    · rintro ⟨items', hitems, rfl⟩
      have hlength := (mapM_eq_ok_iff.mp hitems).length_eq
      exact ⟨⟨items', rfl, hlength.symm⟩, shownEach_items_iff.mpr hitems⟩
    · rintro ⟨⟨items', rfl, -⟩, h⟩
      exact ⟨items', shownEach_items_iff.mp h, rfl⟩
  cases v with
  | scalar s =>
      rw [sanitize, Except.ok.injEq]
      constructor
      · rintro rfl
        exact ⟨rfl, .nil⟩
      · rintro ⟨rfl, -⟩
        rfl
  | list items => exact hitems items
  | tuple items => exact hitems items
  | dict entries =>
      rw [sanitize, sanitizeEntries_eq, map_eq_ok_iff]
      constructor
      · rintro ⟨entries', hentries, rfl⟩
        have hshown := shownEach_entries_iff.mpr hentries
        have hkeys : (entries'.map Prod.fst).map some = (entries.map Prod.fst).map some := by
          simpa only [List.map_map, Function.comp_def] using hshown.keys_eq
        have hinjective : Function.Injective (Option.some (α := Key)) := fun _ _ => Option.some.inj
        exact ⟨⟨entries', rfl, List.map_injective_iff.mpr hinjective hkeys⟩, hshown⟩
      · rintro ⟨⟨entries', rfl, -⟩, h⟩
        exact ⟨entries', shownEach_entries_iff.mp h, rfl⟩

theorem ShownEach.of_getElem? {inside inside' : List (Option Key × Value)}
    (h : ShownEach inside inside') {n : Nat} {key : Option Key} :
    (∀ v, inside[n]? = some (key, v) →
      ∃ w, inside'[n]? = some (key, w) ∧ shown (key, v) = .ok w) ∧
      ∀ w, inside'[n]? = some (key, w) →
        ∃ v, inside[n]? = some (key, v) ∧ shown (key, v) = .ok w := by
  induction h generalizing n with
  | nil => simp
  | @cons child child' rest rest' hfirst _ ih =>
      obtain ⟨hkey, hshown⟩ := hfirst
      cases n with
      | succ n => simpa only [List.getElem?_cons_succ] using ih
      | zero =>
          obtain ⟨own, v⟩ := child
          obtain ⟨own', w⟩ := child'
          obtain rfl : own' = own := hkey
          simp only [List.getElem?_cons_zero, Option.some.injEq, Prod.mk.injEq]
          constructor
          · rintro v' ⟨rfl, rfl⟩
            exact ⟨w, ⟨rfl, rfl⟩, hshown⟩
          · rintro w' ⟨rfl, rfl⟩
            exact ⟨v, ⟨rfl, rfl⟩, hshown⟩

-- At a position that is not hidden stands the value of that position, sanitized.
theorem at?_of_sanitize (h : sanitize v = .ok w) {place : List Nat} {way : List (Option Key)}
    {x : Value} (hx : v.at? place = some (way, x)) (hway : Key.Open way) :
    ∃ y, w.at? place = some (way, y) ∧ sanitize x = .ok y := by
  induction place generalizing v w way with
  | nil =>
      obtain ⟨rfl, rfl⟩ := Prod.mk.inj (Option.some.inj hx)
      exact ⟨w, rfl, h⟩
  | cons n place ih =>
      obtain ⟨key, inner, rest, hstep, hfound, rfl⟩ := Value.at?_cons_eq_some_iff.mp hx
      obtain ⟨inner', hstep', hshown⟩ := (sanitize_eq_ok_iff.mp h).2.of_getElem?.1 inner hstep
      have hopen : ∀ own, key = some own → ¬ own.IsSensitive := fun own hown =>
        hway own (hown ▸ List.mem_cons_self)
      rcases shown_eq_ok_cases hshown with ⟨own, hown, hsecret, -⟩ | ⟨-, hinner⟩
      · exact absurd hsecret (hopen own hown)
      · obtain ⟨y, hy, hclean⟩ := ih hinner hfound fun own hown =>
          hway own (List.mem_cons_of_mem _ hown)
        exact ⟨y, Value.at?_cons_eq_some_iff.mpr ⟨key, inner', rest, hstep', hy, rfl⟩, hclean⟩

-- The entry of a sensitive key is the mark, at any position of what is shown.
theorem eq_mark_of_at? (h : sanitize v = .ok w) {place : List Nat} {way : List (Option Key)}
    {key : Key} {y : Value} (hy : w.at? place = some (way ++ [some key], y))
    (hkey : key.IsSensitive) : y = .text mark := by
  induction place generalizing v w way with
  | nil => simp at hy
  | cons n place ih =>
      obtain ⟨own, inner, rest, hstep, hfound, hway⟩ := Value.at?_cons_eq_some_iff.mp hy
      obtain ⟨x, -, hshown⟩ := (sanitize_eq_ok_iff.mp h).2.of_getElem?.2 inner hstep
      rcases shown_eq_ok_cases hshown with ⟨-, -, -, rfl⟩ | ⟨hopen, hinner⟩
      · -- nothing is inside the mark
        cases place with
        | nil => exact ((Prod.mk.inj (Option.some.inj hfound)).2).symm
        | cons m place => simp [Value.at?, Value.inside, Value.text] at hfound
      · cases way with
        | nil =>
            obtain ⟨rfl, -⟩ := List.cons.inj hway
            exact absurd hkey (hopen key rfl).2
        | cons first way =>
            obtain ⟨-, rfl⟩ := List.cons.inj hway
            exact ih hinner hfound

theorem exists_sanitize_of_inside (h : ∀ child ∈ v.inside, ∃ x, shown child = .ok x) :
    ∃ w, sanitize v = .ok w := by
  have hitems : ∀ items : List Value, (∀ child ∈ items.map fun v => (none, v),
      ∃ x, shown child = .ok x) → ∃ w, Value.list <$> sanitizeItems items = .ok w := by
    intro items h
    have hclean : ∀ v ∈ items, ∃ x, sanitize v = .ok x := fun v hv =>
      h (none, v) (List.mem_map_of_mem hv)
    obtain ⟨items', hitems'⟩ := exists_mapM hclean
    rw [sanitizeItems_eq, hitems']
    exact ⟨_, rfl⟩
  cases v with
  | scalar s => exact ⟨.scalar s, rfl⟩
  | list items => exact hitems items h
  | tuple items => exact hitems items h
  | dict entries =>
      have hentries : ∀ entry ∈ entries, ∃ entry' : Key × Value,
          (do return (entry.1, ← shown (some entry.1, entry.2))) =
            (.ok entry' : Except TooManyDigits _) := by
        intro entry hentry
        obtain ⟨x, hx⟩ := List.forall_mem_map.mp h entry hentry
        exact ⟨(entry.1, x), by rw [hx]; rfl⟩
      obtain ⟨entries', hentries'⟩ := exists_mapM hentries
      rw [sanitize, sanitizeEntries_eq, hentries']
      exact ⟨_, rfl⟩

theorem readable_of_sanitize (h : sanitize v = .ok w) : v.Readable := by
  intro place
  induction place generalizing v w with
  | nil => simp
  | cons n place ih =>
      intro way key x hx hway
      obtain ⟨own, inner, rest, hstep, hfound, hrest⟩ := Value.at?_cons_eq_some_iff.mp hx
      obtain ⟨inner', -, hshown⟩ := (sanitize_eq_ok_iff.mp h).2.of_getElem?.1 inner hstep
      have hcases := shown_eq_ok_cases hshown
      cases way with
      | nil =>
          obtain ⟨rfl, -⟩ := List.cons.inj hrest
          rcases hcases with ⟨_, hown, ⟨name, hname, -⟩, -⟩ | ⟨hreadable, -⟩
          · obtain rfl := Option.some.inj hown
            exact ⟨name, hname⟩
          · exact (hreadable key rfl).1
      | cons first way =>
          obtain ⟨rfl, rfl⟩ := List.cons.inj hrest
          rcases hcases with ⟨_, rfl, hsecret, -⟩ | ⟨-, hinner⟩
          · exact absurd hsecret (hway _ List.mem_cons_self)
          · exact ih hinner way key x hfound fun own hown => hway own (List.mem_cons_of_mem _ hown)

-- A payload can be sanitized exactly if the keys that are looked at have texts.
theorem exists_sanitize_iff : (∃ w, sanitize v = .ok w) ↔ v.Readable := by
  refine ⟨fun ⟨_, h⟩ => readable_of_sanitize h, fun h => ?_⟩
  induction v using Value.inside_induction with
  | step v ih =>
      refine exists_sanitize_of_inside fun child hchild => ?_
      obtain ⟨key, x⟩ := child
      obtain ⟨n, hn⟩ := List.getElem?_of_mem hchild
      cases key with
      | none => exact ih _ hchild (h.inside hn nofun)
      | some own =>
          obtain ⟨name, hname⟩ := h.exists_toText hn
          by_cases hsecret : own.IsSensitive
          · exact ⟨_, shown_of_isSensitive hsecret x⟩
          · rw [shown_of_toText hname hsecret]
            exact ih _ hchild (h.inside hn fun _ hown => Option.some.inj hown ▸ hsecret)

-- What is shown has no secrets left to hide.
theorem sanitize_sanitize (h : sanitize v = .ok w) : sanitize w = .ok w := by
  induction w using Value.inside_induction generalizing v with
  | step w ih =>
      obtain ⟨houtline, hshown⟩ := sanitize_eq_ok_iff.mp h
      refine sanitize_eq_ok_iff.mpr ⟨houtline.outlines_self, List.forall₂_same.mpr ?_⟩
      rintro ⟨key, y⟩ hchild
      refine ⟨rfl, ?_⟩
      obtain ⟨n, hn⟩ := List.getElem?_of_mem hchild
      obtain ⟨x, -, hy⟩ := hshown.of_getElem?.2 y hn
      rcases shown_eq_ok_cases hy with ⟨own, rfl, hsecret, rfl⟩ | ⟨hreadable, hclean⟩
      · exact shown_of_isSensitive hsecret _
      · have hagain := ih _ hchild hclean
        cases key with
        | none => exact hagain
        | some own =>
            obtain ⟨⟨name, hname⟩, hopen⟩ := hreadable own rfl
            rw [shown_of_toText hname hopen]
            exact hagain

-- Every entry of a sensitive key is the mark, at any depth. Everywhere else the payload is as
-- it was, but for the tuples, which become lists: there are the same keys in the same order,
-- as many items, and the same scalars. Sanitizing it once more changes nothing.
theorem sanitize_masks (h : v.Readable) :
    ∃ w, sanitize v = .ok w ∧
      (∀ place way key y, w.at? place = some (way ++ [some key], y) → key.IsSensitive →
        y = .text "redacted") ∧
      (∀ place way x, v.at? place = some (way, x) → Key.Open way →
        ∃ y, w.at? place = some (way, y) ∧ x.Outlines y) ∧
      sanitize w = .ok w := by
  obtain ⟨w, hw⟩ := exists_sanitize_iff.mpr h
  refine ⟨w, hw, ?_, ?_, sanitize_sanitize hw⟩
  · intro place way key y hy hkey
    exact eq_mark_of_at? hw hy hkey
  · intro place way x hx hway
    obtain ⟨y, hy, hclean⟩ := at?_of_sanitize hw hx hway
    exact ⟨y, hy, (sanitize_eq_ok_iff.mp hclean).1⟩

-- The Kelvin sign has the lower case letter k, and so the dictionary in the tuple has a secret.
theorem sanitize_masks_kelvin :
    let headers : Key := "headers"
    let unnamed : Key := .scalar .null
    let v : Value := .dict [(headers, .tuple
      [.dict [("TO\u212AEN", .list [.text "t0"]), (unnamed, .text "token")], .null])]
    let w : Value := .dict [(headers, .list
      [.dict [("TO\u212AEN", .text "redacted"), (unnamed, .text "token")], .null])]
    v.Readable ∧ Key.IsSensitive "TO\u212AEN" ∧
      Key.Open [some headers, none, some unnamed] ∧ sanitize v = .ok w ∧ sanitize w = .ok w ∧
      ∃ y, w.at? [0, 0, 1] = some ([some headers, none, some unnamed], y) ∧
        (Value.text "token").Outlines y := by
  intro headers unnamed v w
  have hclean : sanitize v = .ok w := rfl
  have hreadable : v.Readable := exists_sanitize_iff.mp ⟨w, hclean⟩
  have hopen : Key.Open [some headers, none, some unnamed] := by
    intro key hkey
    rw [← isSensitive_eq_true_iff]
    simp only [List.mem_cons, Option.some.injEq, reduceCtorEq, List.not_mem_nil, or_false,
      false_or] at hkey
    rcases hkey with rfl | rfl <;> decide
  obtain ⟨shown, hshown, -, hkept, hagain⟩ := sanitize_masks hreadable
  obtain rfl : w = shown := Except.ok.inj (hclean.symm.trans hshown)
  exact ⟨hreadable, isSensitive_eq_true_iff.mp rfl, hopen, hclean, hagain,
    hkept [0, 0, 1] _ _ rfl hopen⟩

end Redaction

end SpanTags
