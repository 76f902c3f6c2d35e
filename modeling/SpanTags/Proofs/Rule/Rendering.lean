import SpanTags.Proofs.Rule.Grammar

namespace SpanTags

-- A backslash in front of the characters that are not to be read as signs.
def Text.escape (escapes : CodePoint → Bool) (t : Text) : Text :=
  t.flatMap fun c => if escapes c then ['\\', c] else [c]

theorem Text.join_cons_cons (separator first next : Text) (rest : List Text) :
    join separator (first :: next :: rest) =
      first ++ separator ++ join separator (next :: rest) :=
  List.intercalate_cons_cons

namespace Atom

section Key

variable (escapes : CodePoint → Bool) (key : Text)

def ofKey : List Atom :=
  key.map fun c => if escapes c then .escaped c else .plain c

theorem flatMap_source_ofKey : (ofKey escapes key).flatMap source = key.escape escapes := by
  rw [ofKey, List.flatMap_map, Text.escape]
  congr 1
  funext c
  split <;> rfl

theorem flatMap_meaning_ofKey : (ofKey escapes key).flatMap meaning = key := by
  have hmeaning : (fun c => meaning (if escapes c then .escaped c else .plain c)) =
      fun c => [c] := by
    funext c
    split <;> rfl
  rw [ofKey, List.flatMap_map, hmeaning, List.flatMap_singleton']

variable {escapes key}

theorem plain_mem_ofKey_iff {c : CodePoint} :
    .plain c ∈ ofKey escapes key ↔ c ∈ key ∧ escapes c = false := by
  simp only [ofKey, List.mem_map]
  constructor
  · rintro ⟨d, hd, heq⟩
    split at heq
    · contradiction
    · rename_i hescapes
      cases heq
      exact ⟨hd, eq_false_of_ne_true hescapes⟩
  · rintro ⟨hc, hescapes⟩
    exact ⟨c, hc, by rw [hescapes, if_neg Bool.false_ne_true]⟩

theorem dangling_notMem_ofKey : .dangling ∉ ofKey escapes key := by
  intro h
  obtain ⟨c, -, heq⟩ := List.mem_map.mp h
  split at heq <;> contradiction

theorem reads_ofKey (hne : key ≠ []) (hstar : ofKey escapes key ≠ [.plain '*']) :
    Segment.Reads (ofKey escapes key) (.literal key) := by
  have hunits : ofKey escapes key ≠ [] := fun h => hne (List.map_eq_nil_iff.mp h)
  have hreads := Segment.Reads.literal hunits hstar dangling_notMem_ofKey
  rwa [flatMap_meaning_ofKey] at hreads

end Key

section Joined

-- Each backslash has its partner, whatever comes next.
def Paired (units : List Atom) : Prop :=
  .dangling ∉ units ∧ .plain '\\' ∉ units

variable {sep : CodePoint} {units : List Atom} {pieces : List (List Atom)}

theorem Paired.written (h : Paired units) : Written units := by
  obtain ⟨hdangling, hplain⟩ := h
  induction units with
  | nil => trivial
  | cons unit rest ih =>
      have hrest := ih (fun hmem => hdangling (List.mem_cons_of_mem _ hmem))
        (fun hmem => hplain (List.mem_cons_of_mem _ hmem))
      cases unit with
      | plain c => exact ⟨fun hc => hplain (hc ▸ List.mem_cons_self), hrest⟩
      | escaped c => exact hrest
      | dangling => exact absurd List.mem_cons_self hdangling

theorem paired_intercalate (hsep : sep ≠ '\\') (h : ∀ piece ∈ pieces, Paired piece) :
    Paired ([.plain sep].intercalate pieces) := by
  constructor
  · intro hmem
    obtain hsign | ⟨piece, hpiece, hmem⟩ := of_mem_intercalate hmem
    · exact absurd (List.mem_singleton.mp hsign) nofun
    · exact (h piece hpiece).1 hmem
  · intro hmem
    obtain hsign | ⟨piece, hpiece, hmem⟩ := of_mem_intercalate hmem
    · cases List.mem_singleton.mp hsign
      exact hsep rfl
    · exact (h piece hpiece).2 hmem

theorem flatMap_source_intercalate (sep : CodePoint) (pieces : List (List Atom)) :
    ([.plain sep].intercalate pieces).flatMap source =
      Text.join [sep] (pieces.map (·.flatMap source)) :=
  flatMap_intercalate source [.plain sep] pieces

-- Texts that are joined come apart again if the separator is no unit of any of them.
theorem pieces_join {α : Type} {items : List α} {units : α → List Atom} {text : α → Text}
    (hsep : sep ≠ '\\') (hne : items ≠ [])
    (htext : ∀ item ∈ items, (units item).flatMap source = text item)
    (hapart : ∀ item ∈ items, .plain sep ∉ units item)
    (hpaired : ∀ item ∈ items, Paired (units item)) :
    Pieces sep (Text.join [sep] (items.map text)) (items.map units) where
  ne_nil := fun h => hne (List.map_eq_nil_iff.mp h)
  apart := List.forall_mem_map.mpr hapart
  reads := by
    refine ⟨(paired_intercalate hsep (List.forall_mem_map.mpr hpaired)).written, ?_⟩
    rw [flatMap_source_intercalate, List.map_map]
    exact congrArg (Text.join [sep]) (List.map_congr_left htext)

end Joined

end Atom

-- The characters that a filter gives a meaning of their own.
def CodePoint.isSign (c : CodePoint) : Bool :=
  c = '\\' || c = '.' || c = ',' || c = '*'

namespace Segment

def render : Segment → Text
  | .literal key => key.escape CodePoint.isSign
  | .wildcard => '*'

def units : Segment → List Atom
  | .literal key => Atom.ofKey CodePoint.isSign key
  | .wildcard => [.plain '*']

variable (segment : Segment)

theorem flatMap_source_units : segment.units.flatMap Atom.source = segment.render := by
  cases segment with
  | literal key => exact Atom.flatMap_source_ofKey CodePoint.isSign key
  | wildcard => rfl

variable {segment}

theorem ne_of_plain_mem_units {c : CodePoint} (h : .plain c ∈ segment.units) :
    c ≠ '\\' ∧ c ≠ '.' ∧ c ≠ ',' := by
  cases segment with
  | literal key =>
      obtain ⟨-, hsign⟩ := Atom.plain_mem_ofKey_iff.mp h
      simp only [CodePoint.isSign, Bool.or_eq_false_iff, decide_eq_false_iff_not] at hsign
      exact ⟨hsign.1.1.1, hsign.1.1.2, hsign.1.2⟩
  | wildcard =>
      cases List.mem_singleton.mp h
      decide

theorem paired_units : Atom.Paired segment.units := by
  refine ⟨?_, fun h => (ne_of_plain_mem_units h).1 rfl⟩
  cases segment with
  | literal key => exact Atom.dangling_notMem_ofKey
  | wildcard => decide

theorem reads_units (hne : segment ≠ .literal []) : Reads segment.units segment := by
  cases segment with
  | literal key =>
      refine Atom.reads_ofKey (fun hnil => hne (by rw [hnil])) fun hstar => ?_
      have hmem : Atom.plain '*' ∈ Atom.ofKey CodePoint.isSign key := by
        rw [hstar]
        exact List.mem_cons_self
      exact absurd (Atom.plain_mem_ofKey_iff.mp hmem).2 (by decide)
  | wildcard => exact .wildcard

end Segment

namespace Rule

def render (rule : Rule) : Text :=
  Text.join '.' (rule.map Segment.render)

def units (rule : Rule) : List Atom :=
  [.plain '.'].intercalate (rule.map Segment.units)

variable {rule : Rule}

theorem flatMap_source_units (rule : Rule) : rule.units.flatMap Atom.source = rule.render := by
  rw [units, Atom.flatMap_source_intercalate, List.map_map, render]
  congr 1
  exact List.map_congr_left fun segment _ => segment.flatMap_source_units

theorem paired_units : Atom.Paired rule.units := by
  refine Atom.paired_intercalate (by decide) fun piece hpiece => ?_
  obtain ⟨segment, -, rfl⟩ := List.mem_map.mp hpiece
  exact Segment.paired_units

theorem comma_notMem_units : .plain ',' ∉ rule.units := by
  intro h
  obtain hdot | ⟨piece, hpiece, hmem⟩ := of_mem_intercalate h
  · exact absurd hdot (by decide)
  · obtain ⟨segment, -, rfl⟩ := List.mem_map.mp hpiece
    exact (Segment.ne_of_plain_mem_units hmem).2.2 rfl

theorem parse_render (hne : rule ≠ []) (hkeys : .literal [] ∉ rule) :
    parse rule.render = .ok rule := by
  have hpieces : Atom.Pieces '.' rule.render (rule.map Segment.units) :=
    Atom.pieces_join (by decide) hne (fun segment _ => segment.flatMap_source_units)
      (fun segment _ h => (Segment.ne_of_plain_mem_units h).2.1 rfl)
      (fun segment _ => Segment.paired_units)
  refine parse_eq_ok_iff.mpr ⟨_, hpieces, ?_⟩
  rw [List.forall₂_map_left_iff, List.forall₂_same]
  exact fun segment hsegment => Segment.reads_units fun h => hkeys (h ▸ hsegment)

def renderAll (rules : List Rule) : Text :=
  Text.join ',' (rules.map render)

theorem splitRules_renderAll {rules : List Rule} (hne : rules ≠ []) :
    splitRules (renderAll rules) = rules.map render := by
  have hpieces : Atom.Pieces ',' (renderAll rules) (rules.map units) :=
    Atom.pieces_join (by decide) hne (fun rule _ => rule.flatMap_source_units)
      (fun rule _ => comma_notMem_units) (fun rule _ => paired_units)
  rw [hpieces.splitRules_eq, List.map_map]
  exact List.map_congr_left fun rule _ => rule.flatMap_source_units

-- The rules that a rendered list is read as are those of the list.
theorem parse_splitRules_renderAll (rules : List Rule) (hne : rules ≠ [])
    (hrules : ∀ rule ∈ rules, rule ≠ [] ∧ .literal [] ∉ rule) :
    splitRules (renderAll rules) = rules.map render ∧
      (splitRules (renderAll rules)).map parse = rules.map .ok := by
  have hsplit := splitRules_renderAll hne
  refine ⟨hsplit, ?_⟩
  rw [hsplit, List.map_map]
  exact List.map_congr_left fun rule hrule =>
    parse_render (hrules rule hrule).1 (hrules rule hrule).2

theorem parse_splitRules_renderAll_signs :
    let rules : List Rule := [[.literal "a.b,\\", .wildcard], [.literal "*", .literal " "]]
    renderAll rules = "a\\.b\\,\\\\.*,\\*. " ∧
      splitRules "a\\.b\\,\\\\.*,\\*. " = ["a\\.b\\,\\\\.*", "\\*. "] ∧
      (splitRules "a\\.b\\,\\\\.*,\\*. ").map parse = rules.map .ok := by
  intro rules
  have hrender : renderAll rules = "a\\.b\\,\\\\.*,\\*. " := by decide
  obtain ⟨hsplit, hparse⟩ := parse_splitRules_renderAll rules (by decide) (by decide)
  rw [hrender] at hsplit hparse
  exact ⟨hrender, hsplit.trans (by decide), hparse⟩

end Rule

end SpanTags
