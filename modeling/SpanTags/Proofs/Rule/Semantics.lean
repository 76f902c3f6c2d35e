import SpanTags.Proofs.Mask.Admission
import SpanTags.Proofs.Rule.Matching
import SpanTags.Proofs.Rule.Parsing

namespace SpanTags.RuleSet

variable {filter : Option Text} {set : RuleSet}

-- A cursor answers by the rules alone: a key is tagged if a rule has matched in full, and
-- a key that is not the last one also if a longer rule goes on with it.
theorem canTag_foldl_next_iff (h : ofOption filter = .ok set) (path : List Text) (key : Text)
    (isLast : Bool) :
    (∀ rule ∈ set.rules, rule ≠ []) ∧
    ((path.foldl RuleCursor.next set.head).canTag key isLast = true ↔
      (∃ rule ∈ set.rules,
        rule.length ≤ (path ++ [key]).length ∧ Rule.Agrees rule (path ++ [key])) ∨
      (isLast = false ∧ ∃ rule ∈ set.rules,
        (path ++ [key]).length < rule.length ∧ Rule.Agrees rule (path ++ [key]))) ∧
    ∀ other set', ofOption other = .ok set' → (∀ rule, rule ∈ set'.rules ↔ rule ∈ set.rules) →
      (path.foldl RuleCursor.next set'.head).canTag key isLast =
        (path.foldl RuleCursor.next set.head).canTag key isLast := by
  have hrules := nil_notMem_rules h
  have htracks := RuleCursor.tracks_foldl_next hrules path
  rw [List.length_append, List.length_singleton]
  refine ⟨fun rule hrule hnil => hrules (hnil ▸ hrule), htracks.canTag_iff key isLast, ?_⟩
  intro other set' h' hsame
  have htracks' := RuleCursor.tracks_foldl_next (nil_notMem_rules h') path
  rw [Bool.eq_iff_iff]
  refine (htracks'.canTag_iff key isLast).trans (.trans ?_ (htracks.canTag_iff key isLast).symm)
  simp only [hsame]

theorem canTag_foldl_next_overlapping :
    let set : RuleSet := ⟨["a.*.id", "*.b"],
      [[.literal "a", .wildcard, .literal "id"], [.wildcard, .literal "b"]]⟩
    ofOption (some " a.*.id,*.b") = .ok set ∧
      (List.foldl RuleCursor.next set.head ["a", "b"]).canTag "c" true = true ∧
      (List.foldl RuleCursor.next set.head ["a"]).canTag "c" false = true ∧
      (List.foldl RuleCursor.next set.head ["a"]).canTag "c" true = false := by
  intro set
  have h : ofOption (some " a.*.id,*.b") = .ok set := rfl
  have hin := (canTag_foldl_next_iff h ["a", "b"] "c" true).2.1
  have hbelow := (canTag_foldl_next_iff h ["a"] "c" false).2.1
  have hout := (canTag_foldl_next_iff h ["a"] "c" true).2.1
  refine ⟨h, hin.mpr ?_, hbelow.mpr ?_, ?_⟩
  · decide +kernel
  · decide +kernel
  · rw [← Bool.not_eq_true, hout]
    decide +kernel

section Mask

theorem mask_total (set : RuleSet) : set.mask.Total :=
  fun _ _ _ => ⟨_, rfl⟩

theorem grants_mask_iff (h : ofOption filter = .ok set) (keys : List Text) (key : Text)
    (v : Value) :
    set.mask.grants (set.mask.cursorAfter keys) key v = true ↔
      (∃ rule ∈ set.rules, rule.length ≤ keys.length + 1 ∧ Rule.Agrees rule (keys ++ [key])) ∨
        (v.isContainer = true ∧ ∃ rule ∈ set.rules,
          keys.length + 1 < rule.length ∧ Rule.Agrees rule (keys ++ [key])) := by
  have htracks := RuleCursor.tracks_foldl_next (nil_notMem_rules h) keys
  rw [← Bool.not_eq_false' (b := v.isContainer)]
  exact htracks.canTag_iff key (!v.isContainer)

theorem admits_mask_of_subset (h : ofOption filter = .ok set) {other : Option Text}
    {set' : RuleSet} (h' : ofOption other = .ok set') (hsub : set.rules ⊆ set'.rules)
    {way : List (Text × Value)} (hway : set.mask.Admits way) : set'.mask.Admits way := by
  intro i hi
  rw [grants_mask_iff h']
  refine ((grants_mask_iff h _ _ _).mp (hway i hi)).imp ?_ (And.imp_right ?_)
  · exact fun ⟨rule, hrule, hmatches⟩ => ⟨rule, hsub hrule, hmatches⟩
  · exact fun ⟨rule, hrule, hmatches⟩ => ⟨rule, hsub hrule, hmatches⟩

-- No rule is lost on the way: a rule that agrees with the keys of some containers admits
-- each of them.
theorem admits_mask_of_agrees (h : ofOption filter = .ok set) {way : List (Text × Value)}
    (hway : ∀ entry ∈ way, entry.2.isContainer = true) {rule : Rule} (hrule : rule ∈ set.rules)
    (hagrees : Rule.Agrees rule (way.map Prod.fst)) : set.mask.Admits way := by
  induction way using List.reverseRecOn with
  | nil => exact Mask.admits_nil
  | append_singleton front entry ih =>
      rw [List.map_append] at hagrees
      refine (Mask.admits_concat_iff front entry.1 entry.2).mpr
        ⟨ih (fun other ho => hway other (List.mem_append_left _ ho)) hagrees.of_append, ?_⟩
      rw [grants_mask_iff h]
      by_cases hlen : rule.length ≤ (front.map Prod.fst).length + 1
      · exact .inl ⟨rule, hrule, hlen, hagrees⟩
      · exact .inr ⟨hway entry (by simp), rule, hrule, by omega, hagrees⟩

theorem admits_mask_concat_iff (h : ofOption filter = .ok set) {front : List (Text × Value)}
    (hfront : ∀ entry ∈ front, entry.2.isContainer = true) (key : Text) (v : Value) :
    set.mask.Admits (front ++ [(key, v)]) ↔ ∃ rule ∈ set.rules,
      (v.isContainer = true ∨ rule.length ≤ front.length + 1) ∧
        Rule.Agrees rule (front.map Prod.fst ++ [key]) := by
  rw [Mask.admits_concat_iff, grants_mask_iff h, List.length_map]
  constructor
  · rintro ⟨-, ⟨rule, hrule, hlen, hagrees⟩ | ⟨hv, rule, hrule, -, hagrees⟩⟩
    · exact ⟨rule, hrule, .inr hlen, hagrees⟩
    · exact ⟨rule, hrule, .inl hv, hagrees⟩
  · rintro ⟨rule, hrule, hfits, hagrees⟩
    refine ⟨admits_mask_of_agrees h hfront hrule hagrees.of_append, ?_⟩
    by_cases hlen : rule.length ≤ front.length + 1
    · exact .inl ⟨rule, hrule, hlen, hagrees⟩
    · exact .inr ⟨hfits.resolve_right hlen, rule, hrule, by omega, hagrees⟩

end Mask

end SpanTags.RuleSet
