import SpanTags.Proofs.Except
import SpanTags.Proofs.Rule.Source
import SpanTags.Rule.RuleSet
import Mathlib.Data.List.TakeWhile

namespace SpanTags

namespace Text

theorem not_isBlank_backslash : CodePoint.isBlank '\\' = false := by
  decide

theorem trimRight_eq_self {drop : CodePoint → Bool} {t : Text} {last : CodePoint}
    (hlast : t.getLast? = some last) (hdrop : drop last = false) : t.trimRight drop = t := by
  obtain ⟨front, rfl⟩ := List.getLast?_eq_some_iff.mp hlast
  simp [trimRight, hdrop]

theorem strip_ne_nil_of_mem {t : Text} {c : CodePoint} (hc : c ∈ t) (hblank : c.isBlank = false) :
    t.strip ≠ [] := by
  have hleft : ∃ d ∈ t.dropWhile CodePoint.isBlank, d.isBlank = false := by
    have hne : t.dropWhile CodePoint.isBlank ≠ [] := fun hnil => by
      have hall := List.dropWhile_eq_nil_iff.mp hnil c hc
      rw [hblank] at hall
      contradiction
    exact ⟨_, List.head_mem hne, List.head_dropWhile_not _ hne⟩
  obtain ⟨d, hd, hdblank⟩ := hleft
  rw [strip, trim, trimRight, trimLeft, ne_eq, List.reverse_eq_nil_iff, List.dropWhile_eq_nil_iff]
  intro hall
  have hdrop := hall d (List.mem_reverse.mpr hd)
  rw [hdblank] at hdrop
  contradiction

end Text

namespace Atom

theorem dangling_mem_trimLeft {t : Text} (h : .dangling ∈ ofText t) :
    .dangling ∈ ofText (t.trimLeft CodePoint.isBlank) := by
  induction t with
  | nil => exact h
  | cons c rest ih =>
      by_cases hc : c.isBlank = true
      · have hne : c ≠ '\\' := by
          rintro rfl
          rw [Text.not_isBlank_backslash] at hc
          contradiction
        rw [ofText_cons_of_ne hne, List.mem_cons] at h
        have hrest := ih (h.resolve_left (by simp))
        simpa [Text.trimLeft, hc] using hrest
      · simpa [Text.trimLeft, hc] using h

theorem dangling_mem_strip {t : Text} (h : .dangling ∈ ofText t) : .dangling ∈ ofText t.strip := by
  have hleft := dangling_mem_trimLeft h
  have hlast := getLast?_eq_of_dangling_mem hleft
  rwa [Text.strip, Text.trim, Text.trimRight_eq_self hlast Text.not_isBlank_backslash]

end Atom

theorem Rule.ne_nil_of_parse {source : Text} {rule : Rule} (h : Rule.parse source = .ok rule) :
    rule ≠ [] := by
  intro hnil
  have hlen := (mapM_eq_ok_iff.mp h).length_eq
  rw [hnil, List.length_nil, List.length_eq_zero_iff] at hlen
  exact List.splitOn_ne_nil _ _ hlen

theorem Rule.dangling_notMem_of_parse {source : Text} {rule : Rule}
    (h : Rule.parse source = .ok rule) : .dangling ∉ Atom.ofText source := by
  intro hdangling
  obtain ⟨piece, hpiece, hmem⟩ := Atom.exists_mem_splitOn hdangling
    (show Atom.dangling ≠ .plain '.' by simp)
  obtain ⟨segment, -, hok⟩ := exists_ok_of_mapM h hpiece
  simp [Segment.ofAtoms, hmem] at hok

namespace RuleSet

theorem readRule_eq_ok_iff {source piece : Text} {pair : Text × Rule} :
    readRule source piece = .ok pair ↔
      piece.strip ≠ [] ∧ pair.1 = piece.strip ∧ Rule.parse piece.strip = .ok pair.2 := by
  unfold readRule
  by_cases hnil : piece.strip = []
  · simp [hnil, throw, throwThe, MonadExceptOf.throw, bind, Except.bind]
  · cases hparse : Rule.parse piece.strip with
    | error fault => simp [hnil, hparse]
    | ok rule => simp [hnil, hparse, Prod.ext_iff, eq_comm]

theorem parse_eq_ok_iff {source : Text} (hblank : source.strip ≠ []) {set : RuleSet} :
    parse source = .ok set ↔
      ∃ pairs, (splitRules source).mapM (readRule source) = .ok pairs ∧
        set = ⟨pairs.map Prod.fst, pairs.map Prod.snd⟩ := by
  simp only [parse, hblank, if_false]
  cases (splitRules source).mapM (readRule source) with
  | error fault => simp [bind, Except.bind]
  | ok pairs => simp [bind, Except.bind, pure, Except.pure, eq_comm]

theorem parse_eq_error_iff {source : Text} (hblank : source.strip ≠ []) {fault : RuleFault} :
    parse source = .error fault ↔ (splitRules source).mapM (readRule source) = .error fault := by
  simp only [parse, hblank, if_false]
  cases (splitRules source).mapM (readRule source) with
  | error fault' => simp [bind, Except.bind]
  | ok pairs => simp [bind, Except.bind, pure, Except.pure]

-- The rules are those of the pieces of the source.
theorem exists_parse_of_mem_rules {source : Text} {set : RuleSet} (h : parse source = .ok set)
    {rule : Rule} (hrule : rule ∈ set.rules) : ∃ piece, Rule.parse piece = .ok rule := by
  by_cases hblank : source.strip = []
  · rw [parse, if_pos hblank] at h
    rw [← Except.ok.inj h] at hrule
    contradiction
  · obtain ⟨pairs, hpairs, rfl⟩ := (parse_eq_ok_iff hblank).mp h
    obtain ⟨pair, hpair, rfl⟩ := List.mem_map.mp hrule
    obtain ⟨piece, -, hread⟩ := exists_item_of_mapM hpairs hpair
    exact ⟨piece.strip, (readRule_eq_ok_iff.mp hread).2.2⟩

theorem nil_notMem_rules {filter : Option Text} {set : RuleSet} (h : ofOption filter = .ok set) :
    [] ∉ set.rules := by
  intro hnil
  cases filter with
  | none =>
      rw [← Except.ok.inj h] at hnil
      contradiction
  | some source =>
      obtain ⟨piece, hpiece⟩ := exists_parse_of_mem_rules h hnil
      exact Rule.ne_nil_of_parse hpiece rfl

-- A source that is read to its end leaves no backslash without a partner.
theorem dangling_notMem_of_parse {source : Text} (hblank : source.strip ≠ []) {set : RuleSet}
    (h : parse source = .ok set) : .dangling ∉ Atom.ofText source := by
  intro hdangling
  obtain ⟨piece, hpiece, hmem⟩ := Atom.exists_mem_splitOn hdangling
    (show Atom.dangling ≠ .plain ',' by simp)
  have hwritten := Atom.written_of_mem_splitOn (Atom.written_ofText source) piece hpiece
  obtain ⟨pairs, hpairs, -⟩ := (parse_eq_ok_iff hblank).mp h
  obtain ⟨pair, -, hread⟩ := exists_ok_of_mapM hpairs (List.mem_map_of_mem hpiece)
  refine Rule.dangling_notMem_of_parse (readRule_eq_ok_iff.mp hread).2.2
    (Atom.dangling_mem_strip ?_)
  rwa [Atom.ofText_flatMap_source hwritten]

theorem splitRules_append_comma {front : Text} (h : .dangling ∉ Atom.ofText front) (back : Text) :
    splitRules (front ++ "," ++ back) = splitRules front ++ splitRules back := by
  have hcomma : Atom.ofText (("," : Text) ++ back) = .plain ',' :: Atom.ofText back :=
    Atom.ofText_cons_of_ne (by decide) back
  rw [splitRules, List.append_assoc, Atom.ofText_append h, hcomma,
    List.splitOn_append_cons_self, List.map_append]
  rfl

theorem mapM_readRule_congr {pieces : List Text} {source : Text} {pairs : List (Text × Rule)}
    (h : pieces.mapM (readRule source) = .ok pairs) (other : Text) :
    pieces.mapM (readRule other) = .ok pairs := by
  refine mapM_eq_ok_iff.mpr ((mapM_eq_ok_iff.mp h).imp fun piece pair hread => ?_)
  exact readRule_eq_ok_iff.mpr (readRule_eq_ok_iff.mp hread)

-- Two filters joined by a comma have the rules of the first and then those of the second.
theorem parse_append_comma {front back : Text} (hfront : front.strip ≠ []) (hback : back.strip ≠ [])
    {set set' : RuleSet} (h : parse front = .ok set) (h' : parse back = .ok set') :
    parse (front ++ "," ++ back) =
      .ok ⟨set.sources ++ set'.sources, set.rules ++ set'.rules⟩ := by
  have hblank : (front ++ "," ++ back).strip ≠ [] :=
    Text.strip_ne_nil_of_mem (c := ',') (by simp [Text.ofString]) (by decide)
  have hdangling := dangling_notMem_of_parse hfront h
  obtain ⟨pairs, hpairs, rfl⟩ := (parse_eq_ok_iff hfront).mp h
  obtain ⟨pairs', hpairs', rfl⟩ := (parse_eq_ok_iff hback).mp h'
  refine (parse_eq_ok_iff hblank).mpr ⟨pairs ++ pairs', ?_, by simp⟩
  rw [splitRules_append_comma hdangling, List.mapM_append, mapM_readRule_congr hpairs,
    mapM_readRule_congr hpairs']
  rfl

end RuleSet

end SpanTags
