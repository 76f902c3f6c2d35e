import SpanTags.Proofs.Rule.Rendering
import SpanTags.Proofs.Rule.Splitting

namespace SpanTags

namespace Atom

variable {sep b : CodePoint}

-- One more character at the end can become the partner of a backslash, but the other units
-- stay as they are.
theorem plain_mem_ofText_concat_iff (hb : b ≠ sep) (t : Text) :
    .plain sep ∈ ofText (t ++ [b]) ↔ .plain sep ∈ ofText t := by
  induction t using textInduction with
  | nil =>
      by_cases hslash : b = '\\'
      · simp [hslash, ofText]
      · simp [ofText, hslash, Ne.symm hb]
  | backslash => simp [ofText]
  | pair c t ih => simpa using ih
  | char c t hc ih =>
      rw [List.cons_append, ofText_cons_of_ne hc, ofText_cons_of_ne hc, List.mem_cons,
        List.mem_cons, ih]

-- The blanks around a text are none of its separators.
theorem plain_mem_ofText_strip_iff (hsep : sep.isBlank = false) (t : Text) :
    .plain sep ∈ ofText t.strip ↔ .plain sep ∈ ofText t := by
  have hne : ∀ b, CodePoint.isBlank b = true → b ≠ sep := by
    rintro b hb rfl
    rw [hsep] at hb
    contradiction
  refine iff_of_eq (Text.apply_strip (f := fun t => .plain sep ∈ ofText t) ?_ ?_ t)
  · intro b t hb
    have hslash := (CodePoint.ne_of_isBlank hb).1
    simp [ofText_cons_of_ne hslash, Ne.symm (hne b hb)]
  · intro b t hb
    exact propext (plain_mem_ofText_concat_iff (hne b hb) t)

namespace Pieces

variable {text : Text} {pieces : List (List Atom)} {piece : List Atom}

theorem ofText_flatMap_source (h : Pieces sep text pieces) (hpiece : piece ∈ pieces) :
    ofText (piece.flatMap source) = piece :=
  Atom.ofText_flatMap_source (h.reads.1.of_isInfix (infix_intercalate_of_mem hpiece))

end Pieces

end Atom

namespace RuleSet

variable {source : Text} {filter : Option Text} {set : RuleSet}

-- A recorded rule is a text that can stand between two commas: it has no plain comma, its
-- backslashes have their partners, and there are no blanks around it.
structure Recorded (rule : Text) : Prop where
  apart : .plain ',' ∉ Atom.ofText rule
  paired : Atom.Paired (Atom.ofText rule)
  strip_eq : rule.strip = rule

theorem recorded_of_mem_sources (h : parse source = .ok set) :
    ∀ rule ∈ set.sources, Recorded rule := by
  intro rule hrule
  cases parse_eq_ok_iff_reads.mp h with
  | blank => contradiction
  | listed hpieces hsources _ hrules =>
      obtain ⟨parsed, -, hreads⟩ := exists_of_forall₂ hrules hrule
      rw [hsources] at hrule
      obtain ⟨piece, hpiece, rfl⟩ := List.mem_map.mp hrule
      refine ⟨?_, ⟨?_, ?_⟩, Text.strip_strip _⟩
      · rw [Atom.plain_mem_ofText_strip_iff (by decide), hpieces.ofText_flatMap_source hpiece]
        exact hpieces.apart piece hpiece
      · exact Rule.dangling_notMem_of_parse (Rule.parse_eq_ok_iff.mpr hreads)
      · exact (Atom.written_ofText _).backslash_notMem

-- So the recorded rules are the pieces of the text that joins them.
theorem pieces_source (hne : set.sources ≠ []) (h : ∀ rule ∈ set.sources, Recorded rule) :
    Atom.Pieces ',' set.source (set.sources.map Atom.ofText) := by
  have hpieces : Atom.Pieces ',' (Text.join [','] (set.sources.map id))
      (set.sources.map Atom.ofText) :=
    Atom.pieces_join (by decide) hne (fun rule _ => Atom.flatMap_source_ofText rule)
      (fun rule hrule => (h rule hrule).apart) (fun rule hrule => (h rule hrule).paired)
  rwa [List.map_id] at hpieces

-- The recorded rules, joined by commas, are read as the rules that they were recorded for.
theorem ofOption_source (h : ofOption filter = .ok set) :
    ofOption (some set.source) = .ok set := by
  cases filter with
  | none =>
      obtain rfl := Except.ok.inj h
      rfl
  | some source =>
      cases parse_eq_ok_iff_reads.mp h with
      | blank => rfl
      | listed hpieces hsources hne hrules =>
          have hrecorded := recorded_of_mem_sources h
          have hsome : set.sources ≠ [] := by
            rw [hsources, ne_eq, List.map_eq_nil_iff]
            exact hpieces.ne_nil
          refine parse_eq_ok_iff_reads.mpr (.listed (pieces_source hsome hrecorded) ?_ hne hrules)
          rw [List.map_map]
          refine ((List.map_congr_left fun rule hrule => ?_).trans (List.map_id _)).symm
          rw [Function.comp_apply, Atom.flatMap_source_ofText]
          exact (hrecorded rule hrule).strip_eq

theorem ofOption_source_blanks :
    let set : RuleSet := ⟨["a\\,b.*", "\\ c d"],
      [[.literal "a,b", .wildcard], [.literal " c d"]]⟩
    ofOption (some " a\\,b.* ,\t\\ c d ") = .ok set ∧ set.source = "a\\,b.*,\\ c d" ∧
      ofOption (some "a\\,b.*,\\ c d") = .ok set := by
  intro set
  have h : ofOption (some " a\\,b.* ,\t\\ c d ") = .ok set := rfl
  have hsource : set.source = "a\\,b.*,\\ c d" := rfl
  have hagain := ofOption_source h
  rw [hsource] at hagain
  exact ⟨h, hsource, hagain⟩

end RuleSet

end SpanTags
