import SpanTags.Proofs.Rule.Rendering
import SpanTags.Proofs.Tag.Path

namespace SpanTags

-- A key as a rule without escapes names it: a star of its own is the wildcard.
def Segment.ofKey (key : Text) : Segment :=
  if key = "*" then .wildcard else .literal key

namespace Atom

-- How a unit stands in the path of a tag, where a dot alone has a backslash before it.
def inPath : Atom → Text
  | .plain c => [c]
  | .escaped c => Tag.escapeKey [c]
  | .dangling => []

theorem length_inPath_le (unit : Atom) : unit.inPath.length ≤ unit.source.length := by
  cases unit with
  | plain c => exact Nat.le_refl _
  | escaped c => by_cases hc : c = '.' <;> simp [inPath, Tag.escapeKey, source, hc]
  | dangling => exact Nat.zero_le _

theorem length_flatMap_inPath_le (units : List Atom) :
    (units.flatMap inPath).length ≤ (units.flatMap source).length := by
  induction units with
  | nil => exact Nat.le_refl _
  | cons unit rest ih =>
      have hunit := unit.length_inPath_le
      simp only [List.flatMap_cons, List.length_append]
      omega

-- No unit is longer in a path than in a rule. So one and the same text has no other escape
-- than that of a dot.
theorem eq_dot_of_escaped_mem {units : List Atom} {c : CodePoint}
    (h : units.flatMap inPath = units.flatMap source) (hc : .escaped c ∈ units) : c = '.' := by
  have hlen := congrArg List.length h
  clear h
  induction units with
  | nil => contradiction
  | cons unit rest ih =>
      have hunit := unit.length_inPath_le
      have hrest := length_flatMap_inPath_le rest
      simp only [List.flatMap_cons, List.length_append] at hlen
      rcases List.mem_cons.mp hc with rfl | hc
      · by_contra hne
        have hpath : (inPath (.escaped c)).length = 1 := by simp [inPath, Tag.escapeKey, hne]
        have hsource : (source (.escaped c)).length = 2 := rfl
        omega
      · exact ih hc (by omega)

theorem flatMap_inPath {units : List Atom} (hdot : .plain '.' ∉ units) :
    units.flatMap inPath = Tag.escapeKey (units.flatMap meaning) := by
  induction units with
  | nil => rfl
  | cons unit rest ih =>
      have hunit : unit.inPath = Tag.escapeKey unit.meaning := by
        cases unit with
        | plain c =>
            have hc : c ≠ '.' := by
              rintro rfl
              exact hdot List.mem_cons_self
            rw [meaning, Tag.escapeKey_cons_of_ne hc]
            rfl
        | escaped c => rfl
        | dangling => rfl
      rw [List.flatMap_cons, List.flatMap_cons, Tag.escapeKey_append, hunit,
        ih fun h => hdot (List.mem_cons_of_mem _ h)]

end Atom

theorem Segment.eq_of_reads_ofKey {units : List Atom} {key : Text}
    (h : Segment.Reads units (ofKey key)) : units.flatMap Atom.meaning = key := by
  unfold ofKey at h
  split at h
  · rename_i hstar
    cases h
    exact hstar.symm
  · cases h
    rfl

namespace Tag

theorem escapeKey_eq_escape (key : Text) : escapeKey key = key.escape (· = '.') := by
  simp [escapeKey, Text.escape]

theorem path_eq_join (root : Text) {keys : List Text} (hkeys : keys ≠ []) :
    path root keys = root ++ '.' ++ Text.join '.' (keys.map escapeKey) := by
  obtain ⟨key, rest, rfl⟩ := List.exists_cons_of_ne_nil hkeys
  clear hkeys
  induction rest generalizing root key with
  | nil => simp [path_cons, path_nil, Text.join]
  | cons next rest ih =>
      rw [path_cons, ih, List.map_cons, List.map_cons, List.map_cons, Text.join_cons_cons]
      simp

section Rule

variable {keys : List Text}

theorem reads_ofKey_dot {key : Text} (hne : key ≠ []) :
    Segment.Reads (Atom.ofKey (· = '.') key) (.ofKey key) := by
  unfold Segment.ofKey
  split
  · rename_i hstar
    subst hstar
    exact .wildcard
  · rename_i hstar
    refine Atom.reads_ofKey hne fun hunits => hstar ?_
    rw [← Atom.flatMap_meaning_ofKey (· = '.') key, hunits]
    rfl

theorem parse_join_escapeKey (hkeys : keys ≠ []) (hne : [] ∉ keys)
    (hplain : ∀ key ∈ keys, ('\\' : CodePoint) ∉ key) :
    Rule.parse (Text.join '.' (keys.map escapeKey)) = .ok (keys.map Segment.ofKey) := by
  have hpieces : Atom.Pieces '.' (Text.join '.' (keys.map escapeKey))
      (keys.map (Atom.ofKey (· = '.'))) := by
    refine Atom.pieces_join (by decide) hkeys ?_ ?_ ?_
    · intro key _
      rw [escapeKey_eq_escape, Atom.flatMap_source_ofKey]
    · intro key _ hdot
      simpa using (Atom.plain_mem_ofKey_iff.mp hdot).2
    · intro key hkey
      exact ⟨Atom.dangling_notMem_ofKey,
        fun hslash => hplain key hkey (Atom.plain_mem_ofKey_iff.mp hslash).1⟩
  refine Rule.parse_eq_ok_iff.mpr ⟨_, hpieces, ?_⟩
  rw [List.forall₂_map_left_iff, List.forall₂_map_right_iff, List.forall₂_same]
  exact fun key hkey => reads_ofKey_dot fun hnil => hne (hnil ▸ hkey)

theorem backslash_notMem_of_parse
    (h : Rule.parse (Text.join '.' (keys.map escapeKey)) = .ok (keys.map Segment.ofKey)) :
    ∀ key ∈ keys, ('\\' : CodePoint) ∉ key := by
  obtain ⟨parts, hpieces, hreads⟩ := Rule.parse_eq_ok_iff.mp h
  have hkeys : parts.map (·.flatMap Atom.meaning) = keys := by
    rw [← List.forall₂_eq_eq_eq, List.forall₂_map_left_iff]
    exact (List.forall₂_map_right_iff.mp hreads).imp fun part key => Segment.eq_of_reads_ofKey
  obtain ⟨hwritten, hsource⟩ := hpieces.reads
  have hpath : ([.plain '.'].intercalate parts).flatMap Atom.inPath =
      ([.plain '.'].intercalate parts).flatMap Atom.source := by
    rw [hsource, flatMap_intercalate, ← hkeys, List.map_map]
    have hparts : parts.map (·.flatMap Atom.inPath) =
        parts.map (escapeKey ∘ (·.flatMap Atom.meaning)) :=
      List.map_congr_left fun part hpart => Atom.flatMap_inPath (hpieces.apart part hpart)
    rw [hparts]
    rfl
  intro key hkey hslash
  rw [← hkeys] at hkey
  obtain ⟨part, hpart, rfl⟩ := List.mem_map.mp hkey
  obtain ⟨unit, hunit, hmeaning⟩ := List.mem_flatMap.mp hslash
  have hmem : unit ∈ [.plain '.'].intercalate parts :=
    (infix_intercalate_of_mem hpart).subset hunit
  -- a backslash is no plain character, and the only one escaped is the dot
  cases unit with
  | plain c =>
      rw [← List.mem_singleton.mp hmeaning] at hmem
      exact hwritten.backslash_notMem hmem
  | escaped c =>
      have hdot := Atom.eq_dot_of_escaped_mem hpath hmem
      rw [← List.mem_singleton.mp hmeaning] at hdot
      exact absurd hdot (by decide)
  | dangling => contradiction

end Rule

-- What follows the root in a path is a rule for the keys as long as none has a backslash.
theorem parse_path_iff (root : Text) (keys : List Text) (hkeys : keys ≠ []) (hne : [] ∉ keys) :
    let text := Text.join '.' (keys.map escapeKey)
    path root keys = root ++ '.' ++ text ∧
      (Rule.parse text = .ok (keys.map Segment.ofKey) ↔
        ∀ key ∈ keys, ('\\' : CodePoint) ∉ key) :=
  ⟨path_eq_join root hkeys, backslash_notMem_of_parse, parse_join_escapeKey hkeys hne⟩

theorem parse_path_iff_dots :
    path "p" ["a.b", "*", " *"] = "p.a\\.b.*. *" ∧
      Rule.parse "a\\.b.*. *" = .ok [.literal "a.b", .wildcard, .literal " *"] ∧
      Rule.parse "a\\.b" ≠ .ok [.literal "a\\", .literal "b"] := by
  obtain ⟨hpath, hparse⟩ := parse_path_iff "p" ["a.b", "*", " *"] (by decide) (by decide)
  obtain ⟨-, hslash⟩ := parse_path_iff "p" ["a\\", "b"] (by decide) (by decide)
  exact ⟨hpath, hparse.mpr (by decide), fun h => absurd (hslash.mp h) (by decide)⟩

end Tag

end SpanTags
