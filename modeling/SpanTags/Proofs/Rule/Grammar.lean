import SpanTags.Proofs.Rule.Parsing

namespace SpanTags

namespace Atom

variable {sep : CodePoint} {text : Text} {units : List Atom} {pieces : List (List Atom)}

-- The text as its units write it.
def Reads (text : Text) (units : List Atom) : Prop :=
  Written units ∧ units.flatMap source = text

theorem flatMap_source_ofText (text : Text) : (ofText text).flatMap source = text := by
  induction text using textInduction with
  | nil => rfl
  | backslash => rfl
  | pair c t ih =>
      rw [ofText_backslash_cons, List.flatMap_cons, ih]
      rfl
  | char c t hc ih =>
      rw [ofText_cons_of_ne hc, List.flatMap_cons, ih]
      rfl

-- Each text is read in one way.
theorem ofText_eq_iff : ofText text = units ↔ Reads text units := by
  constructor
  · rintro rfl
    exact ⟨written_ofText text, flatMap_source_ofText text⟩
  · rintro ⟨hwritten, rfl⟩
    exact ofText_flatMap_source hwritten

-- The units of a text fall into pieces at the separators that no backslash precedes.
structure Pieces (sep : CodePoint) (text : Text) (pieces : List (List Atom)) : Prop where
  ne_nil : pieces ≠ []
  apart : ∀ piece ∈ pieces, .plain sep ∉ piece
  reads : Reads text ([.plain sep].intercalate pieces)

theorem splitOn_ofText_eq_iff :
    (ofText text).splitOn (.plain sep) = pieces ↔ Pieces sep text pieces := by
  rw [splitOn_eq_iff, eq_comm (b := ofText text), ofText_eq_iff]
  exact ⟨fun ⟨hne, hapart, hreads⟩ => ⟨hne, hapart, hreads⟩,
    fun h => ⟨h.ne_nil, h.apart, h.reads⟩⟩

theorem Pieces.splitOn_eq (h : Pieces sep text pieces) :
    (ofText text).splitOn (.plain sep) = pieces :=
  splitOn_ofText_eq_iff.mpr h

theorem pieces_splitOn (sep : CodePoint) (text : Text) :
    Pieces sep text ((ofText text).splitOn (.plain sep)) :=
  splitOn_ofText_eq_iff.mp rfl

end Atom

namespace Segment

-- A star of its own is the wildcard. Any other segment stands for its units without the
-- backslashes that escape them.
inductive Reads : List Atom → Segment → Prop
  | wildcard : Reads [.plain '*'] .wildcard
  | literal {units : List Atom} (hne : units ≠ []) (hstar : units ≠ [.plain '*'])
      (hpaired : .dangling ∉ units) : Reads units (.literal (units.flatMap Atom.meaning))

theorem ofAtoms_eq_ok_iff {rule : Text} {units : List Atom} {segment : Segment} :
    ofAtoms rule units = .ok segment ↔ Reads units segment := by
  unfold ofAtoms
  constructor
  · intro h
    split_ifs at h with hdangling hnil hstar
    · cases h
      subst hstar
      exact .wildcard
    · cases h
      exact .literal hnil hstar hdangling
  · intro h
    cases h with
    | wildcard => rfl
    | literal hne hstar hpaired => rw [if_neg hpaired, if_neg hne, if_neg hstar]

end Segment

namespace Rule

-- One segment for each part between the plain dots.
def Reads (text : Text) (rule : Rule) : Prop :=
  ∃ parts, Atom.Pieces '.' text parts ∧ List.Forall₂ Segment.Reads parts rule

theorem parse_eq_ok_iff {text : Text} {rule : Rule} : parse text = .ok rule ↔ Reads text rule := by
  have hparts : parse text = .ok rule ↔
      List.Forall₂ Segment.Reads ((Atom.ofText text).splitOn (.plain '.')) rule := by
    rw [parse, mapM_eq_ok_iff]
    simp only [Segment.ofAtoms_eq_ok_iff]
  rw [hparts]
  constructor
  · exact fun h => ⟨_, Atom.pieces_splitOn '.' text, h⟩
  · rintro ⟨parts, hpieces, h⟩
    rwa [hpieces.splitOn_eq]

end Rule

theorem Text.strip_eq_nil_iff {t : Text} : t.strip = [] ↔ ∀ c ∈ t, c.isBlank = true := by
  constructor
  · intro h c hc
    by_contra hblank
    exact strip_ne_nil_of_mem hc (eq_false_of_ne_true hblank) h
  · intro h
    simp [strip, trim, trimLeft, trimRight, List.dropWhile_eq_nil_iff.mpr h]

namespace Atom.Pieces

variable {text : Text} {pieces : List (List Atom)}

theorem splitRules_eq (h : Pieces ',' text pieces) :
    splitRules text = pieces.map (·.flatMap Atom.source) := by
  rw [splitRules, h.splitOn_eq]

theorem strip_eq_nil_of_blank {sep : CodePoint} (h : Pieces sep text pieces)
    (hblank : ∀ c ∈ text, c.isBlank = true) {piece : List Atom} (hpiece : piece ∈ pieces) :
    Text.strip (piece.flatMap Atom.source) = [] := by
  refine Text.strip_eq_nil_iff.mpr fun c hc => hblank c ?_
  obtain ⟨unit, hunit, hc⟩ := List.mem_flatMap.mp hc
  rw [← h.reads.2]
  exact List.mem_flatMap_of_mem ((infix_intercalate_of_mem hpiece).subset hunit) hc

end Atom.Pieces

namespace RuleSet

variable {source : Text} {set : RuleSet}

-- A filter of blanks alone has no rules. Any other has one for each piece between the plain
-- commas, which is read without the blanks around it.
inductive Reads : Option Text → RuleSet → Prop
  | absent : Reads none empty
  | blank {source : Text} (hblank : ∀ c ∈ source, c.isBlank = true) : Reads (some source) empty
  | listed {source : Text} {set : RuleSet} {pieces : List (List Atom)}
      (hpieces : Atom.Pieces ',' source pieces)
      (hsources : set.sources = pieces.map fun piece => Text.strip (piece.flatMap Atom.source))
      (hne : [] ∉ set.sources) (hrules : List.Forall₂ Rule.Reads set.sources set.rules) :
      Reads (some source) set

theorem mapM_readRule_eq_ok_iff {pieces : List Text} {pairs : List (Text × Rule)} :
    pieces.mapM (readRule source) = .ok pairs ↔
      pairs.map Prod.fst = pieces.map Text.strip ∧ [] ∉ pairs.map Prod.fst ∧
        List.Forall₂ Rule.Reads (pairs.map Prod.fst) (pairs.map Prod.snd) := by
  rw [mapM_eq_ok_iff]
  induction pieces generalizing pairs with
  | nil => cases pairs <;> simp
  | cons piece rest ih =>
      cases pairs with
      | nil => simp
      | cons pair others =>
          rw [List.forall₂_cons, readRule_eq_ok_iff, Rule.parse_eq_ok_iff, ih]
          simp only [List.map_cons, List.cons.injEq, List.mem_cons, not_or, List.forall₂_cons]
          constructor
          · rintro ⟨⟨hne, hsource, hrule⟩, hsources, hnes, hrules⟩
            rw [hsource]
            exact ⟨⟨rfl, hsources⟩, ⟨Ne.symm hne, hnes⟩, hrule, hrules⟩
          · rintro ⟨⟨hsource, hsources⟩, ⟨hne, hnes⟩, hrule, hrules⟩
            rw [hsource] at hne hrule
            exact ⟨⟨Ne.symm hne, hsource, hrule⟩, hsources, hnes, hrules⟩

theorem parse_eq_ok_iff_of_pieces {pieces : List (List Atom)} (hblank : source.strip ≠ [])
    (hpieces : Atom.Pieces ',' source pieces) :
    parse source = .ok set ↔
      set.sources = pieces.map (fun piece => Text.strip (piece.flatMap Atom.source)) ∧
        [] ∉ set.sources ∧ List.Forall₂ Rule.Reads set.sources set.rules := by
  have hsplit : (splitRules source).map Text.strip =
      pieces.map fun piece => Text.strip (piece.flatMap Atom.source) := by
    rw [hpieces.splitRules_eq, List.map_map]
    rfl
  simp only [parse_eq_ok_iff hblank, mapM_readRule_eq_ok_iff, hsplit]
  constructor
  · rintro ⟨pairs, h, rfl⟩
    exact h
  · rintro ⟨hsources, hne, hrules⟩
    have hfst : (set.sources.zip set.rules).map Prod.fst = set.sources :=
      List.map_fst_zip hrules.length_eq.le
    have hsnd : (set.sources.zip set.rules).map Prod.snd = set.rules :=
      List.map_snd_zip hrules.length_eq.ge
    refine ⟨set.sources.zip set.rules, ?_, by rw [hfst, hsnd]⟩
    rw [hfst, hsnd]
    exact ⟨hsources, hne, hrules⟩

theorem parse_eq_ok_iff_reads : parse source = .ok set ↔ Reads (some source) set := by
  by_cases hblank : source.strip = []
  · have hall := Text.strip_eq_nil_iff.mp hblank
    rw [parse, if_pos hblank]
    constructor
    · intro h
      cases h
      exact .blank hall
    · intro h
      cases h with
      | blank => rfl
      | listed hpieces hsources hne =>
          obtain ⟨piece, hpiece⟩ := List.exists_mem_of_ne_nil _ hpieces.ne_nil
          refine absurd ?_ hne
          rw [hsources, ← hpieces.strip_eq_nil_of_blank hall hpiece]
          exact List.mem_map_of_mem hpiece
  · constructor
    · intro h
      have hpieces := Atom.pieces_splitOn ',' source
      obtain ⟨hsources, hne, hrules⟩ := (parse_eq_ok_iff_of_pieces hblank hpieces).mp h
      exact .listed hpieces hsources hne hrules
    · intro h
      cases h with
      | blank hall => exact absurd (Text.strip_eq_nil_iff.mpr hall) hblank
      | listed hpieces hsources hne hrules =>
          exact (parse_eq_ok_iff_of_pieces hblank hpieces).mpr ⟨hsources, hne, hrules⟩

-- What is read is what the grammar says, and all else is refused.
theorem ofOption_eq_ok_iff (filter : Option Text) :
    (∀ set, ofOption filter = .ok set ↔ Reads filter set) ∧
      ((∃ fault, ofOption filter = .error fault) ↔ ∀ set, ¬Reads filter set) := by
  have hok : ∀ set, ofOption filter = .ok set ↔ Reads filter set := by
    intro set
    cases filter with
    | none =>
        constructor
        · intro h
          cases h
          exact .absent
        · intro h
          cases h
          rfl
    | some source => exact parse_eq_ok_iff_reads
  refine ⟨hok, ?_⟩
  simp only [← hok]
  cases ofOption filter with
  | error fault => simp
  | ok set => simp

-- The blanks in front of an escape and within a rule are told from those around it.
example : ofOption (some " a\\.b.* ,\\ \\*.c d") =
    .ok ⟨["a\\.b.*", "\\ \\*.c d"],
      [[.literal "a.b", .wildcard], [.literal " *", .literal "c d"]]⟩ := rfl

end RuleSet

end SpanTags
