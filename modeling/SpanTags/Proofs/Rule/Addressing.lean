import SpanTags.Proofs.Rule.Matching
import SpanTags.Proofs.Rule.Rendering
import SpanTags.Proofs.Rule.Splitting

namespace SpanTags

namespace Text

def escapeAll (key : Text) : Text :=
  key.escape fun _ => true

def endsBlank (t : Text) : Bool :=
  t.getLast?.any CodePoint.isBlank

variable {key : Text}

theorem escapeAll_concat (front : Text) (c : CodePoint) :
    escapeAll (front ++ [c]) = front.escapeAll ++ [('\\' : CodePoint), c] := by
  simp [escapeAll, escape]

theorem head?_escapeAll (hne : key ≠ []) : key.escapeAll.head? = some ('\\' : CodePoint) := by
  cases key with
  | nil => contradiction
  | cons c rest => rfl

theorem strip_eq_self {t : Text} {first last : CodePoint} (hhead : t.head? = some first)
    (hfirst : first.isBlank = false) (hlast : t.getLast? = some last)
    (hblank : last.isBlank = false) : t.strip = t := by
  obtain ⟨rest, rfl⟩ := List.head?_eq_some_iff.mp hhead
  have hleft : trimLeft CodePoint.isBlank (first :: rest) = first :: rest := by
    simp [trimLeft, hfirst]
  rw [strip, trim, hleft, trimRight_eq_self hlast hblank]

theorem strip_escapeAll (hne : key ≠ []) (hblank : key.endsBlank = false) :
    key.escapeAll.strip = key.escapeAll := by
  obtain ⟨front, c, rfl⟩ := (List.eq_nil_or_concat' key).resolve_left hne
  have hlast : (escapeAll (front ++ [c])).getLast? = some c := by
    rw [escapeAll_concat]
    simp
  exact strip_eq_self (head?_escapeAll hne) not_isBlank_backslash hlast
    (by simpa [endsBlank] using hblank)

-- The blank is taken for one around the rule, and its backslash stays behind.
theorem strip_escapeAll_concat {front : Text} {b : CodePoint} (hb : b.isBlank = true) :
    (escapeAll (front ++ [b])).strip = front.escapeAll ++ [('\\' : CodePoint)] := by
  have hsplit : escapeAll (front ++ [b]) = (front.escapeAll ++ [('\\' : CodePoint)]) ++ [b] := by
    rw [escapeAll_concat, List.append_assoc]
    rfl
  have hhead : (front.escapeAll ++ [('\\' : CodePoint)]).head? = some ('\\' : CodePoint) := by
    cases front with
    | nil => rfl
    | cons c rest => rfl
  rw [hsplit, strip_concat_of_isBlank hb]
  exact strip_eq_self hhead not_isBlank_backslash List.getLast?_concat not_isBlank_backslash

end Text

namespace Atom

variable {sep : CodePoint} {text : Text} {units : List Atom}

theorem pieces_singleton (hreads : Reads text units) (hapart : .plain sep ∉ units) :
    Pieces sep text [units] where
  ne_nil := List.cons_ne_nil _ _
  apart := List.forall_mem_singleton.mpr hapart
  reads := by rwa [List.intercalate_singleton]

variable (key : Text)

theorem plain_notMem_ofKey_all (c : CodePoint) : .plain c ∉ ofKey (fun _ => true) key :=
  fun h => Bool.false_ne_true (plain_mem_ofKey_iff.mp h).2.symm

theorem paired_ofKey_all : Paired (ofKey (fun _ => true) key) :=
  ⟨dangling_notMem_ofKey, plain_notMem_ofKey_all key '\\'⟩

end Atom

namespace Rule

variable {key : Text}

theorem reads_escapeAll (hne : key ≠ []) : Reads key.escapeAll [.literal key] := by
  have hreads : Atom.Reads key.escapeAll (Atom.ofKey (fun _ => true) key) :=
    ⟨(Atom.paired_ofKey_all key).written, Atom.flatMap_source_ofKey _ key⟩
  refine ⟨_, Atom.pieces_singleton hreads (Atom.plain_notMem_ofKey_all key '.'), ?_⟩
  refine List.forall₂_cons.mpr ⟨Atom.reads_ofKey hne fun hstar => ?_, .nil⟩
  exact Atom.plain_notMem_ofKey_all key '*' (hstar ▸ List.mem_cons_self)

theorem parse_escapeAll_backslash (front : Text) :
    parse (front.escapeAll ++ [('\\' : CodePoint)]) =
      .error (.danglingEscape (front.escapeAll ++ [('\\' : CodePoint)])) := by
  have hpaired := Atom.paired_ofKey_all front
  have hunits : Atom.ofText (front.escapeAll ++ [('\\' : CodePoint)]) =
      Atom.ofKey (fun _ => true) front ++ [.dangling] := by
    have hfront : Atom.ofText front.escapeAll = Atom.ofKey (fun _ => true) front :=
      Atom.ofText_eq_iff.mpr ⟨hpaired.written, Atom.flatMap_source_ofKey _ front⟩
    rw [Atom.ofText_append (hfront ▸ hpaired.1), hfront, Atom.ofText_backslash]
  have hapart : .plain '.' ∉ Atom.ofKey (fun _ => true) front ++ [.dangling] := by
    simp [Atom.plain_notMem_ofKey_all front '.']
  have hpieces := Atom.pieces_singleton (Atom.ofText_eq_iff.mp hunits) hapart
  rw [parse, hpieces.splitOn_eq, List.mapM_cons, Segment.ofAtoms, if_pos (by simp)]
  rfl

end Rule

namespace RuleSet

section Escaped

variable {key : Text} {keys : List Text}

theorem splitRules_escapeAll (hkeys : keys ≠ []) :
    splitRules (Text.join ',' (keys.map Text.escapeAll)) = keys.map Text.escapeAll := by
  have hpieces : Atom.Pieces ',' (Text.join ',' (keys.map Text.escapeAll))
      (keys.map (Atom.ofKey fun _ => true)) :=
    Atom.pieces_join (by decide) hkeys (fun key _ => Atom.flatMap_source_ofKey _ key)
      (fun key _ => Atom.plain_notMem_ofKey_all key ',')
      (fun key _ => Atom.paired_ofKey_all key)
  rw [hpieces.splitRules_eq, List.map_map]
  exact List.map_congr_left fun key _ => Atom.flatMap_source_ofKey _ key

theorem strip_join_escapeAll_ne_nil (hkeys : keys ≠ []) (hne : [] ∉ keys) :
    (Text.join ',' (keys.map Text.escapeAll)).strip ≠ [] := by
  refine Text.strip_ne_nil_of_mem (c := '\\') ?_ Text.not_isBlank_backslash
  obtain ⟨key, rest, rfl⟩ := List.exists_cons_of_ne_nil hkeys
  have hkey : key ≠ [] := fun hnil => hne (hnil ▸ List.mem_cons_self)
  have hfirst : ('\\' : CodePoint) ∈ key.escapeAll :=
    List.mem_of_mem_head? (Text.head?_escapeAll hkey)
  cases rest with
  | nil => simpa [Text.join] using hfirst
  | cons next rest =>
      rw [List.map_cons, List.map_cons, Text.join_cons_cons]
      exact List.mem_append_left _ (List.mem_append_left _ hfirst)

theorem readRule_escapeAll (source : Text) (hne : key ≠ []) (hblank : key.endsBlank = false) :
    readRule source key.escapeAll = .ok (key.escapeAll, [.literal key]) := by
  have hstrip := Text.strip_escapeAll hne hblank
  refine readRule_eq_ok_iff.mpr ⟨?_, hstrip.symm, ?_⟩
  · intro hnil
    have hhead := Text.head?_escapeAll hne
    rw [← hstrip, hnil] at hhead
    contradiction
  · rw [hstrip]
    exact Rule.parse_eq_ok_iff.mpr (Rule.reads_escapeAll hne)

theorem readRule_escapeAll_of_endsBlank (source : Text) (hblank : key.endsBlank = true) :
    readRule source key.escapeAll = .error (.danglingEscape key.escapeAll.dropLast) := by
  obtain hnil | ⟨front, b, hkey⟩ := List.eq_nil_or_concat' key
  · rw [hnil] at hblank
    contradiction
  · have hb : b.isBlank = true := by simpa [Text.endsBlank, hkey] using hblank
    have hlast : key.escapeAll.dropLast = Text.escapeAll front ++ [('\\' : CodePoint)] := by
      rw [hkey, Text.escapeAll_concat]
      simp
    rw [hlast, hkey, readRule, Text.strip_escapeAll_concat hb, if_neg (by simp),
      Rule.parse_escapeAll_backslash]
    rfl

theorem mapM_readRule_escapeAll (source : Text) (hne : [] ∉ keys)
    (hblank : ∀ key ∈ keys, key.endsBlank = false) :
    (keys.map Text.escapeAll).mapM (readRule source) =
      .ok (keys.map fun key => (key.escapeAll, [.literal key])) := by
  rw [mapM_eq_ok_iff, List.forall₂_map_left_iff, List.forall₂_map_right_iff, List.forall₂_same]
  exact fun key hkey =>
    readRule_escapeAll source (fun hnil => hne (hnil ▸ hkey)) (hblank key hkey)

theorem parse_escapeAll (hkeys : keys ≠ []) (hne : [] ∉ keys)
    (hblank : ∀ key ∈ keys, key.endsBlank = false) :
    parse (Text.join ',' (keys.map Text.escapeAll)) =
      .ok ⟨keys.map Text.escapeAll, keys.map fun key => [.literal key]⟩ := by
  rw [parse_eq_ok_iff (strip_join_escapeAll_ne_nil hkeys hne), splitRules_escapeAll hkeys]
  exact ⟨_, mapM_readRule_escapeAll _ hne hblank, by simp [Function.comp_def]⟩

-- The first key that ends in a blank decides.
theorem parse_escapeAll_of_endsBlank {front back : List Text} (hne : [] ∉ front ++ key :: back)
    (hfront : ∀ other ∈ front, other.endsBlank = false) (hkey : key.endsBlank = true) :
    parse (Text.join ',' ((front ++ key :: back).map Text.escapeAll)) =
      .error (.danglingEscape key.escapeAll.dropLast) := by
  have hkeys : front ++ key :: back ≠ [] := by simp
  rw [parse_eq_error_iff (strip_join_escapeAll_ne_nil hkeys hne), splitRules_escapeAll hkeys,
    List.map_append, List.map_cons]
  exact mapM_eq_error
    (mapM_readRule_escapeAll _ (fun hnil => hne (List.mem_append_left _ hnil)) hfront)
    (readRule_escapeAll_of_endsBlank _ hkey)

end Escaped

-- A key is addressed by a rule that has a backslash before each of its characters, unless it
-- ends in a blank. The first one that does is refused.
theorem ofOption_escapeAll (keys : List Text) (hkeys : keys ≠ []) (hne : [] ∉ keys) :
    let filter := some (Text.join ',' (keys.map Text.escapeAll))
    ((∃ set, ofOption filter = .ok set) ↔ ∀ key ∈ keys, key.endsBlank = false) ∧
    (∀ set, ofOption filter = .ok set →
      ∀ key, set.head.canTag key true = true ↔ key ∈ keys) ∧
    ∀ front key back, keys = front ++ key :: back →
      (∀ other ∈ front, other.endsBlank = false) → key.endsBlank = true →
        ofOption filter = .error (.danglingEscape key.escapeAll.dropLast) := by
  intro filter
  have hrefused : ∀ front key back, keys = front ++ key :: back →
      (∀ other ∈ front, other.endsBlank = false) → key.endsBlank = true →
        ofOption filter = .error (.danglingEscape key.escapeAll.dropLast) := by
    rintro front key back rfl hfront hkey
    exact parse_escapeAll_of_endsBlank hne hfront hkey
  have haccepted : (∃ set, ofOption filter = .ok set) ↔
      ∀ key ∈ keys, key.endsBlank = false := by
    refine ⟨?_, fun hblank => ⟨_, parse_escapeAll hkeys hne hblank⟩⟩
    rintro ⟨set, hset⟩
    have hnone : keys.find? Text.endsBlank = none := by
      by_contra hsome
      obtain ⟨key, hfind⟩ := Option.ne_none_iff_exists'.mp hsome
      obtain ⟨hkey, front, back, hsplit, hfront⟩ := List.find?_eq_some_iff_append.mp hfind
      rw [hrefused front key back hsplit (by simpa using hfront) hkey] at hset
      contradiction
    simpa using hnone
  refine ⟨haccepted, ?_, hrefused⟩
  intro set hset key
  have hrules : set.rules = keys.map fun key => [.literal key] := by
    have hparse := parse_escapeAll hkeys hne (haccepted.mp ⟨set, hset⟩)
    exact congrArg RuleSet.rules (Except.ok.inj (hset.symm.trans hparse))
  have htracks := RuleCursor.tracks_head (nil_notMem_rules hset)
  refine (htracks.canTag_iff key true).trans ?_
  rw [hrules]
  simp [Segment.Matches]

theorem ofOption_escapeAll_signs :
    let keys : List Text := [" *", "a.b", ",\\"]
    ((∃ set, ofOption (some "\\ \\*,\\a\\.\\b,\\,\\\\") = .ok set) ∧
      ∀ set, ofOption (some "\\ \\*,\\a\\.\\b,\\,\\\\") = .ok set →
        ∀ key, set.head.canTag key true = true ↔ key ∈ keys) ∧
    ofOption (some "\\a,\\b\\ ,\\ ") = .error (.danglingEscape "\\b\\") := by
  intro keys
  obtain ⟨haccepted, hexact, -⟩ := ofOption_escapeAll keys (by decide) (by decide)
  obtain ⟨-, -, hrefused⟩ := ofOption_escapeAll ["a", "b ", " "] (by decide) (by decide)
  exact ⟨⟨haccepted.mpr (by decide), hexact⟩,
    hrefused ["a"] "b " [" "] rfl (by decide) (by decide)⟩

-- The blank at the end goes, and the backslash before it is left without a partner.
theorem ofOption_escapeAll_blank :
    ¬∃ set, ofOption (some (Text.escapeAll "a ")) = .ok set := by
  rintro ⟨set, hset⟩
  have hfault : ofOption (some (Text.escapeAll "a ")) = .error (.danglingEscape "\\a\\") := rfl
  rw [hfault] at hset
  contradiction

end RuleSet

end SpanTags
