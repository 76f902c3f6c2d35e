import SpanTags.Tag.Basic
import Mathlib.Data.List.Basic

namespace SpanTags.Tag

section Escape

theorem escapeKey_dot (t : Text) :
    escapeKey (('.' : CodePoint) :: t) =
      ('\\' : CodePoint) :: ('.' : CodePoint) :: escapeKey t := by
  simp [escapeKey]

theorem escapeKey_cons_of_ne {c : CodePoint} (hc : c ≠ '.') (t : Text) :
    escapeKey (c :: t) = c :: escapeKey t := by
  simp [escapeKey, hc]

theorem escapeKey_append (t u : Text) : escapeKey (t ++ u) = escapeKey t ++ escapeKey u := by
  simp [escapeKey]

-- An escaped key never begins with a dot.
theorem eq_nil_of_escapeKey_append {key u u' : Text} (hu : ∀ c ∈ u.head?, c = '.')
    (h : u = escapeKey key ++ u') : key = [] := by
  cases key with
  | nil => rfl
  | cons c t =>
      by_cases hc : c = '.'
      · subst hc
        rw [h, escapeKey_dot] at hu
        have hdot : ('\\' : CodePoint) = '.' := hu _ rfl
        exact absurd hdot (by decide)
      · rw [h, escapeKey_cons_of_ne hc] at hu
        exact absurd (hu c rfl) hc

theorem getLast?_ne_of_cons {c d : CodePoint} {t : Text} (h : (c :: t).getLast? ≠ some d) :
    t.getLast? ≠ some d := by
  cases t with
  | nil => simp
  | cons e t => simpa using h

-- A dot with a backslash before it does not end a key, unless the key ends in one itself.
theorem false_of_escaped_dot {key t u u' : Text}
    (hkey : u' ≠ [] → (('\\' : CodePoint) :: key).getLast? ≠ some ('\\' : CodePoint))
    (h : ('.' : CodePoint) :: (escapeKey t ++ u) = escapeKey key ++ u') : False := by
  have hnil : key = [] := eq_nil_of_escapeKey_append (by simp) h
  subst hnil
  refine hkey ?_ rfl
  rintro rfl
  simp [escapeKey] at h

-- A key is read off up to the next dot without a backslash. What follows it is nothing,
-- or begins with such a dot.
theorem escapeKey_append_inj {key key' u u' : Text} (hu : ∀ c ∈ u.head?, c = '.')
    (hu' : ∀ c ∈ u'.head?, c = '.') (hkey : u ≠ [] → key.getLast? ≠ some ('\\' : CodePoint))
    (hkey' : u' ≠ [] → key'.getLast? ≠ some ('\\' : CodePoint))
    (h : escapeKey key ++ u = escapeKey key' ++ u') : key = key' ∧ u = u' := by
  induction key generalizing key' with
  | nil =>
      have hnil : key' = [] := eq_nil_of_escapeKey_append hu h
      subst hnil
      exact ⟨rfl, h⟩
  | cons c t ih =>
      cases key' with
      | nil => exact absurd (eq_nil_of_escapeKey_append hu' h.symm) (List.cons_ne_nil c t)
      | cons c' t' =>
          have hrest := ih (fun hne => getLast?_ne_of_cons (hkey hne))
            (fun hne => getLast?_ne_of_cons (hkey' hne))
          by_cases hc : c = '.' <;> by_cases hc' : c' = '.'
          · subst hc hc'
            simp only [escapeKey_dot, List.cons_append, List.cons.injEq, true_and] at h
            exact (hrest h).imp_left fun heq => by rw [heq]
          · subst hc
            simp only [escapeKey_dot, escapeKey_cons_of_ne hc', List.cons_append,
              List.cons.injEq] at h
            obtain ⟨rfl, h⟩ := h
            exact (false_of_escaped_dot hkey' h).elim
          · subst hc'
            simp only [escapeKey_dot, escapeKey_cons_of_ne hc, List.cons_append,
              List.cons.injEq] at h
            obtain ⟨rfl, h⟩ := h
            exact (false_of_escaped_dot hkey h.symm).elim
          · simp only [escapeKey_cons_of_ne hc, escapeKey_cons_of_ne hc', List.cons_append,
              List.cons.injEq] at h
            obtain ⟨rfl, h⟩ := h
            exact (hrest h).imp_left fun heq => by rw [heq]

end Escape

theorem path_nil (root : Text) : path root [] = root := by
  simp [path]

theorem path_cons (root key : Text) (rest : List Text) :
    path root (key :: rest) = root ++ ('.' : CodePoint) :: (escapeKey key ++ path [] rest) := by
  simp [path]

theorem path_eq_append (root : Text) (keys : List Text) :
    path root keys = root ++ path [] keys := by
  simp [path]

section Apart

-- No key but the last one ends in a backslash.
def Apart (keys : List Text) : Prop :=
  ∀ key ∈ keys.dropLast, key.getLast? ≠ some ('\\' : CodePoint)

instance (keys : List Text) : Decidable (Apart keys) :=
  inferInstanceAs (Decidable (∀ key ∈ keys.dropLast, _))

theorem apart_cons_cons_iff (key next : Text) (rest : List Text) :
    Apart (key :: next :: rest) ↔
      key.getLast? ≠ some ('\\' : CodePoint) ∧ Apart (next :: rest) := by
  simp only [Apart, List.dropLast_cons_cons, List.forall_mem_cons]

theorem Apart.tail {key : Text} {rest : List Text} (h : Apart (key :: rest)) : Apart rest := by
  cases rest with
  | nil => exact List.forall_mem_nil _
  | cons next rest => exact ((apart_cons_cons_iff key next rest).mp h).2

theorem Apart.getLast?_ne {key : Text} {rest : List Text} (h : Apart (key :: rest))
    (hrest : path [] rest ≠ []) : key.getLast? ≠ some ('\\' : CodePoint) := by
  cases rest with
  | nil => exact absurd (path_nil []) hrest
  | cons next rest => exact ((apart_cons_cons_iff key next rest).mp h).1

theorem eq_dot_of_mem_head?_path (keys : List Text) : ∀ c ∈ (path [] keys).head?, c = '.' := by
  cases keys with
  | nil => simp [path_nil]
  | cons key rest => simp [path_cons]

theorem path_injOn_apart (root : Text) {keys keys' : List Text} (hkeys : Apart keys)
    (hkeys' : Apart keys') (h : path root keys = path root keys') : keys = keys' := by
  rw [path_eq_append root keys, path_eq_append root keys', List.append_right_inj] at h
  induction keys generalizing keys' with
  | nil =>
      cases keys' with
      | nil => rfl
      | cons key' rest' => simp [path_nil, path_cons] at h
  | cons key rest ih =>
      cases keys' with
      | nil => simp [path_nil, path_cons] at h
      | cons key' rest' =>
          simp only [path_cons, List.nil_append, List.cons.injEq, true_and] at h
          obtain ⟨rfl, hrest⟩ := escapeKey_append_inj (eq_dot_of_mem_head?_path rest)
            (eq_dot_of_mem_head?_path rest') hkeys.getLast?_ne hkeys'.getLast?_ne h
          rw [ih hkeys.tail hkeys'.tail hrest]

end Apart

section Joined

def joinOnto (key : Text) : List Text → List Text
  | [] => [key]
  | next :: rest =>
    if key.getLast? = some ('\\' : CodePoint) then
      joinOnto (key.dropLast ++ ('.' : CodePoint) :: next) rest
    else key :: joinOnto next rest

-- The keys as they can be told from their path. A key that ends in a backslash runs into
-- the next one: the path shows the two as one key with a dot between them.
def joined : List Text → List Text
  | [] => []
  | key :: rest => joinOnto key rest

theorem joinOnto_of_getLast? {key : Text} (h : key.getLast? = some ('\\' : CodePoint))
    (next : Text) (rest : List Text) :
    joinOnto key (next :: rest) = joinOnto (key.dropLast ++ ('.' : CodePoint) :: next) rest :=
  if_pos h

theorem joinOnto_of_getLast?_ne {key : Text} (h : key.getLast? ≠ some ('\\' : CodePoint))
    (next : Text) (rest : List Text) :
    joinOnto key (next :: rest) = key :: joinOnto next rest :=
  if_neg h

theorem path_joinOnto (root key : Text) (rest : List Text) :
    path root (joinOnto key rest) = path root (key :: rest) := by
  induction rest generalizing root key with
  | nil => rfl
  | cons next rest ih =>
      by_cases hlast : key.getLast? = some ('\\' : CodePoint)
      · obtain ⟨front, rfl⟩ := List.getLast?_eq_some_iff.mp hlast
        have hplain : escapeKey ['\\'] = (['\\'] : Text) := by decide
        rw [joinOnto_of_getLast? hlast, ih, List.dropLast_concat]
        simp only [path_cons, escapeKey_append, escapeKey_dot, hplain, List.append_assoc,
          List.cons_append, List.nil_append]
      · rw [joinOnto_of_getLast?_ne hlast, path_cons, ih, ← path_cons]

theorem path_joined (root : Text) (keys : List Text) :
    path root (joined keys) = path root keys := by
  cases keys with
  | nil => rfl
  | cons key rest => exact path_joinOnto root key rest

theorem exists_joinOnto (key : Text) (rest : List Text) :
    ∃ first others, joinOnto key rest = first :: others := by
  induction rest generalizing key with
  | nil => exact ⟨key, [], rfl⟩
  | cons next rest ih =>
      unfold joinOnto
      split
      · exact ih _
      · exact ⟨key, _, rfl⟩

theorem apart_joinOnto (key : Text) (rest : List Text) : Apart (joinOnto key rest) := by
  induction rest generalizing key with
  | nil => exact List.forall_mem_nil _
  | cons next rest ih =>
      by_cases hlast : key.getLast? = some ('\\' : CodePoint)
      · rw [joinOnto_of_getLast? hlast]
        exact ih _
      · obtain ⟨first, others, hjoined⟩ := exists_joinOnto next rest
        rw [joinOnto_of_getLast?_ne hlast, hjoined, apart_cons_cons_iff, ← hjoined]
        exact ⟨hlast, ih next⟩

theorem apart_joined (keys : List Text) : Apart (joined keys) := by
  cases keys with
  | nil => exact List.forall_mem_nil _
  | cons key rest => exact apart_joinOnto key rest

theorem joinOnto_of_apart {key : Text} {rest : List Text} (h : Apart (key :: rest)) :
    joinOnto key rest = key :: rest := by
  induction rest generalizing key with
  | nil => rfl
  | cons next rest ih =>
      rw [joinOnto_of_getLast?_ne ((apart_cons_cons_iff key next rest).mp h).1, ih h.tail]

theorem joined_of_apart {keys : List Text} (h : Apart keys) : joined keys = keys := by
  cases keys with
  | nil => rfl
  | cons key rest => exact joinOnto_of_apart h

-- Two key lists have the same path exactly if they are the same once joined.
theorem path_eq_path_iff (root : Text) (keys keys' : List Text) :
    path root keys = path root keys' ↔ joined keys = joined keys' := by
  constructor
  · intro h
    rw [← path_joined root keys, ← path_joined root keys'] at h
    exact path_injOn_apart root (apart_joined keys) (apart_joined keys') h
  · intro h
    rw [← path_joined root keys, h, path_joined]

theorem eq_or_dot_mem_of_joinOnto {key first : Text} {rest others : List Text}
    (h : joinOnto key rest = first :: others) : first = key ∨ ('.' : CodePoint) ∈ first := by
  induction rest generalizing key with
  | nil => exact .inl (List.cons.inj h).1.symm
  | cons next rest ih =>
      by_cases hlast : key.getLast? = some ('\\' : CodePoint)
      · rw [joinOnto_of_getLast? hlast] at h
        rcases ih h with rfl | hdot
        · exact .inr (by simp)
        · exact .inr hdot
      · rw [joinOnto_of_getLast?_ne hlast] at h
        exact .inl (List.cons.inj h).1.symm

-- The path shows the first key as it is if that has no dot and does not end in a backslash.
theorem head?_eq_of_path_eq {root key : Text} {keys rest : List Text}
    (hdot : ('.' : CodePoint) ∉ key) (hlast : key.getLast? ≠ some ('\\' : CodePoint))
    (h : path root keys = path root (key :: rest)) : keys.head? = some key := by
  have hjoined : ∃ others, joined (key :: rest) = key :: others := by
    cases rest with
    | nil => exact ⟨[], rfl⟩
    | cons next rest => exact ⟨_, joinOnto_of_getLast?_ne hlast next rest⟩
  obtain ⟨others, hothers⟩ := hjoined
  rw [path_eq_path_iff, hothers] at h
  cases keys with
  | nil => contradiction
  | cons first keys =>
      rcases eq_or_dot_mem_of_joinOnto h with rfl | hmem
      · rfl
      · exact absurd hmem hdot

-- Below `a\`, the key `b` looks like the one key `a.b`.
example : path "p" ["a\\", "b"] = path "p" ["a.b"] ∧ joined ["a\\", "b"] = ["a.b"] := by decide

end Joined

section Marker

-- The marker's name is a path below one root, besides being a root itself.
theorem root_of_path_eq_trimmedName {root : Text} {keys : List Text}
    (h : path root keys = trimmedName) : root = trimmedName ∨ root = "_dd" := by
  cases keys with
  | nil =>
      rw [path_nil] at h
      exact .inl h
  | cons key rest =>
      rw [path_cons] at h
      have hdot : trimmedName[root.length]? = some ('.' : CodePoint) := by
        rw [← h]
        simp
      have hlen : root.length < trimmedName.length := by
        rw [← h]
        simp
      have honly : ∀ i < trimmedName.length, trimmedName[i]? = some ('.' : CodePoint) → i = 3 := by
        decide
      have htake : trimmedName.take root.length = root := by
        rw [← h]
        simp
      rw [honly _ hlen hdot] at htake
      exact .inr htake.symm

end Marker

end SpanTags.Tag
