import SpanTags.Json.Reader
import SpanTags.Proofs.Except
import SpanTags.Proofs.Ordered
import SpanTags.Proofs.Payload.Decoded
import Mathlib.Data.List.TakeWhile

namespace SpanTags

namespace Value

theorem Decoded.cons {items : List Value} (h : (Value.list items).Decoded) {v : Value}
    (hv : v.Decoded) : (Value.list (v :: items)).Decoded := by
  rw [decoded_list_iff] at h ⊢
  exact List.forall_mem_cons.mpr ⟨hv, h⟩

theorem put_ofText (name : Text) (v : Value) (entries : List (Text × Value)) :
    Ordered.put (Key.ofText name) v (entries.map fun (name, v) => (Key.ofText name, v)) =
      (Ordered.put name v entries).map fun (name, v) => (Key.ofText name, v) := by
  have hsame : ∀ other : Text, (Key.ofText other == Key.ofText name) = (other == name) := by
    intro other
    show Scalar.same (.text other) (.text name) = _
    rw [Bool.eq_iff_iff]
    simp [Scalar.same, Scalar.wholeNumber?]
  induction entries with
  | nil => rfl
  | cons entry rest ih =>
      simp only [List.map_cons, Ordered.put, hsame, ih]
      split <;> rfl

-- A name that is there takes the new value; a new name is unlike all others.
theorem Decoded.put {entries : List (Key × Value)} (h : (Value.dict entries).Decoded)
    (name : Text) {v : Value} (hv : v.Decoded) :
    (Value.dict (Ordered.put (Key.ofText name) v entries)).Decoded := by
  generalize hd : Value.dict entries = d at h
  cases h with
  | scalar hs => cases hd
  | list h => cases hd
  | @object named hkeys h =>
      cases hd
      rw [put_ofText]
      refine .object (Ordered.nodup_map_fst_put hkeys name v) fun entry hentry => ?_
      rcases Ordered.mem_of_mem_put hentry with rfl | hentry
      · exact hv
      · exact h entry hentry

end Value

namespace Json

-- What is true of texts and of empty containers, and stays true of a container when one
-- more item or entry is put in, is true of all that is read, if it is true of the scalars.
structure Built (p : Value → Prop) : Prop where
  text (t : Text) : p (.text t)
  emptyList : p (.list [])
  cons {items : List Value} {v : Value} : p (.list items) → p v → p (.list (v :: items))
  reverse {items : List Value} : p (.list items) → p (.list items.reverse)
  emptyDict : p (.dict [])
  put {entries : List (Key × Value)} {v : Value} (name : Text) :
    p (.dict entries) → p v → p (.dict (Ordered.put (Key.ofText name) v entries))

theorem built_decoded : Built Value.Decoded where
  text _ := .scalar trivial
  emptyList := .list (List.forall_mem_nil _)
  cons h hv := h.cons hv
  reverse h := by simpa using h
  emptyDict := by
    have hempty : (Value.object []).Decoded := .object List.nodup_nil (List.forall_mem_nil _)
    exact hempty
  put name h hv := h.put name hv

-- What an open container holds so far.
def Frame.value : Frame → Value
  | .array items => .list items
  | .object entries _ => .dict entries

namespace Awaits

-- It is true of all that has been read so far: of the open containers, and of the value or
-- the container at hand.
def Holds (p : Value → Prop) : Awaits → Prop
  | value frames | firstItem frames | firstName frames => ∀ frame ∈ frames, p frame.value
  | laterName entries frames | colon entries _ frames | afterEntry entries frames =>
    p (.dict entries) ∧ ∀ frame ∈ frames, p frame.value
  | afterItem items frames => p (.list items) ∧ ∀ frame ∈ frames, p frame.value
  | nothing v => p v

variable {p : Value → Prop} {dialect : Dialect} {frames : List Frame} {state state' : Awaits}
  {l : Lexeme}

theorem holds_deliver (hp : Built p) {v : Value} (hv : p v)
    (hframes : ∀ frame ∈ frames, p frame.value) : (deliver v frames).Holds p := by
  cases frames with
  | nil => exact hv
  | cons frame outer =>
      obtain ⟨hframe, houter⟩ := List.forall_mem_cons.mp hframes
      cases frame with
      | array items => exact ⟨hp.cons hframe hv, houter⟩
      | object entries name => exact ⟨hp.put name hframe hv, houter⟩

theorem holds_openContainer {nest : Nest} (hframes : ∀ frame ∈ frames, p frame.value)
    (h : openContainer dialect nest frames = .ok state') : state'.Holds p := by
  unfold openContainer at h
  split at h
  · cases nest <;> (cases h; exact hframes)
  · contradiction

theorem holds_begin (hp : Built p) (hframes : ∀ frame ∈ frames, p frame.value)
    (hl : ∀ s, l = .scalar s → p (.scalar s))
    (h : begin? dialect frames l = some (.ok state')) : state'.Holds p := by
  cases l with
  | text t =>
      cases h
      exact holds_deliver hp (hp.text t) hframes
  | scalar s =>
      cases h
      exact holds_deliver hp (hl s rfl) hframes
  | mark c =>
      simp only [begin?] at h
      split at h
      · exact holds_openContainer hframes (Option.some.inj h)
      · split at h
        · exact holds_openContainer hframes (Option.some.inj h)
        · contradiction

-- One lexeme after the other, it stays true of all that has been read.
theorem Holds.next (hp : Built p) (hstate : state.Holds p)
    (hl : ∀ s, l = .scalar s → p (.scalar s))
    (h : state.next? dialect l = some (.ok state')) : state'.Holds p := by
  cases state with
  | value frames => exact holds_begin hp hstate hl h
  | firstItem frames =>
      have hopen : ∀ frame ∈ Frame.array [] :: frames, p frame.value :=
        List.forall_mem_cons.mpr ⟨hp.emptyList, hstate⟩
      simp only [next?] at h
      split at h
      · split at h
        · cases h
          exact holds_deliver hp hp.emptyList hstate
        · exact holds_begin hp hopen hl h
      · exact holds_begin hp hopen hl h
  | firstName frames =>
      simp only [next?] at h
      split at h
      · cases h
        exact ⟨hp.emptyDict, hstate⟩
      · split at h
        · cases h
          exact holds_deliver hp hp.emptyDict hstate
        · contradiction
      · contradiction
  | laterName entries frames =>
      simp only [next?] at h
      split at h
      · cases h
        exact hstate
      · contradiction
  | colon entries name frames =>
      simp only [next?] at h
      split at h
      · split at h
        · cases h
          exact List.forall_mem_cons.mpr hstate
        · contradiction
      · contradiction
  | afterItem items frames =>
      simp only [next?] at h
      split at h
      · split at h
        · cases h
          exact List.forall_mem_cons.mpr hstate
        · split at h
          · cases h
            exact holds_deliver hp (hp.reverse hstate.1) hstate.2
          · contradiction
      · contradiction
  | afterEntry entries frames =>
      simp only [next?] at h
      split at h
      · split at h
        · cases h
          exact hstate
        · split at h
          · cases h
            exact holds_deliver hp hstate.1 hstate.2
          · contradiction
      · contradiction
  | nothing v => contradiction

end Awaits

section Lexeme

theorem isDigit_of_mem_wholeDigits {rest : Text} : ∀ c ∈ wholeDigits rest, c.isDigit = true := by
  unfold wholeDigits
  split
  · rename_i c more
    split
    · rename_i hc
      simp [hc]
      decide
    · split
      · rename_i hc
        exact List.forall_mem_cons.mpr ⟨hc, fun d hd => List.mem_takeWhile_imp hd⟩
      · simp
  · simp

theorem isPlain_of_unsignedNumber {negative : Bool} {rest : Text} {s : Scalar} {width : Nat}
    (h : unsignedNumber negative rest = some (.ok s, width)) : s.IsPlain := by
  simp only [unsignedNumber] at h
  split at h
  · contradiction
  · split at h
    · split at h
      · rename_i n hread
        cases h
        exact natAbs_lt_of_readWhole isDigit_of_mem_wholeDigits hread
      · cases h
    · cases h
      trivial

theorem isPlain_of_number {rest : Text} {s : Scalar} {width : Nat}
    (h : number rest = some (.ok s, width)) : s.IsPlain := by
  unfold number at h
  split at h
  · split at h
    · obtain ⟨⟨scalar, w⟩, hfound, heq⟩ := Option.map_eq_some_iff.mp h
      cases heq
      exact isPlain_of_unsignedNumber hfound
    · exact isPlain_of_unsignedNumber h
  · contradiction

-- A scalar other than a text is a word, a number, or a constant where these are taken.
theorem cases_of_lexeme {dialect : Dialect} {offset : Nat} {c : CodePoint} {rest : Text}
    {s : Scalar} {width : Nat}
    (h : lexeme dialect offset c rest = some (.ok (.scalar s), width)) :
    s ∈ words.map Prod.snd ∨ number (c :: rest) = some (.ok s, width) ∨
      dialect.takesConstants = true ∧ ∃ x ∈ constants.map Prod.snd, s = .float x := by
  unfold lexeme at h
  split at h
  · cases h
  · split at h
    · split at h <;> cases h
    · split at h
      · rename_i name word hword
        cases h
        exact .inl (List.mem_map_of_mem (List.mem_of_find?_eq_some hword))
      · split at h
        · rename_i name x hconstant
          split at h
          · rename_i htakes
            cases h
            exact .inr (.inr ⟨htakes, x,
              List.mem_map_of_mem (List.mem_of_find?_eq_some hconstant), rfl⟩)
          · cases h
        · obtain ⟨⟨scalar, w⟩, hnumber, heq⟩ := Option.map_eq_some_iff.mp h
          cases scalar with
          | error stop => cases heq
          | ok s =>
              cases heq
              exact .inr (.inl hnumber)

end Lexeme

section Read

-- What building keeps, and what is true of the words, of each number that is written at some
-- place of the document, and of the constants if these are taken.
structure Grounded (p : Value → Prop) (dialect : Dialect) (document : Text) : Prop where
  built : Built p
  word : ∀ s ∈ words.map Prod.snd, p (.scalar s)
  constant : dialect.takesConstants = true → ∀ x ∈ constants.map Prod.snd, p (.float x)
  number {rest : Text} {s : Scalar} {width : Nat} :
    rest <:+ document → number rest = some (.ok s, width) → p (.scalar s)

variable {p : Value → Prop} {dialect : Dialect} {document : Text} {v : Value}

theorem Grounded.tail {c : CodePoint} (h : Grounded p dialect (c :: document)) :
    Grounded p dialect document :=
  { h with number := fun hrest => h.number (hrest.trans (List.suffix_cons c document)) }

theorem Grounded.scalar {c : CodePoint} (h : Grounded p dialect (c :: document))
    {offset width : Nat} {l : Lexeme}
    (hl : lexeme dialect offset c document = some (.ok l, width)) :
    ∀ s, l = .scalar s → p (.scalar s) := by
  rintro s rfl
  rcases cases_of_lexeme hl with hword | hnumber | ⟨htakes, x, hx, rfl⟩
  · exact h.word s hword
  · exact h.number (List.suffix_refl _) hnumber
  · exact h.constant htakes x hx

theorem Grounded.readFrom (h : Grounded p dialect document) {state : Awaits} {offset skip : Nat}
    (hstate : state.Holds p) (hv : readFrom dialect state offset skip document = .ok v) : p v := by
  fun_induction Json.readFrom dialect state offset skip document with
  | case1 =>
      cases hv
      exact hstate
  | case3 _ _ _ _ _ ih => exact ih h.tail hstate hv
  | case4 _ _ _ _ _ ih => exact ih h.tail hstate hv
  | case10 _ _ _ _ _ _ _ hlexeme _ hnext ih =>
      exact ih h.tail (hstate.next h.built (h.scalar hlexeme) hnext) hv
  | _ => contradiction

theorem Grounded.read (h : Grounded p dialect document) (hv : read dialect document = .ok v) :
    p v := by
  unfold Json.read at hv
  split at hv
  · rename_i found hread
    cases hv
    have hstart : (Awaits.value []).Holds p := List.forall_mem_nil _
    exact h.readFrom hstart hread
  · contradiction

-- The document that a body is: a text as it stands, and bytes once they are decoded.
inductive IsDocument : Value → Text → Prop
  | text (t : Text) : IsDocument (.text t) t
  | bytes {b : List UInt8} {t : Text} (h : decodeBytes b = .ok t) :
      IsDocument (.scalar (.bytes b)) t

theorem exists_document_of_readBody {body : Value} (h : readBody dialect body = .ok v) :
    ∃ document, IsDocument body document ∧ read dialect document = .ok v := by
  unfold readBody at h
  split at h
  · rename_i t
    unfold readText at h
    split at h
    · contradiction
    · exact ⟨t, .text t, h⟩
  · rename_i bytes
    obtain ⟨document, hdocument, hread⟩ := exists_of_bind_eq_ok h
    exact ⟨document, .bytes hdocument, hread⟩
  · contradiction

-- Whatever form a body has, what can be read from it is decoded.
theorem decoded_of_readBody {body : Value} (h : readBody dialect body = .ok v) : v.Decoded := by
  obtain ⟨document, -, hread⟩ := exists_document_of_readBody h
  refine Grounded.read ⟨built_decoded, fun s hs => .scalar ?_, fun _ x _ => .scalar trivial,
    fun _ hnumber => .scalar (isPlain_of_number hnumber)⟩ hread
  revert s
  decide

end Read

end Json

end SpanTags
