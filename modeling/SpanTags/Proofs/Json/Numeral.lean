import SpanTags.Proofs.Json.Reading
import SpanTags.Proofs.Number.Decimal
import SpanTags.Proofs.Number.Overflow

namespace SpanTags

def Scalar.IsNumber : Scalar → Prop
  | .int _ | .float _ => True
  | _ => False

namespace Value

-- All scalars at and below a value are of one kind.
inductive Every (q : Scalar → Prop) : Value → Prop
  | scalar {s : Scalar} (h : q s) : Every q (.scalar s)
  | list {items : List Value} (h : ∀ v ∈ items, Every q v) : Every q (.list items)
  | tuple {items : List Value} (h : ∀ v ∈ items, Every q v) : Every q (.tuple items)
  | dict {entries : List (Key × Value)} (h : ∀ entry ∈ entries, Every q entry.2) :
      Every q (.dict entries)

variable {q : Scalar → Prop} {v : Value}

theorem every_scalar_iff {s : Scalar} : (scalar s).Every q ↔ q s :=
  ⟨fun h => by cases h; assumption, .scalar⟩

theorem every_list_iff {items : List Value} : (list items).Every q ↔ ∀ v ∈ items, v.Every q :=
  ⟨fun h => by cases h; assumption, .list⟩

theorem every_dict_iff {entries : List (Key × Value)} :
    (dict entries).Every q ↔ ∀ entry ∈ entries, entry.2.Every q :=
  ⟨fun h => by cases h; assumption, .dict⟩

theorem Every.children (h : v.Every q) : ∀ child ∈ v.children, child.2.Every q := by
  intro child hchild
  cases h with
  | scalar h => contradiction
  | list h => exact h _ (mem_of_mem_numbered hchild)
  | tuple h => exact h _ (mem_of_mem_numbered hchild)
  | dict h =>
      obtain ⟨entry, hentry, rfl⟩ := List.mem_map.mp hchild
      exact h entry hentry

theorem Every.of_mem_nodes (h : v.Every q) (hv : v.Plain) {node : Node} (hn : node ∈ v.nodes)
    {s : Scalar} (hs : node.value = .scalar s) : q s := by
  have hnode : node.value.Every q := hv.forall_nodesAt (fun _ h => h.children) h [] node hn
  rwa [hs, every_scalar_iff] at hnode

end Value

namespace Json

theorem built_every {q : Scalar → Prop} (hq : ∀ t : Text, q (.text t)) :
    Built (Value.Every q) where
  text t := .scalar (hq t)
  emptyList := .list (List.forall_mem_nil _)
  cons h hv := .list (List.forall_mem_cons.mpr ⟨hv, Value.every_list_iff.mp h⟩)
  reverse h := .list fun v hv => Value.every_list_iff.mp h v (List.mem_reverse.mp hv)
  emptyDict := .dict (List.forall_mem_nil _)
  put {entries v} name h hv := by
    refine .dict fun entry hentry => ?_
    have hvalue := Ordered.map_snd_put_subset (Key.ofText name) v entries
      (List.mem_map_of_mem hentry)
    rcases List.mem_cons.mp hvalue with heq | hold
    · rwa [heq]
    · obtain ⟨other, hother, heq⟩ := List.mem_map.mp hold
      rw [← heq]
      exact Value.every_dict_iff.mp h other hother

-- The exponent of a number as a document writes it.
structure Exponent where
  letter : CodePoint
  sign : Text
  digits : Text
  letter_eq : letter = 'e' ∨ letter = 'E'
  sign_eq : sign = [] ∨ sign = "+" ∨ sign = "-"
  isDigits : digits.IsDigits

def Exponent.text (e : Exponent) : Text :=
  e.letter :: (e.sign ++ e.digits)

def Exponent.power (e : Exponent) : Int :=
  if e.sign = "-" then -(Text.decimal e.digits : Int) else Text.decimal e.digits

-- A number as a document writes it: digits with a minus sign before them or none, and with
-- a fraction and an exponent after them or none.
structure Numeral where
  negative : Bool
  whole : Text
  fraction : Text
  exponent : Option Exponent
  isDigits_whole : whole.IsDigits
  isDigit_fraction : ∀ c ∈ fraction, c.isDigit = true

namespace Numeral

variable (numeral : Numeral)

def unsigned : Text :=
  numeral.whole ++
    (if numeral.fraction.isEmpty then [] else ('.' : CodePoint) :: numeral.fraction) ++
      (numeral.exponent.map Exponent.text).getD []

def text : Text :=
  Double.signed numeral.negative numeral.unsigned

-- Read without the point, the digits are those of a whole number, which the power puts back
-- into its place.
def digits : Nat :=
  Text.decimal (numeral.whole ++ numeral.fraction)

def power : Int :=
  (numeral.exponent.map Exponent.power).getD 0 - numeral.fraction.length

def isWhole : Bool :=
  numeral.fraction.isEmpty && numeral.exponent.isNone

def signedDigits : Int :=
  if numeral.negative then -(numeral.digits : Int) else numeral.digits

-- A number without a fraction and an exponent is kept whole; any other is rounded.
def scalar : Scalar :=
  if numeral.isWhole then .int numeral.signedDigits
  else .float (Double.ofDecimal numeral.negative numeral.digits numeral.power)

variable {numeral}

theorem scalar_of_isWhole (h : numeral.isWhole = true) :
    numeral.scalar = .int numeral.signedDigits :=
  if_pos h

theorem scalar_of_not_isWhole (h : numeral.isWhole = false) :
    numeral.scalar = .float (Double.ofDecimal numeral.negative numeral.digits numeral.power) :=
  if_neg (ne_true_of_eq_false h)

end Numeral

section Reading

variable {rest : Text}

theorem append_prefix_of_prefix_drop {t u v : Text} (ht : t <+: v) (hu : u <+: v.drop t.length) :
    t ++ u <+: v := by
  obtain ⟨w, rfl⟩ := ht
  rw [List.drop_left] at hu
  exact (List.prefix_append_right_inj t).mpr hu

theorem wholeDigits_startsWith (rest : Text) : wholeDigits rest <+: rest := by
  unfold wholeDigits
  split
  · split
    · exact List.cons_prefix_cons.mpr ⟨rfl, List.nil_prefix⟩
    · split
      · exact List.cons_prefix_cons.mpr ⟨rfl, List.takeWhile_prefix _⟩
      · exact List.nil_prefix
  · exact List.nil_prefix

theorem isDigit_of_mem_fractionDigits {t : Text} : ∀ c ∈ fractionDigits t, c.isDigit = true := by
  unfold fractionDigits
  split
  · split
    · exact fun c hc => List.mem_takeWhile_imp hc
    · exact List.forall_mem_nil _
  · exact List.forall_mem_nil _

theorem fraction_startsWith (rest : Text) :
    (if (fractionDigits rest).isEmpty then [] else ('.' : CodePoint) :: fractionDigits rest) <+:
      rest := by
  cases hempty : (fractionDigits rest).isEmpty with
  | true => exact List.nil_prefix
  | false =>
      unfold fractionDigits at hempty ⊢
      split at hempty
      · split at hempty
        · rename_i hc
          subst hc
          simpa using List.takeWhile_prefix _
        · contradiction
      · contradiction

-- What is left of reading an exponent once its letter and its sign are off.
theorem exists_exponent_of_sign {letter : CodePoint} {digitsFrom : Text} (sign : Text)
    (negative : Bool) (hletter : letter = 'e' ∨ letter = 'E')
    (hsign : sign = [] ∨ sign = "+" ∨ sign = "-")
    (hnegative : negative = true ↔ sign = "-") {power : Int} {width signs : Nat}
    (h : (let digits := digitsFrom.takeWhile CodePoint.isDigit
      if digits.isEmpty then none
      else
        let n : Int := Text.decimal digits
        some (if negative then -n else n, 1 + signs + digits.length)) = some (power, width)) :
    ∃ e : Exponent, e.text <+: letter :: (sign ++ digitsFrom) ∧ e.power = power := by
  dsimp only at h
  split at h
  · contradiction
  · rename_i hempty
    cases h
    refine ⟨⟨letter, sign, _, hletter, hsign, fun hnil => hempty (List.isEmpty_iff.mpr hnil),
      fun c hc => List.mem_takeWhile_imp hc⟩, ?_, ?_⟩
    · rw [Exponent.text, List.cons_prefix_cons, List.prefix_append_right_inj]
      exact ⟨rfl, List.takeWhile_prefix _⟩
    · simp only [Exponent.power, hnegative]

theorem exists_exponent {power : Int} {width : Nat}
    (h : exponentPart rest = some (power, width)) :
    ∃ e : Exponent, e.text <+: rest ∧ e.power = power := by
  unfold exponentPart at h
  split at h
  · contradiction
  · rename_i letter more
    split at h
    · rename_i hletter
      cases more with
      | nil => exact exists_exponent_of_sign [] false hletter (.inl rfl) (by decide) h
      | cons s others =>
          by_cases hminus : s = '-'
          · subst hminus
            exact exists_exponent_of_sign "-" true hletter (.inr (.inr rfl)) (by decide) h
          · by_cases hplus : s = '+'
            · subst hplus
              exact exists_exponent_of_sign "+" false hletter (.inr (.inl rfl)) (by decide) h
            · simp only [hminus, hplus, if_false] at h
              exact exists_exponent_of_sign [] false hletter (.inl rfl) (by decide) h
    · contradiction

theorem exists_exponent? (rest : Text) :
    ∃ e? : Option Exponent, (e?.map Exponent.text).getD [] <+: rest ∧
      e?.map Exponent.power = (exponentPart rest).map Prod.fst := by
  cases hpart : exponentPart rest with
  | none => exact ⟨none, List.nil_prefix, rfl⟩
  | some part =>
      obtain ⟨e, htext, hpower⟩ := exists_exponent hpart
      exact ⟨some e, htext, congrArg some hpower⟩

theorem scalar_of_unsignedNumber {numeral : Numeral} {s : Scalar} {width : Nat}
    (hwhole : numeral.whole = wholeDigits rest)
    (hfraction : numeral.fraction = fractionDigits (rest.drop (wholeDigits rest).length))
    (hexponent : numeral.exponent.map Exponent.power =
      (exponentPart ((rest.drop (wholeDigits rest).length).drop
        (if numeral.fraction.isEmpty then 0 else numeral.fraction.length + 1))).map Prod.fst)
    (h : unsignedNumber numeral.negative rest = some (.ok s, width)) : numeral.scalar = s := by
  rw [← hwhole] at hfraction hexponent
  simp only [unsignedNumber, ← hwhole, ← hfraction] at h
  generalize exponentPart _ = part at h hexponent
  split at h
  · contradiction
  · split at h
    · rename_i hempty
      rw [Option.map_none, Option.map_eq_none_iff] at hexponent
      have hisWhole : numeral.isWhole = true := by simp [Numeral.isWhole, hempty, hexponent]
      rw [Numeral.scalar_of_isWhole hisWhole, Numeral.signedDigits, Numeral.digits,
        List.isEmpty_iff.mp hempty, List.append_nil]
      unfold readWhole at h
      split at h
      · rename_i n hread
        split at hread
        · cases hread
          cases h
          rfl
        · contradiction
      · cases h
    · rename_i part _ _ hnot
      have hisWhole : numeral.isWhole = false := by
        rw [Numeral.isWhole, Bool.and_eq_false_imp]
        intro hempty
        cases hpart : part with
        | none => exact absurd hpart (hnot hempty)
        | some found =>
            rw [hpart] at hexponent
            cases he : numeral.exponent with
            | none => simp [he] at hexponent
            | some e => rfl
      rw [Numeral.scalar_of_not_isWhole hisWhole, Numeral.digits, Numeral.power, hexponent]
      cases h
      cases part <;> rfl

theorem exists_numeral_of_unsignedNumber {negative : Bool} {s : Scalar} {width : Nat}
    (h : unsignedNumber negative rest = some (.ok s, width)) :
    ∃ numeral : Numeral, numeral.negative = negative ∧ numeral.unsigned <+: rest ∧
      numeral.scalar = s := by
  have hdigits : (wholeDigits rest).IsDigits := by
    refine ⟨fun hnil => ?_, isDigit_of_mem_wholeDigits⟩
    simp [unsignedNumber, hnil] at h
  obtain ⟨e?, htext, hpower⟩ := exists_exponent? ((rest.drop (wholeDigits rest).length).drop
    (if (fractionDigits (rest.drop (wholeDigits rest).length)).isEmpty then 0
      else (fractionDigits (rest.drop (wholeDigits rest).length)).length + 1))
  let numeral : Numeral := ⟨negative, wholeDigits rest, _, e?, hdigits,
    isDigit_of_mem_fractionDigits (t := rest.drop (wholeDigits rest).length)⟩
  refine ⟨numeral, rfl, ?_, scalar_of_unsignedNumber rfl rfl hpower h⟩
  refine append_prefix_of_prefix_drop
    (append_prefix_of_prefix_drop (wholeDigits_startsWith rest) (fraction_startsWith _)) ?_
  rw [List.drop_drop] at htext
  convert htext using 2
  rw [List.length_append]
  split <;> simp [numeral, *]

theorem exists_numeral_of_number {s : Scalar} {width : Nat}
    (h : number rest = some (.ok s, width)) :
    ∃ numeral : Numeral, numeral.text <+: rest ∧ numeral.scalar = s := by
  unfold number at h
  split at h
  · split at h
    · rename_i hc
      subst hc
      obtain ⟨⟨scalar, w⟩, hfound, heq⟩ := Option.map_eq_some_iff.mp h
      cases heq
      obtain ⟨numeral, hsign, htext, hscalar⟩ := exists_numeral_of_unsignedNumber hfound
      refine ⟨numeral, ?_, hscalar⟩
      rw [Numeral.text, hsign]
      exact List.cons_prefix_cons.mpr ⟨rfl, htext⟩
    · obtain ⟨numeral, hsign, htext, hscalar⟩ := exists_numeral_of_unsignedNumber h
      refine ⟨numeral, ?_, hscalar⟩
      rwa [Numeral.text, hsign]
  · contradiction

-- Where the constants are refused, each number that is read is written out in the document.
theorem every_of_read {dialect : Dialect} (hdialect : dialect.takesConstants = false)
    {document : Text} {v : Value} (h : read dialect document = .ok v) :
    v.Every fun s => s.IsNumber →
      ∃ numeral : Numeral, numeral.text <:+: document ∧ numeral.scalar = s := by
  refine Grounded.read ⟨built_every fun t ht => ht.elim, ?_, ?_, ?_⟩ h
  · intro s hs
    have hword : ¬ s.IsNumber := by
      revert s
      simp [words, Scalar.IsNumber]
    exact .scalar fun hnumber => absurd hnumber hword
  · intro htakes
    rw [hdialect] at htakes
    contradiction
  · intro rest s width hrest hnumber
    obtain ⟨numeral, htext, hscalar⟩ := exists_numeral_of_number hnumber
    exact .scalar fun _ => ⟨numeral, htext.isInfix.trans hrest.isInfix, hscalar⟩

end Reading

end Json
end SpanTags
