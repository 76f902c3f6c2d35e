import SpanTags.Proofs.Json.Numeral
import SpanTags.Proofs.Walk.Inclusion
import Mathlib.Data.List.Forall2

namespace SpanTags

section Text

theorem Tag.isDecimal_floatText_iff (x : Double) :
    (floatText x).IsDecimal ↔ x.isFinite = true := by
  unfold floatText
  split
  · rename_i n hn
    have hfinite : x.isFinite = true := by
      cases x with
      | finite negative magnitude => rfl
      | _ => contradiction
    split
    · exact iff_of_true (Text.isDecimal_ofInt n) hfinite
    · exact x.isDecimal_text_iff
  · exact x.isDecimal_text_iff

namespace Json.Numeral

variable (numeral : Numeral)

-- The number is rounded, and there is no double near it.
def Overflows : Prop :=
  numeral.isWhole = false ∧
    Double.overflow * 10 ^ (-numeral.power).toNat ≤ numeral.digits * 10 ^ numeral.power.toNat

instance : Decidable numeral.Overflows :=
  inferInstanceAs (Decidable (_ ∧ _))

variable {numeral}

theorem Overflows.tagText (h : numeral.Overflows) (key : Text) :
    numeral.scalar.tagText key = Double.signed numeral.negative "inf" := by
  rw [scalar_of_not_isWhole h.1, Double.ofDecimal_eq_infinite_iff.mpr ⟨rfl, h.2⟩]
  rfl

theorem isDecimal_tagText_iff (key : Text) :
    (numeral.scalar.tagText key).IsDecimal ↔ ¬ numeral.Overflows := by
  cases hwhole : numeral.isWhole with
  | true =>
      rw [scalar_of_isWhole hwhole]
      exact iff_of_true (Text.isDecimal_ofInt _) fun h => by simp [Overflows, hwhole] at h
  | false =>
      rw [scalar_of_not_isWhole hwhole]
      show (Tag.floatText _).IsDecimal ↔ _
      rw [Tag.isDecimal_floatText_iff, Double.isFinite_ofDecimal_iff, ← Nat.not_le]
      simp only [Overflows, hwhole, true_and]

end Json.Numeral

end Text

-- What the tag of a number says of the document: it is decimal if there is a double near
-- the number that is written there, and infinite otherwise.
def Node.ShowsNumber (document : Text) (node : Node) (text : Text) : Prop :=
  ∀ s, node.value = .scalar s → s.IsNumber → ∃ numeral : Json.Numeral,
    numeral.text <:+: document ∧ numeral.scalar = s ∧
      (text.IsDecimal ↔ ¬ numeral.Overflows) ∧
      (numeral.Overflows → text = Double.signed numeral.negative "inf")

theorem Node.showsNumber_of_outcome {document : Text} {v : Value} (hv : v.Plain)
    (hevery : v.Every fun s => s.IsNumber →
      ∃ numeral : Json.Numeral, numeral.text <:+: document ∧ numeral.scalar = s)
    {maxDepth : Int} {root : Text} {node : Node} (hn : node ∈ v.nodes) {emission : Text × Text}
    (h : node.outcome maxDepth root = some emission) : node.ShowsNumber document emission.2 := by
  intro s hs hnumber
  obtain ⟨numeral, htext, rfl⟩ := hevery.of_mem_nodes hv hn hs hnumber
  have hemission : emission.2 = numeral.scalar.tagText (Tag.ownKey root node.keys) := by
    simp only [outcome, hs] at h
    exact (congrArg Prod.snd (Option.some.inj h)).symm
  rw [hemission]
  exact ⟨numeral, htext, rfl, Json.Numeral.isDecimal_tagText_iff _, fun h => h.tagText _⟩

namespace Body

open Walk

-- The constants are refused, so each number is tagged as one that the document writes out.
-- One that lies beyond the doubles is tagged as infinite, and any other by a decimal text.
theorem tags_tag_numbers (set : RuleSet) (limits : Limits) (root : Text) {nestingLimit : Nat}
    {body contentType v : Value} (hjson : isJson contentType = true)
    (hbody : decode nestingLimit body = .ok v) :
    (tag nestingLimit set.mask limits root body contentType).tags =
        .ok (run set.mask root limits v).tags ∧
      ∃ document, Json.IsDocument body document ∧
        List.Forall₂ (fun node emission => emission.1 = Tag.path root node.keys ∧
            node.ShowsNumber document emission.2)
          (places set.mask limits v) (run set.mask root limits v).emissions := by
  have hv : v.Plain := (Json.decoded_of_readBody hbody).plain
  obtain ⟨document, hdocument, hread⟩ := Json.exists_document_of_readBody hbody
  refine ⟨tags_tag set.mask_total hjson hbody limits root, document, hdocument, ?_⟩
  have hevery := Json.every_of_read rfl hread
  have hpairs : List.Forall₂ _ (places set.mask limits v) (run set.mask root limits v).emissions :=
    forall₂_places_emissions set.mask_total hv root
  have hplaces : ∀ node ∈ places set.mask limits v, node ∈ v.nodes :=
    fun _ hn => (places_sublist set.mask limits v).subset hn
  refine ((List.forall₂_and_left _ _).mpr ⟨hplaces, hpairs⟩).imp fun node emission h => ?_
  obtain ⟨hn, houtcome⟩ := h
  exact ⟨Node.path_of_outcome houtcome, Node.showsNumber_of_outcome hv hevery hn houtcome⟩

-- Numbers of all sorts at two depths, and one of them is too large.
theorem tags_tag_numbers_mixed :
    let body : Value := .text "\x7b\"a\": [-2.5E-1, \"x\", 2E+400, [-10.0, 7]]\x7d"
    let v : Value := .object
      [("a", .list [.float (.ofDecimal true 25 (-2)), .text "x",
        .float (.ofDecimal false 2 400), .list [.float (.ofDecimal true 100 (-1)), .int 7]])]
    let set : RuleSet := ⟨["*"], [[.wildcard]]⟩
    isJson (.text "application/json") = true ∧ decode 990 body = .ok v ∧
      ∃ document, Json.IsDocument body document ∧
        List.Forall₂ (fun node emission => emission.1 = Tag.path "r" node.keys ∧
            node.ShowsNumber document emission.2)
          (places set.mask ⟨10, 758⟩ v)
          ([("r.a.0", "-0.25"), ("r.a.1", "x"), ("r.a.2", "inf"), ("r.a.3.0", "-10"),
            ("r.a.3.1", "7")] : List (Text × Text)) := by
  intro body v set
  have hjson : isJson (.text "application/json") = true := by decide
  have hbody : decode 990 body = .ok v := rfl
  obtain ⟨-, document, hdocument, hpairs⟩ := tags_tag_numbers set ⟨10, 758⟩ "r" hjson hbody
  have hrun : (run set.mask "r" ⟨10, 758⟩ v).emissions =
      ([("r.a.0", "-0.25"), ("r.a.1", "x"), ("r.a.2", "inf"), ("r.a.3.0", "-10"),
        ("r.a.3.1", "7")] : List (Text × Text)) := by
    decide +kernel
  rw [hrun] at hpairs
  exact ⟨hjson, hbody, document, hdocument, hpairs⟩

-- The word for infinity is refused, but the number that stands for it is not.
theorem tags_tag_infinite :
    let set : RuleSet := ⟨["*"], [[.wildcard]]⟩
    RuleSet.parse "*" = .ok set ∧ isJson (.text "application/json") = true ∧
      decode 990 (.text "[Infinity]") = .error (.constant "Infinity") ∧
      decode 990 (.text "[1e999]") = .ok (.list [.float (.infinite false)]) ∧
      (tag 990 set.mask ⟨10, 758⟩ "p" (.text "[1e999]") (.text "application/json")).tags =
        .ok [("p.0", .text "inf")] ∧
      ¬ ("inf" : Text).IsDecimal := by
  intro set
  refine ⟨rfl, by decide, rfl, rfl, by decide +kernel, ?_⟩
  exact Text.not_isDecimal_of_mem (by decide)

end Body

end SpanTags
