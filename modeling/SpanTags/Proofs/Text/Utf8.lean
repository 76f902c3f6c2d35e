import SpanTags.Proofs.Text.WellFormed
import SpanTags.Text.Encoding
import Mathlib.Data.List.TakeWhile

namespace SpanTags

namespace Encoding

section Encode

theorem surrogateRun?_eq_none_iff {t : Text} : surrogateRun? t = none ↔ t.WellFormed := by
  have hdrop : t.drop (t.takeWhile (!·.isSurrogate)).length = t.dropWhile (!·.isSurrogate) :=
    calc t.drop (t.takeWhile (!·.isSurrogate)).length
      _ = (t.takeWhile (!·.isSurrogate) ++ t.dropWhile (!·.isSurrogate)).drop
          (t.takeWhile (!·.isSurrogate)).length := by rw [List.takeWhile_append_dropWhile]
      _ = t.dropWhile (!·.isSurrogate) := List.drop_left
  have hall : t.WellFormed ↔ t.dropWhile (!·.isSurrogate) = [] := by
    simp [Text.WellFormed, List.dropWhile_eq_nil_iff]
  rw [hall]
  simp only [surrogateRun?, hdrop]
  cases t.dropWhile (!·.isSurrogate) with
  | nil => simp
  | cons c rest => simp

-- A text has bytes exactly if it is well formed.
theorem encode_eq_ok_iff {t : Text} {bytes : List UInt8} :
    encode t = .ok bytes ↔ t.WellFormed ∧ t.flatMap utf8Bytes = bytes := by
  rw [← surrogateRun?_eq_none_iff]
  unfold encode
  cases surrogateRun? t with
  | none => simp
  | some run => simp

end Encode

section Front

-- The values of bytes decide how they are read.
theorem toNat_byte {n : Nat} (hn : n < 0x100) : (byte n).toNat = n := by
  rw [byte, UInt8.toNat_ofNat']
  omega

theorem leadWidth?_byte {n : Nat} (hn : n < 0x100) :
    leadWidth? (byte n) =
      if n < 0x80 then some 1
      else if n < 0xC2 then none
      else if n < 0xE0 then some 2
      else if n < 0xF0 then some 3
      else if n < 0xF5 then some 4
      else none := by
  simp [leadWidth?, UInt8.lt_iff_toNat_lt, toNat_byte hn]

theorem isTail_byte {n : Nat} (hn : n < 0x100) :
    isTail (byte n) = decide (0x80 ≤ n ∧ n ≤ 0xBF) := by
  simp [isTail, UInt8.le_iff_toNat_le, toNat_byte hn]

theorem isSecond_byte_iff {n m : Nat} (hn : n < 0x100) (hm : m < 0x100) :
    isSecond (byte n) (byte m) = true ↔
      (0x80 ≤ m ∧ m ≤ 0xBF) ∧ (n = 0xE0 → 0xA0 ≤ m) ∧ (n = 0xED → m ≤ 0x9F) ∧
        (n = 0xF0 → 0x90 ≤ m) ∧ (n = 0xF4 → m ≤ 0x8F) := by
  simp only [isSecond, isTail, UInt8.le_iff_toNat_le, ← UInt8.toNat_inj, toNat_byte hn,
    toNat_byte hm, UInt8.reduceToNat]
  split_ifs <;> simp <;> omega

theorem tailBits_byte {n : Nat} (hn : n < 0x100) : tailBits (byte n) = n % 0x40 := by
  rw [tailBits, toNat_byte hn]

theorem leadBits_byte {n : Nat} (hn : n < 0x100) :
    leadBits 2 (byte n) = n % 0x20 ∧ leadBits 3 (byte n) = n % 0x10 ∧
      leadBits 4 (byte n) = n % 0x8 := by
  simp [leadBits, toNat_byte hn]

theorem utf8Front_cons {lead b : UInt8} {width : Nat} (hlead : leadWidth? lead = some width)
    (hwidth : width ≠ 1) (hb : isSecond lead b = true) (rest : List UInt8) :
    utf8Front lead (b :: rest) =
      utf8Tail (leadBits width lead * 0x40 + tailBits b) 2 (width - 2) rest := by
  unfold utf8Front
  rw [hlead]
  split
  · contradiction
  · rename_i hone
    exact absurd (Option.some.inj hone) hwidth
  · rename_i hsome
    obtain rfl := Option.some.inj hsome
    simp only [hb, if_true]

theorem utf8Tail_cons {b : UInt8} (hb : isTail b = true) (number read owed : Nat)
    (rest : List UInt8) :
    utf8Tail number read (owed + 1) (b :: rest) =
      utf8Tail (number * 0x40 + tailBits b) (read + 1) owed rest := by
  simp only [utf8Tail, hb, if_true]

theorem utf8Tail_zero {c : CodePoint} {number : Nat} (h : number = c.val) (read : Nat)
    (rest : List UInt8) : utf8Tail number read 0 rest = .char c read := by
  subst h
  simp [utf8Tail, codePointOf, CodePoint.ofNat?, c.isLt]

end Front

-- What begins with the bytes of a code point is read as the code point, whatever follows.
-- The bytes of a surrogate are not.
theorem utf8Front_utf8Bytes {c : CodePoint} (hc : c.isSurrogate = false) :
    ∃ lead tail, utf8Bytes c = lead :: tail ∧
      ∀ rest, utf8Front lead (tail ++ rest) = .char c (tail.length + 1) := by
  have hlt := c.isLt
  have hrange : ¬(0xD800 ≤ c.val ∧ c.val ≤ 0xDFFF) := by
    simpa [CodePoint.isSurrogate, CodePoint.within] using hc
  simp only [utf8Bytes]
  by_cases h1 : c.val < 0x80
  · refine ⟨_, _, if_pos h1, fun rest => ?_⟩
    have hlead : leadWidth? (byte c.val) = some 1 := by
      rw [leadWidth?_byte (by omega), if_pos h1]
    have hnumber := toNat_byte (show c.val < 0x100 by omega)
    simp only [utf8Front, hlead]
    exact utf8Tail_zero hnumber 1 []
  rw [if_neg h1]
  by_cases h2 : c.val < 0x800
  · refine ⟨_, _, if_pos h2, fun rest => ?_⟩
    have hlead : leadWidth? (byte (0xC0 + c.val / 0x40)) = some 2 := by
      rw [leadWidth?_byte (by omega), if_neg (by omega), if_neg (by omega), if_pos (by omega)]
    have hsecond : isSecond (byte (0xC0 + c.val / 0x40)) (byte (0x80 + c.val % 0x40)) = true := by
      rw [isSecond_byte_iff (by omega) (by omega)]
      omega
    rw [List.cons_append, utf8Front_cons hlead (by decide) hsecond]
    refine utf8Tail_zero ?_ 2 _
    rw [(leadBits_byte (by omega)).1, tailBits_byte (by omega)]
    omega
  rw [if_neg h2]
  have htail : isTail (byte (0x80 + c.val % 0x40)) = true := by
    rw [isTail_byte (by omega), decide_eq_true_eq]
    omega
  by_cases h3 : c.val < 0x10000
  · refine ⟨_, _, if_pos h3, fun rest => ?_⟩
    have hlead : leadWidth? (byte (0xE0 + c.val / 0x1000)) = some 3 := by
      rw [leadWidth?_byte (by omega), if_neg (by omega), if_neg (by omega), if_neg (by omega),
        if_pos (by omega)]
    have hsecond : isSecond (byte (0xE0 + c.val / 0x1000))
        (byte (0x80 + c.val / 0x40 % 0x40)) = true := by
      rw [isSecond_byte_iff (by omega) (by omega)]
      omega
    rw [List.cons_append, utf8Front_cons hlead (by decide) hsecond, List.cons_append,
      utf8Tail_cons htail]
    refine utf8Tail_zero ?_ 3 _
    rw [(leadBits_byte (by omega)).2.1, tailBits_byte (by omega), tailBits_byte (by omega)]
    omega
  · refine ⟨_, _, if_neg h3, fun rest => ?_⟩
    have hlead : leadWidth? (byte (0xF0 + c.val / 0x40000)) = some 4 := by
      rw [leadWidth?_byte (by omega), if_neg (by omega), if_neg (by omega), if_neg (by omega),
        if_neg (by omega), if_pos (by omega)]
    have hsecond : isSecond (byte (0xF0 + c.val / 0x40000))
        (byte (0x80 + c.val / 0x1000 % 0x40)) = true := by
      rw [isSecond_byte_iff (by omega) (by omega)]
      omega
    have hthird : isTail (byte (0x80 + c.val / 0x40 % 0x40)) = true := by
      rw [isTail_byte (by omega), decide_eq_true_eq]
      omega
    rw [List.cons_append, utf8Front_cons hlead (by decide) hsecond, List.cons_append,
      utf8Tail_cons hthird, List.cons_append, utf8Tail_cons htail]
    refine utf8Tail_zero ?_ 4 _
    rw [(leadBits_byte (by omega)).2.2, tailBits_byte (by omega), tailBits_byte (by omega),
      tailBits_byte (by omega)]
    omega

section Decode

variable {form : Form} {policy : Policy}

theorem decodeFrom_append (position : Nat) (bytes rest : List UInt8) :
    decodeFrom form policy position bytes.length (bytes ++ rest) =
      decodeFrom form policy (position + bytes.length) 0 rest := by
  induction bytes generalizing position with
  | nil => rfl
  | cons b bytes ih =>
      rw [List.length_cons, List.cons_append, decodeFrom, ih, Nat.add_right_comm, Nat.add_assoc]

theorem decodeFrom_utf8Bytes {t : Text} (ht : t.WellFormed) (position : Nat) :
    decodeFrom .utf8 policy position 0 (t.flatMap utf8Bytes) = .ok t := by
  induction t generalizing position with
  | nil => rfl
  | cons c rest ih =>
      rw [Text.wellFormed_cons_iff] at ht
      obtain ⟨lead, tail, hbytes, hfront⟩ := utf8Front_utf8Bytes ht.1
      rw [List.flatMap_cons, hbytes, List.cons_append, decodeFrom, front, hfront]
      simp only [Nat.add_sub_cancel, decodeFrom_append, ih ht.2]
      rfl

-- What a text is encoded to is read as the text, however strict the reading is.
theorem decode_of_encode {t : Text} {bytes : List UInt8} (h : encode t = .ok bytes) :
    decode .utf8 policy bytes = .ok t := by
  obtain ⟨ht, rfl⟩ := encode_eq_ok_iff.mp h
  exact decodeFrom_utf8Bytes ht 0

end Decode

end Encoding

end SpanTags
