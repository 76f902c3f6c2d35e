import SpanTags.Tracing
import SpanTags.Proofs.Except
import SpanTags.Proofs.Json.Writing
import SpanTags.Proofs.Ordered
import SpanTags.Proofs.Payload.Nodes

namespace SpanTags

-- The numbers of a configuration are all written.
theorem natAbs_lt_of_bounds {n : Int} (hlow : -10000 ≤ n) (hhigh : n ≤ 10000) :
    n.natAbs < 10 ^ digitLimit := by
  have hlarge : 10000 < 10 ^ digitLimit := by decide +kernel
  have hsmall : n.natAbs ≤ 10000 := by omega
  exact Nat.lt_of_le_of_lt hsmall hlarge

theorem writeWhole_of_natAbs_lt {n : Int} (hn : n.natAbs < 10 ^ digitLimit) :
    writeWhole n = .ok (Text.ofInt n) := by
  unfold writeWhole
  rw [if_pos hn]

-- A clock does not run long enough for a time of too many digits.
theorem Time.natAbs_stamp_lt (time : Time) : time.stamp.natAbs < 10 ^ digitLimit := by
  have hlarge : 2 ^ 63 < 10 ^ digitLimit := by decide +kernel
  have hlow : -2 ^ 63 ≤ time.stamp := time.milliseconds.le_toInt
  have hhigh : time.stamp < 2 ^ 63 := time.milliseconds.toInt_lt
  have hsmall : time.stamp.natAbs ≤ 2 ^ 63 := by omega
  exact Nat.lt_of_le_of_lt hsmall hlarge

namespace Json

theorem writeInt_of_writeWhole {n : Int} {t : Text} (h : writeWhole n = .ok t) :
    writeInt n = .ok t := by
  unfold writeInt
  rw [h]

theorem writeInt_eq_ite (n : Int) :
    writeInt n =
      if n.natAbs < 10 ^ digitLimit then .ok (Text.ofInt n) else .error (.number ⟨none⟩) := by
  unfold writeInt writeWhole
  split_ifs <;> rfl

theorem writeInt_stamp (time : Time) : writeInt time.stamp = .ok (Text.ofInt time.stamp) :=
  writeInt_of_writeWhole (writeWhole_of_natAbs_lt time.natAbs_stamp_lt)

theorem write_int (style : Style) (n : Int) : write style (.int n) = writeInt n := by
  rw [Value.int, write, writeScalar]

theorem write_text (style : Style) (t : Text) :
    write style (.text t) = .ok (writeText style t) := by
  rw [Value.text, write, writeScalar]

theorem exists_writeScalar_line {s : Scalar} (hs : s.IsPlain) :
    ∃ t, writeScalar .line s = .ok t := by
  cases s with
  | null => exact ⟨_, rfl⟩
  | bool b => exact ⟨_, rfl⟩
  | int n =>
      have hn : n.natAbs < 10 ^ digitLimit := hs
      have hwritten := writeInt_of_writeWhole (writeWhole_of_natAbs_lt hn)
      unfold writeScalar
      exact ⟨_, hwritten⟩
  | float x =>
      cases x with
      | nan => exact ⟨_, rfl⟩
      | infinite negative => exact ⟨_, rfl⟩
      | finite negative magnitude => exact ⟨_, rfl⟩
  | text t => exact ⟨_, rfl⟩
  | bytes b => exact hs.elim

end Json

-- A scalar that can be written.
def Value.IsFlat : Value → Prop
  | .scalar s => s.IsPlain
  | _ => False

namespace Value.IsFlat

variable {v : Value}

theorem exists_scalar (h : v.IsFlat) : ∃ s : Scalar, v = .scalar s ∧ s.IsPlain := by
  cases v with
  | scalar s => exact ⟨s, rfl, h⟩
  | _ => exact h.elim

@[simp] theorem text (t : Text) : (Value.text t).IsFlat :=
  trivial

@[simp] theorem bool (b : Bool) : (Value.bool b).IsFlat :=
  trivial

@[simp] theorem textOrNull (t : Option Text) : (Value.textOrNull t).IsFlat := by
  cases t <;> trivial

theorem int {n : Int} (hn : n.natAbs < 10 ^ digitLimit) : (Value.int n).IsFlat :=
  hn

end Value.IsFlat

namespace Record

def IsFlat (record : Record) : Prop :=
  ∀ entry ∈ record, entry.2.IsFlat

variable {record : Record}

-- What takes the place of a secret can be written as well.
theorem exists_sanitizeEntries (h : record.IsFlat) :
    ∃ safe : Record, safe.IsFlat ∧
      Redaction.sanitizeEntries (record.map fun (name, v) => (Key.ofText name, v)) =
        .ok (safe.map fun (name, v) => (Key.ofText name, v)) := by
  induction record with
  | nil => exact ⟨[], List.forall_mem_nil _, rfl⟩
  | cons entry rest ih =>
      obtain ⟨hentry, hrest⟩ := List.forall_mem_cons.mp h
      obtain ⟨s, hs, hplain⟩ := hentry.exists_scalar
      obtain ⟨safe, hsafe, hok⟩ := ih hrest
      obtain ⟨name, v⟩ := entry
      obtain rfl : v = .scalar s := hs
      rw [List.map_cons, Redaction.sanitizeEntries, hok]
      by_cases hsecret : Redaction.isRedacted name.asciiLower = true
      · refine ⟨(name, .text Redaction.mark) :: safe, ?_, ?_⟩
        · exact List.forall_mem_cons.mpr ⟨.text _, hsafe⟩
        · simp only [Redaction.isSensitive, Key.ofText, Key.toText, Scalar.toText, hsecret,
            if_true, bind, Except.bind, pure, Except.pure]
          rfl
      · refine ⟨(name, .scalar s) :: safe, ?_, ?_⟩
        · exact List.forall_mem_cons.mpr ⟨hplain, hsafe⟩
        · simp only [Redaction.isSensitive, Key.ofText, Key.toText, Scalar.toText, hsecret,
            bind, Except.bind, pure, Except.pure, Redaction.sanitize]
          rfl

theorem exists_writeEntries_line (h : record.IsFlat) :
    ∃ written, Json.writeEntries .line (record.map fun (name, v) => (Key.ofText name, v)) =
      .ok written := by
  induction record with
  | nil => exact ⟨[], rfl⟩
  | cons entry rest ih =>
      obtain ⟨hentry, hrest⟩ := List.forall_mem_cons.mp h
      obtain ⟨s, hs, hplain⟩ := hentry.exists_scalar
      obtain ⟨written, hwritten⟩ := ih hrest
      obtain ⟨t, ht⟩ := Json.exists_writeScalar_line hplain
      have hv : Json.write .line entry.2 = .ok t := by rw [hs, Json.write, ht]
      exact ⟨_, Json.writeEntries_cons_ofText entry.1 hv hwritten⟩

theorem exists_line (time : Time) (h : record.IsFlat) :
    ∃ written, record.line time = .ok written := by
  have hstamped : IsFlat (Ordered.putAll record [("ts", .int time.stamp)]) := by
    intro entry hentry
    rcases Ordered.mem_of_mem_putAll hentry with hrecord | hstamp
    · exact h entry hrecord
    · rw [List.mem_singleton.mp hstamp]
      exact .int time.natAbs_stamp_lt
  obtain ⟨safe, hsafe, hok⟩ := exists_sanitizeEntries hstamped
  obtain ⟨written, hwritten⟩ := exists_writeEntries_line hsafe
  have hwrite : ∃ t, Json.write .line (.object safe) = .ok t := by
    refine ⟨"\x7b" ++ Text.join Json.Style.line.itemSeparator written ++ "\x7d", ?_⟩
    rw [Value.object, Json.write, hwritten]
    rfl
  have hsanitize : Redaction.sanitize
      (.object (Ordered.putAll record [("ts", .int time.stamp)])) = .ok (.object safe) := by
    rw [Value.object, Redaction.sanitize, hok]
    rfl
  obtain ⟨t, ht⟩ := hwrite
  exact ⟨t ++ "\n", by simp only [line, hsanitize, ht]⟩

end Record

namespace Note

-- The numbers that the line of a note shows.
def numbers : Note → List Int
  | tagsTrimmed _ maxTags => [maxTags]
  | limitsAlreadySet applied requested => [applied, requested]
  | settingsLoaded _ _ _ maxDepth maxTags => [maxDepth, maxTags]
  | decodeFailed _ _ | taggingFailed _ _ | appCreated _ _ => []

variable {note : Note}

theorem isFlat_record (h : ∀ n ∈ note.numbers, n.natAbs < 10 ^ digitLimit) :
    note.record.IsFlat := by
  have hint : ∀ n ∈ note.numbers, (Value.int n).IsFlat := fun n hn => .int (h n hn)
  have hdetails : ∀ entry ∈ note.details, entry.2.IsFlat := by
    cases note with
    | tagsTrimmed | limitsAlreadySet | settingsLoaded => simpa [details, numbers] using hint
    | decodeFailed | taggingFailed | appCreated => simp [details]
  intro entry hentry
  rcases List.mem_cons.mp hentry with rfl | hentry
  · exact .text _
  · rcases List.mem_cons.mp hentry with rfl | hentry
    · exact .text _
    · exact hdetails entry hentry

theorem level_record (note : Note) : note.record.level = .ok note.level := by
  cases note <;> rfl

-- A note is lost only if its line is wanted and has a number of too many digits to write.
theorem exists_lines (time : Time) (threshold : Level)
    (h : threshold.isWritten note.level = true → ∀ n ∈ note.numbers, n.natAbs < 10 ^ digitLimit) :
    ∃ written, note.lines time threshold = .ok written := by
  unfold lines Record.lines
  rw [level_record]
  by_cases hlevel : threshold.isWritten note.level = true
  · obtain ⟨line, hline⟩ := Record.exists_line time (isFlat_record (h hlevel))
    exact ⟨[line], by simp only [bind, Except.bind, pure, Except.pure, hlevel, if_true, hline]⟩
  · exact ⟨[], by simp only [bind, Except.bind, pure, Except.pure, hlevel]; rfl⟩

theorem exists_linesOf (clock : Clock) {notes : List (Level × Note)}
    (h : ∀ pair ∈ notes, pair.1.isWritten pair.2.level = true →
      ∀ n ∈ pair.2.numbers, n.natAbs < 10 ^ digitLimit) :
    ∃ written, linesOf clock notes = .ok written := by
  have hlines : ∀ entry ∈ notes.zipIdx,
      ∃ lines, entry.1.2.lines (clock entry.2) entry.1.1 = .ok lines := fun entry hentry =>
    exists_lines _ _ (h entry.1 (List.fst_mem_of_mem_zipIdx hentry))
  obtain ⟨lines, hmap⟩ := exists_mapM hlines
  refine ⟨lines.flatten, ?_⟩
  rw [linesOf, hmap]
  rfl

end Note

theorem Session.exists_write (clock : Clock) {session : Session} {notes : List Note}
    (h : ∀ note ∈ notes, session.threshold.isWritten note.level = true →
      ∀ n ∈ note.numbers, n.natAbs < 10 ^ digitLimit) :
    ∃ written, session.write clock notes = .ok written :=
  Note.exists_linesOf clock (List.forall_mem_map.mpr h)

theorem Session.write_singleton (session : Session) (clock : Clock) (note : Note) :
    session.write clock [note] = note.lines (clock 0) session.threshold := by
  rw [write, Note.linesOf, List.map_singleton, List.zipIdx_singleton, List.mapM_cons,
    List.mapM_nil]
  dsimp only
  cases note.lines (clock 0) session.threshold with
  | error fault => rfl
  | ok lines =>
      refine congrArg Except.ok ?_
      exact List.append_nil lines

end SpanTags
