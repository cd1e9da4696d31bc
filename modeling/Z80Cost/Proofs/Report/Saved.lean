import Z80Cost.Proofs.Json.Value
import Z80Cost.Report.Saved

/-!
A saved report is read back unchanged. What is written of each record is read as a value, and the members
of that value give the record back, those that were left out from their defaults.
-/

namespace Z80Cost.Saved

open Json (Reads ReadsMembers)
open Text (isUtf8_ofString)

def intValue (v : Int64) : Json := .number (Text.ofInt64 v)

def cyclesValue (c : Cycles) : Json := .object [("min", intValue c.min), ("max", intValue c.max)]

def timingValue (t : Timing) : Json :=
  .object [("z80", cyclesValue t.z80), ("msx", cyclesValue t.msx), ("cpc", cyclesValue t.cpc)]

def costValues (e : Entry) : List (Text × Json) :=
  [("name", .string e.name), ("lines", intValue e.lines), ("loc", intValue e.code), ("size", intValue e.size),
   ("timing", timingValue e.timing)]

def bytesValues (e : Entry) : List (Text × Json) :=
  if e.bytes.isEmpty then [] else [("bytes", .array (e.bytes.map Json.string))]

def errorValues (e : Entry) : List (Text × Json) :=
  if e.error.isEmpty then [] else [("error", .string e.error)]

def entryValue (e : Entry) : Json := .object (costValues e ++ bytesValues e ++ errorValues e)

theorem reads_int (height : Nat) (v : Int64) : Reads height (Text.ofInt64 v) (intValue v) :=
  (Json.reads_ofInt64 v).mono (Nat.zero_le height)

theorem reads_text (height : Nat) (s : Text) (valid : Text.IsUtf8 s) : Reads height (Json.quote s) (.string s) :=
  (Json.reads_quote s valid).mono (Nat.zero_le height)

theorem reads_cycles (depth : Nat) (c : Cycles) : Reads 1 (writeCycles depth c) (cyclesValue c) := by
  apply Json.reads_object
  exact .cons (isUtf8_ofString _) (reads_int _ _) (.cons (isUtf8_ofString _) (reads_int _ _) .nil)

theorem reads_timing (depth : Nat) (t : Timing) : Reads 2 (writeTiming depth t) (timingValue t) := by
  apply Json.reads_object
  exact .cons (isUtf8_ofString _) (reads_cycles _ _) (.cons (isUtf8_ofString _) (reads_cycles _ _)
    (.cons (isUtf8_ofString _) (reads_cycles _ _) .nil))

theorem reads_texts (depth : Nat) (texts : List Text) (valid : ∀ s ∈ texts, Text.IsUtf8 s) :
    Reads 1 (Json.writeArray depth (texts.map Json.quote)) (.array (texts.map Json.string)) := by
  have reads := Json.reads_array 0 depth (texts.map fun s => (Json.quote s, .string s)) (by
    intro item member
    obtain ⟨s, inside, rfl⟩ := List.mem_map.mp member
    exact Json.reads_quote s (valid s inside))
  rw [List.map_map, List.map_map] at reads
  exact reads

structure IsUtf8 (e : Entry) : Prop where
  name : Text.IsUtf8 e.name
  bytes : ∀ s ∈ e.bytes, Text.IsUtf8 s
  error : Text.IsUtf8 e.error

theorem reads_cost (depth : Nat) (e : Entry) (valid : IsUtf8 e) :
    ReadsMembers 2 (costMembers depth e) (costValues e) :=
  .cons (isUtf8_ofString _) (reads_text _ _ valid.name) <|
  .cons (isUtf8_ofString _) (reads_int _ _) <|
  .cons (isUtf8_ofString _) (reads_int _ _) <|
  .cons (isUtf8_ofString _) (reads_int _ _) <|
  .cons (isUtf8_ofString _) (reads_timing _ _) .nil

theorem reads_bytes (depth : Nat) (e : Entry) (valid : IsUtf8 e) :
    ReadsMembers 2 (bytesMember depth e) (bytesValues e) := by
  unfold bytesMember bytesValues
  split
  · exact .nil
  · exact .cons (isUtf8_ofString _) ((reads_texts depth e.bytes valid.bytes).mono (by decide)) .nil

theorem reads_error (e : Entry) (valid : IsUtf8 e) : ReadsMembers 2 (errorMember e) (errorValues e) := by
  unfold errorMember errorValues
  split
  · exact .nil
  · exact .cons (isUtf8_ofString _) (reads_text 2 e.error valid.error) .nil

theorem reads_entry (depth : Nat) (e : Entry) (valid : IsUtf8 e) :
    Reads 3 (writeEntry depth e) (entryValue e) := by
  apply Json.reads_object
  exact ((reads_cost _ e valid).append (reads_bytes _ e valid)).append (reads_error e valid)

/-- The text of a report is the array of its entries. -/
theorem read_write_value (entries : List Entry) (valid : ∀ e ∈ entries, IsUtf8 e) :
    Json.read (write entries) = .ok (.array (entries.map entryValue)) := by
  have line : Text.ofString "\n" = [('\n' : UInt8)] := by decide
  have reads := Json.reads_array 3 0 (entries.map fun e => (writeEntry 1 e, entryValue e)) (by
    intro item member
    obtain ⟨e, inside, rfl⟩ := List.mem_map.mp member
    exact reads_entry 1 e (valid e inside))
  rw [List.map_map, List.map_map] at reads
  rw [write, line]
  exact Json.read_of_reads _ _ _ reads (by decide) _ (.inr rfl)

theorem readInt_intValue (old v : Int64) : readInt old (intValue v) = some v := by
  rw [intValue, readInt, Integer.read_ofInt64]
  rfl

theorem readMembers_object {α : Type} (readMember : α → Text × Json → Option α) (old : α)
    (members : List (Text × Json)) : readMembers readMember old (.object members) = members.foldlM readMember old :=
  rfl

theorem readCycles_value (old c : Cycles) : readMembers readCyclesMember old (cyclesValue c) = some c := by
  have keys : isMember "min" "min" = true ∧ isMember "min" "max" = false ∧ isMember "max" "max" = true := by
    decide
  rw [cyclesValue, readMembers_object]
  simp [readCyclesMember, keys, readInt_intValue]

theorem readTiming_value (old t : Timing) : readMembers readTimingMember old (timingValue t) = some t := by
  have keys : isMember "z80" "z80" = true ∧ isMember "z80" "msx" = false ∧ isMember "z80" "cpc" = false ∧
      isMember "msx" "msx" = true ∧ isMember "msx" "cpc" = false ∧ isMember "cpc" "cpc" = true := by
    decide
  rw [timingValue, readMembers_object]
  simp [readTimingMember, keys, readCycles_value]

theorem readTexts_from (old texts : List Text) (start : Nat) :
    ((texts.map Json.string).zipIdx start).mapM (fun (item, i) => readText (old.getD i []) item) =
      some texts := by
  induction texts generalizing start with
  | nil => rfl
  | cons s texts ih =>
      rw [List.map_cons, List.zipIdx_cons, List.mapM_cons, ih (start + 1)]
      rfl

theorem readTexts_value (old texts : List Text) :
    readTexts old (.array (texts.map Json.string)) = some texts :=
  readTexts_from old texts 0

theorem foldlM_cost (e : Entry) :
    (costValues e).foldlM readEntryMember {} = some { e with bytes := [], error := [] } := by
  simp +decide [costValues, readEntryMember, readText, readInt_intValue, readTiming_value]

theorem foldlM_bytes (e old : Entry) (none : old.bytes = []) :
    (bytesValues e).foldlM readEntryMember old = some { old with bytes := e.bytes } := by
  unfold bytesValues
  split
  · next empty =>
      rw [List.isEmpty_iff.mp empty, ← none]
      rfl
  · simp +decide [readEntryMember, readTexts_value]

theorem foldlM_error (e old : Entry) (none : old.error = []) :
    (errorValues e).foldlM readEntryMember old = some { old with error := e.error } := by
  unfold errorValues
  split
  · next empty =>
      rw [List.isEmpty_iff.mp empty, ← none]
      rfl
  · simp +decide [readEntryMember, readText]

theorem readEntry_value (e : Entry) : readMembers readEntryMember {} (entryValue e) = some e := by
  rw [entryValue, readMembers_object, List.foldlM_append, List.foldlM_append, foldlM_cost, Option.bind_eq_bind,
    Option.bind_some, foldlM_bytes e _ rfl, Option.bind_some, foldlM_error e _ rfl]

theorem readEntries_value (entries : List Entry) :
    readEntries (.array (entries.map entryValue)) = some entries := by
  rw [readEntries]
  induction entries with
  | nil => rfl
  | cons e entries ih =>
      rw [List.map_cons, List.mapM_cons, readEntry_value, ih]
      rfl

/-- A report is read back from its text, entry by entry and field by field. -/
theorem read_write (entries : List Entry) (valid : ∀ e ∈ entries, Text.IsUtf8 e.name ∧ Text.IsUtf8 e.error ∧
    ∀ s ∈ e.bytes, Text.IsUtf8 s) : read (write entries) = .ok entries := by
  have each : ∀ e ∈ entries, IsUtf8 e := by
    intro e member
    obtain ⟨name, error, bytes⟩ := valid e member
    exact ⟨name, bytes, error⟩
  rw [read, read_write_value entries each]
  simp only [readEntries_value]

/-- Escapes of every kind and extreme integers, then a failure, then nothing but defaults. -/
def extremes : List Entry :=
  [{ name := "<\u2028\x01\t\"é😀", lines := Int64.minValue, code := Int64.maxValue, size := -1
     timing := { z80 := ⟨Int64.minValue, 0⟩, msx := ⟨-7, Int64.maxValue⟩ }
     bytes := ["00", "", "&"] },
   { name := "b", error := "\\ not found" }, {}]

theorem read_write_extremes :
    (∀ e ∈ extremes, Text.IsUtf8 e.name ∧ Text.IsUtf8 e.error ∧ ∀ s ∈ e.bytes, Text.IsUtf8 s) ∧
      extremes.map (fun e => Json.quote e.name) =
        (["\"\\u003c\\u2028\\u0001\\t\\\"é😀\"", "\"b\"", "\"\""] : List Text) ∧
      read (write extremes) = .ok extremes := by
  have empty : Text.IsUtf8 [] := ⟨[], rfl⟩
  have valid : ∀ e ∈ extremes, Text.IsUtf8 e.name ∧ Text.IsUtf8 e.error ∧ ∀ s ∈ e.bytes, Text.IsUtf8 s := by
    simp [extremes, isUtf8_ofString, empty]
  exact ⟨valid, by decide +kernel, read_write extremes valid⟩

end Z80Cost.Saved
