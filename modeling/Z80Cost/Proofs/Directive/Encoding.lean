import Mathlib.Data.List.Forall2
import Z80Cost.Proofs.Directive.Storage
import Z80Cost.Proofs.Directive.Unquoting

/-!
Data definitions list what their operands stand for: the bytes of a string, the low byte or the low word
of a value, and a placeholder for each byte that the text does not give. The bytes of a listing are read
back from its text, so its size does not depend on whether the values are known.
-/

namespace Z80Cost.Directive

open Source (Literal)

/-- The token of an operand that is one byte. -/
inductive EncodesValue (operand : Text) : Text → Prop where
  | known (v : Int64) (n : Nat) (token : Text) : Expression.eval? operand = some v → (n : Int) = v.toInt % 256 →
      Text.IsHexPair n token → EncodesValue operand token
  | unknown : Expression.eval? operand = none → EncodesValue operand "n"

inductive EncodesBytes (operand : Text) : List Text → Prop where
  | string (literal : Literal) (tokens : List Text) : operand = literal.written →
      List.Forall₂ (fun b token => Text.IsHexPair b.toNat token) literal.content tokens →
      EncodesBytes operand tokens
  | value (token : Text) : (∀ literal : Literal, operand ≠ literal.written) → EncodesValue operand token →
      EncodesBytes operand [token]

/-- The tokens of an operand of a word list, low byte first. -/
inductive EncodesWord (operand : Text) : List Text → Prop where
  | known (v : Int64) (low high : Nat) (first second : Text) : Expression.eval? operand = some v →
      (low + 256 * high : Int) = v.toInt % 65536 → Text.IsHexPair low first → Text.IsHexPair high second →
      EncodesWord operand [first, second]
  | unknown : Expression.eval? operand = none → EncodesWord operand ["nn", "nn"]

inductive Fills : Option Text → Text → Prop where
  | none : Fills none "n"
  | some (operand token : Text) : EncodesValue operand token → Fills (some operand) token

/-- Whether an operand is the size of a storage block. -/
def IsCount (operand : Text) (count : Nat) : Prop :=
  ∃ v : Int64, Expression.eval? operand = some v ∧ v.toInt = count ∧ count ≤ 65536

inductive Encodes : DataKind → List Text → List Text → Prop where
  | bytes (operands : List Text) (parts : List (List Text)) : List.Forall₂ EncodesBytes operands parts →
      Encodes .byte operands parts.flatten
  | words (operands : List Text) (parts : List (List Text)) : List.Forall₂ EncodesWord operands parts →
      Encodes .word operands parts.flatten
  | block (size : Text) (fill : Option Text) (count : Nat) (token : Text) : IsCount size count → Fills fill token →
      Encodes .storage (size :: fill.toList) (List.replicate count token)

/-- Operands that define no data. -/
inductive Refused : DataKind → List Text → Prop where
  | missing (kind : DataKind) : Refused kind []
  | blank (kind : DataKind) (operands : List Text) : [] ∈ operands → Refused kind operands
  | excess (operands : List Text) : 2 < operands.length → Refused .storage operands
  | size (first : Text) (rest : List Text) : (∀ count, ¬ IsCount first count) → Refused .storage (first :: rest)

theorem isHexPair_lowByte (v : Int64) : Text.IsHexPair (v.toInt % 256).toNat (lowByte v) := by
  have small : (v.toInt % 256).toNat < 256 := by omega
  have whole : (v.toInt % 256).toNat.toUInt8.toNat = (v.toInt % 256).toNat := Nat.mod_eq_of_lt small
  have pair := Pattern.isHexPair_hexText (v.toInt % 256).toNat.toUInt8
  rwa [whole] at pair

theorem toInt_shiftRight_eight (v : Int64) : (v >>> 8).toInt = v.toInt / 256 := by
  have shifted : (v >>> 8).toBitVec = v.toBitVec.sshiftRight 8 := Int64.toBitVec_shiftRight ..
  rw [← Int64.toInt_toBitVec, shifted, BitVec.toInt_sshiftRight, Int64.toInt_toBitVec]
  exact Int.shiftRight_eq_div_pow v.toInt 8

theorem encodesValue_fillToken (operand : Text) : EncodesValue operand (fillToken (some operand)) := by
  rw [fillToken]
  split
  · next v value => exact .known v (v.toInt % 256).toNat _ value (by omega) (isHexPair_lowByte v)
  · next missing => exact .unknown missing

theorem fills_fillToken (fill : Option Text) : Fills fill (fillToken fill) := by
  cases fill with
  | none => exact .none
  | some operand => exact .some operand _ (encodesValue_fillToken operand)

theorem encodesBytes_byteTokens (operand : Text) : EncodesBytes operand (byteTokens operand) := by
  cases found : unquote? operand with
  | some content =>
      obtain ⟨literal, written, rfl⟩ := (unquote_eq_some_iff operand content).mp found
      have tokens : byteTokens operand = literal.content.map Pattern.hexText := by simp only [byteTokens, found]
      refine .string literal _ written ?_
      rw [tokens, List.forall₂_map_right_iff, List.forall₂_same]
      exact fun b _ => Pattern.isHexPair_hexText b
  | none =>
      have tokens : byteTokens operand = [fillToken (some operand)] := by
        simp only [byteTokens, found, fillToken]
        split <;> rfl
      rw [tokens]
      -- A written literal would have been unquoted.
      refine .value _ (fun literal written => ?_) (encodesValue_fillToken operand)
      rw [written, unquote_written] at found
      contradiction

theorem encodesWord_wordTokens (operand : Text) : EncodesWord operand (wordTokens operand) := by
  rw [wordTokens]
  split
  · next v value =>
      have high := isHexPair_lowByte (v >>> 8)
      rw [toInt_shiftRight_eight] at high
      exact .known v _ _ _ _ value (by omega) (isHexPair_lowByte v) high
  · next missing => exact .unknown missing

theorem storageCount_eq_some_iff (operand : Text) (count : Nat) :
    storageCount? operand = some count ↔ IsCount operand count := by
  have most : maxStorage.toInt = 65536 := by decide
  have none : (0 : Int64).toInt = 0 := by decide
  rw [storageCount?, IsCount]
  cases Expression.eval? operand with
  | none => simp
  | some v =>
      simp only [Option.some.injEq, exists_eq_left', Option.ite_none_right_eq_some, Int64.le_iff_toInt_le, most,
        none]
      omega

theorem complete_of_accepted (kind : DataKind) (operands : List Text) (accepted : ¬ Refused kind operands) :
    operands ≠ [] ∧ operands.any List.isEmpty = false := by
  constructor
  · rintro rfl
    exact accepted (.missing kind)
  · rw [List.any_eq_false]
    intro operand member empty
    obtain rfl := List.isEmpty_iff.mp empty
    exact accepted (.blank kind operands member)

theorem forall_tokens (R : Text → List Text → Prop) (tokens : Text → List Text)
    (each : ∀ operand, R operand (tokens operand)) (operands : List Text) :
    List.Forall₂ R operands (operands.map tokens) := by
  rw [List.forall₂_map_right_iff, List.forall₂_same]
  exact fun operand _ => each operand

section Statements
variable (catalog : Option Catalog) (statement : Source.Statement)

theorem block_of_metered (results : List Metered) (named : kind? statement.mnemonic = some .storage)
    (metered : meter? catalog .keep statement = some results) :
    ∃ size fill count, statement.operands = size :: Option.toList fill ∧ IsCount size count := by
  rw [meter_storage catalog .keep statement named] at metered
  split at metered
  · contradiction
  · split at metered
    · next size listed =>
        obtain ⟨count, read, _⟩ := Option.map_eq_some_iff.mp metered
        exact ⟨size, none, count, listed, (storageCount_eq_some_iff size count).mp read⟩
    · next size fill listed =>
        obtain ⟨count, read, _⟩ := Option.map_eq_some_iff.mp metered
        exact ⟨size, some fill, count, listed, (storageCount_eq_some_iff size count).mp read⟩
    · contradiction

theorem meter_refused (kind : DataKind) (named : kind? statement.mnemonic = some kind)
    (refused : Refused kind statement.operands) : meter? catalog .keep statement = none := by
  rw [Option.eq_none_iff_forall_ne_some]
  intro results metered
  obtain ⟨mnemonic, operands⟩ := statement
  simp only at named refused
  cases refused with
  | missing => simp [meter?, named] at metered
  | blank _ _ member =>
      have empty : operands.any List.isEmpty = true := List.any_eq_true.mpr ⟨[], member, rfl⟩
      simp [meter?, named, empty] at metered
  | excess _ many =>
      obtain ⟨size, fill, _, rfl, _⟩ := block_of_metered catalog _ results named metered
      cases fill <;> simp at many
  | size first rest outside =>
      obtain ⟨size, fill, count, listed, counted⟩ := block_of_metered catalog _ results named metered
      obtain rfl := (List.cons.inj listed).1
      exact outside count counted

theorem meter_list (kind : DataKind) (tokens : Text → List Text)
    (encoder : kind = .byte ∧ tokens = byteTokens ∨ kind = .word ∧ tokens = wordTokens)
    (named : kind? statement.mnemonic = some kind) (some : statement.operands ≠ [])
    (complete : statement.operands.any List.isEmpty = false) :
    meter? catalog .keep statement =
      .some [.directive ⟨kind, statement.text, statement.operands.flatMap tokens⟩] := by
  obtain ⟨mnemonic, operands⟩ := statement
  obtain ⟨first, rest, rfl⟩ := List.exists_cons_of_ne_nil some
  rcases encoder with ⟨rfl, rfl⟩ | ⟨rfl, rfl⟩ <;> simp only [meter?, named, complete] <;> rfl

theorem meter_block (size : Text) (fill : Option Text) (count : Nat)
    (named : kind? statement.mnemonic = some .storage) (listed : statement.operands = size :: fill.toList)
    (complete : statement.operands.any List.isEmpty = false) (counted : IsCount size count) :
    meter? catalog .keep statement =
      some [.directive ⟨.storage, statement.text, List.replicate count (fillToken fill)⟩] := by
  have read := (storageCount_eq_some_iff size count).mpr counted
  rw [meter_storage catalog .keep statement named, complete, listed]
  cases fill <;> simp only [Option.toList, read] <;> rfl

/-- A storage block has a size and at most a fill. -/
theorem block_of_accepted (operands : List Text) (accepted : ¬ Refused .storage operands) :
    ∃ size fill count, operands = size :: Option.toList fill ∧ IsCount size count := by
  have counted : ∀ size rest, operands = size :: rest → ∃ count, IsCount size count := by
    rintro size rest rfl
    by_contra none
    exact accepted (.size size rest (not_exists.mp none))
  match operands with
  | [] => exact absurd (.missing .storage) accepted
  | [size] =>
      obtain ⟨count, holds⟩ := counted size [] rfl
      exact ⟨size, none, count, rfl, holds⟩
  | [size, fill] =>
      obtain ⟨count, holds⟩ := counted size [fill] rfl
      exact ⟨size, some fill, count, rfl, holds⟩
  | size :: fill :: third :: rest => exact absurd (.excess _ (by simp)) accepted

theorem meter_accepted (kind : DataKind) (named : kind? statement.mnemonic = some kind)
    (accepted : ¬ Refused kind statement.operands) :
    ∃ data, meter? catalog .keep statement = some [.directive ⟨kind, statement.text, data⟩] ∧
      Encodes kind statement.operands data ∧ ∀ token ∈ data, Text.IsToken token := by
  obtain ⟨some, complete⟩ := complete_of_accepted kind statement.operands accepted
  cases kind with
  | byte =>
      refine ⟨_, meter_list catalog statement .byte _ (.inl ⟨rfl, rfl⟩) named some complete, ?_, ?_⟩
      · rw [List.flatMap_def]
        exact .bytes _ _ (forall_tokens _ _ encodesBytes_byteTokens statement.operands)
      · intro token member
        obtain ⟨operand, _, listed⟩ := List.mem_flatMap.mp member
        exact isToken_byteTokens operand token listed
  | word =>
      refine ⟨_, meter_list catalog statement .word _ (.inr ⟨rfl, rfl⟩) named some complete, ?_, ?_⟩
      · rw [List.flatMap_def]
        exact .words _ _ (forall_tokens _ _ encodesWord_wordTokens statement.operands)
      · intro token member
        obtain ⟨operand, _, listed⟩ := List.mem_flatMap.mp member
        exact isToken_wordTokens operand token listed
  | storage =>
      obtain ⟨size, fill, count, listed, counted⟩ := block_of_accepted statement.operands accepted
      refine ⟨_, meter_block catalog statement size fill count named listed complete counted, ?_, ?_⟩
      · rw [listed]
        exact .block size fill count _ counted (fills_fillToken fill)
      · intro token member
        rw [List.eq_of_mem_replicate member]
        exact isToken_fillToken fill

/-- A data definition is refused or metered as one directive, which lists what its operands stand for. -/
theorem meter_encodes (kind : DataKind) (named : kind? statement.mnemonic = some kind) :
    (Refused kind statement.operands → meter? catalog .keep statement = none) ∧
    (¬ Refused kind statement.operands → ∃ data,
      meter? catalog .keep statement = some [.directive ⟨kind, statement.text, data⟩] ∧
      Encodes kind statement.operands data ∧
      (Metered.directive ⟨kind, statement.text, data⟩).bytes.words = data ∧
      (Metered.directive ⟨kind, statement.text, data⟩).size = .ofNat data.length) := by
  refine ⟨meter_refused catalog statement kind named, fun accepted => ?_⟩
  obtain ⟨data, metered, encodes, tokens⟩ := meter_accepted catalog statement kind named accepted
  exact ⟨data, metered, encodes, Text.words_join data tokens, rfl⟩

end Statements

/-- A string with a doubled delimiter, a lone one that is no string, a negative value and a name. -/
def mixedBytes : Source.Statement := ⟨"DEFM", [("'it''s'" : Text), "'a", "-2", "START"]⟩

/-- One byte more than there are addresses. -/
def overfullBlock : Source.Statement := ⟨"DS", [("65537" : Text), "0"]⟩

theorem meter_encodes_mixed :
    meter? none .keep mixedBytes =
      some [.directive ⟨.byte, "DEFM 'it''s','a,-2,START", [("69" : Text), "74", "27", "73", "n", "FE", "n"]⟩] ∧
    Encodes .byte mixedBytes.operands [("69" : Text), "74", "27", "73", "n", "FE", "n"] ∧
    Refused .storage overfullBlock.operands ∧ meter? none .keep overfullBlock = none := by
  have accepted : ¬ Refused .byte mixedBytes.operands := by
    rintro (_ | ⟨_, _, member⟩)
    exact absurd member (by decide)
  have listed : meter? none .keep mixedBytes =
      some [.directive ⟨.byte, "DEFM 'it''s','a,-2,START", [("69" : Text), "74", "27", "73", "n", "FE", "n"]⟩] := by
    decide +kernel
  obtain ⟨data, metered, encodes, _⟩ := (meter_encodes none mixedBytes .byte (by decide)).2 accepted
  obtain rfl : data = [("69" : Text), "74", "27", "73", "n", "FE", "n"] := by
    have same := Option.some.inj (metered.symm.trans listed)
    exact congrArg Directive.data (Metered.directive.inj (List.singleton_inj.mp same))
  have outside : Refused .storage overfullBlock.operands := by
    refine .size _ _ fun count counted => ?_
    have none : storageCount? "65537" = none := by decide +kernel
    rw [← storageCount_eq_some_iff, none] at counted
    contradiction
  exact ⟨listed, encodes, outside, (meter_encodes none overfullBlock .storage (by decide)).1 outside⟩

end Z80Cost.Directive
