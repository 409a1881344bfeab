import Mathlib.Data.Nat.Digits.Lemmas
import Redskilled.Lane.Decode

/-!
# A plain spelling of rows

A spelling that keeps what the format promises of the rows of events. A header marks
which fields a row has. A line has a cell for each field: one letter for nothing, for
null and for the two truth values, and for a number or a text a sign and the decimal
digits of the number or of each character.
-/
namespace Redskilled.Lane
open Foundation List

namespace PlainToon

def fields : List Field :=
  [.version, .ts, .kind, .event, .workerId, .projectLabel, .pid, .pgid, .procStartTime,
    .workspacePath, .forkSha, .logPath, .isolated, .unit, .memoryHigh, .memoryMax, .cpuWeight,
    .admissionVerdict, .phase, .step, .tokens, .tools, .runner, .model, .baseHeadSha,
    .baseCommitsAhead, .healKind, .failureMode, .detail, .exitCode, .signal, .systemdResult,
    .memoryPeakBytes, .memorySwapPeakBytes, .pidsPeak, .journalTail, .senderClass, .confidence,
    .reason]

lemma mem_fields (f : Field) : f ∈ fields := by
  cases f <;> decide

def digits (n : ℕ) : Bytes := (Nat.digits 10 n).map fun d => UInt8.ofNat (48 + d)

def ofDigits (bytes : Bytes) : ℕ := Nat.ofDigits 10 (bytes.map fun b => b.toNat - 48)

def cell : Option (Value ℕ) → Bytes
  | none => [45]
  | some .null => [110]
  | some (.bool true) => [116]
  | some (.bool false) => [102]
  | some (.number n) => 35 :: digits n
  | some (.text t) => 34 :: unlines 59 (t.map fun c => digits c.toNat)

def readCell : Bytes → Option (Value ℕ)
  | [110] => some .null
  | [116] => some (.bool true)
  | [102] => some (.bool false)
  | 35 :: ds => some (.number (ofDigits ds))
  | 34 :: cs => some (.text ((completeLines 59 cs).map fun ds => Char.ofNat (ofDigits ds)))
  | _ => none

/-- A header has a mark for each field that is there; a line has a cell for every field. -/
def toon : Toon ℕ where
  header row := [91, 93, 123] ++ fields.map (fun f => if (row f).isSome then 49 else 48) ++ [125, 58]
  line row := unlines 44 (fields.map fun f => cell (row f))
  parseRecords _ line :=
    let cells := completeLines 44 line
    if cells.length = fields.length then some [fun f => readCell (cells.getD (fields.idxOf f) [])]
    else none

def conv : Conversions ℕ := ⟨0, 1, fun _ => 0, fun b => b.toNat, fun _ => []⟩

lemma digits_range {n : ℕ} {b : UInt8} (h : b ∈ digits n) : isDigit b := by
  obtain ⟨d, hd, rfl⟩ := mem_map.mp h
  have hlt : d < 10 := Nat.digits_lt_base (by decide) hd
  interval_cases d <;> rfl

lemma ofDigits_digits (n : ℕ) : ofDigits (digits n) = n := by
  have hback : ∀ d ∈ Nat.digits 10 n, (UInt8.ofNat (48 + d)).toNat - 48 = d := by
    intro d hd
    have hlt : d < 10 := Nat.digits_lt_base (by decide) hd
    interval_cases d <;> rfl
  have hmap : (digits n).map (fun b => b.toNat - 48) = Nat.digits 10 n := by
    rw [digits, map_map]
    exact (map_congr_left hback).trans (map_id _)
  rw [ofDigits, hmap, Nat.ofDigits_digits]

lemma notMem_digits {n : ℕ} {b : UInt8} (h : isDigit b = false) : b ∉ digits n := by
  intro hb
  rw [digits_range hb] at h
  cases h

lemma readCell_cell (value : Option (Value ℕ)) : readCell (cell value) = value := by
  rcases value with _ | t | n | b | _
  · rfl
  · have hsep : ∀ l ∈ t.map (fun c => digits c.toNat), (59 : UInt8) ∉ l := by
      intro l hl
      obtain ⟨c, -, rfl⟩ := mem_map.mp hl
      exact notMem_digits rfl
    have hchars : (t.map fun c => digits c.toNat).map (fun ds => Char.ofNat (ofDigits ds)) = t := by
      simp [ofDigits_digits, Char.ofNat_toNat, Function.comp_def]
    have hread : readCell (cell (some (.text t))) = some (.text ((completeLines 59
        (unlines 59 (t.map fun c => digits c.toNat))).map fun ds => Char.ofNat (ofDigits ds))) := rfl
    rw [hread, completeLines_unlines hsep, hchars]
  · have hread : readCell (cell (some (.number n))) = some (.number (ofDigits (digits n))) := rfl
    rw [hread, ofDigits_digits]
  · cases b <;> rfl
  · rfl

lemma cell_notMem {value : Option (Value ℕ)} {b : UInt8} (h : b ∈ cell value) :
    b ≠ 10 ∧ b ≠ 44 ∧ b ≠ 91 := by
  have hdig : ∀ b : UInt8, isDigit b → b ≠ 10 ∧ b ≠ 44 ∧ b ≠ 91 := by
    intro b hb
    refine ⟨?_, ?_, ?_⟩ <;> rintro rfl <;> cases hb
  rcases value with _ | t | n | x | _
  · obtain rfl := mem_singleton.mp h
    decide
  · rcases mem_cons.mp h with rfl | hb
    · decide
    · obtain ⟨l, hl, hb⟩ := mem_flatMap.mp hb
      obtain ⟨c, -, rfl⟩ := mem_map.mp hl
      rcases mem_append.mp hb with hb | hb
      · exact hdig b (digits_range hb)
      · obtain rfl := mem_singleton.mp hb
        decide
  · rcases mem_cons.mp h with rfl | hb
    · decide
    · exact hdig b (digits_range hb)
  · cases x
    · obtain rfl := mem_singleton.mp h
      decide
    · obtain rfl := mem_singleton.mp h
      decide
  · obtain rfl := mem_singleton.mp h
    decide

lemma line_notMem {row : Row ℕ} {b : UInt8} (h : b ∈ toon.line row) : b ≠ 10 ∧ b ≠ 91 := by
  obtain ⟨l, hl, hb⟩ := mem_flatMap.mp h
  obtain ⟨f, -, rfl⟩ := mem_map.mp hl
  rcases mem_append.mp hb with hb | hb
  · exact ⟨(cell_notMem hb).1, (cell_notMem hb).2.2⟩
  · obtain rfl := mem_singleton.mp hb
    decide

lemma header_notMem {row : Row ℕ} : newline ∉ toon.header row := by
  intro h
  simp only [toon, append_assoc, mem_append, mem_map] at h
  rcases h with h | ⟨f, -, hf⟩ | h
  · revert h
    decide
  · split at hf <;> cases hf
  · revert h
    decide

lemma terminatorFree_of {bytes : Bytes} (h : ∀ b ∈ bytes, b ≠ 10 ∧ b ≠ 13 ∧ b ≠ 226) :
    terminatorFree bytes := by
  have hno : ∀ t ∈ bytes.tails, ∀ rest : Bytes, ([226, 128] ++ rest).isPrefixOf t = false := by
    intro t ht rest
    rw [Bool.eq_false_iff]
    intro hpref
    have hmem : (226 : UInt8) ∈ t := (List.isPrefixOf_iff_prefix.mp hpref).subset (by simp)
    exact (h 226 (((mem_tails _ _).mp ht).subset hmem)).2.2 rfl
  rw [terminatorFree, Bool.and_eq_true, all_eq_true, all_eq_true]
  constructor
  · intro b hb
    obtain ⟨hlf, hcr, -⟩ := h b hb
    simp [hlf, hcr]
  · intro t ht
    have hline := hno t ht [168]
    have hpar := hno t ht [169]
    simp only [cons_append, nil_append] at hline hpar
    simp [hline, hpar]

lemma isHeader_braces {body : Bytes} (h : ∀ b ∈ body, b ≠ 10 ∧ b ≠ 13 ∧ b ≠ 226) :
    isHeader ([91, 93, 123] ++ body ++ [125, 58]) := by
  have hbody : isHeader ([91, 93, 123] ++ body ++ [125, 58]) =
      ([125, 58].isSuffixOf (body ++ [125, 58]) &&
        terminatorFree ((body ++ [125, 58]).take ((body ++ [125, 58]).length - 2))) := rfl
  have hsuff : [125, 58].isSuffixOf (body ++ [125, 58]) = true :=
    isSuffixOf_iff_suffix.mpr (suffix_append _ _)
  have htake : (body ++ [125, 58]).take ((body ++ [125, 58]).length - 2) = body := by simp
  rw [hbody, hsuff, htake, terminatorFree_of h]
  rfl

lemma lawful : toon.Lawful conv where
  header_isHeader event := by
    apply isHeader_braces
    intro b hb
    obtain ⟨f, -, rfl⟩ := mem_map.mp hb
    split <;> decide
  line_notHeader event := by
    have hbrack : (91 : UInt8) ∉ toon.line (toRow conv event) := fun h => (line_notMem h).2 rfl
    unfold isHeader
    split
    · next heq => exact absurd (heq ▸ mem_cons_self) hbrack
    · rfl
  newline_header _ := header_notMem
  newline_line event := fun h => (line_notMem h).1 rfl
  reads_back event := by
    have hsep : ∀ l ∈ fields.map (fun f => cell (toRow conv event f)), (44 : UInt8) ∉ l := by
      intro l hl hmem
      obtain ⟨f, -, rfl⟩ := mem_map.mp hl
      exact (cell_notMem hmem).2.1 rfl
    have hcells := completeLines_unlines hsep
    have hrow : (fun f => readCell
        ((fields.map fun f => cell (toRow conv event f)).getD (fields.idxOf f) [])) =
          toRow conv event := by
      funext f
      have hf := idxOf_lt_length_iff.mpr (mem_fields f)
      have hget : (fields.map fun f => cell (toRow conv event f))[fields.idxOf f]? =
          some (cell (toRow conv event f)) := by
        rw [getElem?_map, getElem?_eq_getElem hf, getElem_idxOf]
        rfl
      rw [getD_eq_getElem?_getD, hget, Option.getD_some, readCell_cell]
    simp only [toon, hcells, length_map, if_true, hrow]

end PlainToon
end Redskilled.Lane
