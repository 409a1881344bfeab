import Redskilled.Deaths.DeathLane
import Redskilled.Lane.PlainToon

/-!
# A plain spelling of death records

A spelling that keeps what the format promises of the rows of records. A header has the
names of the keys between braces, a line a cell for each of them; both are separated by
commas. A line of another number of cells than its header has names is rejected.
-/
namespace Redskilled.Deaths
open Foundation Lane List

namespace PlainDeaths

def fieldName : DeathField → Text
  | .scope => "scope".toList
  | .memoryCeiling => "memory_ceiling".toList
  | .scopeDegradation => "scope_degradation".toList
  | .version => "version".toList
  | .ts => "ts".toList
  | .kind => "kind".toList
  | .id => "id".toList
  | .pid => "pid".toList
  | .exitPath => "exit_path".toList
  | .signal => "signal".toList
  | .exitCode => "exit_code".toList
  | .lastPhase => "last_phase".toList
  | .detail => "detail".toList
  | .uptimeS => "uptime_s".toList
  | .rssKb => "rss_kb".toList
  | .maxRssKb => "max_rss_kb".toList
  | .userCpuUs => "user_cpu_us".toList
  | .systemCpuUs => "system_cpu_us".toList
  | .minorPageFaults => "minor_page_faults".toList
  | .majorPageFaults => "major_page_faults".toList
  | .voluntaryCtxSwitches => "voluntary_ctx_switches".toList
  | .involuntaryCtxSwitches => "involuntary_ctx_switches".toList

def nameBytes (field : DeathField) : Bytes :=
  (fieldName field).map fun c => UInt8.ofNat c.toNat

def readName (name : Bytes) : Option DeathField :=
  KeyOrder.built.fields.find? fun field => nameBytes field = name

def readCells (cells : List (Bytes × Bytes)) : Option (DeathRow ℕ) :=
  cells.mapM fun cell =>
    match readName cell.1, PlainToon.readCell cell.2 with
    | some field, some value => some (field, value)
    | _, _ => none

def names (header : Bytes) : List Bytes :=
  ((header.drop 3).take (header.length - 5)).splitOn 44

/-- A header has the names of the keys, a line their values. -/
def toonl : DeathToonl ℕ where
  header row := [91, 93, 123] ++ [44].intercalate (row.map fun cell => nameBytes cell.1) ++ [125, 58]
  line row := [44].intercalate (row.map fun cell => PlainToon.cell (some cell.2))
  readRow header line :=
    if (line.splitOn 44).length = (names header).length then
      readCells ((names header).zip (line.splitOn 44))
    else none
  cellCount line := (line.splitOn 44).length
  fieldCount header := (names header).length

def numbers : Numbers ℕ := ⟨PlainToon.conv, 0⟩

lemma mem_built (field : DeathField) : field ∈ KeyOrder.built.fields := by
  cases field <;> decide

lemma names_built : (KeyOrder.built.fields.all fun field =>
    ((nameBytes field).all fun b => b != 10 && b != 13 && b != 226 && b != 44) &&
      readName (nameBytes field) == some field) = true := by
  decide +kernel

lemma name_built (field : DeathField) :
    (∀ b ∈ nameBytes field, b ≠ 10 ∧ b ≠ 13 ∧ b ≠ 226 ∧ b ≠ 44) ∧
      readName (nameBytes field) = some field := by
  have hfield := all_eq_true.mp names_built field (mem_built field)
  simp only [Bool.and_eq_true, all_eq_true, bne_iff_ne, beq_iff_eq, and_assoc] at hfield
  exact hfield

lemma nameBytes_notMem (field : DeathField) :
    ∀ b ∈ nameBytes field, b ≠ 10 ∧ b ≠ 13 ∧ b ≠ 226 ∧ b ≠ 44 :=
  (name_built field).1

lemma readName_nameBytes (field : DeathField) : readName (nameBytes field) = some field :=
  (name_built field).2

variable {b : UInt8} {row : DeathRow ℕ}

lemma mem_intercalate {ls : List Bytes} (h : b ∈ [44].intercalate ls) :
    b = 44 ∨ ∃ l ∈ ls, b ∈ l := by
  induction ls with
  | nil => cases h
  | cons l ls ih =>
    by_cases hls : ls = []
    · subst hls
      rw [intercalate_singleton] at h
      exact .inr ⟨l, mem_singleton_self l, h⟩
    · rw [intercalate_cons_of_ne_nil hls, append_assoc] at h
      rcases mem_append.mp h with h | h
      · exact .inr ⟨l, mem_cons_self, h⟩
      · rcases mem_append.mp h with h | h
        · exact .inl (mem_singleton.mp h)
        · rcases ih h with h | ⟨l', hl', h⟩
          · exact .inl h
          · exact .inr ⟨l', mem_cons_of_mem l hl', h⟩

lemma header_notMem
    (h : b ∈ [44].intercalate (row.map fun cell => nameBytes cell.1)) :
    b ≠ 10 ∧ b ≠ 13 ∧ b ≠ 226 := by
  rcases mem_intercalate h with rfl | ⟨l, hl, hb⟩
  · decide
  · obtain ⟨cell, -, rfl⟩ := mem_map.mp hl
    have hname := nameBytes_notMem cell.1 b hb
    exact ⟨hname.1, hname.2.1, hname.2.2.1⟩

lemma line_notMem (h : b ∈ toonl.line row) : b ≠ 10 ∧ b ≠ 91 := by
  rcases mem_intercalate h with rfl | ⟨l, hl, hb⟩
  · decide
  · obtain ⟨cell, -, rfl⟩ := mem_map.mp hl
    have hcell := PlainToon.cell_notMem hb
    exact ⟨hcell.1, hcell.2.2⟩

lemma readCells_map (row : DeathRow ℕ) :
    readCells (row.map fun cell => (nameBytes cell.1, PlainToon.cell (some cell.2))) =
      some row := by
  unfold readCells
  induction row with
  | nil => rfl
  | cons cell row ih =>
    rw [map_cons, mapM_cons, ih]
    simp only [readName_nameBytes, PlainToon.readCell_cell]
    rfl

lemma names_header (h : row ≠ []) :
    names (toonl.header row) = row.map fun cell => nameBytes cell.1 := by
  have hbody : ((toonl.header row).drop 3).take ((toonl.header row).length - 5) =
      [44].intercalate (row.map fun cell => nameBytes cell.1) := by
    simp [toonl]
  rw [names, hbody]
  apply splitOn_intercalate
  · intro l hl hmem
    obtain ⟨cell, -, rfl⟩ := mem_map.mp hl
    exact (nameBytes_notMem cell.1 44 hmem).2.2.2 rfl
  · simpa using h

lemma cells_line (h : row ≠ []) :
    (toonl.line row).splitOn 44 = row.map fun cell => PlainToon.cell (some cell.2) := by
  apply splitOn_intercalate
  · intro l hl hmem
    obtain ⟨cell, -, rfl⟩ := mem_map.mp hl
    exact (PlainToon.cell_notMem hmem).2.1 rfl
  · simpa using h

lemma toRow_ne_nil (order : KeyOrder) (record : ProcessDeathRecord ℕ) :
    toRow order record ≠ [] := by
  intro h
  have hfields : order.fields = [] := by simpa [toRow] using h
  have hmem := order.complete .scope
  rw [hfields] at hmem
  cases hmem

lemma lawful : toonl.Lawful where
  header_isHeader order record := by
    apply PlainToon.isHeader_braces
    intro b hb
    exact header_notMem hb
  newline_header order record := by
    intro h
    simp only [toonl, mem_append] at h
    rcases h with (h | h) | h
    · revert h
      decide
    · exact (header_notMem h).1 rfl
    · revert h
      decide
  line_notHeader order record := by
    have hbrack : (91 : UInt8) ∉ toonl.line (toRow order record) :=
      fun h => (line_notMem h).2 rfl
    unfold isHeader
    split
    · next heq => exact absurd (heq ▸ mem_cons_self) hbrack
    · rfl
  newline_line order record := fun h => (line_notMem h).1 rfl
  reads_back order record := by
    have hrow := toRow_ne_nil order record
    have hread : toonl.readRow (toonl.header (toRow order record))
        (toonl.line (toRow order record)) =
          if ((toonl.line (toRow order record)).splitOn 44).length =
              (names (toonl.header (toRow order record))).length then
            readCells ((names (toonl.header (toRow order record))).zip
              ((toonl.line (toRow order record)).splitOn 44))
          else none := rfl
    rw [hread, names_header hrow, cells_line hrow, if_pos (by simp), zip_map', readCells_map]
  counts header line row h := by
    simp only [toonl] at h ⊢
    split at h
    · next hcount => exact hcount
    · cases h

end PlainDeaths
end Redskilled.Deaths
