import Redskilled.Telemetry.SpoolRows

/-!
# A plain spelling of flat rows

A spelling that keeps what the format promises. A record of plain texts is spelled as the
format does it, with names and cells divided by commas; any other record is spelled as its
JSON between two commas.
-/
namespace Redskilled.Telemetry.PlainToonl
open Foundation Foundation.Text List

def cells : Record → Option (List (Text × Text))
  | [] => some []
  | (name, .string text) :: fields => (cells fields).map ((name, text) :: ·)
  | _ => none

def plainHeader (cells : List (Text × Text)) : Text :=
  "[]\x7b".toList ++ List.intercalate [','] (cells.map Prod.fst) ++ "\x7d:".toList

def plainRow (cells : List (Text × Text)) : Text := List.intercalate [','] (cells.map Prod.snd)

def readPlain (header row : Text) : List (Text × Text) :=
  ((header.drop 3).dropLast.dropLast.splitOn ',').zip (row.splitOn ',')

structure IsPlain (cells : List (Text × Text)) : Prop where
  header_trimmed : trim (plainHeader cells) = plainHeader cells
  header_json : (Json.parse (plainHeader cells)).isNone = true
  header_form : isHeaderLine (plainHeader cells) = true
  header_unbroken : '\n' ∉ plainHeader cells
  row_trimmed : trim (plainRow cells) = plainRow cells
  row_nonempty : plainRow cells ≠ []
  row_json : (Json.parse (plainRow cells)).isNone = true
  row_form : isHeaderLine (plainRow cells) = false
  row_unbroken : '\n' ∉ plainRow cells
  row_head : (plainRow cells).head? ≠ some ','
  read_back : readPlain (plainHeader cells) (plainRow cells) = cells

instance (cells : List (Text × Text)) : Decidable (IsPlain cells) :=
  decidable_of_iff
    ((trim (plainHeader cells) = plainHeader cells ∧
        (Json.parse (plainHeader cells)).isNone = true ∧
        isHeaderLine (plainHeader cells) = true ∧ '\n' ∉ plainHeader cells) ∧
      (trim (plainRow cells) = plainRow cells ∧ plainRow cells ≠ [] ∧
        (Json.parse (plainRow cells)).isNone = true ∧ isHeaderLine (plainRow cells) = false ∧
        '\n' ∉ plainRow cells ∧ (plainRow cells).head? ≠ some ',') ∧
      readPlain (plainHeader cells) (plainRow cells) = cells)
    ⟨fun ⟨⟨a, b, c, d⟩, ⟨e, f, g, h, i, j⟩, k⟩ => ⟨a, b, c, d, e, f, g, h, i, j, k⟩,
      fun ⟨a, b, c, d, e, f, g, h, i, j, k⟩ => ⟨⟨a, b, c, d⟩, ⟨e, f, g, h, i, j⟩, k⟩⟩

def plainCells (record : Record) : Option (List (Text × Text)) :=
  (cells record).filter fun cells => decide (IsPlain cells)

def otherHeader : Text := "[]\x7b,\x7d:".toList

def otherRow (record : Record) : Text := ',' :: (Json.object record).stringify ++ [',']

def toonl : Toonl where
  header record :=
    match plainCells record with
    | some cells => plainHeader cells
    | none => otherHeader
  row record :=
    match plainCells record with
    | some cells => plainRow cells
    | none => otherRow record
  parseRecords text :=
    let header := text.takeWhile (· ≠ '\n')
    let row := ((text.dropWhile (· ≠ '\n')).drop 1).takeWhile (· ≠ '\n')
    if row.head? = some ',' then (Json.parse row.tail.dropLast).map fun value => [value]
    else some [.object ((readPlain header row).map fun cell => (cell.1, .string cell.2))]

lemma cells_record {record : Record} {cs : List (Text × Text)} (h : cells record = some cs) :
    record = cs.map fun cell => (cell.1, Json.string cell.2) := by
  induction record generalizing cs with
  | nil =>
    cases h
    rfl
  | cons field fields ih =>
    obtain ⟨name, value⟩ := field
    cases value with
    | string text =>
      obtain ⟨rest, hrest, rfl⟩ := Option.map_eq_some_iff.mp h
      rw [map_cons, ← ih hrest]
    | _ => cases h

lemma lines_underHeader {header line : Text} (hheader : '\n' ∉ header) (hline : '\n' ∉ line) :
    (underHeader header line).takeWhile (· ≠ '\n') = header ∧
      (((underHeader header line).dropWhile (· ≠ '\n')).drop 1).takeWhile (· ≠ '\n') = line := by
  have hall : ∀ {t : Text}, '\n' ∉ t → ∀ c ∈ t, decide (c ≠ '\n') = true := by
    intro t ht c hc
    apply decide_eq_true
    rintro rfl
    exact ht hc
  have htake : ∀ {t : Text} (rest : Text), '\n' ∉ t →
      (t ++ '\n' :: rest).takeWhile (· ≠ '\n') = t := by
    intro t rest ht
    rw [takeWhile_append_of_pos (hall ht), takeWhile_cons_of_neg (by simp), append_nil]
  have hdrop : (underHeader header line).dropWhile (· ≠ '\n') = '\n' :: (line ++ ['\n']) := by
    unfold underHeader
    rw [append_assoc, dropWhile_append_of_pos (hall hheader), cons_append,
      dropWhile_cons_of_neg (by simp)]
  constructor
  · unfold underHeader
    rw [append_assoc]
    exact htake _ hheader
  · rw [hdrop]
    exact htake [] hline

lemma spells_plain {record : Record} {cs : List (Text × Text)}
    (h : plainCells record = some cs) : toonl.Spells record := by
  obtain ⟨hcells, hplain⟩ := Option.filter_eq_some_iff.mp h
  have hplain : IsPlain cs := of_decide_eq_true hplain
  have hheader : toonl.header record = plainHeader cs := by
    simp only [toonl, h]
  have hrow : toonl.row record = plainRow cs := by
    simp only [toonl, h]
  constructor
  · rw [hheader]
    exact hplain.header_trimmed
  · rw [hheader]
    exact Option.isNone_iff_eq_none.mp hplain.header_json
  · rw [hheader]
    exact hplain.header_form
  · rw [hrow]
    exact hplain.row_trimmed
  · rw [hrow]
    exact hplain.row_nonempty
  · rw [hrow]
    exact Option.isNone_iff_eq_none.mp hplain.row_json
  · rw [hrow]
    exact hplain.row_form
  · obtain ⟨hfirst, hsec⟩ := lines_underHeader hplain.header_unbroken hplain.row_unbroken
    rw [hheader, hrow]
    simp only [toonl]
    rw [hfirst, hsec, if_neg hplain.row_head, hplain.read_back, ← cells_record hcells]

lemma spells_other {record : Record} (hprop : (Json.object record).Proper)
    (h : plainCells record = none) : toonl.Spells record := by
  have hheader : toonl.header record = otherHeader := by
    simp only [toonl, h]
  have hrow : toonl.row record = otherRow record := by
    simp only [toonl, h]
  have hform : trim otherHeader = otherHeader ∧ Json.parse otherHeader = none ∧
      isHeaderLine otherHeader = true ∧ '\n' ∉ otherHeader := by
    refine ⟨by decide, ?_, by decide, by decide⟩
    apply Option.isNone_iff_eq_none.mp
    decide +kernel
  have hunbr : '\n' ∉ otherRow record := by
    intro hin
    rcases mem_append.mp hin with hin | hin
    · rcases mem_cons.mp hin with hcomma | hin
      · cases hcomma
      · exact Json.newline_notMem_stringify _ hin
    · cases mem_singleton.mp hin
  constructor
  · rw [hheader]
    exact hform.1
  · rw [hheader]
    exact hform.2.1
  · rw [hheader]
    exact hform.2.2.1
  · rw [hrow]
    have hdrop : (otherRow record).dropWhile isWhitespace = otherRow record :=
      dropWhile_cons_of_neg (by decide)
    unfold trim
    rw [hdrop]
    exact rdropWhile_concat_neg _ _ _ (by decide)
  · rw [hrow]
    exact cons_ne_nil _ _
  · rw [hrow]
    rfl
  · rw [hrow]
    rfl
  · obtain ⟨hfirst, hsec⟩ := lines_underHeader hform.2.2.2 hunbr
    rw [hheader, hrow]
    simp only [toonl]
    have hhead : (otherRow record).head? = some ',' := rfl
    rw [hfirst, hsec, if_pos hhead]
    change (Json.parse ((Json.object record).stringify ++ [',']).dropLast).map _ = _
    rw [dropLast_concat, Json.parse_stringify hprop]
    rfl

lemma toonl_lawful : toonl.Lawful := by
  intro record hrec
  cases h : plainCells record with
  | none => exact spells_other hrec.proper h
  | some cs => exact spells_plain h

end Redskilled.Telemetry.PlainToonl
