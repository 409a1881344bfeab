import Redskilled.Foundation.Json
import Redskilled.Github.AttributionLedger

/-!
# A plain spelling of the ledger

A spelling that keeps what the format library promises: a header names the fields of a
row, and a line spells each field with its kind and its value.
-/
namespace Redskilled.Github
open Foundation Foundation.Text List

namespace PlainToonl

def cell : Text × ToonlValue → Json
  | (key, .text t) => .array [.string key, .string "text".toList, .string t]
  | (key, .number n) => .array [.string key, .string "number".toList, .string (number n.num.toNat)]
  | (key, .bool b) =>
    .array [.string key, .string "bool".toList, .string (if b then "1".toList else [])]
  | (key, .null) => .array [.string key, .string "null".toList, .string []]

def readCell : Json → Option (Text × ToonlValue)
  | .array [.string key, .string kind, .string t] =>
    if kind = "text".toList then some (key, .text t)
    else if kind = "number".toList then some (key, .number (Nat.ofDigitChars 10 t 0 : ℕ))
    else if kind = "bool".toList then some (key, .bool (t ≠ []))
    else if kind = "null".toList then some (key, .null)
    else none
  | _ => none

def readLine (line : Text) : Option ToonlRecord :=
  match Json.parse line with
  | some (.array cells) => cells.mapM readCell
  | _ => none

def format : ToonlFormat where
  header row := headerMark ++ (Json.array (row.map fun field => .string field.1)).stringify
  line row := (Json.array (row.map cell)).stringify
  parseRecords text :=
    ((completeLines newline text).filter fun line => !headerMark.isPrefixOf line).mapM readLine

lemma proper_cell (field : Text × ToonlValue) : (cell field).Proper := by
  obtain ⟨key, value⟩ := field
  have hstr : ∀ a b c : Text, (Json.array [.string a, .string b, .string c]).Proper := by
    intro a b c
    apply Json.Proper.array
    intro v hv
    simp only [mem_cons, not_mem_nil, or_false] at hv
    rcases hv with rfl | rfl | rfl
    · exact .string _
    · exact .string _
    · exact .string _
  cases value
  · exact hstr _ _ _
  · exact hstr _ _ _
  · exact hstr _ _ _
  · exact hstr _ _ _

lemma readCell_cell {field : Text × ToonlValue}
    (h : ∀ n, field.2 = .number n → ∃ k : ℕ, n = k) : readCell (cell field) = some field := by
  obtain ⟨key, value⟩ := field
  cases value with
  | text t => rfl
  | number n =>
    obtain ⟨k, rfl⟩ := h n rfl
    have hdig : Nat.ofDigitChars 10 (number ((k : ℚ).num.toNat)) 0 = k := by
      have hlist : number ((k : ℚ).num.toNat) = Nat.toDigits 10 k := by
        rw [number, Nat.toList_repr, Rat.num_natCast, Int.toNat_natCast]
      rw [hlist, Nat.ofDigitChars_toDigits (by decide) (by decide)]
    simp only [cell, readCell, hdig]
    rfl
  | bool b => cases b <;> rfl
  | null => rfl

lemma mapM_map_some {α β : Type*} {f : α → β} {g : β → Option α} {l : List α}
    (h : ∀ a ∈ l, g (f a) = some a) : (l.map f).mapM g = some l := by
  induction l with
  | nil => rfl
  | cons a l ih =>
    rw [map_cons, mapM_cons, h a mem_cons_self, ih fun b hb => h b (mem_cons_of_mem a hb)]
    rfl

lemma natural_fields (o : GithubSpendObservation) :
    ∀ field ∈ toToonlRecord o, ∀ n, field.2 = .number n → ∃ k : ℕ, n = k := by
  intro field hfield n hn
  simp only [toToonlRecord, mem_append, mem_cons, mem_map, not_mem_nil, or_false] at hfield
  rcases hfield with ((((rfl | rfl | rfl) | ⟨_, -, rfl⟩) | rfl) | ⟨_, -, rfl⟩) | rfl
  · cases hn
    exact ⟨1, Nat.cast_one.symm⟩
  · cases hn
  · cases hn
  · cases hn
  · cases hn
  · cases hn
  · cases hn
    exact ⟨o.cost, rfl⟩

lemma readLine_line (o : GithubSpendObservation) :
    readLine (format.line (toToonlRecord o)) = some (toToonlRecord o) := by
  have hprop : (Json.array ((toToonlRecord o).map cell)).Proper := by
    apply Json.Proper.array
    intro v hv
    obtain ⟨field, -, rfl⟩ := mem_map.mp hv
    exact proper_cell field
  have hparse := Json.parse_stringify hprop
  simp only [readLine, format, hparse]
  exact mapM_map_some fun field hfield => readCell_cell (natural_fields o field hfield)

lemma line_head (o : GithubSpendObservation) :
    ∃ rest, format.line (toToonlRecord o) = '[' :: '[' :: rest := ⟨_, rfl⟩

lemma filter_pushed (os : List GithubSpendObservation) (inHand : Option Text) :
    (format.pushed inHand (os.map toToonlRecord)).filter (fun line => !headerMark.isPrefixOf line) =
      os.map fun o => format.line (toToonlRecord o) := by
  induction os generalizing inHand with
  | nil => rfl
  | cons o os ih =>
    have hline : headerMark.isPrefixOf (format.line (toToonlRecord o)) = false := by
      obtain ⟨rest, hrest⟩ := line_head o
      rw [hrest]
      rfl
    have hhead : headerMark.isPrefixOf (format.header (toToonlRecord o)) = true :=
      isPrefixOf_iff_prefix.mpr (prefix_append _ _)
    rw [map_cons, ToonlFormat.pushed, filter_append, ih, map_cons]
    split_ifs
    · simp [hline]
    · simp [hline, hhead]

lemma filter_written (written : List (List GithubSpendObservation)) :
    (written.flatMap fun os => format.pushed none (os.map toToonlRecord)).filter
        (fun line => !headerMark.isPrefixOf line) =
      (written.flatten.map toToonlRecord).map format.line := by
  induction written with
  | nil => rfl
  | cons os written ih =>
    rw [flatMap_cons, filter_append, filter_pushed, flatten_cons, map_append, map_append, ih]
    simp only [map_map, Function.comp_def]

lemma newline_notMem_header (o : GithubSpendObservation) :
    newline ∉ format.header (toToonlRecord o) := by
  intro hin
  rcases mem_append.mp hin with hin | hin
  · exact absurd hin (by decide)
  · exact Json.newline_notMem_stringify _ hin

lemma lawful : format.Lawful where
  header_mark _ := List.isPrefixOf_iff_prefix.mpr (List.prefix_append _ _)
  header_line := newline_notMem_header
  line_mark o := by
    obtain ⟨rest, hrest⟩ := line_head o
    rw [hrest]
    rfl
  line_line _ := Json.newline_notMem_stringify _
  line_blank o := by
    obtain ⟨rest, hrest⟩ := line_head o
    rw [hrest]
    exact trim_ne_nil (c := '[') List.mem_cons_self (by decide)
  parse_written written _ := by
    have hlin : completeLines newline (laneText format written) =
        written.flatMap fun os => format.pushed none (os.map toToonlRecord) := by
      rw [laneText_eq]
      apply completeLines_unlines
      intro l hl
      obtain ⟨os, -, hl⟩ := List.mem_flatMap.mp hl
      exact newline_notMem_pushed newline_notMem_header
        (fun _ => Json.newline_notMem_stringify _) none l hl
    have hrows := filter_written written
    change ((completeLines newline (laneText format written)).filter _).mapM readLine = _
    rw [hlin, hrows]
    apply mapM_map_some
    intro row hrow
    obtain ⟨o, -, rfl⟩ := List.mem_map.mp hrow
    exact readLine_line o

end PlainToonl

section
variable {locale : Locale} {format : ToonlFormat} {identity : Option Text} {call : RecordCall}
  {o : GithubSpendObservation}

lemma byteLength_spread (n : ℕ) :
    byteLength (spreadText format (List.replicate n o)) = n * incoming format o := by
  induction n with
  | zero => rw [Nat.zero_mul]; rfl
  | succ n ih =>
    rw [replicate_succ', spreadText_append, byteLength_append, ih, spreadText_singleton,
      Nat.succ_mul]
    rfl

variable (format) in
lemma record_under (ledger : Ledger) (maxBytes : ℕ) (hobs : observe locale identity call = .ok o)
    (hfair : call.weather = .fair)
    (hund : laneOverCeiling ledger.file (incoming format o) maxBytes = false) :
    record locale format identity maxBytes ledger call =
      (⟨some (ledger.file.getD [] ++ format.writerText [toToonlRecord o]),
        ledger.recorded ++ [o]⟩, .ok ()) := by
  have hwrite : write format maxBytes ledger.file o call.weather =
      (some (ledger.file.getD [] ++ format.writerText [toToonlRecord o]), .ok ()) := by
    rw [hfair]
    simp only [write, Weather.fair, Bool.false_eq_true, if_false]
    change (if laneOverCeiling ledger.file (incoming format o) maxBytes = true then _ else _) = _
    rw [hund]
    rfl
  simp only [record, hobs, hwrite]

variable (format) in
lemma fill (n : ℕ) (hn : n ≤ 6) (hobs : observe locale identity call = .ok o)
    (hfair : call.weather = .fair) :
    ∃ file, Laid format file (List.replicate n o) ∧
      (recording locale format identity (6 * incoming format o)).Reach anyStep
        ⟨file, List.replicate n o⟩ := by
  induction n with
  | zero => exact ⟨none, ⟨rfl, fun _ => rfl⟩, Machine.Reach.of_start ⟨rfl, rfl⟩⟩
  | succ n ih =>
    obtain ⟨file, hlaid, hreach⟩ := ih (by omega)
    have hund : laneOverCeiling file (incoming format o) (6 * incoming format o) = false := by
      rw [laneOverCeiling, hlaid.text, byteLength_spread, ← Nat.succ_mul]
      exact decide_eq_false (not_lt.mpr (Nat.mul_le_mul_right _ hn))
    have hrec := record_under format ⟨file, replicate n o⟩ (6 * incoming format o) hobs hfair hund
    refine ⟨some (file.getD [] ++ format.writerText [toToonlRecord o]), ?_, ?_⟩
    · rw [replicate_succ']
      exact laid_append hlaid o
    · apply hreach.step (a := call) trivial
      change some (record _ _ _ _ _ _).1 = _
      rw [hrec, replicate_succ']

lemma keepsPair_full {file : LaneFile} (law : format.Lawful)
    (hlaid : Laid format file (List.replicate 6 o)) (hpos : 0 < incoming format o) :
    KeepsPair format (6 * incoming format o) file o := by
  refine ⟨?_, _, [toToonlRecord o, toToonlRecord o], readLaneRows_laid law hlaid, ?_, ?_, ?_⟩
  · change decide (_ < _ + incoming format o) = true
    rw [hlaid.text, byteLength_spread, decide_eq_true_eq]
    omega
  · exact ⟨replicate 4 (toToonlRecord o), rfl⟩
  · have hrows : byteLength (format.encodeRows [toToonlRecord o, toToonlRecord o]) =
        incoming format o + incoming format o := by
      change byteLength (format.writerText [toToonlRecord o] ++
        (format.writerText [toToonlRecord o] ++ [])) = _
      rw [append_nil, byteLength_append]
      rfl
    rw [hrows]
    change _ + incoming format o ≤ max (6 * incoming format o / 2) (incoming format o)
    omega
  · intro hchain
    exact (isChain_pair.mp hchain) rfl

lemma incoming_pos (law : format.Lawful) : 0 < incoming format o := by
  have hne : format.writerText [toToonlRecord o] ≠ [] := by
    intro hnil
    have hrow : trim (spreadText format [o]) ≠ [] :=
      spreadText_notBlank law (cons_ne_nil _ _)
    apply hrow
    rw [spreadText_singleton, hnil]
    rfl
  unfold incoming
  cases htext : format.writerText [toToonlRecord o] with
  | nil => exact absurd htext hne
  | cons c t =>
    rw [byteLength, map_cons, sum_cons]
    have hchar := Char.utf8Size_pos c
    omega

lemma write_full {file : LaneFile} (law : format.Lawful)
    (hlaid : Laid format file (List.replicate 6 o)) :
    ∃ after, write format (6 * incoming format o) file o .fair = (after, .ok ()) := by
  have hpos := incoming_pos (o := o) law
  have hover := (keepsPair_full law hlaid hpos).1
  change laneOverCeiling file (incoming format o) _ = true at hover
  cases file with
  | none => exact absurd (hlaid.absent rfl) (by simp)
  | some raw =>
    simp only [write, Weather.fair, Bool.false_eq_true, if_false, readLaneRows_laid law hlaid,
      trim_laid law hlaid]
    change ∃ after, (if laneOverCeiling (some raw) (incoming format o) _ = true then
      (if 6 * incoming format o < incoming format o then _ else _) else _) = _
    rw [if_pos hover, if_neg (by omega)]
    exact ⟨_, rfl⟩

end

section

def moment : Text := "1970-01-01T00:00:00.012Z".toList

def plainLocale : Locale where
  dateParse t :=
    if t = moment then some 12
    else if t = "1970-01-01T00:00:00.000Z".toList then some 0
    else if t = "1970-01-01T00:00:00.024Z".toList then some 24
    else none
  localeCompare a b := if utf16Lt a b then .lt else if a = b then .eq else .gt

def day : Window where
  windowFrom := "1970-01-01T00:00:00.000Z".toList
  windowTo := "1970-01-01T00:00:00.024Z".toList
  start := 0
  stop := 24
  nonempty := by decide

def issueView : RecordCall where
  operation := ⟨"issue view".toList, .rest⟩
  cost := some 1
  observedAt := moment
  actor := none
  weather := .fair

def issueViewed : GithubSpendObservation :=
  ⟨moment, "issue view".toList, none, .rest, none, 1⟩

def sixRows : ℕ := 6 * incoming PlainToonl.format issueViewed

lemma observe_issueView : observe plainLocale none issueView = .ok issueViewed := by
  rfl

lemma day_covers {observations : List GithubSpendObservation}
    (h : ∀ o ∈ observations, o = issueViewed) : day.Covers plainLocale observations := by
  refine ⟨rfl, rfl, fun o ho => ⟨12, ?_, ?_, ?_⟩⟩
  · rw [h o ho]
    rfl
  · decide
  · decide

theorem reports_first : ∃ ledger, (recording plainLocale PlainToonl.format none sixRows).Reach
        (Steady plainLocale PlainToonl.format none sixRows) ledger ∧
      ledger.recorded = [issueViewed] ∧ ReportsLast plainLocale PlainToonl.format day ledger := by
  have hund : laneOverCeiling none (incoming PlainToonl.format issueViewed) sixRows = false := by
    have hempty : byteLength ((none : LaneFile).getD []) = 0 := rfl
    rw [laneOverCeiling, hempty, sixRows, Nat.zero_add]
    exact decide_eq_false (not_lt.mpr (Nat.le_mul_of_pos_left _ (Nat.succ_pos 5)))
  have hrec := record_under PlainToonl.format ⟨none, []⟩ sixRows observe_issueView rfl hund
  have hsteady : Steady plainLocale PlainToonl.format none sixRows ⟨none, []⟩ issueView := by
    intro o ho
    rw [observe_issueView] at ho
    cases ho
    refine ⟨by decide, ?_, ?_, by decide⟩
    · intro written hfails
      cases hfails
    · rintro ⟨hover, -⟩
      change laneOverCeiling none (incoming PlainToonl.format issueViewed) sixRows = true at hover
      rw [hund] at hover
      cases hover
  have hstart : (recording plainLocale PlainToonl.format none sixRows).Reach
      (Steady plainLocale PlainToonl.format none sixRows) ⟨none, []⟩ :=
    Machine.Reach.of_start ⟨rfl, rfl⟩
  refine ⟨(record plainLocale PlainToonl.format none sixRows ⟨none, []⟩ issueView).1, ?_, ?_, ?_⟩
  · exact hstart.step hsteady rfl
  · rw [hrec]
    rfl
  · apply (reports_last_while_steady PlainToonl.lawful).1
    · exact hstart.step hsteady rfl
    · rw [hrec]
      apply day_covers
      intro o ho
      exact mem_singleton.mp ho

/-- The seventh entry drops the first, and the ledger cannot be read. -/
theorem unreadable_after_seven : PlainToonl.format.Lawful ∧
    ∃ ledger, (recording plainLocale PlainToonl.format none sixRows).Reach anyStep ledger ∧
      (∀ o ∈ ledger.recorded, incoming PlainToonl.format o ≤ sixRows) ∧
        day.Covers plainLocale ledger.recorded ∧
          ¬ ReportsLast plainLocale PlainToonl.format day ledger := by
  refine ⟨PlainToonl.lawful, ?_⟩
  obtain ⟨file, hlaid, hreach⟩ := fill PlainToonl.format 6 le_rfl observe_issueView rfl
  obtain ⟨after, hwrite⟩ := write_full PlainToonl.lawful hlaid
  have hrec : record plainLocale PlainToonl.format none sixRows
      ⟨file, replicate 6 issueViewed⟩ issueView =
        (⟨after, replicate 6 issueViewed ++ [issueViewed]⟩, .ok ()) := by
    have htak : write PlainToonl.format sixRows file issueViewed issueView.weather =
        (after, .ok ()) := hwrite
    simp only [record, observe_issueView, htak]
  have hall : ∀ o ∈ replicate 6 issueViewed ++ [issueViewed], o = issueViewed := by
    decide
  have hsound : Sound plainLocale issueViewed := observe_sound observe_issueView
  refine ⟨⟨after, replicate 6 issueViewed ++ [issueViewed]⟩, ?_, ?_, day_covers hall, ?_⟩
  · apply hreach.step (a := issueView) trivial
    change some (record _ _ _ _ _ _).1 = _
    exact congrArg (fun result => some result.1) hrec
  · intro o ho
    rw [hall o ho]
    exact Nat.le_mul_of_pos_left _ (Nat.succ_pos 5)
  · apply not_reportsLast (day_covers hall)
    have hbef : Laid PlainToonl.format (Ledger.mk file []).file
        (replicate 6 issueViewed) := hlaid
    apply unreadable_of_write PlainToonl.lawful hbef _ hsound hwrite
    · exact Or.inr (keepsPair_full PlainToonl.lawful hlaid (incoming_pos PlainToonl.lawful))
    · intro p hp
      rw [eq_of_mem_replicate hp]
      exact hsound

end

end Redskilled.Github
