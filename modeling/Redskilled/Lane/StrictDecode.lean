import Redskilled.Lane.Decode

/-!
# The strict row decoder

A decoder that reads all complete lines or none. A header governs the rows behind it, up
to the next header; one line that is no row of its header refuses the whole text.
-/
namespace Redskilled.Lane
open Foundation

section
variable {ρ : Type*} (readRow : Bytes → Bytes → Option ρ)

def parseLines (header : Option Bytes) : List Bytes → Option (List ρ)
  | [] => some []
  | line :: lines =>
    if isHeader line then parseLines (some line) lines
    else
      match header.bind (readRow · line), parseLines header lines with
      | some row, some rows => some (row :: rows)
      | _, _ => none

def parseText (text : Bytes) : Option (List ρ) := parseLines readRow none (completeLines newline text)

variable {readRow} {header : Option Bytes} {line : Bytes} {lines a b : List Bytes} {rows : List ρ}

lemma parseLines_header (h : isHeader line = true) :
    parseLines readRow header (line :: lines) = parseLines readRow (some line) lines := by
  rw [parseLines, if_pos h]

lemma parseLines_row {row : ρ} (h : isHeader line = false)
    (hrow : header.bind (readRow · line) = some row) :
    parseLines readRow header (line :: lines) =
      (parseLines readRow header lines).map (row :: ·) := by
  rw [parseLines, if_neg (by simp [h]), hrow]
  cases parseLines readRow header lines <;> rfl

lemma parseLines_none (h : isHeader line = false) (hrow : header.bind (readRow · line) = none) :
    parseLines readRow header (line :: lines) = none := by
  rw [parseLines, if_neg (by simp [h]), hrow]

lemma parseLines_append : parseLines readRow header (a ++ b) =
      (parseLines readRow header a).bind fun rows =>
        (parseLines readRow (governing header a) b).map (rows ++ ·) := by
  induction a generalizing header with
  | nil => simp [parseLines, governing]
  | cons line a ih =>
    have hgov : governing header (line :: a) =
        governing (if isHeader line then some line else header) a := rfl
    rw [List.cons_append, hgov]
    cases hline : isHeader line with
    | true =>
      rw [parseLines_header hline, parseLines_header hline, ih]
      rfl
    | false =>
      cases hrow : header.bind (readRow · line) with
      | none =>
        rw [parseLines_none hline hrow, parseLines_none hline hrow]
        rfl
      | some row =>
        rw [parseLines_row hline hrow, parseLines_row hline hrow, ih, if_neg (by simp)]
        cases parseLines readRow header a with
        | none => rfl
        | some rows =>
          simp only [Option.bind_some, Option.map_some, Option.map_map]
          congr 1

lemma parseText_append {text more : Bytes} (h : AtBoundary newline text) :
    parseText readRow (text ++ more) = (parseText readRow text).bind fun rows =>
        (parseLines readRow (lastHeader text) (completeLines newline more)).map (rows ++ ·) := by
  rw [parseText, completeLines_append h, parseLines_append]
  rfl

lemma parseText_append_none {text : Bytes} (h : parseText readRow text = none) (more : Bytes) :
    parseText readRow (text ++ more) = none := by
  rw [parseText, completeLines_append_tail, parseLines_append]
  unfold parseText at h
  rw [h]
  rfl

lemma parseLines_bind {σ : Type*} (check : ρ → Option σ) (header : Option Bytes)
    (lines : List Bytes) :
    (parseLines readRow header lines).bind (·.mapM check) =
      parseLines (fun header line => (readRow header line).bind check) header lines := by
  induction lines generalizing header with
  | nil => rfl
  | cons line lines ih =>
    cases hline : isHeader line with
    | true => rw [parseLines_header hline, parseLines_header hline, ih]
    | false =>
      have hbind : header.bind (fun h => (readRow h line).bind check) =
          (header.bind (readRow · line)).bind check := by
        cases header <;> rfl
      cases hrow : header.bind (readRow · line) with
      | none =>
        rw [parseLines_none hline hrow, parseLines_none hline (by rw [hbind, hrow]; rfl)]
        rfl
      | some row =>
        rw [parseLines_row hline hrow]
        cases hcheck : check row with
        | none =>
          rw [parseLines_none hline (by rw [hbind, hrow]; exact hcheck)]
          cases parseLines readRow header lines with
          | none => rfl
          | some rows => simp [hcheck]
        | some checked =>
          rw [parseLines_row hline (by rw [hbind, hrow]; exact hcheck), ← ih]
          cases parseLines readRow header lines with
          | none => rfl
          | some rows =>
            simp only [Option.map_some, Option.bind_some, List.mapM_cons, hcheck]
            cases List.mapM check rows <;> rfl

end
end Redskilled.Lane
