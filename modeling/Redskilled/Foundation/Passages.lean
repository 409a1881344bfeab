import Mathlib.Data.List.ModifyLast
import Redskilled.Foundation.JsText

/-!
# Passages of a text

A text is cut at the first place of a part, and read by its lines. A part without a line
break lies within one line, so the cut can be made line by line.

Two texts are told apart by their lines, without those that do not count and without the
white space at the end of each: what a text leaves then is its core. Its solid lines are
those that are not blank, as they are.
-/
namespace Redskilled.Foundation.Text
open List Option

/-- `t.trimEnd()`. -/
def trimEnd (t : Text) : Text := t.rdropWhile isWhitespace

/-- `t.trimStart()`. -/
def trimStart (t : Text) : Text := t.dropWhile isWhitespace

/-- `t.split("\n")`. -/
def lines (t : Text) : List Text := t.splitOn '\n'

/-- `ls.join("\n")`. -/
def joined (ls : List Text) : Text := List.intercalate ['\n'] ls

/-- What is before and behind the first place of the part. -/
def cutAt (part : Text) : Text → Option (Text × Text)
  | [] => if part = [] then some ([], []) else none
  | c :: t =>
    if part <+: c :: t then some ([], (c :: t).drop part.length)
    else (cutAt part t).map fun cut => (c :: cut.1, cut.2)

section
variable {part t a b l : Text}

lemma cutAt_start (h : part <+: t) : cutAt part t = some ([], t.drop part.length) := by
  cases t with
  | nil =>
    obtain rfl := prefix_nil.mp h
    rfl
  | cons c t => exact if_pos h

lemma cutAt_cons {c : Char} (h : ¬ part <+: c :: t) :
    cutAt part (c :: t) = (cutAt part t).map fun cut => (c :: cut.1, cut.2) := if_neg h

lemma append_of_cutAt (h : cutAt part t = some (a, b)) : t = a ++ part ++ b := by
  induction t generalizing a with
  | nil =>
    rw [cutAt] at h
    split_ifs at h with hpart
    obtain ⟨rfl, rfl⟩ := Prod.mk.inj (some.inj h)
    rw [hpart]
    rfl
  | cons c t ih =>
    by_cases hpref : part <+: c :: t
    · rw [cutAt_start hpref] at h
      obtain ⟨rfl, rfl⟩ := Prod.mk.inj (some.inj h)
      exact prefix_iff_eq_append.mp hpref |>.symm
    · rw [cutAt_cons hpref] at h
      obtain ⟨⟨front, back⟩, hcut, hsame⟩ := map_eq_some_iff.mp h
      obtain ⟨rfl, rfl⟩ := Prod.mk.inj hsame
      rw [ih hcut]
      rfl

lemma prefix_line (hpart : '\n' ∉ part) : part <+: l ++ '\n' :: t ↔ part <+: l := by
  constructor
  · intro h
    apply prefix_of_prefix_length_le h (prefix_append l _)
    by_contra hlong
    have hbreak : l ++ ['\n'] <+: part := by
      apply prefix_of_prefix_length_le _ h
      · rw [length_append, length_singleton]
        omega
      · exact ⟨t, by simp⟩
    exact hpart (hbreak.subset (by simp))
  · exact fun h => h.trans (prefix_append _ _)

lemma cutAt_line (hpart : '\n' ∉ part) (hne : part ≠ []) (l t : Text) :
    cutAt part (l ++ '\n' :: t) =
      match cutAt part l with
      | some (front, back) => some (front, back ++ '\n' :: t)
      | none => (cutAt part t).map fun cut => (l ++ '\n' :: cut.1, cut.2) := by
  induction l with
  | nil =>
    have hpref : ¬ part <+: '\n' :: t := by
      intro h
      exact hne (prefix_nil.mp ((prefix_line (l := []) hpart).mp h))
    rw [nil_append, cutAt_cons hpref, cutAt, if_neg hne]
    rfl
  | cons c l ih =>
    by_cases hpref : part <+: c :: l
    · have hlong : part <+: (c :: l) ++ '\n' :: t := (prefix_line hpart).mpr hpref
      rw [cutAt_start hlong, cutAt_start hpref]
      rw [drop_append_of_le_length hpref.length_le]
    · have hlong : ¬ part <+: c :: (l ++ '\n' :: t) := fun h =>
        hpref ((prefix_line (l := c :: l) hpart).mp h)
      rw [cons_append, cutAt_cons hlong, cutAt_cons hpref, ih]
      cases cutAt part l with
      | some cut => rfl
      | none =>
        cases cutAt part t with
        | some cut => rfl
        | none => rfl

lemma trimEnd_initial (t : Text) : trimEnd t <+: t := List.rdropWhile_prefix _ _

lemma trimEnd_append (a b : Text) :
    trimEnd (a ++ b) = if trimEnd b = [] then trimEnd a else a ++ trimEnd b := by
  induction b using reverseRecOn with
  | nil => simp [trimEnd]
  | append_singleton b c ih =>
    rw [← append_assoc]
    by_cases hspace : isWhitespace c = true
    · have hdrop : ∀ t : Text, trimEnd (t ++ [c]) = trimEnd t := fun t =>
        rdropWhile_concat_pos _ _ _ hspace
      rw [hdrop, hdrop, ih]
    · have hkeep : ∀ t : Text, trimEnd (t ++ [c]) = t ++ [c] := fun t =>
        rdropWhile_concat_neg _ _ _ hspace
      rw [hkeep, hkeep, if_neg (by simp), append_assoc]

lemma trimEnd_part (hpart : trimEnd part = part) (t : Text) :
    trimEnd (part ++ t) = part ++ trimEnd t := by
  rw [trimEnd_append]
  split_ifs with hnil
  · rw [hpart, hnil, append_nil]
  · rfl

lemma cutAt_trimEnd (hpart : trimEnd part = part) (hne : part ≠ []) (t : Text) :
    cutAt part (trimEnd t) = (cutAt part t).map fun cut => (cut.1, trimEnd cut.2) := by
  induction t with
  | nil =>
    rw [cutAt, if_neg hne]
    exact if_neg hne
  | cons c t ih =>
    by_cases hpref : part <+: c :: t
    · obtain ⟨rest, hrest⟩ := hpref
      rw [← hrest, trimEnd_part hpart, cutAt_start (prefix_append _ _),
        cutAt_start (prefix_append _ _), drop_left, drop_left]
      rfl
    · have hshort : ¬ part <+: trimEnd (c :: t) := fun h => hpref (h.trans (trimEnd_initial _))
      have hcons : trimEnd (c :: t) = if trimEnd t = [] then trimEnd [c] else c :: trimEnd t :=
        trimEnd_append [c] t
      rw [cutAt_cons hpref]
      by_cases hnil : trimEnd (c :: t) = []
      · have hrest : trimEnd t = [] := by
          by_contra hrest
          rw [if_neg hrest] at hcons
          rw [hcons] at hnil
          cases hnil
        rw [hrest, cutAt, if_neg hne] at ih
        have hnone : cutAt part t = none := map_eq_none_iff.mp ih.symm
        rw [hnil, cutAt, if_neg hne, hnone]
        rfl
      · have hkept : trimEnd (c :: t) = c :: trimEnd t := by
          rw [hcons]
          split_ifs with hrest
          · rw [if_pos hrest] at hcons
            rw [hcons] at hnil
            rw [hrest]
            exact (trimEnd_initial [c]).eq_of_length_le (length_pos_iff.mpr hnil)
          · rfl
        rw [hkept] at hshort ⊢
        rw [cutAt_cons hshort, ih]
        cases cutAt part t with
        | none => rfl
        | some cut => rfl

end

section

lemma lines_append (a b : Text) : lines (a ++ '\n' :: b) = lines a ++ lines b :=
  splitOn_append_cons_self a b

lemma lines_of_notMem {l : Text} (h : '\n' ∉ l) : lines l = [l] := List.splitOn_eq_singleton h

lemma joined_lines (t : Text) : joined (lines t) = t := List.intercalate_splitOn '\n'

lemma lines_joined {ls : List Text} (h : ∀ l ∈ ls, '\n' ∉ l) (hne : ls ≠ []) :
    lines (joined ls) = ls := List.splitOn_intercalate '\n' h hne

/-- The lines that count, without the white space at their end. -/
def core (counts : Text → Bool) (ls : List Text) : List Text := (ls.map trimEnd).filter counts

variable {counts : Text → Bool}

lemma core_append (ls ls' : List Text) :
    core counts (ls ++ ls') = core counts ls ++ core counts ls' := by
  simp [core]

lemma trimEnd_append_space {l : Text} {c : Char} (h : isWhitespace c = true) :
    trimEnd (l ++ [c]) = trimEnd l := by
  simp [trimEnd, rdropWhile_concat_pos, h]

lemma notMem_of_mem_lines {l t : Text} (h : l ∈ lines t) : '\n' ∉ l := by
  induction t generalizing l with
  | nil =>
    rw [mem_singleton.mp h]
    exact not_mem_nil
  | cons c t ih =>
    rw [lines, splitOn_cons_eq_if_modifyHead] at h
    split_ifs at h with hbreak
    · rcases mem_cons.mp h with rfl | h
      · exact not_mem_nil
      · exact ih h
    · obtain ⟨first, rest, hlin⟩ := exists_cons_of_ne_nil (splitOn_ne_nil '\n' t)
      rw [hlin, modifyHead_cons] at h
      rcases mem_cons.mp h with rfl | h
      · have hfirst : '\n' ∉ first := by
          apply ih
          rw [lines, hlin]
          exact mem_cons_self
        intro hmem
        rcases mem_cons.mp hmem with rfl | hmem
        · exact hbreak (by simp)
        · exact hfirst hmem
      · apply ih
        rw [lines, hlin]
        exact mem_cons_of_mem _ h

lemma joined_concat (ls : List Text) (l : Text) (c : Char) :
    joined (ls ++ [l]) ++ [c] = joined (ls ++ [l ++ [c]]) := by
  induction ls with
  | nil => simp [joined]
  | cons first ls ih =>
    have hcons : ∀ last : Text, joined (first :: (ls ++ [last])) =
        first ++ '\n' :: joined (ls ++ [last]) := by
      intro last
      rw [joined, intercalate_cons_of_ne_nil (by simp)]
      simp [joined]
    rw [cons_append, cons_append, hcons, hcons, append_assoc, cons_append, ih]

lemma lines_concat {t l : Text} {ls : List Text} {c : Char} (hc : c ≠ '\n')
    (h : lines t = ls ++ [l]) : lines (t ++ [c]) = ls ++ [l ++ [c]] := by
  have hmem : ∀ line ∈ ls ++ [l], '\n' ∉ line := by
    rw [← h]
    exact fun line hline => notMem_of_mem_lines hline
  rw [← joined_lines t, h, joined_concat]
  apply lines_joined
  · intro line hline
    rcases mem_append.mp hline with hline | hline
    · exact hmem line (mem_append_left _ hline)
    · rw [mem_singleton.mp hline]
      intro hbreak
      rcases mem_append.mp hbreak with hbreak | hbreak
      · exact hmem l (by simp) hbreak
      · exact hc (mem_singleton.mp hbreak).symm
  · simp

lemma core_trimEnd (hcounts : counts [] = false) (t : Text) :
    core counts (lines (trimEnd t)) = core counts (lines t) := by
  induction t using reverseRecOn with
  | nil => rfl
  | append_singleton t c ih =>
    by_cases hspace : isWhitespace c = true
    · rw [trimEnd_append_space hspace, ih]
      by_cases hbreak : c = '\n'
      · subst hbreak
        rw [lines_append, core_append]
        have hnil : core counts (lines []) = [] := by
          simp [core, lines, splitOn_nil, trimEnd, hcounts]
        rw [hnil, append_nil]
      · obtain ⟨ls, l, hlin⟩ := (eq_nil_or_concat (lines t)).resolve_left
          (splitOn_ne_nil _ _)
        rw [concat_eq_append] at hlin
        rw [lines_concat hbreak hlin, hlin, core_append, core_append]
        simp [core, trimEnd_append_space hspace]
    · rw [trimEnd, rdropWhile_concat_neg _ _ _ (by simpa using hspace)]

lemma core_newline (hcounts : counts [] = false) (t : Text) :
    core counts (lines (t ++ ['\n'])) = core counts (lines t) := by
  rw [lines_append, core_append]
  have hnil : core counts (lines []) = [] := by
    simp [core, lines, splitOn_nil, trimEnd, hcounts]
  rw [hnil, append_nil]

lemma trimEnd_trimEnd (t : Text) : trimEnd (trimEnd t) = trimEnd t := List.rdropWhile_idempotent _ _

lemma core_cons (l : Text) (ls : List Text) :
    core counts (l :: ls) = core counts [l] ++ core counts ls := core_append [l] ls

lemma core_line (l : Text) : core counts [l] = if counts (trimEnd l) then [trimEnd l] else [] := by
  simp only [core, map_cons, map_nil, filter_cons, filter_nil]

lemma core_trimmed (l : Text) : core counts [trimEnd l] = core counts [l] := by
  rw [core_line, core_line, trimEnd_trimEnd]

lemma core_core (ls : List Text) : core counts (core counts ls) = core counts ls := by
  induction ls with
  | nil => rfl
  | cons l ls ih =>
    rw [core_cons, core_append, ih]
    congr 1
    rw [core_line]
    split_ifs with hcount
    · rw [core_trimmed, core_line, if_pos hcount]
    · rfl

lemma lines_unlines {ls : List Text} (h : ∀ l ∈ ls, '\n' ∉ l) (t : Text) :
    lines (ls.flatMap (· ++ ['\n']) ++ t) = ls ++ lines t := by
  induction ls with
  | nil => rfl
  | cons l ls ih =>
    have hrest := ih fun l hl => h l (mem_cons_of_mem _ hl)
    rw [flatMap_cons, append_assoc, append_assoc, singleton_append,
      lines_append, lines_of_notMem (h l mem_cons_self), hrest]
    rfl

end

section

def isSolid (l : Text) : Bool := trimEnd l ≠ []

/-- The lines that are not blank. -/
def solid (ls : List Text) : List Text := ls.filter isSolid

lemma solid_append (ls ls' : List Text) : solid (ls ++ ls') = solid ls ++ solid ls' :=
  filter_append ls ls'

lemma solid_cons (l : Text) (ls : List Text) : solid (l :: ls) = solid [l] ++ solid ls :=
  solid_append [l] ls

lemma isSolid_append_space {l : Text} {c : Char} (h : isWhitespace c = true) :
    isSolid (l ++ [c]) = isSolid l := by
  unfold isSolid
  rw [trimEnd_append_space h]

lemma solid_line (l : Text) : solid [l] = if isSolid l then [l] else [] := by
  simp only [solid, filter_cons, filter_nil]

lemma solid_newline (t : Text) : solid (lines (t ++ ['\n'])) = solid (lines t) := by
  rw [lines_append, solid_append]
  have hnil : solid (lines []) = [] := by decide
  rw [hnil, append_nil]

lemma solid_trimEnd (t : Text) :
    solid (lines (trimEnd t)) = (solid (lines t)).modifyLast trimEnd := by
  induction t using reverseRecOn with
  | nil => rfl
  | append_singleton t c ih =>
    by_cases hbreak : c = '\n'
    · have hspace : isWhitespace '\n' = true := by decide
      rw [hbreak, trimEnd_append_space hspace, ih, solid_newline]
    obtain ⟨ls, l, hlin⟩ := (eq_nil_or_concat (lines t)).resolve_left
      (splitOn_ne_nil _ _)
    rw [concat_eq_append] at hlin
    have hlast : lines (t ++ [c]) = ls ++ [l ++ [c]] := lines_concat hbreak hlin
    by_cases hspace : isWhitespace c = true
    · rw [trimEnd_append_space hspace, ih, hlin, hlast, solid_append, solid_append, solid_line,
        solid_line, isSolid_append_space hspace]
      split_ifs
      · rw [modifyLast_concat, modifyLast_concat, trimEnd_append_space hspace]
      · rfl
    · have hkeep : ∀ s : Text, trimEnd (s ++ [c]) = s ++ [c] := fun s =>
        rdropWhile_concat_neg _ _ _ hspace
      have hsol : isSolid (l ++ [c]) = true := by
        unfold isSolid
        rw [hkeep]
        simp
      rw [hkeep, hlast, solid_append, solid_line, if_pos hsol, modifyLast_concat, hkeep]

lemma modifyLast_twice (ls : List Text) :
    (ls.modifyLast trimEnd).modifyLast trimEnd = ls.modifyLast trimEnd := by
  rcases eq_nil_or_concat ls with rfl | ⟨front, l, rfl⟩
  · rfl
  · rw [concat_eq_append, modifyLast_concat, modifyLast_concat, trimEnd_trimEnd]

lemma sublist_modifyLast {f : Text → Text} {ls ls' : List Text} (h : ls.Sublist ls') :
    ls.Sublist (ls'.modifyLast f) ∨ (ls.modifyLast f).Sublist (ls'.modifyLast f) := by
  rcases eq_nil_or_concat ls' with rfl | ⟨front, last, rfl⟩
  · obtain rfl := sublist_nil.mp h
    exact .inl h
  rw [concat_eq_append] at h ⊢
  rw [modifyLast_concat]
  obtain ⟨init, tail, rfl, hinit, htail⟩ := sublist_append_iff.mp h
  rcases sublist_singleton.mp htail with rfl | rfl
  · left
    rw [append_nil]
    exact hinit.trans (sublist_append_left _ _)
  · right
    rw [modifyLast_concat]
    exact hinit.append (List.Sublist.refl _)

/-- The solid lines of the one text are lines of the other, in order. -/
def KeptIn (t t' : Text) : Prop :=
  (solid (lines t)).Sublist (solid (lines t')) ∨
    ((solid (lines t)).modifyLast trimEnd).Sublist (solid (lines t'))

lemma KeptIn.refl (t : Text) : KeptIn t t := .inl (List.Sublist.refl _)

lemma KeptIn.trans {a b c : Text} (h : KeptIn a b) (h' : KeptIn b c) : KeptIn a c := by
  rcases h' with h' | h'
  · exact h.imp (·.trans h') (·.trans h')
  · rcases h with h | h
    · exact (sublist_modifyLast h).imp (·.trans h') (·.trans h')
    · rcases @sublist_modifyLast trimEnd _ _ h with hlin | hlin
      · exact .inr (hlin.trans h')
      · rw [modifyLast_twice] at hlin
        exact .inr (hlin.trans h')

lemma keptIn_of_between {t t' : Text} (front between back : List Text)
    (h : solid (lines t) = front ++ back)
    (h' : solid (lines t') = (front ++ between ++ back).modifyLast trimEnd) : KeptIn t t' := by
  unfold KeptIn
  rw [h, h']
  by_cases hback : back = []
  · rw [hback, append_nil, append_nil]
    exact sublist_modifyLast (sublist_append_left _ _)
  · right
    rw [modifyLast_append_of_right_ne_nil _ _ _ hback,
      modifyLast_append_of_right_ne_nil _ _ _ hback, append_assoc]
    exact (List.Sublist.refl _).append (sublist_append_right _ _)

end

section
variable (part : Text)

/-- The lines behind the first place of the part. -/
def behindIn : List Text → Option (List Text)
  | [] => none
  | l :: ls =>
    match cutAt part l with
    | some (_, back) => some (back :: ls)
    | none => behindIn ls

/-- The lines before the first place of the part. -/
def beforeIn : List Text → Option (List Text)
  | [] => none
  | l :: ls =>
    match cutAt part l with
    | some (front, _) => some [front]
    | none => (beforeIn ls).map (l :: ·)

variable {part} (hpart : '\n' ∉ part) (hne : part ≠ [])

include hpart hne in
lemma lines_cutAt {ls : List Text} (h : ∀ l ∈ ls, '\n' ∉ l) (hls : ls ≠ []) :
    (cutAt part (joined ls)).map (fun cut => lines cut.2) = behindIn part ls ∧
      (cutAt part (joined ls)).map (fun cut => lines cut.1) = beforeIn part ls := by
  induction ls with
  | nil => exact absurd rfl hls
  | cons l ls ih =>
    have hplain : ∀ front back, cutAt part l = some (front, back) →
        lines front = [front] ∧ lines back = [back] := by
      intro front back hcut
      have hl := h l mem_cons_self
      rw [append_of_cutAt hcut, mem_append, mem_append, not_or, not_or] at hl
      exact ⟨lines_of_notMem hl.1.1, lines_of_notMem hl.2⟩
    cases ls with
    | nil =>
      rw [joined, intercalate_singleton, behindIn, beforeIn]
      cases hcut : cutAt part l with
      | none => exact ⟨rfl, rfl⟩
      | some cut =>
        obtain ⟨hfront, hback⟩ := hplain cut.1 cut.2 hcut
        exact ⟨congrArg some hback, congrArg some hfront⟩
    | cons second ls =>
      have hmem : ∀ line ∈ second :: ls, '\n' ∉ line := fun line hline =>
        h line (mem_cons_of_mem _ hline)
      have hjoin : joined (l :: second :: ls) = l ++ '\n' :: joined (second :: ls) := by
        rw [joined, intercalate_cons_cons]
        simp [joined]
      obtain ⟨hbeh, hbef⟩ := ih hmem (by simp)
      rw [hjoin, cutAt_line hpart hne, behindIn, beforeIn]
      cases hcut : cutAt part l with
      | none =>
        dsimp only
        rw [← hbeh, ← hbef, Option.map_map, Option.map_map, Option.map_map]
        refine ⟨rfl, ?_⟩
        congr 1
        funext cut
        dsimp only [Function.comp]
        rw [lines_append, lines_of_notMem (h l mem_cons_self)]
        rfl
      | some cut =>
        obtain ⟨hfront, hback⟩ := hplain cut.1 cut.2 hcut
        dsimp only [map_some]
        rw [lines_append, hfront, hback, lines_joined hmem (by simp)]
        exact ⟨rfl, rfl⟩

variable {counts : Text → Bool} (hcounts : ∀ l, (cutAt part l).isSome = true → counts l = true)
  (htrim : trimEnd part = part)

include hcounts htrim hne in
lemma core_cutAt (ls : List Text) :
    (behindIn part ls).map (core counts) = (behindIn part (core counts ls)).map (core counts) ∧
      (beforeIn part ls).map (core counts) = (beforeIn part (core counts ls)).map (core counts) := by
  induction ls with
  | nil => exact ⟨rfl, rfl⟩
  | cons l ls ih =>
    rw [core_cons, core_line]
    have hsame := cutAt_trimEnd htrim hne l
    cases hcut : cutAt part l with
    | some cut =>
      obtain ⟨front, back⟩ := cut
      rw [hcut, map_some] at hsame
      have hcount : counts (trimEnd l) = true := hcounts _ (by rw [hsame]; rfl)
      rw [if_pos hcount, singleton_append, behindIn, behindIn, beforeIn, beforeIn, hcut, hsame]
      dsimp only [map_some]
      rw [core_cons, core_cons (trimEnd back), core_core, core_trimmed]
      exact ⟨rfl, rfl⟩
    | none =>
      rw [hcut, map_none] at hsame
      have hcons : ∀ first : Text, ∀ found : Option (List Text),
          (found.map (first :: ·)).map (core counts) =
            (found.map (core counts)).map (core counts [first] ++ ·) := by
        intro first found
        rw [Option.map_map, Option.map_map]
        congr 1
        funext rest
        exact core_cons first rest
      rw [behindIn, beforeIn, hcut]
      dsimp only
      rw [hcons, ih.1, ih.2]
      split_ifs with hcount
      · rw [singleton_append, behindIn, beforeIn, hsame]
        dsimp only
        rw [hcons, core_trimmed]
        exact ⟨rfl, rfl⟩
      · rw [core_line, if_neg hcount, nil_append]
        refine ⟨rfl, ?_⟩
        cases beforeIn part (core counts ls) with
        | none => rfl
        | some rest => rfl

end
end Redskilled.Foundation.Text
