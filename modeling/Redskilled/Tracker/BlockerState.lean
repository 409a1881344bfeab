import Redskilled.Foundation.Lines
import Redskilled.Foundation.NumericText
import Redskilled.Foundation.Passages

/-!
# The blocker in the body of an issue

The record of the active blocker stands between two anchors, anywhere in the body, and is
read from the first pair. It is cleared by its heading: the section under the first heading
is replaced, and only where there is no heading are the anchors cut out. What was resolved
goes to a section of its own.
-/
namespace Redskilled.Tracker
open Foundation Foundation.Text List

def blockerOpen : Text := "<!-- red:blocker-state v1 -->".toList

def blockerClose : Text := "<!-- /red:blocker-state -->".toList

def blockerHeading : Text := "Current blocker".toList

def resolvedBlockersHeading : Text := "Resolved blockers".toList

inductive BlockerRequiredField where
  | kind | summary | next

structure CurrentBlocker where
  kind : Text
  ref : Option Text
  summary : Text
  next : Text
  parkedAtEpoch : Option JsNumber
  loopNote : Option Text
  /-- The required fields that a malformed record lacks. -/
  missingFields : List BlockerRequiredField
  question : Option Text
  options : Option (List Text)
  default : Option Text

structure ResolvedBlocker where
  summary : Text
  resolution : Text

def normalizeLine (value : Text) : Text := trim (List.intercalate [' '] (splitWhitespace value))

def firstLine (value : Text) : Text :=
  normalizeLine (((lines value).find? fun line => normalizeLine line ≠ []).getD [])

def safeField (value : Option Text) (fallback : Text) : Text :=
  let line := normalizeLine (value.getD [])
  if line ≠ [] then line else fallback

def isLineTerminator (c : Char) : Bool :=
  c == '\n' || c == '\r' || c.toNat == 0x2028 || c.toNat == 0x2029

def isKeyChar (c : Char) : Bool := c.isLower || c == '_'

/-- `/^([a-z_]+):\s*(.*)$/` on the trimmed line. -/
def fieldOf (line : Text) : Option (Text × Text) :=
  let t := trim line
  let key := t.takeWhile isKeyChar
  match t.dropWhile isKeyChar with
  | ':' :: rest =>
    let value := rest.dropWhile isWhitespace
    if key ≠ [] ∧ value.all (!isLineTerminator ·) then some (key, trim value) else none
  | _ => none

def parseFields (block : List Text) : List (Text × Text) := block.filterMap fieldOf

def fieldIn (fields : List (Text × Text)) (key : Text) : Option Text :=
  (fields.reverse.find? fun field => field.1 = key).map Prod.snd

def isNatural : JsNumber → Bool
  | (n : ℚ≥0) => n.den = 1
  | ⊤ => false

def parseEpochField (value : Option Text) : Option JsNumber :=
  value.bind fun value => (toNumber (normalizeLine value)).bind fun parsed =>
    if isNatural parsed.magnitude ∧ Signed.zero.le parsed then some parsed.magnitude else none

def parseOptionsField (value : Option Text) : Option (List Text) :=
  value.bind fun value =>
    let items := ((value.splitOn ',').map normalizeLine).filter (· ≠ [])
    if items ≠ [] then some items else none

def truthyField (fields : List (Text × Text)) (key : Text) : Option Text :=
  ((fieldIn fields key).filter (· ≠ [])).map fun value => safeField (some value) []

def readAnchoredRegion (source start stop : Text) : Option Text :=
  (cutAt start source).bind fun outer => (cutAt stop outer.2).map Prod.fst

def requiredFields : List (BlockerRequiredField × Text) :=
  [(.kind, "kind".toList), (.summary, "summary".toList), (.next, "next".toList)]

def blockerOf (fields : List (Text × Text)) : Option CurrentBlocker :=
  if fieldIn fields "status".toList = some "blocked".toList then
    some
      { kind := safeField (fieldIn fields "kind".toList) "unknown".toList
        ref := truthyField fields "ref".toList
        summary := safeField (fieldIn fields "summary".toList)
          "Malformed blocker-state block.".toList
        next := safeField (fieldIn fields "next".toList)
          "Repair the malformed blocker-state block before requeueing.".toList
        parkedAtEpoch := parseEpochField (fieldIn fields "parked_at".toList)
        loopNote := truthyField fields "loop_detected".toList
        missingFields := (requiredFields.filter fun field =>
          safeField (fieldIn fields field.2) [] = []).map Prod.fst
        question := truthyField fields "question".toList
        options := parseOptionsField (fieldIn fields "options".toList)
        default := truthyField fields "default".toList }
  else none

def parseCurrentBlocker (markdown : Text) : Option CurrentBlocker :=
  (readAnchoredRegion markdown blockerOpen blockerClose).bind fun inner =>
    blockerOf (parseFields (lines inner))

/-- `/^##\s+/`. -/
def opensSection (line : Text) : Bool :=
  "##".toList.isPrefixOf line && (line.drop 2).head?.any isWhitespace

/-- `/^##\s+heading\s*$/i` on the trimmed line. -/
def isHeading (heading line : Text) : Bool :=
  opensSection (trim line) &&
    (((trim line).drop 2).dropWhile isWhitespace).map Char.toLower = heading.map Char.toLower

/-- The lines before the section of the heading, and from its end on. -/
def currentBlockerSectionRange : List Text → Option (List Text × List Text)
  | [] => none
  | line :: ls =>
    if isHeading blockerHeading line then some ([], ls.dropWhile (!opensSection ·))
    else (currentBlockerSectionRange ls).map fun range => (line :: range.1, range.2)

def resolvedEntry (resolved : ResolvedBlocker) : Text :=
  "- [x] ".toList ++ safeField (some resolved.summary) "Resolved blocker.".toList ++
    " - ".toList ++ safeField (some (firstLine resolved.resolution)) "resolved".toList

def appendResolvedBlocker (markdown : Text) (resolved : ResolvedBlocker) : Text :=
  let entry := resolvedEntry resolved
  match (lines markdown).findIdx? (isHeading resolvedBlockersHeading) with
  | none =>
    trimEnd markdown ++ (if trimEnd markdown ≠ [] then "\n\n".toList else []) ++ "## ".toList ++
      resolvedBlockersHeading ++ "\n\n".toList ++ entry ++ "\n".toList
  | some idx =>
    let below := (lines markdown).drop (idx + 1)
    let existing := if below.head?.any (trim · = []) then below.tail else below
    trimEnd (joined ((lines markdown).take (idx + 1) ++ [[], entry] ++ existing)) ++ "\n".toList

def clearedSection : Text := "## ".toList ++ blockerHeading ++ "\n\nNone\n".toList

def withoutBlocker (markdown : Text) : Text :=
  match currentBlockerSectionRange (lines markdown) with
  | some (front, back) =>
    trimEnd (unlines '\n' front ++ clearedSection ++ "\n".toList ++ trimStart (joined back)) ++
      "\n".toList
  | none =>
    match cutAt blockerOpen markdown with
    | none => markdown
    | some (front, rest) =>
      match cutAt blockerClose rest with
      | none => markdown
      | some (_, back) => trimEnd (front ++ back) ++ "\n".toList

def clearCurrentBlocker (markdown : Text) (resolved : Option ResolvedBlocker) : Text :=
  match resolved, parseCurrentBlocker markdown with
  | some resolved, some _ => appendResolvedBlocker (withoutBlocker markdown) resolved
  | _, _ => withoutBlocker markdown

def keptOf (markdown : Text) : Text :=
  match currentBlockerSectionRange (lines markdown) with
  | some (front, back) => unlines '\n' front ++ joined back
  | none =>
    match cutAt blockerOpen markdown with
    | none => markdown
    | some (front, rest) =>
      match cutAt blockerClose rest with
      | none => markdown
      | some (_, back) => front ++ back

def statusOf (line : Text) : Option Text :=
  (fieldOf line).bind fun field => if field.1 = "status".toList then some field.2 else none

def isRead (line : Text) : Bool :=
  (cutAt blockerOpen line).isSome || (cutAt blockerClose line).isSome || (statusOf line).isSome

def isMarked (line : Text) : Bool := isRead line || isHeading resolvedBlockersHeading line

section
variable {counts : Text → Bool} (hread : ∀ l, isRead l = true → counts l = true)

lemma isMarked_nil : isMarked [] = false := by decide +kernel

lemma anchors_plain : '\n' ∉ blockerOpen ∧ '\n' ∉ blockerClose ∧ blockerOpen ≠ [] ∧
    blockerClose ≠ [] ∧ trimEnd blockerOpen = blockerOpen ∧ trimEnd blockerClose = blockerClose := by
  decide +kernel

lemma trim_eq (t : Text) : trim t = (trimEnd t).dropWhile isWhitespace := by
  have hempty : ∀ s : Text, trimEnd s = [] → trim s = [] := by
    intro s hs
    have hall := rdropWhile_eq_nil_iff.mp hs
    have hdrop : s.dropWhile isWhitespace = [] := dropWhile_eq_nil_iff.mpr hall
    rw [trim, hdrop]
    rfl
  induction t with
  | nil => rfl
  | cons c t ih =>
    have hcons : trimEnd (c :: t) = if trimEnd t = [] then trimEnd [c] else c :: trimEnd t :=
      trimEnd_append [c] t
    by_cases hspace : isWhitespace c = true
    · have htrim : trim (c :: t) = trim t := by
        rw [trim, dropWhile_cons_of_pos hspace]
        rfl
      rw [htrim, hcons]
      split_ifs with hnil
      · rw [hempty t hnil]
        simp [trimEnd, rdropWhile_singleton, hspace]
      · rw [dropWhile_cons_of_pos hspace, ih]
    · have htrim : trim (c :: t) = trimEnd (c :: t) := by
        rw [trim, dropWhile_cons_of_neg hspace]
        rfl
      have hhead : ∀ u : Text, (c :: u).dropWhile isWhitespace = c :: u := fun u =>
        dropWhile_cons_of_neg hspace
      rw [htrim, hcons]
      split_ifs with hnil
      · have hsingle : trimEnd [c] = [c] := by
          simp [trimEnd, rdropWhile_singleton, hspace]
        rw [hsingle, hhead]
      · rw [hhead]

lemma trim_trimEnd (t : Text) : trim (trimEnd t) = trim t := by
  rw [trim_eq, trim_eq t, trimEnd_trimEnd]

lemma trimEnd_of_blank {t : Text} (h : trim t = []) : trimEnd t = [] := by
  rw [trim_eq] at h
  rw [← trimEnd_trimEnd]
  exact rdropWhile_eq_nil_iff.mpr (dropWhile_eq_nil_iff.mp h)

lemma statusOf_trimEnd (l : Text) : statusOf (trimEnd l) = statusOf l := by
  unfold statusOf fieldOf
  rw [trim_trimEnd]

lemma isHeading_trimEnd (heading l : Text) :
    isHeading heading (trimEnd l) = isHeading heading l := by
  unfold isHeading
  rw [trim_trimEnd]

lemma fieldIn_cons (field : Text × Text) (fields : List (Text × Text)) (key : Text) :
    fieldIn (field :: fields) key =
      (fieldIn fields key).or (if field.1 = key then some field.2 else none) := by
  unfold fieldIn
  rw [reverse_cons, find?_append]
  by_cases hkey : field.1 = key
  · cases (fields.reverse.find? fun field => field.1 = key) <;> simp [hkey]
  · cases (fields.reverse.find? fun field => field.1 = key) <;> simp [hkey]

def statusIn (ls : List Text) : Option Text := fieldIn (parseFields ls) "status".toList

lemma statusIn_cons (l : Text) (ls : List Text) :
    statusIn (l :: ls) = (statusIn ls).or (statusOf l) := by
  unfold statusIn statusOf parseFields
  cases hfield : fieldOf l with
  | none =>
    rw [filterMap_cons_none hfield]
    exact Option.or_none.symm
  | some field =>
    rw [filterMap_cons_some hfield, fieldIn_cons]
    rfl

include hread in
lemma statusIn_core (ls : List Text) : statusIn (core counts ls) = statusIn ls := by
  induction ls with
  | nil => rfl
  | cons l ls ih =>
    rw [core_cons, core_line, statusIn_cons]
    split_ifs with hcount
    · rw [singleton_append, statusIn_cons, statusOf_trimEnd, ih]
    · have hnone : statusOf l = none := by
        have hcas := Bool.eq_false_iff.mpr fun h => hcount (hread _ h)
        simp only [isRead, Bool.or_eq_false_iff, statusOf_trimEnd] at hcas
        simpa using hcas.2
      rw [nil_append, ih, hnone, Option.or_none]

def regionIn (ls : List Text) : Option (List Text) :=
  (behindIn blockerOpen ls).bind (beforeIn blockerClose)

lemma lines_readAnchoredRegion (t : Text) :
    (readAnchoredRegion t blockerOpen blockerClose).map lines = regionIn (lines t) := by
  obtain ⟨hopen, hclose, hopenNe, hclos, -, -⟩ := anchors_plain
  have hcut : ∀ (part s : Text), '\n' ∉ part → part ≠ [] →
      (cutAt part s).map (fun cut => lines cut.2) = behindIn part (lines s) ∧
        (cutAt part s).map (fun cut => lines cut.1) = beforeIn part (lines s) := by
    intro part s hpart hne
    have hmem : ∀ l ∈ lines s, '\n' ∉ l := fun l hl => notMem_of_mem_lines hl
    have hls : lines s ≠ [] := splitOn_ne_nil _ _
    have hcut := lines_cutAt hpart hne hmem hls
    rwa [joined_lines] at hcut
  unfold readAnchoredRegion regionIn
  rw [← (hcut blockerOpen t hopen hopenNe).1]
  cases cutAt blockerOpen t with
  | none => rfl
  | some outer =>
    dsimp only [Option.bind_some, Option.map_some]
    rw [Option.map_map, ← (hcut blockerClose outer.2 hclose hclos).2]
    rfl

include hread in
lemma regionIn_core (ls : List Text) :
    (regionIn ls).map (core counts) = (regionIn (core counts ls)).map (core counts) := by
  obtain ⟨-, -, hopenNe, hclos, hopenTr, hcloseTr⟩ := anchors_plain
  have hopen : ∀ l, (cutAt blockerOpen l).isSome = true → counts l = true := by
    intro l hl
    apply hread
    simp [isRead, hl]
  have hclose : ∀ l, (cutAt blockerClose l).isSome = true → counts l = true := by
    intro l hl
    apply hread
    simp [isRead, hl]
  have hbeh := (core_cutAt hopenNe hopen hopenTr ls).1
  have hbind : ∀ found : Option (List Text), (found.bind (beforeIn blockerClose)).map (core counts) =
      (found.map (core counts)).bind fun inner =>
        (beforeIn blockerClose inner).map (core counts) := by
    intro found
    cases found with
    | none => rfl
    | some inner => exact (core_cutAt hclos hclose hcloseTr inner).2
  unfold regionIn
  rw [hbind, hbind, hbeh]

lemma blockerOf_eq_none {fields : List (Text × Text)} : blockerOf fields = none ↔
    fieldIn fields "status".toList ≠ some "blocked".toList := by
  unfold blockerOf
  split_ifs with hblock
  · constructor
    · rintro ⟨⟩
    · intro hne
      exact absurd hblock hne
  · exact ⟨fun _ => hblock, fun _ => rfl⟩

include hread in
lemma parse_congr {t t' : Text} (h : core counts (lines t) = core counts (lines t')) :
    parseCurrentBlocker t = none ↔ parseCurrentBlocker t' = none := by
  have hstat : ∀ t, parseCurrentBlocker t = none ↔
      ((regionIn (core counts (lines t))).map (core counts)).bind statusIn ≠
        some "blocked".toList := by
    intro t
    rw [← regionIn_core hread, ← lines_readAnchoredRegion]
    unfold parseCurrentBlocker
    cases readAnchoredRegion t blockerOpen blockerClose with
    | none => simp
    | some inner =>
      dsimp only [Option.bind_some, Option.map_some]
      rw [statusIn_core hread]
      exact blockerOf_eq_none
  rw [hstat, hstat, h]

end

section
variable {counts : Text → Bool} (hnil : counts [] = false)

lemma mem_intercalate {c : Char} {sep : Text} {ls : List Text}
    (h : c ∈ List.intercalate sep ls) : c ∈ sep ∨ ∃ l ∈ ls, c ∈ l := by
  induction ls with
  | nil => cases h
  | cons l ls ih =>
    cases ls with
    | nil =>
      rw [intercalate_singleton] at h
      exact .inr ⟨l, mem_cons_self, h⟩
    | cons second ls =>
      rw [intercalate_cons_cons] at h
      rcases mem_append.mp h with h | h
      · rcases mem_append.mp h with h | h
        · exact .inr ⟨l, mem_cons_self, h⟩
        · exact .inl h
      · rcases ih h with hsep | ⟨line, hline, hin⟩
        · exact .inl hsep
        · exact .inr ⟨line, mem_cons_of_mem _ hline, hin⟩

lemma normalizeLine_plain (value : Text) :
    '\n' ∉ normalizeLine value ∧ trimEnd (normalizeLine value) = normalizeLine value := by
  constructor
  · intro hbreak
    have hdropp := (trimEnd_initial _).subset hbreak
    have hjoin : '\n' ∈ intercalate [' '] (splitWhitespace value) :=
      (dropWhile_suffix _).subset hdropp
    rcases mem_intercalate hjoin with hspace | ⟨piece, hpiece, hin⟩
    · revert hspace
      decide
    · have hfree := (mem_of_splitWhitespace hpiece).1 '\n' hin
      revert hfree
      decide
  · exact trimEnd_trimEnd _

lemma safeField_plain {value : Option Text} {fallback : Text}
    (h : '\n' ∉ fallback ∧ trimEnd fallback = fallback) (hne : fallback ≠ []) :
    '\n' ∉ safeField value fallback ∧ trimEnd (safeField value fallback) = safeField value fallback ∧
      safeField value fallback ≠ [] := by
  unfold safeField
  dsimp only
  split_ifs with hline
  · obtain ⟨hbreak, htrim⟩ := normalizeLine_plain (value.getD [])
    exact ⟨hbreak, htrim, hline⟩
  · exact ⟨h.1, h.2, hne⟩

lemma resolvedEntry_plain (resolved : ResolvedBlocker) : '\n' ∉ resolvedEntry resolved ∧
    trimEnd (resolvedEntry resolved) = resolvedEntry resolved ∧ resolvedEntry resolved ≠ [] := by
  obtain ⟨hsumm, -, -⟩ := @safeField_plain (some resolved.summary) "Resolved blocker.".toList
    (by decide +kernel) (by decide +kernel)
  obtain ⟨hres, htrim, hne⟩ :=
    @safeField_plain (some (firstLine resolved.resolution)) "resolved".toList
      (by decide +kernel) (by decide +kernel)
  have hmark : '\n' ∉ "- [x] ".toList := by decide +kernel
  have hdash : '\n' ∉ " - ".toList := by decide +kernel
  unfold resolvedEntry
  refine ⟨?_, ?_, append_ne_nil_of_right_ne_nil _ hne⟩
  · exact not_mem_append (not_mem_append (not_mem_append hmark hsumm) hdash)
      hres
  · rw [trimEnd_append, htrim, if_neg hne]

lemma findIdx_cases (p : Text → Bool) (ls : List Text) :
    (ls.findIdx? p = none ∧ ∀ l ∈ ls, p l = false) ∨
      ∃ above line below, ls = above ++ line :: below ∧ (∀ l ∈ above, p l = false) ∧
        p line = true ∧ ls.findIdx? p = some above.length := by
  induction ls with
  | nil => exact .inl ⟨rfl, by rintro l ⟨⟩⟩
  | cons l ls ih =>
    by_cases hl : p l = true
    · refine .inr ⟨[], l, ls, rfl, by rintro l ⟨⟩, hl, ?_⟩
      rw [findIdx?_cons, if_pos hl]
      rfl
    · have hfalse : p l = false := Bool.eq_false_iff.mpr hl
      rcases ih with ⟨hnone, hall⟩ | ⟨above, line, below, rfl, habove, hline, hidx⟩
      · refine .inl ⟨?_, ?_⟩
        · rw [findIdx?_cons, if_neg hl, hnone]
          rfl
        · intro other hoth
          rcases mem_cons.mp hoth with rfl | hoth
          · exact hfalse
          · exact hall other hoth
      · refine .inr ⟨l :: above, line, below, rfl, ?_, hline, ?_⟩
        · intro other hoth
          rcases mem_cons.mp hoth with rfl | hoth
          · exact hfalse
          · exact habove other hoth
        · rw [findIdx?_cons, if_neg hl, hidx]
          rfl

/-- A core with the entry below its first heading, or with a section of its own. -/
def archived (counts : Text → Bool) (ls entry : List Text) : List Text :=
  match ls.dropWhile (!isHeading resolvedBlockersHeading ·) with
  | [] => ls ++ core counts ["## ".toList ++ resolvedBlockersHeading] ++ entry
  | line :: below =>
    ls.takeWhile (!isHeading resolvedBlockersHeading ·) ++ line :: entry ++ below

lemma core_no_heading {ls : List Text} (h : ∀ l ∈ ls, isHeading resolvedBlockersHeading l = false) :
    ∀ l ∈ core counts ls, isHeading resolvedBlockersHeading l = false := by
  intro l hl
  obtain ⟨before, hbef, rfl⟩ := mem_map.mp (mem_of_mem_filter hl)
  rw [isHeading_trimEnd]
  exact h before hbef

include hnil in
lemma core_blank (ls : List Text) : core counts ([] :: ls) = core counts ls := by
  rw [core_cons, core_line]
  simp [trimEnd, hnil]

lemma lines_section {head entry : Text} (hhead : '\n' ∉ head) (hentry : '\n' ∉ entry) :
    lines (head ++ "\n\n".toList ++ entry) = [head, [], entry] := by
  have hbreaks : head ++ "\n\n".toList ++ entry = head ++ '\n' :: ([] ++ '\n' :: entry) := by
    rw [append_assoc]
    rfl
  rw [hbreaks, lines_append, lines_append, lines_of_notMem hhead, lines_of_notMem hentry]
  rfl

lemma existing_spec (below : List Text) : ∃ existing,
    (if below.head?.any (trim · = []) then below.tail else below) = existing ∧
      (∀ l ∈ existing, l ∈ below) ∧
      (existing = below ∨ ∃ first, trimEnd first = [] ∧ below = first :: existing) := by
  split_ifs with hblank
  · cases below with
    | nil => cases hblank
    | cons first rest =>
      have hfirst : trim first = [] := by simpa using hblank
      exact ⟨rest, rfl, fun l hl => mem_cons_of_mem _ hl,
        .inr ⟨first, trimEnd_of_blank hfirst, rfl⟩⟩
  · exact ⟨below, rfl, fun l hl => hl, .inl rfl⟩

lemma new_plain {above below existing : List Text} {line entry : Text}
    (hmem : ∀ l ∈ above ++ line :: below, '\n' ∉ l) (hsub : ∀ l ∈ existing, l ∈ below)
    (hentry : '\n' ∉ entry) : ∀ l ∈ above ++ [line] ++ [[], entry] ++ existing, '\n' ∉ l := by
  intro l hl
  simp only [mem_append, mem_cons, not_mem_nil, or_false] at hl
  rcases hl with ((hl | rfl) | rfl | rfl) | hl
  · exact hmem l (mem_append_left _ hl)
  · exact hmem l (mem_append_right _ mem_cons_self)
  · exact not_mem_nil
  · exact hentry
  · exact hmem l (mem_append_right _ (mem_cons_of_mem _ (hsub l hl)))

include hnil in
lemma core_newSection {markdown : Text} {resolved : ResolvedBlocker} {head : Text}
    (hhead : '\n' ∉ head) :
    core counts (lines (trimEnd markdown ++ (if trimEnd markdown ≠ [] then "\n\n".toList else []) ++
        head ++ "\n\n".toList ++ resolvedEntry resolved)) =
      core counts (lines markdown) ++ core counts [head] ++
        core counts [resolvedEntry resolved] := by
  have htail : lines (head ++ "\n\n".toList ++ resolvedEntry resolved) =
      [head, [], resolvedEntry resolved] := lines_section hhead (resolvedEntry_plain resolved).1
  have hcore : core counts [head, [], resolvedEntry resolved] =
      core counts [head] ++ core counts [resolvedEntry resolved] := by
    rw [core_cons, core_blank hnil]
  by_cases hempty : trimEnd markdown = []
  · have hmarkd : core counts (lines markdown) = [] := by
      rw [← core_trimEnd hnil, hempty]
      exact core_blank hnil []
    rw [if_neg (by simp [hempty]), hempty, hmarkd, nil_append, nil_append, htail, hcore]
    rfl
  · rw [if_pos hempty]
    have hbreaks : trimEnd markdown ++ "\n\n".toList ++ head ++ "\n\n".toList ++
        resolvedEntry resolved = trimEnd markdown ++ '\n' ::
          ([] ++ '\n' :: (head ++ "\n\n".toList ++ resolvedEntry resolved)) := by
      simp
    rw [hbreaks, lines_append, lines_append, htail, core_append, core_trimEnd hnil, append_assoc]
    congr 1
    exact (core_blank hnil _).trans hcore

include hnil in
lemma core_appendResolvedBlocker
    (hheadi : ∀ l, isHeading resolvedBlockersHeading l = true → counts l = true)
    (markdown : Text) (resolved : ResolvedBlocker) :
    core counts (lines (appendResolvedBlocker markdown resolved)) =
      archived counts (core counts (lines markdown)) (core counts [resolvedEntry resolved]) := by
  unfold appendResolvedBlocker
  dsimp only
  rcases findIdx_cases (isHeading resolvedBlockersHeading) (lines markdown) with
    ⟨hidx, hall⟩ | ⟨above, line, below, hlin, habove, hline, hidx⟩
  · have hdrop : (core counts (lines markdown)).dropWhile (!isHeading resolvedBlockersHeading ·) =
        [] := by
      apply dropWhile_eq_nil_iff.mpr
      intro l hl
      rw [core_no_heading hall l hl]
      rfl
    have hhead : '\n' ∉ "## ".toList ++ resolvedBlockersHeading := by decide +kernel
    rw [hidx, archived, hdrop]
    dsimp only
    have hbreak : "\n".toList = ['\n'] := rfl
    rw [hbreak, core_newline hnil, append_assoc _ "## ".toList, core_newSection hnil hhead]
  · have hmem : ∀ l ∈ lines markdown, '\n' ∉ l := fun l hl => notMem_of_mem_lines hl
    rw [hidx]
    dsimp only
    rw [hlin] at hmem ⊢
    have htake : (above ++ line :: below).take (above.length + 1) = above ++ [line] := by
      rw [take_length_add_append]
      rfl
    have hbel : (above ++ line :: below).drop (above.length + 1) = below := by
      rw [drop_length_add_append]
      rfl
    rw [htake, hbel]
    obtain ⟨existing, hexist, hsub, hsame⟩ := existing_spec below
    rw [hexist]
    have hcore : core counts existing = core counts below := by
      rcases hsame with rfl | ⟨first, hfirst, rfl⟩
      · rfl
      · rw [core_cons first, core_line, hfirst, hnil]
        rfl
    have hnew : ∀ l ∈ above ++ [line] ++ [[], resolvedEntry resolved] ++ existing, '\n' ∉ l :=
      new_plain hmem hsub (resolvedEntry_plain resolved).1
    have hbreak : "\n".toList = ['\n'] := rfl
    rw [hbreak, core_newline hnil, core_trimEnd hnil, lines_joined hnew (by simp), core_append,
      core_append, core_append, core_blank hnil, hcore]
    have hcount : counts (trimEnd line) = true := by
      apply hheadi
      rw [isHeading_trimEnd]
      exact hline
    have hcor : core counts (above ++ line :: below) =
        core counts above ++ trimEnd line :: core counts below := by
      rw [core_append, core_cons, core_line, if_pos hcount]
      rfl
    have hpass : ∀ l ∈ core counts above, (!isHeading resolvedBlockersHeading l) = true := by
      intro l hl
      rw [core_no_heading habove l hl]
      rfl
    have hstop : ¬ (!isHeading resolvedBlockersHeading (trimEnd line)) = true := by
      rw [isHeading_trimEnd, hline]
      exact Bool.false_ne_true
    have hdrop : (core counts above ++ trimEnd line :: core counts below).dropWhile
        (!isHeading resolvedBlockersHeading ·) = trimEnd line :: core counts below := by
      rw [dropWhile_append_of_pos hpass]
      exact dropWhile_cons_of_neg hstop
    have htak : (core counts above ++ trimEnd line :: core counts below).takeWhile
        (!isHeading resolvedBlockersHeading ·) = core counts above := by
      rw [takeWhile_append_of_pos hpass, takeWhile_cons_of_neg, append_nil]
      exact hstop
    rw [hcor, archived, hdrop, htak, core_line, if_pos hcount]
    simp

lemma range_spec {ls front back : List Text}
    (h : currentBlockerSectionRange ls = some (front, back)) :
    (∀ l ∈ front, l ∈ ls) ∧ (∀ l ∈ back, l ∈ ls) ∧
      ∀ first rest, back = first :: rest → opensSection first = true := by
  induction ls generalizing front with
  | nil => cases h
  | cons line ls ih =>
    rw [currentBlockerSectionRange] at h
    split_ifs at h
    · obtain ⟨rfl, rfl⟩ := Prod.mk.inj (Option.some.inj h)
      refine ⟨by rintro l ⟨⟩, ?_, ?_⟩
      · intro l hl
        exact mem_cons_of_mem _ ((dropWhile_suffix _).subset hl)
      · intro first rest hrest
        have hhead := head?_dropWhile_not (!opensSection ·) ls
        rw [hrest] at hhead
        simpa using hhead
    · obtain ⟨range, hrange, hsame⟩ := Option.map_eq_some_iff.mp h
      obtain ⟨rfl, rfl⟩ := Prod.mk.inj hsame
      obtain ⟨hfront, hback, hfirst⟩ := ih hrange
      refine ⟨?_, fun l hl => mem_cons_of_mem _ (hback l hl), hfirst⟩
      intro l hl
      rcases mem_cons.mp hl with rfl | hl
      · exact mem_cons_self
      · exact mem_cons_of_mem _ (hfront l hl)

lemma trimStart_back {back : List Text}
    (h : ∀ first rest, back = first :: rest → opensSection first = true) :
    trimStart (joined back) = joined back := by
  cases back with
  | nil => rfl
  | cons first rest =>
    have hfirst := h first rest rfl
    obtain ⟨tail, htail⟩ : "##".toList <+: first := by
      rw [opensSection, Bool.and_eq_true] at hfirst
      exact isPrefixOf_iff_prefix.mp hfirst.1
    obtain ⟨more, hmore⟩ : ∃ more, joined (first :: rest) = '#' :: more := by
      cases rest with
      | nil => exact ⟨'#' :: tail, by rw [joined, intercalate_singleton, ← htail]; rfl⟩
      | cons second rest =>
        refine ⟨'#' :: tail ++ ['\n'] ++ intercalate ['\n'] (second :: rest), ?_⟩
        rw [joined, intercalate_cons_cons, ← htail]
        rfl
    rw [hmore]
    exact dropWhile_cons_of_neg (by decide)

def clearedLines : List Text := ["## ".toList ++ blockerHeading, [], "None".toList, []]

lemma clearedLines_plain : ∀ l ∈ clearedLines, '\n' ∉ l := by decide +kernel

lemma cleared_eq {front back : List Text}
    (h : ∀ first rest, back = first :: rest → opensSection first = true) :
    unlines '\n' front ++ clearedSection ++ "\n".toList ++ trimStart (joined back) =
      (front ++ clearedLines).flatMap (· ++ ['\n']) ++ joined back := by
  rw [trimStart_back h, flatMap_append, append_assoc (unlines _ _)]
  rfl

lemma withoutBlocker_cases (markdown : Text) : withoutBlocker markdown = keptOf markdown ∨
    withoutBlocker markdown = trimEnd (keptOf markdown) ++ ['\n'] ∨
    ∃ front back : List Text, (∀ l ∈ front, '\n' ∉ l) ∧ (∀ l ∈ front ++ clearedLines, '\n' ∉ l) ∧
      (∀ l ∈ back, '\n' ∉ l) ∧ keptOf markdown = front.flatMap (· ++ ['\n']) ++ joined back ∧
      withoutBlocker markdown =
        trimEnd ((front ++ clearedLines).flatMap (· ++ ['\n']) ++ joined back) ++ ['\n'] := by
  have hmem : ∀ l ∈ lines markdown, '\n' ∉ l := fun l hl => notMem_of_mem_lines hl
  unfold keptOf withoutBlocker
  cases hrange : currentBlockerSectionRange (lines markdown) with
  | some range =>
    obtain ⟨front, back⟩ := range
    obtain ⟨hfront, hback, hfirst⟩ := range_spec hrange
    have hplain : ∀ l ∈ front, '\n' ∉ l := fun l hl => hmem l (hfront l hl)
    refine .inr (.inr ⟨front, back, hplain, ?_, fun l hl => hmem l (hback l hl), rfl, ?_⟩)
    · intro l hl
      rcases mem_append.mp hl with hl | hl
      · exact hplain l hl
      · exact clearedLines_plain l hl
    · dsimp only
      rw [cleared_eq hfirst]
      rfl
  | none =>
    dsimp only
    cases hopen : cutAt blockerOpen markdown with
    | none => exact .inl rfl
    | some outer =>
      dsimp only
      cases hclose : cutAt blockerClose outer.2 with
      | none => exact .inl rfl
      | some inner => exact .inr (.inl rfl)

include hnil in
lemma core_withoutBlocker (markdown : Text) : ∃ front back,
    core counts (lines (keptOf markdown)) = front ++ back ∧
      (core counts (lines (withoutBlocker markdown)) = front ++ back ∨
        core counts (lines (withoutBlocker markdown)) =
          front ++ core counts clearedLines ++ back) := by
  rcases withoutBlocker_cases markdown with
    hsame | htrimm | ⟨front, back, hfront, hcleared, hback, hkept, hwith⟩
  · exact ⟨_, [], (append_nil _).symm, .inl (by rw [hsame, append_nil])⟩
  · refine ⟨_, [], (append_nil _).symm, .inl ?_⟩
    rw [htrimm, core_newline hnil, core_trimEnd hnil, append_nil]
  · have hjoin : core counts (lines (joined back)) = core counts back := by
      cases back with
      | nil => exact core_blank hnil []
      | cons first rest => rw [lines_joined hback (by simp)]
    refine ⟨core counts front, core counts back, ?_, .inr ?_⟩
    · rw [hkept, lines_unlines hfront, core_append, hjoin]
    · rw [hwith, core_newline hnil, core_trimEnd hnil, lines_unlines hcleared, core_append,
        core_append, hjoin]

end

section
variable {markdown : Text} {resolved : ResolvedBlocker}

lemma isMarked_of_read (l : Text) (h : isRead l = true) : isMarked l = true := by
  simp [isMarked, h]

lemma isMarked_of_heading (l : Text) (h : isHeading resolvedBlockersHeading l = true) :
    isMarked l = true := by
  simp [isMarked, h]

/-- A cleared body has a blocker exactly where what is kept of it has one, with the entry. -/
lemma parse_cleared_iff :
    parseCurrentBlocker (appendResolvedBlocker (withoutBlocker markdown) resolved) = none ↔
      parseCurrentBlocker (appendResolvedBlocker (keptOf markdown) resolved) = none := by
  have hcleared : core isMarked clearedLines = [] := by decide +kernel
  obtain ⟨front, back, hkept, hwith⟩ := core_withoutBlocker isMarked_nil markdown
  have hsame : core isMarked (lines (withoutBlocker markdown)) =
      core isMarked (lines (keptOf markdown)) := by
    rcases hwith with hwith | hwith
    · rw [hwith, hkept]
    · rw [hwith, hkept, hcleared, append_nil]
  apply parse_congr isMarked_of_read
  rw [core_appendResolvedBlocker isMarked_nil isMarked_of_heading,
    core_appendResolvedBlocker isMarked_nil isMarked_of_heading, hsame]

lemma statusOf_resolvedEntry : statusOf (resolvedEntry resolved) = none := by
  obtain ⟨tail, htail⟩ : ∃ tail, resolvedEntry resolved = '-' :: tail := ⟨_, rfl⟩
  have htrim : trim (resolvedEntry resolved) = '-' :: tail := by
    rw [trim_eq, (resolvedEntry_plain resolved).2.1, htail]
    exact dropWhile_cons_of_neg (by decide)
  have hkey : isKeyChar '-' = false := by decide
  unfold statusOf fieldOf
  dsimp only
  rw [htrim, dropWhile_cons_of_neg (by rw [hkey]; exact Bool.false_ne_true)]
  rfl

lemma filter_archived {ls entry : List Text} (h : entry.filter isRead = []) :
    (archived isMarked ls entry).filter isRead = ls.filter isRead := by
  have hheadi : (core isMarked ["## ".toList ++ resolvedBlockersHeading]).filter isRead = [] := by
    decide +kernel
  unfold archived
  split
  · rw [filter_append, filter_append, hheadi, h, append_nil, append_nil]
  · next line below hdrop =>
      have hls : ls = ls.takeWhile (!isHeading resolvedBlockersHeading ·) ++ line :: below := by
        rw [← hdrop, takeWhile_append_dropWhile]
      conv_rhs => rw [hls]
      rw [filter_append, filter_append, filter_append, filter_cons, filter_cons, h, append_assoc]
      split_ifs <;> rfl

lemma filter_core (ls : List Text) : (core isMarked ls).filter isRead = core isRead ls := by
  unfold core
  rw [filter_filter]
  apply filter_congr
  intro l _
  cases hread : isRead l with
  | false => rfl
  | true => rw [isMarked_of_read l hread]; rfl

lemma parse_appendResolvedBlocker (hopen : cutAt blockerOpen (resolvedEntry resolved) = none)
    (hclose : cutAt blockerClose (resolvedEntry resolved) = none) :
    parseCurrentBlocker (appendResolvedBlocker markdown resolved) = none ↔
      parseCurrentBlocker markdown = none := by
  have hentry : isRead (resolvedEntry resolved) = false := by
    simp [isRead, hopen, hclose, statusOf_resolvedEntry]
  have hnone : (core isMarked [resolvedEntry resolved]).filter isRead = [] := by
    rw [filter_core, core_line, (resolvedEntry_plain resolved).2.1, hentry]
    rfl
  have hread : ∀ l, isRead l = true → isRead l = true := fun l hl => hl
  apply parse_congr hread
  rw [← filter_core, ← filter_core, core_appendResolvedBlocker isMarked_nil isMarked_of_heading,
    filter_archived hnone]

end

section
variable {markdown : Text} {resolved : ResolvedBlocker}

lemma solid_joined {ls : List Text} (h : ∀ l ∈ ls, '\n' ∉ l) :
    solid (lines (joined ls)) = solid ls := by
  cases ls with
  | nil => rfl
  | cons l ls => rw [lines_joined h (by simp)]

lemma keptIn_withoutBlocker : KeptIn (keptOf markdown) (withoutBlocker markdown) := by
  rcases withoutBlocker_cases markdown with
    hsame | htrimm | ⟨front, back, hfront, hcleared, hback, hkept, hwith⟩
  · rw [hsame]
    exact KeptIn.refl _
  · apply keptIn_of_between [] [] _ rfl
    rw [htrimm, solid_newline, solid_trimEnd]
    rfl
  · apply keptIn_of_between (solid front) (solid clearedLines) (solid back)
    · rw [hkept, lines_unlines hfront, solid_append, solid_joined hback]
    · rw [hwith, solid_newline, solid_trimEnd, lines_unlines hcleared, solid_append,
        solid_append, solid_joined hback]

lemma solid_entry : solid [resolvedEntry resolved] = [resolvedEntry resolved] := by
  obtain ⟨-, htrim, hne⟩ := resolvedEntry_plain resolved
  have hsol : isSolid (resolvedEntry resolved) = true := by
    unfold isSolid
    rw [htrim]
    exact decide_eq_true hne
  rw [solid_line, if_pos hsol]

lemma solid_blank (ls : List Text) : solid ([] :: ls) = solid ls := rfl

lemma solid_appendResolvedBlocker (markdown : Text) (resolved : ResolvedBlocker) :
    (∃ heading, solid (lines (appendResolvedBlocker markdown resolved)) =
        (solid (lines markdown)).modifyLast trimEnd ++ heading ++ [resolvedEntry resolved]) ∨
      ∃ front back, solid (lines markdown) = front ++ back ∧
        solid (lines (appendResolvedBlocker markdown resolved)) =
          (front ++ [resolvedEntry resolved] ++ back).modifyLast trimEnd := by
  have hbreak : "\n".toList = ['\n'] := rfl
  have hplain := (resolvedEntry_plain resolved).1
  unfold appendResolvedBlocker
  dsimp only
  rcases findIdx_cases (isHeading resolvedBlockersHeading) (lines markdown) with
    ⟨hidx, -⟩ | ⟨above, line, below, hlin, -, -, hidx⟩
  · left
    have hhead : '\n' ∉ "## ".toList ++ resolvedBlockersHeading := by decide +kernel
    rw [hidx]
    dsimp only
    refine ⟨solid ["## ".toList ++ resolvedBlockersHeading], ?_⟩
    have htail : lines ("## ".toList ++ resolvedBlockersHeading ++ "\n\n".toList ++
        resolvedEntry resolved) =
          ["## ".toList ++ resolvedBlockersHeading, [], resolvedEntry resolved] :=
      lines_section hhead hplain
    have hsect : solid ["## ".toList ++ resolvedBlockersHeading, [], resolvedEntry resolved] =
        solid ["## ".toList ++ resolvedBlockersHeading] ++ [resolvedEntry resolved] := by
      rw [solid_cons, solid_blank, solid_entry]
    rw [hbreak, solid_newline]
    by_cases hempty : trimEnd markdown = []
    · have hnone : (solid (lines markdown)).modifyLast trimEnd = [] := by
        rw [← solid_trimEnd, hempty]
        rfl
      rw [if_neg (by simp [hempty]), hempty, hnone, nil_append, nil_append, htail,
        hsect, nil_append]
    · rw [if_pos hempty]
      have hbreaks : trimEnd markdown ++ "\n\n".toList ++ "## ".toList ++ resolvedBlockersHeading ++
          "\n\n".toList ++ resolvedEntry resolved = trimEnd markdown ++ '\n' :: ([] ++ '\n' ::
            ("## ".toList ++ resolvedBlockersHeading ++ "\n\n".toList ++
              resolvedEntry resolved)) := by
        simp only [append_assoc]
        rfl
      rw [hbreaks, lines_append, lines_append, htail, solid_append, solid_trimEnd,
        append_assoc _ (solid _), ← hsect]
      rfl
  · right
    have hmem : ∀ l ∈ lines markdown, '\n' ∉ l := fun l hl => notMem_of_mem_lines hl
    rw [hidx]
    dsimp only
    rw [hlin] at hmem ⊢
    have htake : (above ++ line :: below).take (above.length + 1) = above ++ [line] := by
      rw [take_length_add_append]
      rfl
    have hbel : (above ++ line :: below).drop (above.length + 1) = below := by
      rw [drop_length_add_append]
      rfl
    rw [htake, hbel]
    obtain ⟨existing, hexist, hsub, hsame⟩ := existing_spec below
    rw [hexist]
    have hsol : solid existing = solid below := by
      rcases hsame with rfl | ⟨first, hfirst, rfl⟩
      · rfl
      · rw [solid_cons first, solid_line, if_neg (by simp [isSolid, hfirst])]
        rfl
    have hnew : ∀ l ∈ above ++ [line] ++ [[], resolvedEntry resolved] ++ existing, '\n' ∉ l :=
      new_plain hmem hsub hplain
    refine ⟨solid (above ++ [line]), solid below, ?_, ?_⟩
    · rw [← solid_append, append_assoc]
      rfl
    · rw [hbreak, solid_newline, solid_trimEnd, lines_joined hnew (by simp), solid_append,
        solid_append, solid_blank, solid_entry, hsol]

lemma keptIn_appendResolvedBlocker (markdown : Text) (resolved : ResolvedBlocker) :
    KeptIn markdown (appendResolvedBlocker markdown resolved) := by
  rcases solid_appendResolvedBlocker markdown resolved with
    ⟨heading, hsol⟩ | ⟨front, back, hmarkd, hsol⟩
  · right
    rw [hsol, append_assoc]
    exact sublist_append_left _ _
  · exact keptIn_of_between front [resolvedEntry resolved] back hmarkd hsol

lemma resolvedEntry_mem (markdown : Text) (resolved : ResolvedBlocker) :
    resolvedEntry resolved ∈ lines (appendResolvedBlocker markdown resolved) := by
  apply @List.mem_of_mem_filter _ isSolid
  change _ ∈ solid _
  rcases solid_appendResolvedBlocker markdown resolved with
    ⟨heading, hsol⟩ | ⟨front, back, -, hsol⟩
  · rw [hsol]
    exact mem_append_right _ (mem_singleton_self _)
  · rw [hsol]
    by_cases hback : back = []
    · rw [hback, append_nil, modifyLast_concat, (resolvedEntry_plain resolved).2.1]
      exact mem_append_right _ (mem_singleton_self _)
    · rw [modifyLast_append_of_right_ne_nil _ _ _ hback]
      exact mem_append_left _ (mem_append_right _ (mem_singleton_self _))

lemma keptIn_cleared :
    KeptIn (keptOf markdown) (appendResolvedBlocker (withoutBlocker markdown) resolved) ∧
      resolvedEntry resolved ∈ lines (appendResolvedBlocker (withoutBlocker markdown) resolved) :=
  ⟨keptIn_withoutBlocker.trans (keptIn_appendResolvedBlocker _ _), resolvedEntry_mem _ _⟩

end
end Redskilled.Tracker
