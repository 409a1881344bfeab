import Redskilled.Foundation.Passages
import Redskilled.Gate.GateExecutor

/-!
# Conflicted files

`parseConflictHunks` and `classifyConflictedFileKind` of
`plugin-dev/src/core/merge-conflict-reconcile.ts`, on files as git renders them. A line of the
content that begins like a marker is taken for one. What is judged are the stretches from one
start marker to the next end marker, and these are the conflicts only where no such line is
among them.
-/
namespace Redskilled.Landing.ConflictHunks
open Foundation Foundation.Text List

def conflictStart : Text := "<<<<<<<".toList

def conflictMid : Text := "=======".toList

def conflictEnd : Text := ">>>>>>>".toList

structure ConflictHunk where
  ours : List Text
  theirs : List Text
  deriving DecidableEq

/-- The hunk that the inner loop is in. -/
structure OpenHunk extends ConflictHunk where
  sawMid : Bool

def OpenHunk.push (hunk : OpenHunk) (line : Text) : OpenHunk :=
  if hunk.sawMid then { hunk with theirs := hunk.theirs ++ [line] }
  else { hunk with ours := hunk.ours ++ [line] }

/-- The loop from a line on, within a hunk or outside. -/
def parseFrom : Option OpenHunk → List Text → List ConflictHunk
  | _, [] => []
  | none, line :: lines =>
    if conflictStart <+: line then parseFrom (some ⟨⟨[], []⟩, false⟩) lines
    else parseFrom none lines
  | some hunk, line :: lines =>
    if conflictMid <+: line then parseFrom (some { hunk with sawMid := true }) lines
    else if conflictEnd <+: line then hunk.toConflictHunk :: parseFrom none lines
    else parseFrom (some (hunk.push line)) lines

def parseConflictHunks (body : Text) : List ConflictHunk := parseFrom none (lines body)

/-- `norm`: no white space at the ends of lines, and no blank lines at the end. -/
def normalised (ls : List Text) : List Text := (ls.map trimEnd).rdropWhile (· = [])

def whitespaceEquivalent (ours theirs : List Text) : Bool :=
  let a := normalised ours
  let b := normalised theirs
  if a.length ≠ b.length then false else (a.zip b).all fun pair => pair.1 == pair.2

def classifyConflictHunk (hunk : ConflictHunk) : Option Text :=
  if whitespaceEquivalent hunk.ours hunk.theirs then some "trailing-whitespace".toList else none

def semantic : Text := "semantic".toList

/-- The loop over the hunks. -/
def sharedKind : List ConflictHunk → Option Text → Text
  | [], kind => kind.getD semantic
  | hunk :: hunks, _ =>
    match classifyConflictHunk hunk with
    | none => semantic
    | some kind => sharedKind hunks (some kind)

def classifyConflictedFileKind (body : Text) : Text :=
  let hunks := parseConflictHunks body
  if hunks = [] then semantic else sharedKind hunks none

/-- A common line, or a conflict with the names behind its markers. -/
inductive Block where
  | common (line : Text)
  | conflict (ourName theirName : Text) (pair : ConflictHunk)

def Block.lines : Block → List Text
  | .common line => [line]
  | .conflict ourName theirName pair =>
    (conflictStart ++ ' ' :: ourName) ::
      (pair.ours ++ conflictMid :: (pair.theirs ++ [conflictEnd ++ ' ' :: theirName]))

/-- The lines that are no markers of git. -/
def Block.content : Block → List Text
  | .common line => [line]
  | .conflict _ _ pair => pair.ours ++ pair.theirs

def Block.pair? : Block → Option ConflictHunk
  | .common _ => none
  | .conflict _ _ pair => some pair

structure ConflictedFile where
  blocks : List Block
  whole : ∀ block ∈ blocks, ∀ line ∈ block.lines, '\n' ∉ line

def ConflictedFile.lines (file : ConflictedFile) : List Text := file.blocks.flatMap Block.lines

def ConflictedFile.body (file : ConflictedFile) : Text := joined file.lines

def ConflictedFile.pairs (file : ConflictedFile) : List ConflictHunk :=
  file.blocks.filterMap Block.pair?

/-- The two sides are the same but for white space. -/
def ConflictHunk.Agrees (hunk : ConflictHunk) : Prop :=
  normalised hunk.ours = normalised hunk.theirs

instance (hunk : ConflictHunk) : Decidable hunk.Agrees := inferInstanceAs (Decidable (_ = _))

def IsMarker (line : Text) : Prop :=
  conflictStart <+: line ∨ conflictMid <+: line ∨ conflictEnd <+: line

/-- A file whose pairs all agree may be called mechanical, and without markers in its content
the pairs are found. -/
def WellJudged (file : ConflictedFile) : Prop :=
  (classifyConflictedFileKind file.body ∈ Gate.mechanicalKinds →
      file.pairs ≠ [] ∧ ∀ pair ∈ file.pairs, pair.Agrees) ∧
    ((∀ block ∈ file.blocks, ∀ line ∈ block.content, ¬ IsMarker line) →
      parseConflictHunks file.body = file.pairs)

def Settled (ls : List Text) : Prop :=
  ∀ before start after, ls = before ++ start :: after → conflictStart <+: start →
    ∃ line ∈ after, conflictEnd <+: line

/-- The lines between a start marker that is not within another stretch and the next end
marker. -/
def Stretch (ls inner : List Text) : Prop :=
  ∃ before start close after, ls = before ++ start :: (inner ++ close :: after) ∧
    Settled before ∧ conflictStart <+: start ∧ conflictEnd <+: close ∧
      ∀ line ∈ inner, ¬ conflictEnd <+: line

/-- The sides of a stretch meet at the first middle marker. -/
def sidesOf (inner : List Text) : ConflictHunk :=
  ⟨inner.takeWhile (¬ conflictMid <+: ·),
    (inner.dropWhile (¬ conflictMid <+: ·)).filter (¬ conflictMid <+: ·)⟩

/-- All pairs agree, or there is no stretch, or the sides of one differ. -/
def Told (file : ConflictedFile) : Prop :=
  (file.pairs ≠ [] ∧ ∀ pair ∈ file.pairs, pair.Agrees) ∨ (∀ inner, ¬ Stretch file.lines inner) ∨
      ∃ inner, Stretch file.lines inner ∧ ¬ (sidesOf inner).Agrees

variable {line : Text} {ls inner before after : List Text} {hunk : ConflictHunk}
  {state : Option OpenHunk} {current : OpenHunk}

lemma all_zip_iff {a b : List Text} (h : a.length = b.length) :
    ((a.zip b).all fun pair => pair.1 == pair.2) = true ↔ a = b := by
  induction a generalizing b with
  | nil =>
    obtain rfl := length_eq_zero_iff.mp h.symm
    simp
  | cons x a ih =>
    cases b with
    | nil => cases h
    | cons y b => simp [ih (Nat.succ.inj h)]

lemma whitespaceEquivalent_iff :
    whitespaceEquivalent hunk.ours hunk.theirs = true ↔ hunk.Agrees := by
  simp only [whitespaceEquivalent, ConflictHunk.Agrees]
  split_ifs with hlength
  · simp only [false_iff]
    exact fun heq => hlength (congrArg length heq)
  · exact all_zip_iff (not_not.mp hlength)

lemma semantic_notMem : semantic ∉ Gate.mechanicalKinds := by decide

lemma sharedKind_iff {hunks : List ConflictHunk} {kind : Option Text} :
    sharedKind hunks kind ∈ Gate.mechanicalKinds ↔
      (hunks = [] → kind.getD semantic ∈ Gate.mechanicalKinds) ∧ ∀ hunk ∈ hunks, hunk.Agrees := by
  induction hunks generalizing kind with
  | nil => simp [sharedKind]
  | cons hunk hunks ih =>
    have hmemb : "trailing-whitespace".toList ∈ Gate.mechanicalKinds := by decide
    simp only [sharedKind, classifyConflictHunk, forall_mem_cons, reduceCtorEq, false_implies,
      true_and]
    by_cases hagr : hunk.Agrees
    · rw [if_pos (whitespaceEquivalent_iff.mpr hagr)]
      simp only [ih, Option.getD_some, hmemb, implies_true, true_and, hagr]
    · rw [if_neg (mt whitespaceEquivalent_iff.mp hagr)]
      simp only [semantic_notMem, hagr, false_and]

lemma mechanical_iff {body : Text} : classifyConflictedFileKind body ∈ Gate.mechanicalKinds ↔
      parseConflictHunks body ≠ [] ∧ ∀ hunk ∈ parseConflictHunks body, hunk.Agrees := by
  simp only [classifyConflictedFileKind]
  split_ifs with hnone
  · simp only [semantic_notMem, hnone, ne_eq, not_true_eq_false, false_and]
  · rw [sharedKind_iff]
    simp only [hnone, false_implies, true_and, ne_eq, not_false_eq_true]

/-- Where the loop stands behind a line. -/
def step : Option OpenHunk → Text → Option OpenHunk
  | none, line => if conflictStart <+: line then some ⟨⟨[], []⟩, false⟩ else none
  | some hunk, line =>
    if conflictMid <+: line then some { hunk with sawMid := true }
    else if conflictEnd <+: line then none
    else some (hunk.push line)

lemma not_mid_of_end (h : conflictEnd <+: line) : ¬ conflictMid <+: line := by
  intro hmid
  have hsame := prefix_of_prefix_length_le hmid h (by decide)
  revert hsame
  decide

lemma not_end_of_start (h : conflictStart <+: line) : ¬ conflictEnd <+: line := by
  intro hend
  have hsame := prefix_of_prefix_length_le hend h (by decide)
  revert hsame
  decide

lemma parseFrom_cons (state : Option OpenHunk) (line : Text) (ls : List Text) :
    parseFrom state (line :: ls) =
      (if conflictEnd <+: line then state.toList.map OpenHunk.toConflictHunk else []) ++
        parseFrom (step state line) ls := by
  cases state with
  | none =>
    simp only [parseFrom, step, Option.toList_none, map_nil, ite_self, nil_append]
    split_ifs <;> rfl
  | some hunk =>
    simp only [parseFrom, step]
    by_cases hend : conflictEnd <+: line
    · rw [if_neg (not_mid_of_end hend), if_pos hend, if_pos hend, if_neg (not_mid_of_end hend),
        if_pos hend]
      rfl
    · simp only [if_neg hend, nil_append]
      split_ifs <;> rfl

lemma mem_parseFrom : hunk ∈ parseFrom state ls ↔
    ∃ before close after current, ls = before ++ close :: after ∧ conflictEnd <+: close ∧
      before.foldl step state = some current ∧ hunk = current.toConflictHunk := by
  induction ls generalizing state with
  | nil => simp [parseFrom]
  | cons line ls ih =>
    rw [parseFrom_cons, mem_append, ih]
    constructor
    · rintro (hmem | ⟨before, close, after, current, rfl, hclose, hbef, rfl⟩)
      · split_ifs at hmem with hend
        · obtain ⟨current, hcurr, rfl⟩ := mem_map.mp hmem
          exact ⟨[], line, ls, current, rfl, hend, Option.mem_toList.mp hcurr, rfl⟩
        · cases hmem
      · exact ⟨line :: before, close, after, current, rfl, hclose, hbef, rfl⟩
    · rintro ⟨before, close, after, current, hspl, hclose, hbef, rfl⟩
      cases before with
      | nil =>
        obtain ⟨rfl, rfl⟩ := cons.inj hspl
        obtain rfl : state = some current := hbef
        simp [hclose]
      | cons first before =>
        obtain ⟨rfl, rfl⟩ := cons.inj hspl
        exact .inr ⟨before, close, after, current, rfl, hclose, hbef, rfl⟩

lemma foldl_step (h : ∀ line ∈ inner, ¬ conflictEnd <+: line) (current : OpenHunk) :
    ∃ opened, inner.foldl step (some current) = some opened ∧
      opened.toConflictHunk = if current.sawMid then
        ⟨current.ours, current.theirs ++ inner.filter (¬ conflictMid <+: ·)⟩
        else ⟨current.ours ++ (sidesOf inner).ours, current.theirs ++ (sidesOf inner).theirs⟩ := by
  induction inner generalizing current with
  | nil =>
    refine ⟨current, rfl, ?_⟩
    cases current.sawMid <;> simp [sidesOf]
  | cons line inner ih =>
    have hend := h line mem_cons_self
    have hrest := ih fun l hl => h l (mem_cons_of_mem _ hl)
    rw [foldl_cons]
    by_cases hmid : conflictMid <+: line
    · obtain ⟨opened, hfold, hsid⟩ := hrest { current with sawMid := true }
      refine ⟨opened, by rw [step, if_pos hmid, hfold], ?_⟩
      rw [hsid]
      cases hsaw : current.sawMid <;> simp [sidesOf, hmid]
    · obtain ⟨opened, hfold, hsid⟩ := hrest (current.push line)
      refine ⟨opened, by rw [step, if_neg hmid, if_neg hend, hfold], ?_⟩
      rw [hsid]
      cases hsaw : current.sawMid <;> simp [sidesOf, OpenHunk.push, hmid, hsaw]

lemma foldl_step_none : (before.foldl step none = none → Settled before) ∧
      ∀ current, before.foldl step none = some current → ∃ outside start inner,
        before = outside ++ start :: inner ∧ outside.foldl step none = none ∧
          conflictStart <+: start ∧ ∀ line ∈ inner, ¬ conflictEnd <+: line := by
  constructor
  · rintro hnone a start b rfl hstart
    by_contra hopen
    push Not at hopen
    rw [foldl_append, foldl_cons] at hnone
    have hins : ∃ current, step (a.foldl step none) start = some current := by
      cases a.foldl step none with
      | none => exact ⟨_, if_pos hstart⟩
      | some current =>
        simp only [step, if_neg (not_end_of_start hstart)]
        split_ifs <;> exact ⟨_, rfl⟩
    obtain ⟨current, hcurr⟩ := hins
    obtain ⟨opened, hfold, -⟩ := foldl_step hopen current
    rw [hcurr, hfold] at hnone
    cases hnone
  · induction before using reverseRecOn with
    | nil => exact fun _ h => nomatch h
    | append_singleton before line ih =>
      intro current hcurr
      rw [foldl_append, foldl_cons, foldl_nil] at hcurr
      cases hstate : before.foldl step none with
      | none =>
        rw [hstate, step] at hcurr
        split_ifs at hcurr with hstart
        exact ⟨before, line, [], rfl, hstate, hstart, by simp⟩
      | some earlier =>
        obtain ⟨outside, start, inner, rfl, houts, hstart, hinn⟩ := ih earlier hstate
        refine ⟨outside, start, inner ++ [line], by simp, houts, hstart, ?_⟩
        rw [hstate, step] at hcurr
        intro l hl hend
        rcases mem_append.mp hl with hl | hl
        · exact hinn l hl hend
        · obtain rfl := mem_singleton.mp hl
          rw [if_neg (not_mid_of_end hend), if_pos hend] at hcurr
          cases hcurr

lemma foldl_of_settled (h : Settled before) : before.foldl step none = none := by
  cases hstate : before.foldl step none with
  | none => rfl
  | some current =>
    obtain ⟨outside, start, inner, hspl, -, hstart, hinn⟩ := foldl_step_none.2 _ hstate
    obtain ⟨line, hline, hend⟩ := h _ _ _ hspl hstart
    exact absurd hend (hinn line hline)

lemma mem_parseFrom_none :
    hunk ∈ parseFrom none ls ↔ ∃ inner, Stretch ls inner ∧ hunk = sidesOf inner := by
  rw [mem_parseFrom]
  constructor
  · rintro ⟨before, close, after, current, rfl, hclose, hbef, rfl⟩
    obtain ⟨outside, start, inner, rfl, houts, hstart, hinn⟩ :=
      foldl_step_none.2 _ hbef
    refine ⟨inner, ⟨outside, start, close, after, by simp, foldl_step_none.1 houts, hstart,
      hclose, hinn⟩, ?_⟩
    obtain ⟨opened, hfold, hsid⟩ := foldl_step hinn ⟨⟨[], []⟩, false⟩
    rw [foldl_append, foldl_cons, houts, step, if_pos hstart, hfold] at hbef
    cases hbef
    exact hsid
  · rintro ⟨inner, ⟨before, start, close, after, rfl, hbef, hstart, hclose, hinn⟩, rfl⟩
    obtain ⟨opened, hfold, hsid⟩ := foldl_step hinn ⟨⟨[], []⟩, false⟩
    refine ⟨before ++ start :: inner, close, after, opened, by simp, hclose, ?_, hsid.symm⟩
    rw [foldl_append, foldl_cons, foldl_of_settled hbef, step, if_pos hstart, hfold]

lemma parse_body (file : ConflictedFile) :
    parseConflictHunks file.body = parseFrom none file.lines := by
  by_cases hempty : file.lines = []
  · rw [ConflictedFile.body, hempty]
    rfl
  · have hwhole : ∀ line ∈ file.lines, '\n' ∉ line := by
      intro line hline
      obtain ⟨block, hblock, hmem⟩ := mem_flatMap.mp hline
      exact file.whole block hblock line hmem
    rw [parseConflictHunks, ConflictedFile.body, lines_joined hwhole hempty]

lemma parseFrom_side {rest : List Text} (h : ∀ line ∈ inner, ¬ IsMarker line) (current : OpenHunk) :
    parseFrom (some current) (inner ++ rest) =
      parseFrom (some (inner.foldl OpenHunk.push current)) rest := by
  induction inner generalizing current with
  | nil => rfl
  | cons line inner ih =>
    have hline := h line mem_cons_self
    rw [IsMarker, not_or, not_or] at hline
    rw [cons_append, parseFrom, if_neg hline.2.1, if_neg hline.2.2, foldl_cons]
    exact ih (fun l hl => h l (mem_cons_of_mem _ hl)) _

lemma foldl_push (inner : List Text) (current : OpenHunk) :
    inner.foldl OpenHunk.push current = if current.sawMid then
      { current with theirs := current.theirs ++ inner }
      else { current with ours := current.ours ++ inner } := by
  induction inner generalizing current with
  | nil => simp
  | cons line inner ih =>
    rw [foldl_cons, ih]
    cases hsaw : current.sawMid <;> simp [OpenHunk.push, hsaw]

lemma parseFrom_blocks {blocks : List Block}
    (h : ∀ block ∈ blocks, ∀ line ∈ block.content, ¬ IsMarker line) :
    parseFrom none (blocks.flatMap Block.lines) = blocks.filterMap Block.pair? := by
  induction blocks with
  | nil => rfl
  | cons block blocks ih =>
    have hrest := ih fun b hb => h b (mem_cons_of_mem _ hb)
    have hcont := h block mem_cons_self
    rw [flatMap_cons]
    cases block with
    | common line =>
      have hline := hcont line (mem_singleton_self line)
      rw [Block.lines, singleton_append, parseFrom, if_neg fun hstart => hline (.inl hstart), hrest]
      rfl
    | conflict ourName theirName pair =>
      rw [Block.content, forall_mem_append] at hcont
      rw [Block.lines, cons_append, append_assoc, cons_append, append_assoc, singleton_append,
        parseFrom, if_pos (prefix_append ..), parseFrom_side hcont.1, foldl_push, parseFrom,
        if_pos prefix_rfl, parseFrom_side hcont.2, foldl_push, parseFrom,
        if_neg (not_mid_of_end (prefix_append ..)), if_pos (prefix_append ..), hrest]
      rfl

/-- A file is judged well where it may be called mechanical, or the stretches between the
markers tell that it may not. -/
theorem wellJudged_iff (file : ConflictedFile) : WellJudged file ↔ Told file := by
  have hfound : (∀ block ∈ file.blocks, ∀ line ∈ block.content, ¬ IsMarker line) →
      parseConflictHunks file.body = file.pairs := by
    intro hclean
    rw [parse_body]
    exact parseFrom_blocks hclean
  have hsome : parseFrom none file.lines ≠ [] ↔ ∃ inner, Stretch file.lines inner := by
    constructor
    · intro hne
      obtain ⟨hunk, hmem⟩ := exists_mem_of_ne_nil _ hne
      obtain ⟨inner, hinn, -⟩ := mem_parseFrom_none.mp hmem
      exact ⟨inner, hinn⟩
    · rintro ⟨inner, hinn⟩
      exact ne_nil_of_mem (mem_parseFrom_none.mpr ⟨inner, hinn, rfl⟩)
  have hagree : (∀ hunk ∈ parseFrom none file.lines, hunk.Agrees) ↔
      ∀ inner, Stretch file.lines inner → (sidesOf inner).Agrees := by
    simp only [mem_parseFrom_none]
    exact ⟨fun h inner hinn => h _ ⟨inner, hinn, rfl⟩,
      fun h hunk ⟨inner, hinn, heq⟩ => heq ▸ h inner hinn⟩
  rw [WellJudged, and_iff_left hfound, mechanical_iff, parse_body, hsome, hagree, Told]
  constructor
  · intro h
    by_contra hnot
    push Not at hnot
    obtain ⟨hdiff, hstr, hall⟩ := hnot
    obtain ⟨pair, hpair, hne⟩ := hdiff (h ⟨hstr, hall⟩).1
    exact hne ((h ⟨hstr, hall⟩).2 pair hpair)
  · rintro (h | hnone | ⟨inner, hinn, hne⟩) ⟨⟨stretch, hstr⟩, hall⟩
    · exact h
    · exact absurd hstr (hnone stretch)
    · exact absurd (hall inner hinn) hne

/-- A line of ours that begins like an end marker ends the hunk before it has begun. -/
theorem end_marker_in_ours : ¬ ∀ file : ConflictedFile, WellJudged file := by
  intro h
  have hjudg := h ⟨[.conflict "a".toList "b".toList ⟨[">>>>>>> x".toList], ["y".toList]⟩],
    by decide⟩
  have hpairs := (hjudg.1 (by decide +kernel)).2 _ mem_cons_self
  revert hpairs
  decide

end Redskilled.Landing.ConflictHunks
