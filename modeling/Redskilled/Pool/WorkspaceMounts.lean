import Redskilled.Foundation.Lines
import Redskilled.Foundation.Passages
import Mathlib.Data.List.Infix

/-!
# The filesystem a workspace lies on

`mountedFilesystemType` and `refuseWorkspaceTarget` of `packages/shared/worker-workspace.ts`.
The text of `/proc/mounts` is read line by line, and of the mount points that hold the path the
longest is taken, of several rows for it the first.

What a path really lies on is the mount that was made last among those that hold it: it hides
what was mounted there before, and what lies below.
-/
namespace Redskilled.Pool.WorkspaceMounts
open Foundation Foundation.Text List

def memoryBackedFilesystems : List Text :=
  ["tmpfs".toList, "ramfs".toList, "devtmpfs".toList, "rootfs".toList, "ramdisk".toList]

def isMemoryBackedFilesystem (toLowerCase : Text → Text) (fsType : Option Text) : Bool :=
  memoryBackedFilesystems.contains (toLowerCase (trim (fsType.getD [])))

inductive WorkspaceRefusalReason where
  | memoryBackedFilesystem | automaticCleanup

structure WorkspaceTargetFacts where
  path : Text
  filesystemType : Option Text
  autoCleaned : Bool

structure WorkspaceRefusal where
  reason : WorkspaceRefusalReason
  lane : Text
  path : Text
  message : Text

def refuseWorkspaceTarget (toLowerCase : Text → Text) (lane : Text)
    (facts : WorkspaceTargetFacts) : Option WorkspaceRefusal :=
  let refusing := "workspace lane ".toList ++ lane ++ ": refusing ".toList ++ facts.path
  if isMemoryBackedFilesystem toLowerCase facts.filesystemType then
    some
      { reason := .memoryBackedFilesystem
        lane, path := facts.path
        message := refusing ++ " — it is on a memory-backed filesystem (".toList ++
          facts.filesystemType.getD [] ++ ("). A worktree and its installed dependencies would " ++
          "be held in RAM, spending the very memory budget the daemon exists to protect.").toList }
  else if facts.autoCleaned then
    some
      { reason := .automaticCleanup
        lane, path := facts.path
        message := refusing ++ (" — it is subject to automatic cleanup, which would delete a " ++
          "live Worker's worktree.").toList }
  else none

/-- The length of a string. -/
def units (t : Text) : ℕ := (t.flatMap utf16).length

/-- Trailing separators are dropped. -/
def normalizePath (value : Text) : Text :=
  if 1 < units (trim value) then (trim value).rdropWhile (· = '/') else trim value

def isWithin (path ancestor : Text) : Bool :=
  path = ancestor || (if ancestor = ['/'] then ['/'] else ancestor ++ ['/']).isPrefixOf path

def octalDigit (c : Char) : Option ℕ :=
  if '0' ≤ c ∧ c ≤ '7' then some (c.toNat - 48) else none

def unescapeMountField : Text → Text
  | [] => []
  | '\\' :: a :: b :: c :: rest =>
    match octalDigit a, octalDigit b, octalDigit c with
    | some x, some y, some z => Char.ofNat (x * 64 + y * 8 + z) :: unescapeMountField rest
    | _, _, _ => '\\' :: unescapeMountField (a :: b :: c :: rest)
  | c :: rest => c :: unescapeMountField rest

def readRow (target : Text) (best : Option (Text × Text)) (line : Text) : Option (Text × Text) :=
  match splitWhitespace (trim line) with
  | _ :: field :: type :: _ =>
    let point := normalizePath (unescapeMountField field)
    if point = [] ∨ isWithin target point = false then best
    else if best.all fun found => units found.1 < units point then some (point, type) else best
  | _ => best

def mountedFilesystemType (procMountsText path : Text) : Option Text :=
  ((lines procMountsText).foldl (readRow (normalizePath path)) none).map Prod.snd

def isUnderAutomaticCleanup (path : Text) (sweptPaths : List Text) : Bool :=
  sweptPaths.any (isWithin (normalizePath path))

abbrev Names (names : List Text) : Prop := ∀ name ∈ names, name ≠ [] ∧ '/' ∉ name

structure Mount where
  device : Text
  /-- The names on the way to the mount point. -/
  point : List Text
  type : Text
  options : Text
  names : Names point

def pathText (names : List Text) : Text :=
  if names = [] then ['/'] else names.flatMap ('/' :: ·)

def isEscaped (c : Char) : Bool := c = ' ' || c = '\t' || c = '\n' || c = '\\'

def escapeField (t : Text) : Text :=
  t.flatMap fun c =>
    if isEscaped c then
      ['\\', Nat.digitChar (c.toNat / 64), Nat.digitChar (c.toNat / 8 % 8), Nat.digitChar (c.toNat % 8)]
    else [c]

def Mount.line (mount : Mount) : Text :=
  List.intercalate [' '] [escapeField mount.device, escapeField (pathText mount.point),
    escapeField mount.type, escapeField mount.options, ['0'], ['0']]

def procMounts (mounts : List Mount) : Text := mounts.flatMap (·.line ++ ['\n'])

/-- An absolute path: each name behind one separator or more, and separators at the end. -/
structure AbsolutePath where
  pieces : List (ℕ × Text)
  slashes : ℕ
  names : Names (pieces.map Prod.snd)
  absolute : pieces ≠ [] ∨ 0 < slashes

def AbsolutePath.text (path : AbsolutePath) : Text :=
  path.pieces.flatMap (fun piece => List.replicate (piece.1 + 1) '/' ++ piece.2) ++
    List.replicate path.slashes '/'

def Mount.holds (names : List Text) (mount : Mount) : Bool := mount.point.isPrefixOf names

/-- The mount that a path lies on was made last. -/
def mountOf (mounts : List Mount) (names : List Text) : Option Mount :=
  mounts.reverse.find? (·.holds names)

structure Mount.Plain (mount : Mount) : Prop where
  fields : ∀ t ∈ [mount.device, pathText mount.point, mount.type, mount.options],
    t ≠ [] ∧ ∀ c ∈ t, isWhitespace c = true → isEscaped c = true
  type : ∀ c ∈ mount.type, isEscaped c = false
  point : trim (pathText mount.point) = pathText mount.point

/-- Separators are doubled at the end only, and the root is one separator. -/
structure AbsolutePath.Plain (path : AbsolutePath) : Prop where
  single : ∀ piece ∈ path.pieces, piece.1 = 0
  root : path.pieces = [] → path.slashes = 1
  trim : Text.trim path.text = path.text

structure Deepest (names : List Text) (before : List Mount) (mount : Mount)
    (after : List Mount) : Prop where
  holds : mount.holds names = true
  before : ∀ m ∈ before, m.holds names = true → m.point.length < mount.point.length
  after : ∀ m ∈ after, m.holds names = true → m.point.length ≤ mount.point.length

/-- A mount that hides the first of the deepest mounts has its type. -/
def Unhidden (mounts : List Mount) (names : List Text) : Prop :=
  ∀ before mount after, mounts = before ++ mount :: after → Deepest names before mount after →
    ∀ top, mountOf after names = some top → top.type = mount.type

def Judges (toLowerCase : Text → Text) (lane : Text) (mounts : List Mount) (path : AbsolutePath)
    (sweptPaths : List Text) : Prop :=
  let type := (mountOf mounts (path.pieces.map Prod.snd)).map (·.type)
  let found := mountedFilesystemType (procMounts mounts) path.text
  let swept := isUnderAutomaticCleanup path.text sweptPaths
  found = type ∧ ((refuseWorkspaceTarget toLowerCase lane ⟨path.text, found, swept⟩).isSome = true ↔
    isMemoryBackedFilesystem toLowerCase type = true ∨ swept = true)

section
variable {names names' more : List Text} {t : Text}

lemma pathText_eq (names : List Text) : pathText names ++ (if names = [] then [] else ['/']) =
    '/' :: names.flatMap (· ++ ['/']) := by
  have hflat : ∀ names : List Text,
      names.flatMap ('/' :: ·) ++ ['/'] = '/' :: names.flatMap (· ++ ['/']) := by
    intro names
    induction names with
    | nil => rfl
    | cons name names ih => simp [ih]
  unfold pathText
  split_ifs with h
  · simp [h]
  · exact hflat names

lemma prefix_iff (h : Names names) (h' : Names names') :
    names.flatMap (· ++ ['/']) <+: names'.flatMap (· ++ ['/']) ↔ names <+: names' := by
  constructor
  · rintro ⟨rest, hrest⟩
    have hfront : completeLines '/' (names.flatMap (· ++ ['/'])) = names :=
      completeLines_unlines fun name hname => (h name hname).2
    have hwhole : completeLines '/' (names'.flatMap (· ++ ['/'])) = names' :=
      completeLines_unlines fun name hname => (h' name hname).2
    have hbound : AtBoundary '/' (names.flatMap (· ++ ['/'])) := atBoundary_unlines names
    rw [← hrest, completeLines_append hbound, hfront] at hwhole
    exact ⟨_, hwhole⟩
  · rintro ⟨more, rfl⟩
    simp

lemma pathText_eq_root (h : Names names) : pathText names = ['/'] ↔ names = [] := by
  cases names with
  | nil => simp [pathText]
  | cons name names =>
    have hname := (h name mem_cons_self).1
    simp [pathText, hname]

lemma isWithin_iff (h : Names names) (h' : Names names') :
    isWithin (pathText names') (pathText names) = true ↔ names <+: names' := by
  have hslash : (if pathText names = ['/'] then ['/'] else pathText names ++ ['/']) =
      '/' :: names.flatMap (· ++ ['/']) := by
    rw [← pathText_eq]
    simp only [pathText_eq_root h]
    split_ifs with hroot <;> simp [hroot, pathText]
  have hwhole := pathText_eq names'
  rw [← prefix_iff h h', ← prefix_cons_inj '/', ← hwhole, isWithin, hslash, Bool.or_eq_true,
    decide_eq_true_eq, isPrefixOf_iff_prefix]
  split_ifs with hroot
  · rw [append_nil]
    refine ⟨fun hor => hor.elim (fun heq => ?_) id, .inr⟩
    subst hroot
    rw [(pathText_eq_root h).mp heq.symm]
    exact prefix_rfl
  · rw [prefix_concat_iff, ← pathText_eq]
    refine or_congr ⟨fun heq => ?_, fun heq => ?_⟩ Iff.rfl
    · rw [heq, if_neg fun hnil => hroot ((pathText_eq_root h').mp (heq ▸ (pathText_eq_root h).mpr hnil))]
    · split_ifs at heq with hnil
      · subst hnil
        have hempty : pathText names' = [] := Eq.symm (append_cancel_right heq)
        obtain ⟨name, hname⟩ := exists_mem_of_ne_nil _ hroot
        simp [pathText, hroot] at hempty
        exact absurd hname (hempty name)
      · exact (append_cancel_right heq).symm

lemma units_append (s t : Text) : units (s ++ t) = units s + units t := by
  simp [units]

lemma units_pos (h : t ≠ []) : 0 < units t := by
  cases t with
  | nil => exact absurd rfl h
  | cons c t =>
    simp only [units, flatMap_cons, length_append, utf16]
    split_ifs <;> exact Nat.add_pos_left (Nat.succ_pos _) _

lemma units_pathText_lt (h : Names (names ++ more)) (hmore : more ≠ []) :
    units (pathText names) < units (pathText (names ++ more)) := by
  have hshort := congrArg units (pathText_eq names)
  have hlong := congrArg units (pathText_eq (names ++ more))
  obtain ⟨name, more, rfl⟩ := exists_cons_of_ne_nil hmore
  have hname := units_pos (h name (by simp)).1
  have hslash : units ['/'] = 1 := rfl
  have hempty : units [] = 0 := rfl
  have hcons : ∀ t : Text, units ('/' :: t) = 1 + units t := fun t => units_append ['/'] t
  rw [if_neg (by simp)] at hlong
  simp only [units_append, hcons, flatMap_append, flatMap_cons] at hshort hlong
  split_ifs at hshort <;> omega

lemma units_lt_iff (h : Names names') (hnam : names <+: names') (hmore : more <+: names') :
    units (pathText names) < units (pathText more) ↔ names.length < more.length := by
  have hlt : ∀ {p q : List Text}, p <+: names' → q <+: names' → p.length < q.length →
      units (pathText p) < units (pathText q) := by
    intro p q hp hq hlength
    obtain ⟨rest, rfl⟩ := prefix_of_prefix_length_le hp hq hlength.le
    have hrest : rest ≠ [] := by
      rintro rfl
      simp at hlength
    exact units_pathText_lt (fun name hname => h name (hq.subset hname)) hrest
  constructor
  · intro hunits
    by_contra hge
    rcases Nat.lt_or_ge more.length names.length with hless | hle
    · exact absurd (hlt hmore hnam hless) (by omega)
    · have hsame := (prefix_of_prefix_length_le hnam hmore hle).eq_of_length (by omega)
      rw [hsame] at hunits
      exact absurd hunits (Nat.lt_irrefl _)
  · exact hlt hnam hmore

lemma rdropWhile_replicate (t : Text) (n : ℕ) :
    (t ++ List.replicate n '/').rdropWhile (· = '/') = t.rdropWhile (· = '/') := by
  induction n with
  | zero => simp
  | succ n ih => rw [replicate_succ', ← append_assoc, rdropWhile_concat_pos _ _ _ rfl, ih]

lemma normalizePath_pathText (h : Names names) {n : ℕ} (hroot : names = [] → n = 0)
    (htrim : trim (pathText names ++ List.replicate n '/') = pathText names ++ List.replicate n '/') :
    normalizePath (pathText names ++ List.replicate n '/') = pathText names := by
  rw [normalizePath, htrim]
  induction names using reverseRecOn with
  | nil =>
    rw [hroot rfl]
    rfl
  | append_singleton names name _ =>
    have hlast := h name (by simp)
    have hlong : units (pathText []) < units (pathText ([] ++ (names ++ [name]))) :=
      units_pathText_lt h (by simp)
    obtain ⟨front, c, hname⟩ := (eq_nil_or_concat name).resolve_left hlast.1
    rw [concat_eq_append] at hname
    have hc : c ≠ '/' := by
      rintro rfl
      exact hlast.2 (by simp [hname])
    have hspell : pathText (names ++ [name]) = (names.flatMap ('/' :: ·) ++ '/' :: front) ++ [c] := by
      simp [pathText, hname]
    have hunits : 1 < units (pathText (names ++ [name]) ++ replicate n '/') := by
      rw [units_append]
      exact Nat.lt_add_right _ hlong
    rw [if_pos hunits, rdropWhile_replicate, hspell, rdropWhile_concat_neg _ _ _ (by simpa using hc)]

lemma AbsolutePath.Plain.text {path : AbsolutePath} (h : path.Plain) :
    ∃ n, (path.pieces.map Prod.snd = [] → n = 0) ∧
      path.text = pathText (path.pieces.map Prod.snd) ++ List.replicate n '/' := by
  have hpiec : path.pieces.flatMap (fun piece => replicate (piece.1 + 1) '/' ++ piece.2) =
      (path.pieces.map Prod.snd).flatMap ('/' :: ·) := by
    rw [flatMap_map]
    apply flatMap_congr
    intro piece hpiece
    rw [h.single piece hpiece]
    rfl
  by_cases hnil : path.pieces = []
  · exact ⟨0, fun _ => rfl, by simp [AbsolutePath.text, hnil, h.root hnil, pathText]⟩
  · exact ⟨path.slashes, by simp [hnil], by simp [AbsolutePath.text, hpiec, pathText, hnil]⟩

end

section
variable {mount : Mount} {mounts : List Mount} {names : List Text} {t : Text} {c : Char}

lemma octalDigit_digitChar {n : ℕ} (h : n < 8) : octalDigit (Nat.digitChar n) = some n := by
  revert n
  decide

lemma unescapeMountField_escapeField (t : Text) : unescapeMountField (escapeField t) = t := by
  induction t with
  | nil => rfl
  | cons c t ih =>
    rw [escapeField, flatMap_cons, ← escapeField]
    split_ifs with hc
    · have hsmall : c.toNat < 128 := by
        simp only [isEscaped, Bool.or_eq_true, decide_eq_true_eq] at hc
        rcases hc with ((rfl | rfl) | rfl) | rfl <;> decide
      have hcode : c.toNat / 64 * 64 + c.toNat / 8 % 8 * 8 + c.toNat % 8 = c.toNat := by omega
      simp only [cons_append, nil_append, unescapeMountField,
        octalDigit_digitChar (show c.toNat / 64 < 8 by omega),
        octalDigit_digitChar (Nat.mod_lt _ (show 0 < 8 by decide)), hcode, Char.ofNat_toNat, ih]
    · have hplain : c ≠ '\\' := by
        rintro rfl
        exact hc rfl
      rw [singleton_append, unescapeMountField.eq_def]
      simp [hplain, ih]

lemma escapeField_free (h : t ≠ [] ∧ ∀ c ∈ t, isWhitespace c = true → isEscaped c = true) :
    WhitespaceFree (escapeField t) ∧ escapeField t ≠ [] := by
  have hdig : ∀ n < 8, isWhitespace (Nat.digitChar n) = false := by decide
  constructor
  · intro d hd
    obtain ⟨c, hc, hd⟩ := mem_flatMap.mp hd
    split_ifs at hd with hesc
    · have hsmall : c.toNat < 128 := by
        simp only [isEscaped, Bool.or_eq_true, decide_eq_true_eq] at hesc
        rcases hesc with ((rfl | rfl) | rfl) | rfl <;> decide
      simp only [mem_cons, not_mem_nil, or_false] at hd
      rcases hd with rfl | rfl | rfl | rfl
      · decide
      · exact hdig _ (by omega)
      · exact hdig _ (by omega)
      · exact hdig _ (by omega)
    · rw [mem_singleton.mp hd]
      exact Bool.eq_false_iff.mpr fun hspace => hesc (h.2 c hc hspace)
  · obtain ⟨c, t, rfl⟩ := exists_cons_of_ne_nil h.1
    rw [escapeField, flatMap_cons]
    split_ifs <;> simp

lemma Mount.Plain.words (h : mount.Plain) : ∀ word ∈ [escapeField mount.device,
    escapeField (pathText mount.point), escapeField mount.type, escapeField mount.options, ['0'],
    ['0']], WhitespaceFree word ∧ word ≠ [] := by
  have hzero : WhitespaceFree ['0'] ∧ ['0'] ≠ [] := by decide
  have hfields := h.fields
  simp only [mem_cons, not_mem_nil, or_false, forall_eq_or_imp, forall_eq] at hfields ⊢
  exact ⟨escapeField_free hfields.1, escapeField_free hfields.2.1,
    escapeField_free hfields.2.2.1, escapeField_free hfields.2.2.2, hzero, hzero⟩

lemma readRow_line (h : mount.Plain) (hnam : Names names) (best : Option (Text × Text)) :
    readRow (pathText names) best mount.line = if mount.holds names = true ∧
        best.all (fun found => units found.1 < units (pathText mount.point)) = true
      then some (pathText mount.point, mount.type) else best := by
  have hwords := h.words
  have htype : escapeField mount.type = mount.type := by
    have hsingle : mount.type.flatMap (fun c => [c]) = mount.type := by simp
    refine (flatMap_congr fun c hc => ?_).trans hsingle
    rw [if_neg (by simp [h.type c hc])]
  have htrim : trim mount.line = mount.line := by
    obtain ⟨hfree, hne⟩ := hwords _ mem_cons_self
    obtain ⟨c, word, hword⟩ := exists_cons_of_ne_nil hne
    have hc : isWhitespace c = false := hfree c (by simp [hword])
    have hline : mount.line = (c :: (word ++ ' ' :: (escapeField (pathText mount.point) ++ ' ' ::
        (escapeField mount.type ++ ' ' :: (escapeField mount.options ++ [' ', '0', ' ']))))) ++
        ['0'] := by
      simp [Mount.line, intercalate, hword]
    rw [trim, hline, cons_append, dropWhile_cons_of_neg (by simp [hc]),
      ← cons_append, rdropWhile_concat_neg _ _ _ (by decide)]
  have hpoint : normalizePath (unescapeMountField (escapeField (pathText mount.point))) =
      pathText mount.point := by
    have hspell := normalizePath_pathText mount.names (fun _ => rfl) (by simpa using h.point)
    rw [unescapeMountField_escapeField]
    simpa using hspell
  have hne : pathText mount.point ≠ [] := (h.fields _ (by simp)).1
  have hwith : isWithin (pathText names) (pathText mount.point) = mount.holds names := by
    rw [Bool.eq_iff_iff, isWithin_iff mount.names hnam, Mount.holds, isPrefixOf_iff_prefix]
  rw [readRow, htrim, Mount.line, splitWhitespace_intercalate (by simp) hwords]
  simp only [hpoint, hne, hwith, htype, false_or]
  cases mount.holds names <;> simp

lemma lines_procMounts (h : ∀ mount ∈ mounts, mount.Plain) :
    lines (procMounts mounts) = mounts.map Mount.line ++ [[]] := by
  have hplain : ∀ line ∈ mounts.map Mount.line, '\n' ∉ line := by
    intro line hline
    obtain ⟨mount, hmount, rfl⟩ := mem_map.mp hline
    have hwords := (h mount hmount).words
    have hfree : ∀ word, WhitespaceFree word ∧ word ≠ [] → '\n' ∉ word := fun word hword hmem =>
      absurd (hword.1 '\n' hmem) (by decide)
    simp only [mem_cons, not_mem_nil, or_false, forall_eq_or_imp, forall_eq] at hwords
    simp [Mount.line, intercalate, hfree _ hwords.1, hfree _ hwords.2.1,
      hfree _ hwords.2.2.1, hfree _ hwords.2.2.2.1]
  have hlin := lines_unlines hplain []
  simpa [flatMap_map, procMounts, lines] using hlin

lemma fold_rows (h : ∀ mount ∈ mounts, mount.Plain) (hnam : Names names) :
    ((∀ mount ∈ mounts, mount.holds names = false) ∧
      (mounts.map Mount.line).foldl (readRow (pathText names)) none = none) ∨
    ∃ before mount after, mounts = before ++ mount :: after ∧ Deepest names before mount after ∧
      (mounts.map Mount.line).foldl (readRow (pathText names)) none =
        some (pathText mount.point, mount.type) := by
  induction mounts using reverseRecOn with
  | nil => exact .inl ⟨by simp, rfl⟩
  | append_singleton mounts last ih =>
    have hlast := readRow_line (h last (by simp)) hnam
    rw [map_append, foldl_append]
    simp only [map_cons, map_nil, foldl_cons, foldl_nil]
    rcases ih fun mount hmount => h mount (mem_append_left _ hmount) with
      ⟨hnone, hfold⟩ | ⟨before, mount, after, rfl, hdeep, hfold⟩
    · rw [hfold, hlast]
      split_ifs with hholds
      · right
        refine ⟨mounts, last, [], rfl, ⟨hholds.1, ?_, by simp⟩, rfl⟩
        intro m hm hmholds
        rw [hnone m hm] at hmholds
        cases hmholds
      · left
        simp only [Option.all_none, and_true, Bool.not_eq_true] at hholds
        simpa [or_imp, forall_and, hholds] using hnone
    · right
      have hfits : ∀ m : Mount, m.holds names = true → m.point <+: names := fun m hm =>
        isPrefixOf_iff_prefix.mp hm
      rw [hfold, hlast]
      simp only [Option.all_some, decide_eq_true_eq]
      split_ifs with hholds
      · obtain ⟨hholds, hunits⟩ := hholds
        have hlonger := (units_lt_iff hnam (hfits _ hdeep.holds) (hfits _ hholds)).mp hunits
        refine ⟨before ++ mount :: after, last, [], rfl, ⟨hholds, ?_, by simp⟩, rfl⟩
        intro m hm hmholds
        rcases mem_append.mp hm with hm | hm
        · exact (hdeep.before m hm hmholds).trans hlonger
        · rcases mem_cons.mp hm with rfl | hm
          · exact hlonger
          · exact (hdeep.after m hm hmholds).trans_lt hlonger
      · refine ⟨before, mount, after ++ [last], by simp, ⟨hdeep.holds, hdeep.before, ?_⟩, rfl⟩
        intro m hm hmholds
        rcases mem_append.mp hm with hm | hm
        · exact hdeep.after m hm hmholds
        · rw [mem_singleton.mp hm] at hmholds ⊢
          by_contra hlonger
          exact hholds ⟨hmholds,
            (units_lt_iff hnam (hfits _ hdeep.holds) (hfits _ hmholds)).mpr (by omega)⟩

lemma Deepest.unique {before before' after after' : List Mount} {mount' : Mount}
    (h : Deepest names before mount after) (h' : Deepest names before' mount' after')
    (hspl : before ++ mount :: after = before' ++ mount' :: after') :
    mount = mount' ∧ after = after' := by
  have hless : ∀ {b b' a a' x : List Mount} {m m' : Mount}, Deepest names b m a →
      Deepest names b' m' a' → b' = b ++ m :: x → a = x ++ m' :: a' → False := by
    intro b b' a a' x m m' hm hm' hb ha
    have hlt := hm'.before m (by simp [hb]) hm.holds
    have hle := hm.after m' (by simp [ha]) hm'.holds
    omega
  rcases append_eq_append_iff.mp hspl with ⟨x, hb, ha⟩ | ⟨x, hb, ha⟩
  · cases x with
    | nil => simpa using ha
    | cons m x =>
      rw [cons_append, cons.injEq] at ha
      exact (hless h h' (ha.1 ▸ hb) ha.2).elim
  · cases x with
    | nil =>
      rw [nil_append, cons.injEq] at ha
      exact ⟨ha.1.symm, ha.2.symm⟩
    | cons m x =>
      rw [cons_append, cons.injEq] at ha
      exact (hless h' h (ha.1 ▸ hb) ha.2).elim

lemma isSome_refuseWorkspaceTarget (toLowerCase : Text → Text) (lane : Text)
    (facts : WorkspaceTargetFacts) :
    (refuseWorkspaceTarget toLowerCase lane facts).isSome = true ↔
      isMemoryBackedFilesystem toLowerCase facts.filesystemType = true ∨
        facts.autoCleaned = true := by
  unfold refuseWorkspaceTarget
  split_ifs with hmemory hswept <;> simp [*]

end

/-- In a table without white space of other kinds, the type of the mount is found exactly where
the first of the deepest mounts is not hidden by a mount of another type. -/
theorem judges_iff (toLowerCase : Text → Text) (lane : Text) (mounts : List Mount)
    (path : AbsolutePath) (sweptPaths : List Text) (hmounts : ∀ mount ∈ mounts, mount.Plain)
    (hpath : path.Plain) :
    Judges toLowerCase lane mounts path sweptPaths ↔
      Unhidden mounts (path.pieces.map Prod.snd) := by
  obtain ⟨n, hroot, htext⟩ := hpath.text
  have hnorm : normalizePath path.text = pathText (path.pieces.map Prod.snd) := by
    rw [htext]
    exact normalizePath_pathText path.names hroot (htext ▸ hpath.trim)
  have hfound : mountedFilesystemType (procMounts mounts) path.text =
      ((mounts.map Mount.line).foldl (readRow (pathText (path.pieces.map Prod.snd))) none).map
        Prod.snd := by
    rw [mountedFilesystemType, hnorm, lines_procMounts hmounts, foldl_append]
    rfl
  have hjudg : Judges toLowerCase lane mounts path sweptPaths ↔
      mountedFilesystemType (procMounts mounts) path.text =
        (mountOf mounts (path.pieces.map Prod.snd)).map (·.type) := by
    refine and_iff_left_of_imp fun heq => ?_
    rw [← heq]
    exact isSome_refuseWorkspaceTarget _ _ _
  rw [hjudg, hfound]
  rcases fold_rows hmounts path.names with ⟨hnone, hfold⟩ | ⟨before, mount, after, rfl, hdeep, hfold⟩
  · have hmount : mountOf mounts (path.pieces.map Prod.snd) = none :=
      find?_eq_none.mpr fun mount hmem => by simp [hnone mount (mem_reverse.mp hmem)]
    rw [hfold, hmount]
    refine iff_of_true rfl ?_
    rintro before mount after rfl hdeep
    exact absurd (hnone mount (by simp)) (by simp [hdeep.holds])
  · have hmount : mountOf (before ++ mount :: after) (path.pieces.map Prod.snd) =
        (mountOf after (path.pieces.map Prod.snd)).or (some mount) := by
      simp [mountOf, find?_append, hdeep.holds]
    rw [hfold, hmount]
    constructor
    · intro htype before' mount' after' hspl hdeep' top htop
      obtain ⟨rfl, rfl⟩ := hdeep.unique hdeep' hspl
      rw [htop] at htype
      exact (Option.some.inj htype).symm
    · intro h
      cases haft : mountOf after (path.pieces.map Prod.snd) with
      | none => rfl
      | some top => exact congrArg some (h before mount after rfl hdeep top haft).symm

def onTmp (type : Text) : Mount :=
  ⟨"none".toList, ["tmp".toList], type, "rw".toList, by decide⟩

def underTmp : AbsolutePath := ⟨[(0, "tmp".toList), (0, "w".toList)], 0, by decide, by decide⟩

/-- A disk at the root, and what is mounted at `/tmp` after it. -/
def table (types : List Text) : List Mount :=
  ⟨"none".toList, [], "ext4".toList, "rw".toList, by decide⟩ :: types.map onTmp

theorem judges_under_tmp :
    (Judges id [] (table ["tmpfs".toList]) underTmp [] ∧
      Unhidden (table ["tmpfs".toList]) ["tmp".toList, "w".toList]) ∧
    ¬ Judges id [] (table ["ext4".toList, "tmpfs".toList]) underTmp [] ∧
      ¬ Unhidden (table ["ext4".toList, "tmpfs".toList]) ["tmp".toList, "w".toList] := by
  have hmounts : ∀ mount ∈ table ["ext4".toList, "tmpfs".toList], mount.Plain := by
    intro mount hmem
    have hall : ∀ mount ∈ table ["ext4".toList, "tmpfs".toList],
        (∀ t ∈ [mount.device, pathText mount.point, mount.type, mount.options],
          t ≠ [] ∧ ∀ c ∈ t, isWhitespace c = true → isEscaped c = true) ∧
        (∀ c ∈ mount.type, isEscaped c = false) ∧
        trim (pathText mount.point) = pathText mount.point := by
      decide +kernel
    obtain ⟨hfields, htype, hpoint⟩ := hall mount hmem
    exact ⟨hfields, htype, hpoint⟩
  have hpath : underTmp.Plain := by
    constructor
    · decide
    · rintro ⟨⟩
    · decide +kernel
  have hiff : ∀ types ⊆ ["ext4".toList, "tmpfs".toList],
      Judges id [] (table types) underTmp [] ↔
        Unhidden (table types) ["tmp".toList, "w".toList] := by
    intro types hsub
    refine judges_iff id [] _ underTmp [] (fun mount hmem => hmounts mount ?_) hpath
    exact (List.cons_subset_cons _ (map_subset _ hsub)) hmem
  have hfound : Judges id [] (table ["tmpfs".toList]) underTmp [] := by
    refine ⟨?_, ?_⟩ <;> decide +kernel
  have hhidden : ¬ Judges id [] (table ["ext4".toList, "tmpfs".toList]) underTmp [] := by
    intro h
    have htype := h.1
    revert htype
    decide +kernel
  exact ⟨⟨hfound, (hiff _ (by simp)).mp hfound⟩, hhidden,
    fun h => hhidden ((hiff _ (Subset.refl _)).mpr h)⟩

/-- Memory mounted over a disk at the same point is taken for the disk. -/
theorem mounted_again_is_taken_for_disk : ¬ ∀ toLowerCase lane mounts path sweptPaths,
      Judges toLowerCase lane mounts path sweptPaths := by
  intro h
  have hfound := (h id [] [onTmp "ext4".toList, onTmp "tmpfs".toList] underTmp []).1
  revert hfound
  decide +kernel

end Redskilled.Pool.WorkspaceMounts
