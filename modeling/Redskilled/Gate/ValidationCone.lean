import Mathlib.Data.List.Sort
import Redskilled.Foundation.JsText
import Redskilled.Foundation.Worklist

/-!
# The validation cone

A change is validated in the packages its files lie in and in the packages that depend on
those, directly or not. Where it touches a file that configures the whole workspace, it is
validated at the root instead.
-/
namespace Redskilled.Gate
open Foundation List

def rootTriggerFiles : List Text :=
  ["pnpm-lock.yaml".toList, "pnpm-workspace.yaml".toList, "package.json".toList,
    "turbo.json".toList, "tsconfig.json".toList, "tsconfig.base.json".toList, ".npmrc".toList,
    ".nvmrc".toList]

structure WorkspacePackage where
  dir : Text
  dependsOn : List Text

structure WorkspaceGraph where
  packages : List WorkspacePackage

inductive ValidationScope where
  | cone (packages triggerPackages : List Text)
  | wholeWorkspace (triggerFile : Text)

def root : Text := ['.']

def stripDotSlash (file : Text) : Text :=
  if "./".toList <+: file then file.drop 2 else file

def isRootTrigger (file : Text) : Bool :=
  let clean := stripDotSlash file
  if ".github/".toList <+: clean then true
  else if '/' ∈ clean then false
  else rootTriggerFiles.contains clean

def beforeLastSlash : Text → Option Text
  | [] => none
  | c :: t =>
    match beforeLastSlash t with
    | some front => some (c :: front)
    | none => if c = '/' then some [] else none

def parentDir (path : Text) : Text := (beforeLastSlash path).getD root

/-- The directories no package is looked for in on the way up. -/
def isTop (dir : Text) : Bool := dir == [] || dir == root || dir == ['/']

def rootScope (hasPackage : Text → Bool) : Option Text :=
  if hasPackage root then some root else none

def walkUp (hasPackage : Text → Bool) : ℕ → Text → Option Text
  | 0, _ => rootScope hasPackage
  | n + 1, dir =>
    if isTop dir then rootScope hasPackage
    else if hasPackage dir then some dir
    else walkUp hasPackage n (parentDir dir)

def nearestPackageScope (hasPackage : Text → Bool) (file : Text) : Option Text :=
  if file = [] then none
  else
    let dir := parentDir (stripDotSlash file)
    walkUp hasPackage (dir.length + 1) dir

/-- `texts.sort()`. -/
def sortTexts (texts : List Text) : List Text :=
  texts.insertionSort fun a b => Text.utf16Lt b a = false

def namedScopes (hasPackage : Text → Bool) (changedFiles : List Text) : List Text :=
  (changedFiles.filterMap (nearestPackageScope hasPackage)).eraseDups

def relevantScopes (hasPackage : Text → Bool) (changedFiles : List Text) : List Text :=
  let seen := namedScopes hasPackage changedFiles
  sortTexts (if seen = [] && hasPackage root then [root] else seen)

def dependents (graph : WorkspaceGraph) (dir : Text) : List Text :=
  graph.packages.flatMap fun pkg => (pkg.dependsOn.filter (· = dir)).map fun _ => pkg.dir

def expandReverseDependencyCone (touchedDirs : List Text) (graph : WorkspaceGraph) : List Text :=
  sortTexts (Worklist.search (dependents graph) (touchedDirs.length + graph.packages.length)
    ⟨touchedDirs.eraseDups, touchedDirs⟩)

def computeValidationScope (changedFiles : List Text) (hasPackage : Text → Bool)
    (graph : WorkspaceGraph) : ValidationScope :=
  match changedFiles.find? isRootTrigger with
  | some file => .wholeWorkspace (stripDotSlash file)
  | none =>
    let triggerPackages := relevantScopes hasPackage changedFiles
    .cone (expandReverseDependencyCone triggerPackages graph) triggerPackages

def scopesForValidationScope : ValidationScope → List Text
  | .wholeWorkspace _ => [root]
  | .cone packages _ => packages

/-- `dir` is a directory on the path to the file. -/
def Above (dir path : Text) : Prop := dir ++ ['/'] <+: path

/-- `dir` is `path` or a directory over it. -/
def Within (dir path : Text) : Prop := dir = path ∨ Above dir path

/-- `p` is the deepest package among the directories `D`, the root where there is none. -/
def Deepest (hasPackage : Text → Bool) (D : Text → Prop) (p : Text) : Prop :=
  hasPackage p = true ∧ ((D p ∧ isTop p = false ∧
        ∀ q, D q → isTop q = false → hasPackage q = true → q.length ≤ p.length) ∨
      (p = root ∧ ∀ q, D q → isTop q = false → hasPackage q = false))

/-- The package a file lies in: the deepest directory over it that is one. -/
def Contains (hasPackage : Text → Bool) (p file : Text) : Prop :=
  file ≠ [] ∧ Deepest hasPackage (Above · (stripDotSlash file)) p

/-- A package that depends on another. -/
def DependsOn (graph : WorkspaceGraph) (p q : Text) : Prop :=
  ∃ pkg ∈ graph.packages, pkg.dir = p ∧ q ∈ pkg.dependsOn

/-- The packages that depend on `q`, directly or not, and `q` itself. -/
abbrev Reaches (graph : WorkspaceGraph) : Text → Text → Prop :=
  Relation.ReflTransGen (DependsOn graph)

/-- A package that holds a changed file or depends on one that does. -/
def Affected (hasPackage : Text → Bool) (graph : WorkspaceGraph) (files : List Text) (p : Text) :
    Prop :=
  ∃ file ∈ files, ∃ q, Contains hasPackage q file ∧ Reaches graph p q

variable {files : List Text} {front p q t : Text} {graph : WorkspaceGraph}
  {hasPackage : Text → Bool}

lemma beforeLastSlash_eq_none : beforeLastSlash t = none ↔ '/' ∉ t := by
  induction t with
  | nil => simp [beforeLastSlash]
  | cons c t ih =>
    cases hrest : beforeLastSlash t with
    | none =>
      have hfree := ih.mp hrest
      by_cases hc : c = '/'
      · simp [beforeLastSlash, hrest, hc]
      · have hne : '/' ≠ c := fun h => hc h.symm
        simp [beforeLastSlash, hrest, hc, hne, hfree]
    | some front =>
      have hmem : '/' ∈ t := by
        by_contra hfree
        rw [ih.mpr hfree] at hrest
        cases hrest
      simp [beforeLastSlash, hrest, hmem]

lemma beforeLastSlash_eq_some (h : beforeLastSlash t = some front) :
    ∃ name, t = front ++ '/' :: name ∧ '/' ∉ name := by
  induction t generalizing front with
  | nil => cases h
  | cons c t ih =>
    cases hrest : beforeLastSlash t with
    | none =>
      simp only [beforeLastSlash, hrest] at h
      by_cases hc : c = '/'
      · rw [if_pos hc] at h
        cases h
        exact ⟨t, by rw [hc]; rfl, beforeLastSlash_eq_none.mp hrest⟩
      · rw [if_neg hc] at h
        cases h
    | some rest =>
      simp only [beforeLastSlash, hrest, Option.some.injEq] at h
      obtain ⟨name, hcut, hfree⟩ := ih hrest
      exact ⟨name, by rw [← h, hcut]; rfl, hfree⟩

lemma not_above_of_free (h : '/' ∉ t) : ¬ Above p t := by
  intro habove
  exact h (habove.subset (by simp))

lemma above_iff_within (h : beforeLastSlash t = some front) : Above p t ↔ Within p front := by
  obtain ⟨name, rfl, hfree⟩ := beforeLastSlash_eq_some h
  constructor
  · rintro ⟨rest, hrest⟩
    rw [append_assoc, append_eq_append_iff] at hrest
    rcases hrest with ⟨mid, hfront, hmid⟩ | ⟨mid, hp, hmid⟩
    · cases mid with
      | nil => exact .inl (by simpa using hfront.symm)
      | cons c mid =>
        obtain ⟨rfl, -⟩ := cons.inj hmid
        exact .inr ⟨mid, by simp [hfront]⟩
    · cases mid with
      | nil => exact .inl (by simpa using hp)
      | cons c mid =>
        obtain ⟨-, hname⟩ := cons.inj hmid
        exact absurd (hname ▸ by simp) hfree
  · rintro (rfl | habove)
    · exact ⟨name, by simp⟩
    · exact habove.trans (prefix_append _ _)

lemma length_lt_of_beforeLastSlash (h : beforeLastSlash t = some front) :
    front.length < t.length := by
  obtain ⟨name, rfl, -⟩ := beforeLastSlash_eq_some h
  simp

lemma deepest_iff_root {D : Text → Prop} (h : ∀ q, D q → isTop q = false → hasPackage q = false) :
    Deepest hasPackage D p ↔ rootScope hasPackage = some p := by
  constructor
  · rintro ⟨hp, ⟨hD, htop, -⟩ | ⟨rfl, -⟩⟩
    · rw [h p hD htop] at hp
      cases hp
    · simp [rootScope, hp]
  · intro hroot
    by_cases hp : hasPackage root = true
    · rw [rootScope, if_pos hp] at hroot
      cases hroot
      exact ⟨hp, .inr ⟨rfl, h⟩⟩
    · rw [rootScope, if_neg hp] at hroot
      cases hroot

lemma deepest_congr {D D' : Text → Prop}
    (h : ∀ q, hasPackage q = true → isTop q = false → (D q ↔ D' q)) :
    Deepest hasPackage D p ↔ Deepest hasPackage D' p := by
  have hnone : ∀ {E E' : Text → Prop}, (∀ q, hasPackage q = true → isTop q = false → (E q ↔ E' q)) →
      Deepest hasPackage E p → Deepest hasPackage E' p := by
    rintro E E' hE ⟨hp, ⟨hEp, htop, hmax⟩ | ⟨hroot, hfree⟩⟩
    · refine ⟨hp, .inl ⟨(hE p hp htop).mp hEp, htop, ?_⟩⟩
      intro q hq hqtop hqp
      exact hmax q ((hE q hqp hqtop).mpr hq) hqtop hqp
    · refine ⟨hp, .inr ⟨hroot, ?_⟩⟩
      intro q hq hqtop
      by_contra hqp
      rw [Bool.not_eq_false] at hqp
      have hno := hfree q ((hE q hqp hqtop).mpr hq) hqtop
      rw [hqp] at hno
      cases hno
  exact ⟨hnone h, hnone fun q hp ht => (h q hp ht).symm⟩

lemma Above.length_lt {path : Text} (h : Above q path) : q.length < path.length := by
  have hle := h.length_le
  simp only [length_append, length_singleton] at hle
  omega

lemma isTop_of_within {dir : Text} (hdir : isTop dir = true) (h : Within q dir) :
    isTop q = true := by
  rcases h with rfl | habove
  · exact hdir
  · have hlen := habove.length_lt
    have hshort : dir.length ≤ 1 := by
      simp only [isTop, root, Bool.or_eq_true, beq_iff_eq] at hdir
      rcases hdir with (rfl | rfl) | rfl <;> simp
    have hq : q = [] := length_eq_zero_iff.mp (by omega)
    rw [hq]
    rfl

lemma walkUp_eq_some {n : ℕ} {dir : Text} (hn : dir.length < n) :
    walkUp hasPackage n dir = some p ↔ Deepest hasPackage (Within · dir) p := by
  induction n generalizing dir with
  | zero => omega
  | succ n ih =>
    rw [walkUp]
    by_cases htop : isTop dir = true
    · rw [if_pos htop, deepest_iff_root]
      intro q hq hqtop
      rw [isTop_of_within htop hq] at hqtop
      cases hqtop
    · rw [if_neg htop]
      rw [Bool.not_eq_true] at htop
      by_cases hdir : hasPackage dir = true
      · rw [if_pos hdir, Option.some.injEq]
        constructor
        · rintro rfl
          refine ⟨hdir, .inl ⟨.inl rfl, htop, ?_⟩⟩
          rintro q (rfl | habove) - -
          · exact Nat.le_refl _
          · exact Nat.le_of_lt habove.length_lt
        · rintro ⟨-, ⟨hp | habove, -, hmax⟩ | ⟨-, hfree⟩⟩
          · exact hp.symm
          · have hle := hmax dir (.inl rfl) htop hdir
            have hlt := habove.length_lt
            omega
          · rw [hfree dir (.inl rfl) htop] at hdir
            cases hdir
      · rw [if_neg hdir]
        have hover : Deepest hasPackage (Within · dir) p ↔ Deepest hasPackage (Above · dir) p := by
          apply deepest_congr
          intro q hq _
          constructor
          · rintro (rfl | habove)
            · exact absurd hq hdir
            · exact habove
          · exact .inr
        rw [hover]
        cases hcut : beforeLastSlash dir with
        | some front =>
          have hshort := length_lt_of_beforeLastSlash hcut
          rw [parentDir, hcut, Option.getD_some, ih (by omega)]
          apply deepest_congr
          intro q _ _
          exact (above_iff_within hcut).symm
        | none =>
          have hfree := beforeLastSlash_eq_none.mp hcut
          have hroot : walkUp hasPackage n (parentDir dir) = rootScope hasPackage := by
            rw [parentDir, hcut]
            cases n with
            | zero => rfl
            | succ n => rfl
          rw [hroot, deepest_iff_root]
          intro q habove
          exact absurd habove (not_above_of_free hfree)

lemma nearestPackageScope_eq_some {file : Text} :
    nearestPackageScope hasPackage file = some p ↔ Contains hasPackage p file := by
  by_cases hfile : file = []
  · simp [nearestPackageScope, Contains, hfile]
  · rw [nearestPackageScope, if_neg hfile, walkUp_eq_some (Nat.lt_succ_self _)]
    simp only [Contains, ne_eq, hfile, not_false_eq_true, true_and]
    cases hcut : beforeLastSlash (stripDotSlash file) with
    | some front =>
      rw [parentDir, hcut, Option.getD_some]
      apply deepest_congr
      intro q _ _
      exact (above_iff_within hcut).symm
    | none =>
      rw [parentDir, hcut, Option.getD_none, deepest_iff_root, deepest_iff_root]
      · intro q habove
        exact absurd habove (not_above_of_free (beforeLastSlash_eq_none.mp hcut))
      · intro q hq hqtop
        have hroot : isTop root = true := by decide
        rw [isTop_of_within hroot hq] at hqtop
        cases hqtop

lemma mem_sortTexts {texts : List Text} : t ∈ sortTexts texts ↔ t ∈ texts :=
  mem_insertionSort _

lemma mem_namedScopes :
    p ∈ namedScopes hasPackage files ↔ ∃ file ∈ files, Contains hasPackage p file := by
  simp only [namedScopes, mem_eraseDups, mem_filterMap, nearestPackageScope_eq_some]

/-- The files lie in some package. -/
def NamesPackage (hasPackage : Text → Bool) (files : List Text) : Prop :=
  ∃ file ∈ files, ∃ p, Contains hasPackage p file

lemma namedScopes_eq_nil : namedScopes hasPackage files = [] ↔ ¬ NamesPackage hasPackage files := by
  rw [eq_nil_iff_forall_not_mem]
  simp only [mem_namedScopes, NamesPackage]
  grind

/-- The packages a change is taken to touch: those its files lie in, or the root. -/
def Touched (hasPackage : Text → Bool) (files : List Text) (p : Text) : Prop :=
  (∃ file ∈ files, Contains hasPackage p file) ∨
    (¬ NamesPackage hasPackage files ∧ hasPackage root = true ∧ p = root)

lemma mem_relevantScopes : p ∈ relevantScopes hasPackage files ↔ Touched hasPackage files p := by
  rw [relevantScopes, mem_sortTexts, Touched, ← mem_namedScopes, ← namedScopes_eq_nil]
  by_cases hseen : namedScopes hasPackage files = []
  · by_cases hroot : hasPackage root = true
    · simp [hseen, hroot]
    · simp [hseen, hroot]
  · simp [hseen]

lemma mem_dependents : p ∈ dependents graph q ↔ DependsOn graph p q := by
  simp only [dependents, mem_flatMap, mem_map, mem_filter, decide_eq_true_eq, DependsOn]
  constructor
  · rintro ⟨pkg, hpkg, _, ⟨hdep, rfl⟩, rfl⟩
    exact ⟨pkg, hpkg, rfl, hdep⟩
  · rintro ⟨pkg, hpkg, rfl, hdep⟩
    exact ⟨pkg, hpkg, q, ⟨hdep, rfl⟩, rfl⟩

lemma leads_iff_reaches : Worklist.Leads (dependents graph) q p ↔ Reaches graph p q := by
  rw [Worklist.Leads, Reaches, ← Relation.reflTransGen_swap]
  simp only [mem_dependents]

lemma mem_expandReverseDependencyCone {touchedDirs : List Text} :
    p ∈ expandReverseDependencyCone touchedDirs graph ↔ ∃ q ∈ touchedDirs, Reaches graph p q := by
  have hnod : ∀ q, ∀ p ∈ dependents graph q, p ∈ graph.packages.map WorkspacePackage.dir := by
    intro q p hp
    obtain ⟨pkg, hpkg, rfl, -⟩ := mem_dependents.mp hp
    exact mem_map_of_mem hpkg
  rw [expandReverseDependencyCone, mem_sortTexts,
    Worklist.mem_search_roots (fun _ => mem_eraseDups) hnod (by rw [length_map])]
  simp only [leads_iff_reaches]

/-- The cone of two changes is that of the one and that of the other, and holds all that depends
on what is in it. -/
theorem cone_expands (touchedDirs others : List Text) (graph : WorkspaceGraph) (p : Text) :
    (p ∈ expandReverseDependencyCone (touchedDirs ++ others) graph ↔
      p ∈ expandReverseDependencyCone touchedDirs graph ∨
        p ∈ expandReverseDependencyCone others graph) ∧
    (p ∈ touchedDirs → p ∈ expandReverseDependencyCone touchedDirs graph) ∧
    (p ∈ expandReverseDependencyCone (expandReverseDependencyCone touchedDirs graph) graph ↔
      p ∈ expandReverseDependencyCone touchedDirs graph) := by
  refine ⟨?_, fun hp => mem_expandReverseDependencyCone.mpr ⟨p, hp, .refl⟩, ?_, fun hp => ?_⟩
  · simp only [mem_expandReverseDependencyCone, mem_append, or_and_right, exists_or]
  · rw [mem_expandReverseDependencyCone, mem_expandReverseDependencyCone]
    rintro ⟨q, hq, hreach⟩
    obtain ⟨root, hroot, hreach'⟩ := mem_expandReverseDependencyCone.mp hq
    exact ⟨root, hroot, hreach.trans hreach'⟩
  · exact mem_expandReverseDependencyCone.mpr ⟨p, hp, .refl⟩

/-- Some file configures the whole workspace. -/
def HasTrigger (files : List Text) : Prop := ∃ file ∈ files, isRootTrigger file = true

instance (files : List Text) : Decidable (HasTrigger files) :=
  inferInstanceAs (Decidable (∃ file ∈ files, isRootTrigger file = true))

/-- The packages of the cone of a change. -/
def InCone (hasPackage : Text → Bool) (graph : WorkspaceGraph) (files : List Text) (p : Text) :
    Prop :=
  ∃ q, Touched hasPackage files q ∧ Reaches graph p q

lemma mem_scopes :
    p ∈ scopesForValidationScope (computeValidationScope files hasPackage graph) ↔
      if HasTrigger files then p = root else InCone hasPackage graph files p := by
  by_cases htrigg : HasTrigger files
  · obtain ⟨file, hfind⟩ := Option.isSome_iff_exists.mp (find?_isSome.mpr htrigg)
    rw [if_pos htrigg, computeValidationScope, hfind]
    simp [scopesForValidationScope]
  · have hfind : files.find? isRootTrigger = none :=
      find?_eq_none.mpr fun file hfile hroot => htrigg ⟨file, hfile, hroot⟩
    rw [if_neg htrigg, computeValidationScope, hfind]
    simp only [scopesForValidationScope, mem_expandReverseDependencyCone, mem_relevantScopes]
    rfl

end Redskilled.Gate
