import Mathlib.Data.List.Forall2
import Redskilled.Daemon.LaunchTemplate
import Redskilled.Foundation.Fallible

/-!
# Launches, exactly

The texts of a template are read from the left: a placeholder of the pattern, or a character.
Where every name that stands between double braces is made of the letters of the pattern, a
launch that succeeds is its template with each fact written in once, and nothing between double
braces is left.
-/
namespace Redskilled.Daemon.LaunchTemplate
open Foundation Fallible List Option

/-- A name of the pattern. -/
structure IsName (name : Text) : Prop where
  ne_nil : name ≠ []
  chars : ∀ c ∈ name, isFactChar c = true

section
variable {name t : Text} {c : Char}

lemma not_brace_of_fact (h : isFactChar c = true) : c ≠ '{' ∧ c ≠ '}' := by
  constructor
  · rintro rfl
    cases h
  · rintro rfl
    cases h

lemma nameAt_braced (h : IsName name) (t : Text) : nameAt (braced name ++ t) = some name := by
  have htake : (name ++ '}' :: '}' :: t).takeWhile isFactChar = name := by
    rw [takeWhile_append_of_pos h.chars]
    simp [isFactChar]
  have hdrop : (name ++ '}' :: '}' :: t).dropWhile isFactChar = '}' :: '}' :: t := by
    rw [dropWhile_append_of_pos h.chars]
    rfl
  have hshape : braced name ++ t = '{' :: '{' :: (name ++ '}' :: '}' :: t) := by simp [braced]
  rw [hshape, nameAt, htake, hdrop, if_pos]
  exact ⟨h.ne_nil, ⟨t, rfl⟩⟩

lemma nameAt_some (h : nameAt t = some name) : IsName name ∧ ∃ rest, t = braced name ++ rest := by
  unfold nameAt at h
  split at h
  · rename_i u
    split_ifs at h with hname
    cases h
    obtain ⟨rest, hrest⟩ := hname.2
    constructor
    · exact ⟨hname.1, fun c hc => mem_takeWhile_imp hc⟩
    · refine ⟨rest, ?_⟩
      have hspl := takeWhile_append_dropWhile (p := isFactChar) (l := u)
      rw [← hrest] at hspl
      simp only [braced, cons_append, append_assoc]
      exact congrArg (fun v => '{' :: '{' :: v) hspl.symm
  · cases h

lemma scan_induction {P : Text → Prop} (nil : P [])
    (char : ∀ c t, nameAt (c :: t) = none → P t → P (c :: t))
    (fact : ∀ name t, IsName name → P t → P (braced name ++ t)) (t : Text) : P t := by
  induction hn : t.length using Nat.strong_induction_on generalizing t with
  | _ n ih =>
    cases t with
    | nil => exact nil
    | cons c t =>
      cases hname : nameAt (c :: t) with
      | none => exact char c t hname (ih t.length (by simp [← hn]) t rfl)
      | some name =>
        obtain ⟨hisN, rest, hrest⟩ := nameAt_some hname
        rw [hrest] at hn ⊢
        apply fact name rest hisN (ih rest.length _ rest rfl)
        simp only [braced, cons_append, length_cons, length_append] at hn
        omega

lemma substitute_skip (value : Text → Except LaunchError Text) (k : ℕ) (t : Text) :
    substitute value k t = substitute value 0 (t.drop k) := by
  induction t generalizing k with
  | nil => cases k <;> simp [substitute]
  | cons c t ih =>
    cases k with
    | zero => rfl
    | succ k => exact ih k

lemma substitute_char {value : Text → Except LaunchError Text} (h : nameAt (c :: t) = none) :
    substitute value 0 (c :: t) = (substitute value 0 t).map (c :: ·) := by
  rw [substitute, h]

lemma substitute_braced {value : Text → Except LaunchError Text} (h : IsName name) (t : Text) :
    substitute value 0 (braced name ++ t) =
      (value name).bind fun text => (substitute value 0 t).map (text ++ ·) := by
  have hshape : braced name ++ t = '{' :: ('{' :: name ++ ['}', '}'] ++ t) := rfl
  have hat := nameAt_braced h t
  rw [hshape] at hat ⊢
  have hlength : ('{' :: name ++ ['}', '}']).length = name.length + 3 := by simp
  have hskip : substitute value (name.length + 3) ('{' :: name ++ ['}', '}'] ++ t) =
      substitute value 0 t := by
    rw [substitute_skip, drop_append_of_le_length hlength.ge, ← hlength, drop_length, nil_append]
  rw [substitute, hat]
  simp only [hskip]

end

/-- The text has these characters between double braces, no brace among them. -/
structure Names (t inner : Text) : Prop where
  noBrace : ∀ c ∈ inner, c ≠ '{' ∧ c ≠ '}'
  occurs : braced inner <:+: t

lemma IsName.noBrace {name : Text} (h : IsName name) : ∀ c ∈ name, c ≠ '{' ∧ c ≠ '}' :=
  fun c hc => not_brace_of_fact (h.chars c hc)

section
variable {name inner t : Text} {c : Char}

lemma not_names_nil : ¬ Names [] inner := fun h => by
  have hnil := List.infix_nil.mp h.occurs
  cases hnil

lemma names_char (hname : nameAt (c :: t) = none) (hinn : IsName inner) :
    Names (c :: t) inner ↔ Names t inner := by
  constructor
  · rintro ⟨hno, hocc⟩
    rcases infix_cons_iff.mp hocc with ⟨rest, hrest⟩ | hlat
    · rw [← hrest, nameAt_braced hinn] at hname
      cases hname
    · exact ⟨hno, hlat⟩
  · rintro ⟨hno, hocc⟩
    exact ⟨hno, hocc.trans (suffix_cons c t).isInfix⟩

lemma eq_of_braced_append {back : Text} (hname : IsName name)
    (hno : ∀ c ∈ inner, c ≠ '{' ∧ c ≠ '}') (h : braced name ++ t = braced inner ++ back) :
    inner = name ∧ back = t := by
  have hcut : name ++ '}' :: ('}' :: t) = inner ++ '}' :: ('}' :: back) := by
    simpa [braced] using h
  obtain ⟨rfl, hback⟩ := Text.cut_unique (fun hmem => (hname.noBrace _ hmem).2 rfl)
    (fun hmem => (hno _ hmem).2 rfl) hcut
  exact ⟨rfl, (cons.inj hback).2.symm⟩

lemma names_braced (hname : IsName name) :
    Names (braced name ++ t) inner ↔ inner = name ∨ Names t inner := by
  constructor
  · rintro ⟨hno, front, back, hspl⟩
    rw [append_assoc] at hspl
    rcases append_eq_append_iff.mp hspl with ⟨x, hx, hrest⟩ | ⟨x, hx, hrest⟩
    · cases front with
      | nil =>
        have heq : braced name ++ t = braced inner ++ back := hspl.symm
        exact .inl (eq_of_braced_append hname hno heq).1
      | cons c front =>
        -- the second pair would start inside the first
        cases x with
        | nil =>
          refine .inr ⟨hno, [], back, ?_⟩
          simpa using hrest
        | cons d x =>
          have hd : d = '{' := (cons.inj hrest).1.symm
          subst hd
          have hx' : name ++ ['}', '}'] = front.drop 1 ++ '{' :: x ∨
              front = [] ∧ name ++ ['}', '}'] = x := by
            rw [braced] at hx
            have htail := (cons.inj hx).2
            cases front with
            | nil =>
              right
              exact ⟨rfl, (cons.inj htail).2⟩
            | cons e front =>
              left
              exact (cons.inj htail).2
          rcases hx' with hmem | ⟨-, hx'⟩
          · have hin : '{' ∈ name ++ ['}', '}'] := by
              rw [hmem]
              simp
            rw [mem_append] at hin
            rcases hin with hin | hin
            · exact absurd rfl (hname.noBrace _ hin).1
            · simp at hin
          · obtain ⟨e, rest, hname'⟩ := exists_cons_of_ne_nil hname.ne_nil
            have he : e = '{' := by
              rw [← hx', hname'] at hrest
              simpa [braced] using (cons.inj (cons.inj hrest).2).1.symm
            have hmem : e ∈ name := hname' ▸ mem_cons_self
            exact absurd he (hname.noBrace e hmem).1
    · exact .inr ⟨hno, x, back, by rw [hrest, append_assoc]⟩
  · rintro (rfl | ⟨hno, hocc⟩)
    · exact ⟨hname.noBrace, (prefix_append _ t).isInfix⟩
    · exact ⟨hno, hocc.trans (suffix_append _ t).isInfix⟩

end

lemma substitute_ok_iff {value : Text → Except LaunchError Text} (t : Text) :
    (∃ out, substitute value 0 t = .ok out) ↔
      ∀ name, IsName name → Names t name → ∃ text, value name = .ok text := by
  induction t using scan_induction with
  | nil => exact ⟨fun _ name _ hin => absurd hin not_names_nil, fun _ => ⟨[], rfl⟩⟩
  | char c t hname ih =>
    rw [substitute_char hname]
    constructor
    · rintro ⟨out, hout⟩ name hisN hin
      obtain ⟨rest, hrest, -⟩ := map_ok_iff.mp hout
      exact ih.mp ⟨rest, hrest⟩ name hisN ((names_char hname hisN).mp hin)
    · intro h
      obtain ⟨rest, hrest⟩ := ih.mpr fun name hisN hin =>
        h name hisN ((names_char hname hisN).mpr hin)
      exact ⟨_, map_ok_iff.mpr ⟨rest, hrest, rfl⟩⟩
  | fact name t hname ih =>
    rw [substitute_braced hname]
    constructor
    · rintro ⟨out, hout⟩ other hisN hin
      obtain ⟨text, htext, hmap⟩ := bind_ok_iff.mp hout
      rcases (names_braced hname).mp hin with rfl | hlat
      · exact ⟨text, htext⟩
      · obtain ⟨rest, hrest, -⟩ := map_ok_iff.mp hmap
        exact ih.mp ⟨rest, hrest⟩ other hisN hlat
    · intro h
      obtain ⟨text, htext⟩ := h name hname ((names_braced hname).mpr (.inl rfl))
      obtain ⟨rest, hrest⟩ := ih.mpr fun other hisN hin =>
        h other hisN ((names_braced hname).mpr (.inr hin))
      exact ⟨_, bind_ok_iff.mpr ⟨text, htext, map_ok_iff.mpr ⟨rest, hrest, rfl⟩⟩⟩

/-- Each fact that is named between double braces is replaced by its text, once, and everything
else stands as it was. -/
inductive Filled (text : Text → Option Text) : Text → Text → Prop
  | nil : Filled text [] []
  | fact {name value t out : Text} (hvalue : text name = some value) (h : Filled text t out) :
      Filled text (braced name ++ t) (value ++ out)
  | char {c : Char} {t out : Text} (hno : ∀ name value, text name = some value →
      ¬ braced name <+: c :: t) (h : Filled text t out) : Filled text (c :: t) (c :: out)

/-- A value that is the text of a fact, and no text of anything but names of the pattern. -/
structure Supplies (value : Text → Except LaunchError Text) (text : Text → Option Text) : Prop where
  value_iff : ∀ name v, value name = .ok v ↔ text name = some v
  isName : ∀ name v, text name = some v → IsName name

section
variable {value : Text → Except LaunchError Text} {text : Text → Option Text} {t out : Text}

lemma filled_of_substitute (hsuppli : Supplies value text)
    (h : substitute value 0 t = .ok out) : Filled text t out := by
  induction t using scan_induction generalizing out with
  | nil =>
    cases h
    exact .nil
  | char c t hname ih =>
    rw [substitute_char hname] at h
    obtain ⟨rest, hrest, rfl⟩ := map_ok_iff.mp h
    apply Filled.char _ (ih hrest)
    rintro name v hv ⟨back, hback⟩
    rw [← hback, nameAt_braced (hsuppli.isName name v hv)] at hname
    cases hname
  | fact name t hname ih =>
    rw [substitute_braced hname] at h
    obtain ⟨v, hv, hmap⟩ := bind_ok_iff.mp h
    obtain ⟨rest, hrest, rfl⟩ := map_ok_iff.mp hmap
    exact .fact ((hsuppli.value_iff name v).mp hv) (ih hrest)

lemma Filled.unique (hname : ∀ name v, text name = some v → IsName name) {out' : Text}
    (h : Filled text t out) (h' : Filled text t out') : out = out' := by
  induction h generalizing out' with
  | nil =>
    generalize hnil : ([] : Text) = u at h'
    cases h' with
    | nil => rfl
    | fact hvalue h' => cases hnil
    | char hno h' => cases hnil
  | @fact name v t out hv h ih =>
    generalize hu : braced name ++ t = u at h'
    cases h' with
    | nil => cases hu
    | @fact name' v' t' out' hv' h' =>
      obtain ⟨rfl, rfl⟩ := eq_of_braced_append (hname _ _ hv) (hname _ _ hv').noBrace hu
      rw [hv] at hv'
      cases hv'
      rw [ih h']
    | char hno h' => exact absurd ⟨t, hu⟩ (hno name v hv)
  | @char c t out hno h ih =>
    generalize hu : c :: t = u at h'
    cases h' with
    | nil => cases hu
    | @fact name' v' t' out' hv' h' => exact absurd ⟨t', hu.symm⟩ (hno name' v' hv')
    | char hno' h' =>
      obtain ⟨rfl, rfl⟩ := cons.inj hu
      rw [ih h']

lemma filled_iff_substitute (hsuppli : Supplies value text)
    (hok : ∀ name, IsName name → Names t name → ∃ v, text name = some v) :
    Filled text t out ↔ substitute value 0 t = .ok out := by
  constructor
  · intro h
    obtain ⟨out', hout'⟩ := (substitute_ok_iff t).mpr fun name hisN hin =>
      (hok name hisN hin).imp fun v hv => (hsuppli.value_iff name v).mpr hv
    rw [hout', h.unique hsuppli.isName (filled_of_substitute hsuppli hout')]
  · exact filled_of_substitute hsuppli

end

def RedskilledLaunchFacts.declared (facts : RedskilledLaunchFacts) (name : Text) : Option Text :=
  if name = "worker_id".toList then some facts.workerId
  else if name = "slot".toList then some facts.slot
  else if name = "workspace_path".toList then some facts.workspacePath
  else if name = "log_path".toList then some (facts.logPath.getD [])
  else if name = "work_item".toList then facts.workItem.filter (· ≠ [])
  else none

def RedskilledLaunchFacts.atBirth (facts : RedskilledLaunchFacts) (name : Text) : Option Text :=
  if name = "worker_id".toList then some facts.workerId
  else if name = "workspace_path".toList then some facts.workspacePath
  else none

def RedskilledLaunchTemplate.texts (template : RedskilledLaunchTemplate) : List Text :=
  template.argv ++ template.env.map Prod.snd ++ template.logPath.toList

lemma isName_fact {name : Text} (h : name ∈ REDSKILLED_LAUNCH_FACTS) : IsName name := by
  have hall : ∀ name ∈ REDSKILLED_LAUNCH_FACTS,
      name ≠ [] ∧ name.all isFactChar = true := by decide
  exact ⟨(hall name h).1, all_eq_true.mp (hall name h).2⟩

section
variable (facts : RedskilledLaunchFacts)

lemma supplies_text (place : Text) : Supplies (facts.text place) facts.declared := by
  constructor
  · intro name v
    unfold RedskilledLaunchFacts.text RedskilledLaunchFacts.declared
    split_ifs
    · simp
    · simp
    · simp
    · simp
    · cases hitem : facts.workItem with
      | none => simp
      | some item =>
        cases item with
        | nil => simp
        | cons c t => simp [Option.filter]
    · simp
  · intro name v h
    unfold RedskilledLaunchFacts.declared at h
    apply isName_fact
    split_ifs at h with h₁ h₂ h₃ h₄ h₅
    · exact h₁ ▸ (by decide)
    · exact h₂ ▸ (by decide)
    · exact h₃ ▸ (by decide)
    · exact h₄ ▸ (by decide)
    · exact h₅ ▸ (by decide)

lemma supplies_birthText :
    Supplies (birthText facts.workerId facts.workspacePath) facts.atBirth := by
  constructor
  · intro name v
    unfold birthText RedskilledLaunchFacts.atBirth
    split_ifs
    · simp
    · simp
    · simp
  · intro name v h
    unfold RedskilledLaunchFacts.atBirth at h
    apply isName_fact
    split_ifs at h with h₁ h₂
    · exact h₁ ▸ (by decide)
    · exact h₂ ▸ (by decide)

/-- Every name of the pattern in the text is that of a fact which the birth has. -/
def Supplied (t : Text) : Prop :=
  ∀ name, IsName name → Names t name → ∃ v, facts.declared name = some v

variable {facts}

lemma supplied_iff (place t : Text) :
    Supplied facts t ↔ ∃ out, substitute (facts.text place) 0 t = .ok out := by
  rw [substitute_ok_iff]
  constructor
  · intro h name hisN hin
    exact (h name hisN hin).imp fun v hv => ((supplies_text facts place).value_iff name v).mpr hv
  · intro h name hisN hin
    exact (h name hisN hin).imp fun v hv => ((supplies_text facts place).value_iff name v).mp hv

lemma filled_iff {t out : Text} (place : Text) (h : Supplied facts t) :
    Filled facts.declared t out ↔ substitute (facts.text place) 0 t = .ok out :=
  filled_iff_substitute (supplies_text facts place) h

lemma expandArgv_ok_iff {index : ℕ} {argv : List Text} {out : List Text} :
    expandArgv facts index argv = .ok out ↔
      (∀ word ∈ argv, Supplied facts word) ∧ List.Forall₂ (Filled facts.declared) argv out := by
  induction argv generalizing index out with
  | nil =>
    rw [expandArgv, forall₂_nil_left_iff]
    simp [eq_comm]
  | cons word words ih =>
    rw [expandArgv, bind_ok_iff]
    constructor
    · rintro ⟨text, htext, hmap⟩
      obtain ⟨rest, hrest, rfl⟩ := map_ok_iff.mp hmap
      obtain ⟨hsuppl, hfor⟩ := ih.mp hrest
      have hword : Supplied facts word := (supplied_iff _ word).mpr ⟨text, htext⟩
      exact ⟨forall_mem_cons.mpr ⟨hword, hsuppl⟩, .cons ((filled_iff _ hword).mpr htext) hfor⟩
    · rintro ⟨hsuppl, hfor⟩
      obtain ⟨hword, hwords⟩ := forall_mem_cons.mp hsuppl
      cases hfor with
      | cons hfill hfor =>
        exact ⟨_, (filled_iff _ hword).mp hfill, map_ok_iff.mpr ⟨_, ih.mpr ⟨hwords, hfor⟩, rfl⟩⟩

/-- The entries that an assignment sets. -/
def settable (env : List (Text × Text)) : List (Text × Text) :=
  env.filter fun entry => entry.1 ≠ protoKey

/-- An entry, with its value filled in. -/
def FilledEntry (facts : RedskilledLaunchFacts) (entry out : Text × Text) : Prop :=
  out.1 = entry.1 ∧ Filled facts.declared entry.2 out.2

lemma expandEnv_ok_iff {env out : List (Text × Text)} : expandEnv facts env = .ok out ↔
      (∀ entry ∈ env, Supplied facts entry.2) ∧
        List.Forall₂ (FilledEntry facts) (settable env) out := by
  induction env generalizing out with
  | nil =>
    rw [expandEnv, settable, filter_nil, forall₂_nil_left_iff]
    simp [eq_comm]
  | cons entry entries ih =>
    obtain ⟨key, value⟩ := entry
    rw [expandEnv, bind_ok_iff]
    by_cases hkey : key = protoKey
    · have hsett : settable ((key, value) :: entries) = settable entries :=
        filter_cons_of_neg (by simp [hkey])
      rw [hsett, forall_mem_cons]
      simp only [if_pos hkey]
      constructor
      · rintro ⟨text, htext, hmap⟩
        obtain ⟨rest, hrest, rfl⟩ := map_ok_iff.mp hmap
        obtain ⟨hsuppl, hfor⟩ := ih.mp hrest
        exact ⟨⟨(supplied_iff _ value).mpr ⟨text, htext⟩, hsuppl⟩, hfor⟩
      · rintro ⟨⟨hvalue, hsuppl⟩, hfor⟩
        obtain ⟨text, htext⟩ := (supplied_iff _ value).mp hvalue
        exact ⟨text, htext, map_ok_iff.mpr ⟨out, ih.mpr ⟨hsuppl, hfor⟩, rfl⟩⟩
    · have hsett : settable ((key, value) :: entries) = (key, value) :: settable entries :=
        filter_cons_of_pos (by simp [hkey])
      rw [hsett, forall_mem_cons]
      simp only [if_neg hkey]
      constructor
      · rintro ⟨text, htext, hmap⟩
        obtain ⟨rest, hrest, rfl⟩ := map_ok_iff.mp hmap
        obtain ⟨hsuppl, hfor⟩ := ih.mp hrest
        have hvalue : Supplied facts value := (supplied_iff _ value).mpr ⟨text, htext⟩
        exact ⟨⟨hvalue, hsuppl⟩, .cons ⟨rfl, (filled_iff _ hvalue).mpr htext⟩ hfor⟩
      · rintro ⟨⟨hvalue, hsuppl⟩, hfor⟩
        cases hfor with
        | @cons _ b _ _ hentry hfor =>
          obtain ⟨key', text⟩ := b
          obtain ⟨rfl, hfill⟩ := hentry
          exact ⟨text, (filled_iff _ hvalue).mp hfill,
            map_ok_iff.mpr ⟨_, ih.mpr ⟨hsuppl, hfor⟩, rfl⟩⟩

lemma expandLogPath_ok_iff {logPath out : Option Text} : expandLogPath facts logPath = .ok out ↔
      (∀ path ∈ logPath, Supplied facts path) ∧ ((logPath = none ∧ out = none) ∨
          ∃ path text, logPath = some path ∧ Filled facts.declared path text ∧
            out = if text = [] then none else some text) := by
  cases logPath with
  | none => simp [expandLogPath, eq_comm]
  | some path =>
    rw [expandLogPath, map_ok_iff]
    constructor
    · rintro ⟨text, htext, rfl⟩
      have hpath : Supplied facts path := (supplied_iff _ path).mpr ⟨text, htext⟩
      refine ⟨by simpa using hpath, .inr ⟨path, text, rfl, (filled_iff _ hpath).mpr htext, rfl⟩⟩
    · rintro ⟨hsuppl, ⟨hnone, -⟩ | ⟨path', text, hpath, hfill, rfl⟩⟩
      · cases hnone
      · cases hpath
        exact ⟨text, (filled_iff _ (hsuppl _ rfl)).mp hfill, rfl⟩

end

section
variable (template : RedskilledLaunchTemplate) (facts : RedskilledLaunchFacts)

/-- The log path that a worker is handed: the one of the template, or else the one that is a
fact of the birth. -/
def HandsOn (path : Text) : Prop :=
  path ≠ [] ∧ ((∃ stated, template.logPath = some stated ∧ Filled facts.declared stated path) ∨
      ((∀ stated, template.logPath = some stated → Filled facts.declared stated []) ∧
        facts.logPath = some path))

structure ExactSpec (spec : WorkerSpec) : Prop where
  argv : List.Forall₂ (Filled facts.declared) template.argv (spec.command :: spec.args)
  env : List.Forall₂ (FilledEntry facts) template.env spec.env
  logPath : ∀ path, template.logPath = some path → Filled facts.declared path (spec.logPath.getD [])
  nothingLeft : ∀ t ∈ template.texts, ∀ inner, Names t inner → ∃ v, facts.declared inner = some v
  stable : expandWorkerLogPath spec.logPath spec.workerId spec.workspacePath = .ok spec.logPath

def Exact (projectLabel : Text) : Prop :=
  ∀ spec, workerSpecFromLaunch template facts projectLabel = .ok spec →
    ExactSpec template facts spec

def Refused : Prop :=
  (∃ t ∈ template.texts, ∃ name, IsName name ∧ Names t name ∧ facts.declared name = none) ∨
    template.argv = [] ∨ ∃ word ∈ template.argv.head?, Filled facts.declared word []

/-- The names are of the pattern, every entry can be set, and the log path is settled before the
birth. -/
structure Proper : Prop where
  names : ∀ t ∈ template.texts, ∀ inner, Names t inner → IsName inner
  settable : ∀ entry ∈ template.env, entry.1 ≠ protoKey
  stated : ∀ path, template.logPath = some path → Filled facts.declared path [] →
    facts.logPath.getD [] = []
  settled : ∀ path, HandsOn template facts path → Text.trim path ≠ [] ∧
      (∀ name, IsName name → Names path name → ∃ v, facts.atBirth name = some v) ∧
        Filled facts.atBirth path path

variable {template facts} {projectLabel : Text} {spec : WorkerSpec}

lemma handsOn_of_expand {logPath : Option Text}
    (h : expandLogPath facts template.logPath = .ok logPath) (path : Text) :
    (logPath.orElse fun _ => facts.logPath).filter (· ≠ []) = some path ↔
      HandsOn template facts path := by
  obtain ⟨hsuppl, hcase⟩ := expandLogPath_ok_iff.mp h
  have huniq : ∀ {stated out out' : Text}, Filled facts.declared stated out →
      Filled facts.declared stated out' → out = out' := fun hout hout' =>
    hout.unique (supplies_text facts []).isName hout'
  rcases hcase with ⟨hnone, rfl⟩ | ⟨stated, text, hstat, hfill, rfl⟩
  · simp [HandsOn, hnone, filter_eq_some_iff, and_comm]
  · by_cases htext : text = []
    · subst htext
      simp only [filter_eq_some_iff, decide_eq_true_eq, HandsOn]
      constructor
      · rintro ⟨hpath, hne⟩
        refine ⟨hne, .inr ⟨?_, hpath⟩⟩
        intro other hoth
        obtain rfl := some.inj (hstat.symm.trans hoth)
        exact hfill
      · rintro ⟨hne, ⟨other, hoth, hfill'⟩ | ⟨-, hpath⟩⟩
        · obtain rfl := some.inj (hstat.symm.trans hoth)
          exact absurd (huniq hfill' hfill) hne
        · exact ⟨hpath, hne⟩
    · rw [if_neg htext]
      simp only [orElse_some, filter_eq_some_iff, decide_eq_true_eq, HandsOn]
      constructor
      · rintro ⟨hpath, hne⟩
        cases hpath
        exact ⟨hne, .inl ⟨stated, hstat, hfill⟩⟩
      · rintro ⟨hne, ⟨other, hoth, hfill'⟩ | ⟨hempty, -⟩⟩
        · obtain rfl := some.inj (hstat.symm.trans hoth)
          exact ⟨congrArg some (huniq hfill hfill'), hne⟩
        · exact absurd (huniq hfill (hempty stated hstat)) htext

/-- What a launch is that succeeds. -/
structure Launched (template : RedskilledLaunchTemplate) (facts : RedskilledLaunchFacts)
    (spec : WorkerSpec) : Prop where
  supplied : ∀ t ∈ template.texts, Supplied facts t
  argv : List.Forall₂ (Filled facts.declared) template.argv (spec.command :: spec.args)
  command : spec.command ≠ []
  env : List.Forall₂ (FilledEntry facts) (settable template.env) spec.env
  logPath : ∀ path, spec.logPath = some path ↔ HandsOn template facts path
  workerId : spec.workerId = facts.workerId
  workspacePath : spec.workspacePath = facts.workspacePath

lemma launched_of_ok (h : workerSpecFromLaunch template facts projectLabel = .ok spec) :
    Launched template facts spec := by
  obtain ⟨launch, hlaunch, hspec⟩ := bind_ok_iff.mp h
  obtain ⟨argv, hargv, hrest⟩ := bind_ok_iff.mp hlaunch
  obtain ⟨env, henv, hmap⟩ := bind_ok_iff.mp hrest
  obtain ⟨logPath, hlogP, rfl⟩ := map_ok_iff.mp hmap
  obtain ⟨hwords, hfill⟩ := expandArgv_ok_iff.mp hargv
  obtain ⟨hval, hentr⟩ := expandEnv_ok_iff.mp henv
  cases argv with
  | nil => cases hspec
  | cons command args =>
    simp only at hspec
    split_ifs at hspec with hcomm
    cases hspec
    constructor
    · intro t ht
      rw [RedskilledLaunchTemplate.texts, mem_append, mem_append] at ht
      rcases ht with (ht | ht) | ht
      · exact hwords t ht
      · obtain ⟨entry, hentry, rfl⟩ := mem_map.mp ht
        exact hval entry hentry
      · exact (expandLogPath_ok_iff.mp hlogP).1 t (mem_toList.mp ht)
    · exact hfill
    · exact hcomm
    · exact hentr
    · exact handsOn_of_expand hlogP
    · rfl
    · rfl

lemma exists_of_not_refused (h : ¬ Refused template facts) (projectLabel : Text) :
    ∃ spec, workerSpecFromLaunch template facts projectLabel = .ok spec := by
  simp only [Refused, not_or] at h
  obtain ⟨hnam, hargv, hhead⟩ := h
  have hsuppl : ∀ t ∈ template.texts, Supplied facts t := by
    intro t ht name hisN hin
    apply ne_none_iff_exists'.mp
    intro hnone
    exact hnam ⟨t, ht, name, hisN, hin, hnone⟩
  have hfor : ∀ {words : List Text}, (∀ word ∈ words, Supplied facts word) →
      ∃ out, List.Forall₂ (Filled facts.declared) words out := by
    intro words hwords
    induction words with
    | nil => exact ⟨[], .nil⟩
    | cons word words ih =>
      obtain ⟨hword, hrest⟩ := forall_mem_cons.mp hwords
      obtain ⟨text, htext⟩ := (supplied_iff [] word).mp hword
      obtain ⟨out, hout⟩ := ih hrest
      exact ⟨text :: out, .cons ((filled_iff [] hword).mpr htext) hout⟩
  have hwords : ∀ word ∈ template.argv, Supplied facts word := fun word hword =>
    hsuppl word (mem_append_left _ (mem_append_left _ hword))
  have hval : ∀ entry ∈ template.env, Supplied facts entry.2 := fun entry hentry =>
    hsuppl entry.2 (mem_append_left _
      (mem_append_right _ (mem_map_of_mem hentry)))
  obtain ⟨argv, hargv'⟩ := hfor hwords
  obtain ⟨values, hval'⟩ : ∃ out,
      List.Forall₂ (Filled facts.declared) ((settable template.env).map Prod.snd) out := by
    apply hfor
    intro value hvalue
    obtain ⟨entry, hentry, rfl⟩ := mem_map.mp hvalue
    exact hval entry (mem_of_mem_filter hentry)
  have hentr : List.Forall₂ (FilledEntry facts) (settable template.env)
      (((settable template.env).map Prod.fst).zip values) := by
    have hlength := hval'.length_eq
    rw [length_map] at hlength
    rw [forall₂_iff_get]
    refine ⟨by simp [hlength], fun i h₁ h₂ => ?_⟩
    have hget := (forall₂_iff_get.mp hval').2 i (by simpa using h₁) (by omega)
    simp only [FilledEntry, get_eq_getElem, getElem_zip, getElem_map] at hget ⊢
    exact ⟨trivial, hget⟩
  obtain ⟨logPath, hlogP⟩ : ∃ logPath, expandLogPath facts template.logPath = .ok logPath := by
    cases hpath : template.logPath with
    | none => exact ⟨none, rfl⟩
    | some path =>
      have hpath' : Supplied facts path :=
        hsuppl path (mem_append_right _ (by simp [hpath]))
      obtain ⟨text, htext⟩ := (supplied_iff "the log path".toList path).mp hpath'
      exact ⟨_, map_ok_iff.mpr ⟨text, htext, rfl⟩⟩
  have hlaunch : expandLaunchTemplate facts template =
      .ok ⟨argv, ((settable template.env).map Prod.fst).zip values, logPath⟩ := by
    rw [expandLaunchTemplate, expandArgv_ok_iff.mpr ⟨hwords, hargv'⟩, Except.bind,
      expandEnv_ok_iff.mpr ⟨hval, hentr⟩, Except.bind, hlogP]
    rfl
  rw [workerSpecFromLaunch, hlaunch, Except.bind]
  cases htempl : template.argv with
  | nil => exact absurd htempl hargv
  | cons word words =>
    rw [htempl] at hargv' hhead
    cases hargv' with
    | cons hcomm _ =>
      simp only
      rw [if_neg]
      · exact ⟨_, rfl⟩
      · rintro rfl
        exact hhead ⟨word, rfl, hcomm⟩

lemma stable_iff (h : Launched template facts spec) :
    expandWorkerLogPath spec.logPath spec.workerId spec.workspacePath = .ok spec.logPath ↔
      ∀ path, HandsOn template facts path → Text.trim path ≠ [] ∧
          (∀ name, IsName name → Names path name → ∃ v, facts.atBirth name = some v) ∧
            Filled facts.atBirth path path := by
  rw [h.workerId, h.workspacePath]
  have hsuppli := supplies_birthText facts
  cases hpath : spec.logPath with
  | none =>
    have hno : ∀ path, ¬ HandsOn template facts path := fun path hon => by
      have hsome := (h.logPath path).mpr hon
      rw [hpath] at hsome
      cases hsome
    exact ⟨fun _ path hon => absurd hon (hno path), fun _ => rfl⟩
  | some path =>
    have honly : ∀ other, HandsOn template facts other ↔ other = path := fun other => by
      rw [← h.logPath other, hpath, some.injEq, eq_comm]
    simp only [honly, forall_eq, expandWorkerLogPath]
    split_ifs with htrim
    · simp [htrim]
    · rw [map_ok_iff]
      constructor
      · rintro ⟨text, htext, hsome⟩
        cases hsome
        refine ⟨htrim, fun name hisN hin => ?_, filled_of_substitute hsuppli htext⟩
        obtain ⟨v, hv⟩ := (substitute_ok_iff _).mp ⟨_, htext⟩ name hisN hin
        exact ⟨v, (hsuppli.value_iff name v).mp hv⟩
      · rintro ⟨-, hnam, hfill⟩
        exact ⟨path, (filled_iff_substitute hsuppli hnam).mp hfill, rfl⟩

lemma env_exact_iff (h : Launched template facts spec) :
    List.Forall₂ (FilledEntry facts) template.env spec.env ↔
      ∀ entry ∈ template.env, entry.1 ≠ protoKey := by
  constructor
  · intro hfor
    have hlength := hfor.length_eq.trans h.env.length_eq.symm
    have hall := filter_eq_self.mp (filter_sublist.eq_of_length hlength.symm)
    intro entry hentry
    simpa using hall entry hentry
  · intro hall
    have hsett : settable template.env = template.env :=
      filter_eq_self.mpr fun entry hentry => by simpa using hall entry hentry
    have henv := h.env
    rwa [hsett] at henv

lemma logPath_exact_iff (h : Launched template facts spec) : (∀ path, template.logPath = some path →
        Filled facts.declared path (spec.logPath.getD [])) ↔
      ∀ path, template.logPath = some path → Filled facts.declared path [] →
        facts.logPath.getD [] = [] := by
  have huniq : ∀ {stated out out' : Text}, Filled facts.declared stated out →
      Filled facts.declared stated out' → out = out' := fun hout hout' =>
    hout.unique (supplies_text facts []).isName hout'
  constructor
  · intro hexact path hpath hempty
    by_contra hne
    cases hfact : facts.logPath with
    | none => simp [hfact] at hne
    | some handed =>
      rw [hfact, getD_some] at hne
      have hon : HandsOn template facts handed := by
        refine ⟨hne, .inr ⟨?_, hfact⟩⟩
        intro stated hstat
        obtain rfl := some.inj (hpath.symm.trans hstat)
        exact hempty
      have hlog := hexact path hpath
      rw [(h.logPath handed).mpr hon, getD_some] at hlog
      exact hne (huniq hlog hempty)
  · intro hstat path hpath
    have hsuppl : Supplied facts path :=
      h.supplied path (mem_append_right _ (by simp [hpath]))
    obtain ⟨text, htext⟩ := (supplied_iff [] path).mp hsuppl
    have hfill := (filled_iff [] hsuppl).mpr htext
    by_cases hempty : text = []
    · subst hempty
      have hfact := hstat path hpath hfill
      cases hlog : spec.logPath with
      | none => exact hfill
      | some handed =>
        obtain ⟨hne, ⟨stated, hstat', hoth⟩ | ⟨-, hhand⟩⟩ := (h.logPath handed).mp hlog
        · obtain rfl := some.inj (hpath.symm.trans hstat')
          exact absurd (huniq hoth hfill) hne
        · rw [hhand, getD_some] at hfact
          exact absurd hfact hne
    · have hon : HandsOn template facts text := ⟨hempty, .inl ⟨path, hpath, hfill⟩⟩
      rw [(h.logPath text).mpr hon]
      exact hfill

lemma nothingLeft_iff (h : Launched template facts spec) :
    (∀ t ∈ template.texts, ∀ inner, Names t inner → ∃ v, facts.declared inner = some v) ↔
      ∀ t ∈ template.texts, ∀ inner, Names t inner → IsName inner := by
  constructor
  · intro hleft t ht inner hin
    obtain ⟨v, hv⟩ := hleft t ht inner hin
    exact (supplies_text facts []).isName inner v hv
  · intro hnam t ht inner hin
    exact h.supplied t ht inner (hnam t ht inner hin) hin

/-- A launch is its template with the facts written in, if and only if it is refused, or its
names are of the pattern and its log path is settled. -/
theorem exact_iff (template : RedskilledLaunchTemplate) (facts : RedskilledLaunchFacts)
    (projectLabel : Text) :
    Exact template facts projectLabel ↔ Refused template facts ∨ Proper template facts := by
  constructor
  · intro hexact
    by_cases href : Refused template facts
    · exact .inl href
    · right
      obtain ⟨spec, hspec⟩ := exists_of_not_refused href projectLabel
      have hlaunc := launched_of_ok hspec
      have h := hexact spec hspec
      constructor
      · exact (nothingLeft_iff hlaunc).mp h.nothingLeft
      · exact (env_exact_iff hlaunc).mp h.env
      · exact (logPath_exact_iff hlaunc).mp h.logPath
      · exact (stable_iff hlaunc).mp h.stable
  · intro hcase spec hspec
    have hlaunc := launched_of_ok hspec
    rcases hcase with (⟨t, ht, name, hisN, hin, hnone⟩ | hargv | ⟨word, hword, hempty⟩) | h
    · obtain ⟨v, hv⟩ := hlaunc.supplied t ht name hisN hin
      rw [hnone] at hv
      cases hv
    · have hfor := hlaunc.argv
      rw [hargv] at hfor
      cases hfor
    · have hfor := hlaunc.argv
      cases hargv : template.argv with
      | nil =>
        rw [hargv] at hword
        cases hword
      | cons first words =>
        rw [hargv] at hword hfor
        cases hword
        cases hfor with
        | cons hcomm _ =>
          exact absurd (hcomm.unique (supplies_text facts []).isName hempty)
            hlaunc.command
    · constructor
      · exact hlaunc.argv
      · exact (env_exact_iff hlaunc).mpr h.settable
      · exact (logPath_exact_iff hlaunc).mpr h.stated
      · exact (nothingLeft_iff hlaunc).mpr h.names
      · exact (stable_iff hlaunc).mpr h.settled

end

def oneWorker : RedskilledLaunchFacts where
  workerId := "w1".toList
  slot := "0".toList
  workspacePath := "/work".toList
  logPath := none
  workItem := none

def tierTemplate : RedskilledLaunchTemplate where
  argv := ["node".toList, braced "Tier".toList]
  env := []
  logPath := none

/-- A name with a capital letter is copied, braces and all. -/
theorem template_left_in_launch :
    ¬ ∀ (template : RedskilledLaunchTemplate) (facts : RedskilledLaunchFacts)
        (projectLabel : Text), Exact template facts projectLabel := by
  intro h
  have hspec : workerSpecFromLaunch tierTemplate oneWorker [] =
      .ok ⟨"w1".toList, [], "/work".toList, none, "node".toList, [braced "Tier".toList], []⟩ := rfl
  have hin : Names (braced "Tier".toList) "Tier".toList := ⟨by decide, infix_rfl⟩
  have hmem : braced "Tier".toList ∈ tierTemplate.texts := by decide
  obtain ⟨v, hv⟩ := (h tierTemplate oneWorker [] _ hspec).nothingLeft _ hmem _ hin
  have hnone : oneWorker.declared "Tier".toList = none := by decide
  cases hv

end Redskilled.Daemon.LaunchTemplate
