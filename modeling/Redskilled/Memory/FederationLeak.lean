import Redskilled.Foundation.NumericText
import Redskilled.Memory.Federation

/-!
# What a federation policy leaks

What the redact blocks of a file name is read off its lines here, without the flags of the
parser: the items and the inline lists below each `redact` line with the keys they stand
under, and the inline lists on the line itself. A report keeps to the policy it is given.
-/
namespace Redskilled.Memory.Federation
open Foundation List

def topLevelKey (line : Text) : Option (Text × Text) :=
  if line.head?.any (fun c => Text.isWhitespace c) then none
  else
    match line.dropWhile (· ≠ ':') with
    | [] => none
    | _ :: value => some (Text.trim (line.takeWhile (· ≠ ':')), value)

def redactName : Text := "redact".toList

def DeclaresRedact (raw : Text) : Prop :=
  ∃ line ∈ contentLines raw, (topLevelKey line).map (·.1) = some redactName

instance (raw : Text) : Decidable (DeclaresRedact raw) :=
  inferInstanceAs (Decidable (∃ line ∈ contentLines raw, _))

/-- A name, and the key it stands under where it stands under one. -/
abbrev Named := Option RedactKey × Text

/-- The text behind the colon of each `redact` line, and the lines up to the next header. -/
def redactBlocks : List Text → List (Text × List Text)
  | [] => []
  | line :: rest =>
    match topLevelKey line with
    | some (key, value) =>
      if key = redactName then
        (value, rest.takeWhile (headerName · = none)) :: redactBlocks rest
      else redactBlocks rest
    | none => redactBlocks rest

/-- The names of the items and the inline lists of a block, below a line with that key. -/
def blockNames (key : Option RedactKey) : List Text → List Named
  | [] => []
  | line :: rest =>
    match redactLine line with
    | .inlineList key values => values.map (some key, ·) ++ blockNames (some key) rest
    | .keyHeader key => blockNames (some key) rest
    | .item value => (if value = [] then [] else [(key, value)]) ++ blockNames key rest
    | .other => blockNames (if line.contains ':' then none else key) rest

/-- The key whose colon ends the text. -/
def flowKey (before : Text) : Option RedactKey :=
  let text := trimEnd before
  if text.getLast? = some ':' then
    [RedactKey.fields, RedactKey.scopes].find? fun key => key.text.isSuffixOf (trimEnd text.dropLast)
  else none

def flowNames (value : Text) : List Named :=
  let pieces := value.splitOn '['
  (pieces.zip pieces.tail).flatMap fun (before, after) =>
    (entries (after.takeWhile (· ≠ ']'))).map (flowKey before, ·)

/-- What the redact blocks of the file name. -/
def names (raw : Text) : List Named :=
  (redactBlocks (contentLines raw)).flatMap fun (value, lines) =>
    flowNames value ++ blockNames none lines

def Listed (policy : FederationRedactPolicy) : Named → Prop
  | (some .fields, name) => name ∈ policy.fields ∧ name ∈ redactableFields
  | (some .scopes, name) => name ∈ policy.scopes
  | (none, _) => False

def FederationResult.value {ν : Type*} (r : FederationResult ν) (field : Text) : Option Text :=
  if field = "excerpt".toList then r.excerpt
  else if field = "path".toList then r.path
  else if field = "id".toList then r.id
  else none

def WithinPolicy {ν : Type*} (config : FederationConfig ν) (report : FederationReport ν) : Prop :=
  (∀ result ∈ report.results, result.originRepo ∉ config.redact.scopes ∧
    ∀ field ∈ config.redact.fields, result.value field = none) ∧
  (config.redact = denyAllRedactPolicy config.roots → report.results = [])

/-- The policy is the one that the file states or the one that denies everything, and every
report keeps to it. -/
structure NeverLeaks {ν : Type*} (num : JsNumbers ν) (raw : Text) (config : FederationConfig ν) :
    Prop where
  policy : (∀ name ∈ names raw, Listed config.redact name) ∨
    config.redact = denyAllRedactPolicy config.roots
  report : ∀ (world : World ν) (rootDir query : Text) (opts : FederationOptions),
    WithinPolicy config (buildFederationReport num world rootDir query opts (some config))

section
variable {ν : Type*} {num : JsNumbers ν} {world : World ν} {config : FederationConfig ν}

lemma value_maskField (r : FederationResult ν) (field other : Text) :
    (maskField r field).value other = if other = field then none else r.value other := by
  unfold maskField FederationResult.value
  split_ifs <;> simp_all

lemma originRepo_maskField (r : FederationResult ν) (field : Text) :
    (maskField r field).originRepo = r.originRepo := by
  unfold maskField
  split_ifs <;> rfl

lemma value_foldl_maskField (fields : List Text) (r : FederationResult ν) (other : Text) :
    (fields.foldl maskField r).value other = if other ∈ fields then none else r.value other := by
  induction fields generalizing r with
  | nil => simp
  | cons field fields ih =>
    rw [foldl_cons, ih, value_maskField]
    by_cases hfield : other = field <;> simp [hfield]

lemma originRepo_foldl_maskField (fields : List Text) (r : FederationResult ν) :
    (fields.foldl maskField r).originRepo = r.originRepo := by
  induction fields generalizing r with
  | nil => rfl
  | cons field fields ih => rw [foldl_cons, ih, originRepo_maskField]

lemma value_applyRedaction {fields : List Text} (r : FederationResult ν) {field : Text}
    (h : field ∈ fields) : (applyRedaction r fields).value field = none := by
  have hne : fields ≠ [] := ne_nil_of_mem h
  rw [applyRedaction, if_neg hne, value_foldl_maskField, if_pos h]

lemma originRepo_applyRedaction (fields : List Text) (r : FederationResult ν) :
    (applyRedaction r fields).originRepo = r.originRepo := by
  unfold applyRedaction
  split_ifs
  · rfl
  · rw [originRepo_foldl_maskField]

lemma not_mem_scopes_of_hits {rootDir query : Text} {limit : ℕ} {scopes : List Text} {i : ℕ}
    {root : FederationRoot} {hits : List (RecallHit ν)}
    (h : (queryRoot world rootDir query limit scopes i root).2 = some hits) :
    root.repo ∉ scopes := by
  intro hmem
  have hcont : scopes.contains root.repo = true := contains_iff_mem.mpr hmem
  unfold queryRoot at h
  rw [if_pos hcont] at h
  cases h

lemma of_mem_results {rootDir query : Text} {opts : FederationOptions} {r : FederationResult ν}
    (h : r ∈ (buildFederationReport num world rootDir query opts (some config)).results) :
    ∃ root ∈ config.roots, root.repo ∉ config.redact.scopes ∧
      ∃ maxScore hit, r = mergedResult num config maxScore root hit := by
  unfold buildFederationReport at h
  dsimp only at h
  split_ifs at h
  · cases h
  · obtain ⟨⟨root, hits⟩, hraw, hr⟩ :=
      mem_flatMap.mp (mem_mergeSort.mp (mem_of_mem_take h))
    obtain ⟨hit, -, rfl⟩ := mem_map.mp hr
    obtain ⟨⟨root', status, found⟩, hquer, hfound⟩ := mem_filterMap.mp hraw
    obtain ⟨hits', rfl, heq⟩ := Option.map_eq_some_iff.mp hfound
    obtain ⟨⟨root'', i⟩, hzip, hquery⟩ := mem_map.mp hquer
    simp only [Prod.mk.injEq] at hquery heq
    obtain ⟨rfl, hquery⟩ := hquery
    obtain ⟨rfl, -⟩ := heq
    have hhits : (queryRoot world rootDir (Text.trim query)
        (clampLimit opts.perRootLimit defaultPerRootLimit maxLimit) config.redact.scopes i
        root'').2 = some hits' := by rw [hquery]
    exact ⟨root'', fst_mem_of_mem_zipIdx hzip, not_mem_scopes_of_hits hhits, _, hit, rfl⟩

lemma withinPolicy_report (rootDir query : Text) (opts : FederationOptions) :
    WithinPolicy config (buildFederationReport num world rootDir query opts (some config)) := by
  constructor
  · intro r hr
    obtain ⟨root, -, hscope, maxScore, hit, rfl⟩ := of_mem_results hr
    constructor
    · rw [mergedResult, originRepo_applyRedaction]
      exact hscope
    · intro field hfield
      exact value_applyRedaction _ hfield
  · intro hdeny
    rw [eq_nil_iff_forall_not_mem]
    intro r hr
    obtain ⟨root, hroot, hscope, -⟩ := of_mem_results hr
    apply hscope
    rw [hdeny]
    exact mem_map_of_mem hroot

end

def lastBlock : List Text → List Text
  | [] => []
  | line :: rest =>
    if headerName line = some redactName ∧ ∀ later ∈ rest, headerName later ≠ some redactName then
      rest.takeWhile (headerName · = none)
    else lastBlock rest

def NoInline (block : List RedactLine) : Prop := ∀ key values, .inlineList key values ∉ block

/-- The key header that an item below the block would stand under: an inline list closes it. -/
def headerAbove (block : List RedactLine) : Option RedactKey :=
  block.foldl (fun key line =>
    match line with
    | .inlineList _ _ => none
    | .keyHeader key => some key
    | _ => key) none

/-- Some line, with no inline list above it, is none of the three kinds or is an item without a
key. -/
def Refused (block : List RedactLine) : Prop :=
  ∃ above line below, block = above ++ line :: below ∧
    NoInline above ∧ (line = .other ∨ ∃ value, line = .item value ∧ headerAbove above = none)

/-- The name is in an inline list or an item of the key, with no inline list of the key below. -/
def KeptIn (block : List RedactLine) (key : RedactKey) (name : Text) : Prop :=
  ∃ above line below, block = above ++ line :: below ∧ (∀ values, .inlineList key values ∉ below) ∧
    ((∃ values, line = .inlineList key values ∧ name ∈ values) ∨
      (line = .item name ∧ name ≠ [] ∧ headerAbove above = some key))

/-- What the parser keeps of a name. -/
def Kept (block : List RedactLine) : Named → Prop
  | (some .fields, name) => name ∈ redactableFields ∧ KeptIn block .fields name
  | (some .scopes, name) => KeptIn block .scopes name
  | (none, _) => False

/-- The last block is refused, or keeps whatever the file names. -/
def PolicyKept (raw : Text) : Prop :=
  let block := (lastBlock (contentLines raw)).map redactLine
  Refused block ∨ ∀ name ∈ names raw, Kept block name

lemma exists_split_concat {α : Type*} {xs : List α} {a : α} {P : List α → α → List α → Prop} :
    (∃ above x below, xs ++ [a] = above ++ x :: below ∧ P above x below) ↔
      P xs a [] ∨ ∃ above x below, xs = above ++ x :: below ∧ P above x (below ++ [a]) := by
  constructor
  · rintro ⟨above, x, below, heq, h⟩
    rcases eq_nil_or_concat below with rfl | ⟨below, b, rfl⟩
    · obtain ⟨rfl, hx⟩ := append_inj' heq rfl
      cases hx
      exact .inl h
    · rw [concat_eq_append, ← cons_append, ← append_assoc] at heq
      obtain ⟨rfl, hb⟩ := append_inj' heq rfl
      cases hb
      exact .inr ⟨above, x, below, rfl, by rwa [concat_eq_append] at h⟩
  · rintro (h | ⟨above, x, below, rfl, h⟩)
    · exact ⟨xs, a, [], rfl, h⟩
    · exact ⟨above, x, below ++ [a], by simp, h⟩

variable {block : List RedactLine} {line raw : Text} {lines : List Text} {s t : ParseState}

lemma refused_concat {line : RedactLine} :
    Refused (block ++ [line]) ↔ Refused block ∨ (NoInline block ∧
      (line = .other ∨ ∃ value, line = .item value ∧ headerAbove block = none)) := by
  unfold Refused
  rw [exists_split_concat, or_comm]

lemma keptIn_concat {line : RedactLine} {key : RedactKey} {name : Text} :
    KeptIn (block ++ [line]) key name ↔
      (KeptIn block key name ∧ ∀ values, line ≠ .inlineList key values) ∨
      (∃ values, line = .inlineList key values ∧ name ∈ values) ∨
      (line = .item name ∧ name ≠ [] ∧ headerAbove block = some key) := by
  unfold KeptIn
  rw [exists_split_concat]
  constructor
  · rintro (⟨-, h⟩ | ⟨above, x, below, rfl, hbel, h⟩)
    · exact .inr h
    · left
      constructor
      · exact ⟨above, x, below, rfl, fun values hmem =>
          hbel values (mem_append_left _ hmem), h⟩
      · intro values heq
        exact hbel values (by simp [heq])
  · rintro (⟨⟨above, x, below, rfl, hbel, h⟩, hline⟩ | h)
    · right
      refine ⟨above, x, below, rfl, ?_, h⟩
      intro values hmem
      rcases mem_append.mp hmem with hmem | hmem
      · exact hbel values hmem
      · exact hline values (mem_singleton.mp hmem).symm
    · exact .inl ⟨by simp, h⟩

lemma headerAbove_concat (block : List RedactLine) (line : RedactLine) :
    headerAbove (block ++ [line]) =
      match line with
      | .inlineList _ _ => none
      | .keyHeader key => some key
      | _ => headerAbove block := by
  rw [headerAbove, foldl_append]
  rfl

lemma noInline_concat {line : RedactLine} :
    NoInline (block ++ [line]) ↔ NoInline block ∧ ∀ key values, line ≠ .inlineList key values := by
  simp only [NoInline, mem_append, mem_singleton, not_or, forall_and, ne_eq, eq_comm]

@[simp] lemma list_setList (s : RedactState) (values : List Text) (key other : RedactKey) :
    (s.setList values key).list other = if other = key then some values else s.list other := by
  cases key <;> cases other <;> rfl

@[simp] lemma current_setList (s : RedactState) (values : List Text) (key : RedactKey) :
    (s.setList values key).current = s.current := by
  cases key <;> rfl

@[simp] lemma inlineHandled_setList (s : RedactState) (values : List Text) (key : RedactKey) :
    (s.setList values key).inlineHandled = s.inlineHandled := by
  cases key <;> rfl

@[simp] lemma list_with (s : RedactState) (current : Option RedactKey) (handled : Bool)
    (key : RedactKey) :
    RedactState.list { s with current := current, inlineHandled := handled } key = s.list key := by
  cases key <;> rfl

/-- What the state of the parser tells about the lines it has read. -/
structure Reads (block : List RedactLine) (s : RedactState) : Prop where
  current : s.current = headerAbove block
  inlineHandled : s.inlineHandled = false ↔ NoInline block
  kept : ∀ key name, name ∈ (s.list key).getD [] ↔ KeptIn block key name
  silent : (∀ key, s.list key = none) → block = []

lemma reads_start : Reads [] redactStart where
  current := rfl
  inlineHandled := by simp [NoInline, redactStart]
  kept key name := by
    cases key <;> simp [RedactState.list, redactStart, KeptIn]
  silent _ := rfl

lemma redactStep_cases {s s' : RedactState} (h : redactStep s line = some s') :
    (∃ key values, redactLine line = .inlineList key values ∧
      s' = { s.setList values key with current := none, inlineHandled := true }) ∨
    (∃ key, redactLine line = .keyHeader key ∧
      s' = { s.setList ((s.list key).getD []) key with current := some key }) ∨
    (∃ key value, redactLine line = .item value ∧ s.current = some key ∧ value ≠ [] ∧
      s' = s.setList ((s.list key).getD [] ++ [value]) key) ∨
    (∃ key, redactLine line = .item [] ∧ s.current = some key ∧ s' = s) ∨
    ((redactLine line = .other ∨ ∃ value, redactLine line = .item value ∧ s.current = none) ∧
      (Text.trim line = [] ∨ s.inlineHandled = true) ∧ s' = s) := by
  have hleft : ∀ {t : RedactState},
      (if Text.trim line ≠ [] ∧ s.inlineHandled = false then none else some s) = some t →
        (Text.trim line = [] ∨ s.inlineHandled = true) ∧ t = s := by
    intro t ht
    split_ifs at ht with hcond
    constructor
    · by_contra hno
      rw [not_or, Bool.not_eq_true] at hno
      exact hcond hno
    · exact (Option.some.inj ht).symm
  unfold redactStep at h
  cases hline : redactLine line with
  | inlineList key values =>
    rw [hline] at h
    exact .inl ⟨key, values, rfl, (Option.some.inj h).symm⟩
  | keyHeader key =>
    rw [hline] at h
    exact .inr (.inl ⟨key, rfl, (Option.some.inj h).symm⟩)
  | item value =>
    rw [hline] at h
    cases hcurr : s.current with
    | none =>
      simp only [hcurr] at h
      exact .inr (.inr (.inr (.inr ⟨.inr ⟨value, rfl, rfl⟩, hleft h⟩)))
    | some key =>
      simp only [hcurr] at h
      split_ifs at h with hvalue
      · cases h
        exact .inr (.inr (.inr (.inl ⟨key, by rw [hvalue], rfl, rfl⟩)))
      · cases h
        exact .inr (.inr (.inl ⟨key, value, rfl, rfl, hvalue, rfl⟩))
  | other =>
    rw [hline] at h
    exact .inr (.inr (.inr (.inr ⟨.inl rfl, hleft h⟩)))

/-- A line that is not blank is refused where no inline list stands above it and it is neither a
list, nor a header, nor an item of an open key. -/
lemma Reads.redactStep_eq_none_iff {s : RedactState}
    (h : Reads block s) (hblank : Text.trim line ≠ []) :
    redactStep s line = none ↔ NoInline block ∧
      (redactLine line = .other ∨ ∃ value, redactLine line = .item value ∧
        headerAbove block = none) := by
  rw [← h.inlineHandled, ← h.current]
  unfold redactStep
  cases redactLine line with
  | inlineList key values => simp
  | keyHeader key => simp
  | item value =>
    cases hcurr : s.current with
    | none => simp [hblank]
    | some key =>
      dsimp only
      split_ifs <;> simp
  | other => simp [hblank]

lemma Reads.step {s s' : RedactState}
    (h : Reads block s) (hblank : Text.trim line ≠ []) (hs : redactStep s line = some s') :
    Reads (block ++ [redactLine line]) s' := by
  rcases redactStep_cases hs with ⟨key, values, hline, rfl⟩ | ⟨key, hline, rfl⟩ |
    ⟨key, value, hline, hcurr, hvalue, rfl⟩ | ⟨key, hline, hcurr, rfl⟩ |
    ⟨hline, hhandl, rfl⟩
  · rw [hline]
    constructor
    · rw [headerAbove_concat]
    · simp [noInline_concat]
    · intro other name
      rw [keptIn_concat, ← h.kept, list_with, list_setList]
      by_cases hkey : other = key
      · simp [hkey]
      · simp [hkey, Ne.symm hkey]
    · intro hsil
      have hlist := hsil key
      simp at hlist
  · rw [hline]
    constructor
    · rw [headerAbove_concat]
    · simpa [noInline_concat] using h.inlineHandled
    · intro other name
      rw [keptIn_concat, ← h.kept, list_with, list_setList]
      by_cases hkey : other = key <;> simp [hkey]
    · intro hsil
      have hlist := hsil key
      simp at hlist
  · rw [hline]
    have habove : headerAbove block = some key := h.current.symm.trans hcurr
    constructor
    · rw [current_setList, headerAbove_concat, h.current]
    · simpa [noInline_concat] using h.inlineHandled
    · intro other name
      rw [keptIn_concat, ← h.kept, list_setList, habove]
      by_cases hkey : other = key
      · subst hkey
        simp only [if_true, Option.getD_some, mem_append, mem_singleton]
        grind
      · simp [hkey, Ne.symm hkey]
    · intro hsil
      have hlist := hsil key
      simp at hlist
  · rw [hline]
    have habove : headerAbove block = some key := h.current.symm.trans hcurr
    constructor
    · rw [headerAbove_concat, h.current]
    · simpa [noInline_concat] using h.inlineHandled
    · intro other name
      rw [keptIn_concat, h.kept]
      grind
    · intro hsil
      have hnil := h.silent hsil
      rw [hnil] at habove
      cases habove
  · have hinl : s'.inlineHandled = true := hhandl.resolve_left hblank
    have hno : ¬ NoInline block := fun hno => by
      rw [h.inlineHandled.mpr hno] at hinl
      cases hinl
    constructor
    · rcases hline with hline | ⟨value, hline, -⟩ <;> rw [hline, headerAbove_concat, h.current]
    · rw [noInline_concat, hinl]
      simp [hno]
    · intro other name
      rw [keptIn_concat, h.kept]
      rcases hline with hline | ⟨value, hline, hcurr⟩
      · simp [hline]
      · have habove : headerAbove block = none := h.current.symm.trans hcurr
        simp [hline, habove]
    · intro hsil
      have hnil := h.silent hsil
      exact absurd (by simp [hnil, NoInline]) hno

lemma foldlM_redactStep (lines : List Text) (hblank : ∀ line ∈ lines, Text.trim line ≠ []) :
    (Refused (lines.map redactLine) ∧ lines.foldlM redactStep redactStart = none) ∨
    (¬ Refused (lines.map redactLine) ∧
      ∃ s, lines.foldlM redactStep redactStart = some s ∧ Reads (lines.map redactLine) s) := by
  induction lines using reverseRecOn with
  | nil =>
    right
    constructor
    · simp [Refused]
    · exact ⟨redactStart, rfl, reads_start⟩
  | append_singleton lines line ih =>
    have hline : Text.trim line ≠ [] := hblank line (by simp)
    rw [map_append, map_singleton, refused_concat, foldlM_append]
    rcases ih fun line hmem => hblank line (mem_append_left _ hmem) with
      ⟨href, hnone⟩ | ⟨href, s, hsome, hreads⟩
    · left
      constructor
      · exact .inl href
      · rw [hnone]
        rfl
    · have hstep : (some s >>= fun s => [line].foldlM redactStep s) = redactStep s line := by
        simp
      rw [hsome, hstep, ← hreads.redactStep_eq_none_iff hline]
      cases hnext : redactStep s line with
      | none => exact .inl ⟨.inr rfl, rfl⟩
      | some s' =>
        right
        constructor
        · simpa using href
        · exact ⟨s', rfl, hreads.step hline hnext⟩

lemma readRedactBlock_cases (lines : List Text) (hblank : ∀ line ∈ lines, Text.trim line ≠ []) :
    (Refused (lines.map redactLine) ∧ readRedactBlock lines = none) ∨
    (¬ Refused (lines.map redactLine) ∧
      ∃ policy, readRedactBlock lines = some policy ∧ policy.defaultDeny = false ∧
        ∀ name, Listed policy name ↔ Kept (lines.map redactLine) name) := by
  unfold readRedactBlock
  rcases foldlM_redactStep lines hblank with ⟨href, hnone⟩ | ⟨href, s, hsome, hreads⟩
  · left
    constructor
    · exact href
    · rw [hnone]
      rfl
  · right
    have hlist : ¬ (s.fields = none ∧ s.scopes = none ∧ lines ≠ []) := by
      rintro ⟨hfields, hscop, hne⟩
      have hnil : lines.map redactLine = [] := hreads.silent fun key => by
        cases key
        · exact hfields
        · exact hscop
      exact hne (map_eq_nil_iff.mp hnil)
    rw [hsome, Option.bind_some, if_neg hlist]
    refine ⟨href, _, rfl, rfl, ?_⟩
    rintro ⟨key, name⟩
    cases key with
    | none => rfl
    | some key =>
      cases key with
      | fields =>
        have hkept := hreads.kept .fields name
        simp only [RedactState.list] at hkept
        simp only [Listed, Kept, mem_filter, hkept, contains_iff_mem]
        tauto
      | scopes => exact hreads.kept .scopes name

lemma trim_ne_nil_of_mem (h : line ∈ contentLines raw) : Text.trim line ≠ [] := by
  simpa using (mem_filter.mp h).2

lemma mem_of_mem_lastBlock (h : line ∈ lastBlock lines) : line ∈ lines := by
  induction lines with
  | nil => exact h
  | cons first rest ih =>
    rw [lastBlock] at h
    split_ifs at h
    · exact mem_cons_of_mem _ ((takeWhile_sublist _).mem h)
    · exact mem_cons_of_mem _ (ih h)

lemma lastBlock_of_forall
    (h : ∀ line ∈ lines, headerName line ≠ some redactName) : lastBlock lines = [] := by
  induction lines with
  | nil => rfl
  | cons line rest ih =>
    have hline := h line mem_cons_self
    rw [lastBlock, if_neg (fun hcond => hline hcond.1)]
    exact ih fun later hmem => h later (mem_cons_of_mem _ hmem)

lemma map_eq_ok {ε α β : Type*} {f : α → β} {x : Except ε α} {b : β} (h : x.map f = .ok b) :
    ∃ a, x = .ok a ∧ f a = b := by
  cases x with
  | error e => cases h
  | ok a =>
    cases h
    exact ⟨a, rfl, rfl⟩

lemma bind_eq_ok {ε α β : Type} {f : α → Except ε β} {x : Except ε α} {b : β}
    (h : x >>= f = .ok b) : ∃ a, x = .ok a ∧ f a = .ok b := by
  cases x with
  | error e => cases h
  | ok a => exact ⟨a, rfl, h⟩

lemma redactBlock_flushRoot (h : flushRoot s = .ok t) :
    t.redactBlock = s.redactBlock ∧ t.place = s.place := by
  unfold flushRoot at h
  cases hroot : s.currentRoot with
  | none =>
    rw [hroot] at h
    cases h
    exact ⟨rfl, rfl⟩
  | some root =>
    rw [hroot] at h
    cases hrepo : root.repo <;> cases hpath : root.path <;> simp only [hrepo, hpath] at h
    · cases h
    · cases h
    · cases h
    · split_ifs at h
      cases h
      exact ⟨rfl, rfl⟩

lemma parseLine_cases (h : parseLine s line = .ok t) :
    (∃ name, headerName line = some name ∧ (t.place = .redact ↔ name = redactName) ∧
      t.redactBlock = if name = redactName then some [] else s.redactBlock) ∨
    (headerName line = none ∧ t.place = s.place ∧ t.redactBlock =
        if s.place = .redact then s.redactBlock.map (· ++ [line]) else s.redactBlock) := by
  unfold parseLine at h
  cases hhead : headerName line with
  | some name =>
    left
    rw [hhead] at h
    obtain ⟨u, hflush, rfl⟩ := map_eq_ok h
    obtain ⟨hblock, -⟩ := redactBlock_flushRoot hflush
    refine ⟨name, rfl, ?_⟩
    rw [← hblock]
    unfold openBlock redactName
    split_ifs <;> simp_all
  | none =>
    right
    rw [hhead] at h
    refine ⟨rfl, ?_⟩
    cases hplace : s.place with
    | roots =>
      simp only [hplace] at h
      cases hitem : itemText line with
      | some after =>
        rw [hitem] at h
        obtain ⟨u, hflush, rfl⟩ := map_eq_ok h
        simpa [hplace] using (redactBlock_flushRoot hflush).symm
      | none =>
        rw [hitem] at h
        cases h
        simp
    | redact =>
      simp only [hplace] at h
      cases h
      simp
    | trust =>
      simp only [hplace] at h
      cases h
      simp
    | none =>
      simp only [hplace] at h
      cases h
      simp [hplace]

/-- Below the last `redact` header, the block grows up to the next header. -/
lemma redactBlock_of_forall
    (h : lines.foldlM parseLine s = .ok t)
    (hlin : ∀ line ∈ lines, headerName line ≠ some redactName) :
    t.redactBlock = if s.place = .redact then
        s.redactBlock.map (· ++ lines.takeWhile (headerName · = none))
      else s.redactBlock := by
  induction lines generalizing s with
  | nil =>
    cases h
    simp
  | cons line rest ih =>
    rw [foldlM_cons] at h
    obtain ⟨u, hline, hrest⟩ := bind_eq_ok h
    rw [ih hrest fun later hmem => hlin later (mem_cons_of_mem _ hmem)]
    rcases parseLine_cases hline with ⟨name, hhead, hplace, hblock⟩ | ⟨hhead, hplace, hblock⟩
    · have hname : name ≠ redactName := by
        rintro rfl
        exact hlin line mem_cons_self hhead
      have hnot : u.place ≠ .redact := fun hred => hname (hplace.mp hred)
      rw [if_neg hnot, hblock, if_neg hname]
      simp [hhead]
    · rw [hplace, hblock]
      split_ifs
      · simp [hhead, Function.comp_def]
      · rfl

lemma redactBlock_of_exists
    (h : lines.foldlM parseLine s = .ok t)
    (hlin : ∃ line ∈ lines, headerName line = some redactName) :
    t.redactBlock = some (lastBlock lines) := by
  induction lines generalizing s with
  | nil =>
    obtain ⟨line, hmem, -⟩ := hlin
    cases hmem
  | cons line rest ih =>
    rw [foldlM_cons] at h
    obtain ⟨u, hline, hrest⟩ := bind_eq_ok h
    by_cases hlat : ∃ later ∈ rest, headerName later = some redactName
    · rw [ih hrest hlat, lastBlock, if_neg]
      rintro ⟨-, hnone⟩
      obtain ⟨later, hmem, hhead⟩ := hlat
      exact hnone later hmem hhead
    · push Not at hlat
      have hhead : headerName line = some redactName := by
        obtain ⟨first, hmem, hfirst⟩ := hlin
        rcases mem_cons.mp hmem with rfl | hmem
        · exact hfirst
        · exact absurd hfirst (hlat first hmem)
      rw [redactBlock_of_forall hrest hlat]
      rcases parseLine_cases hline with ⟨name, hname, hplace, hblock⟩ | ⟨hnone, -⟩
      · obtain rfl : redactName = name := Option.some.inj (hhead.symm.trans hname)
        rw [if_pos (hplace.mpr rfl), hblock, if_pos rfl, lastBlock, if_pos ⟨hhead, hlat⟩]
        rfl
      · rw [hhead] at hnone
        cases hnone

/-- The policy is the one of the last block, which is empty where there is none. -/
lemma redact_eq_parseRedactBlock {ν : Type*} {num : JsNumbers ν}
    {config : FederationConfig ν} (h : parseFederationYaml num raw = .ok config) :
    config.redact = parseRedactBlock (lastBlock (contentLines raw)) config.roots := by
  unfold parseFederationYaml at h
  obtain ⟨t, hbind, rfl⟩ := map_eq_ok h
  obtain ⟨s, hfold, hflush⟩ := bind_eq_ok hbind
  have hblock := (redactBlock_flushRoot hflush).1
  unfold finish
  dsimp only
  rw [hblock]
  by_cases hexists : ∃ line ∈ contentLines raw, headerName line = some redactName
  · rw [redactBlock_of_exists hfold hexists]
    rfl
  · push Not at hexists
    rw [redactBlock_of_forall hfold hexists, lastBlock_of_forall hexists]
    rfl

lemma policy_iff {ν : Type*} {num : JsNumbers ν} {config : FederationConfig ν}
    (h : parseFederationYaml num raw = .ok config) :
    ((∀ name ∈ names raw, Listed config.redact name) ∨
      config.redact = denyAllRedactPolicy config.roots) ↔ PolicyKept raw := by
  have hblank : ∀ line ∈ lastBlock (contentLines raw), Text.trim line ≠ [] := fun line hmem =>
    trim_ne_nil_of_mem (mem_of_mem_lastBlock hmem)
  rw [redact_eq_parseRedactBlock h]
  unfold PolicyKept parseRedactBlock
  rcases readRedactBlock_cases _ hblank with ⟨href, hnone⟩ | ⟨href, policy, hsome, hdeny, hkept⟩
  · rw [hnone]
    constructor
    · intro _
      exact .inl href
    · intro _
      exact .inr rfl
  · have hne : policy ≠ denyAllRedactPolicy config.roots := by
      rintro rfl
      cases hdeny
    rw [hsome, Option.getD_some]
    constructor
    · intro hpol
      exact .inr fun name hmem => (hkept name).mp (hpol.resolve_right hne name hmem)
    · intro hpol
      exact .inl fun name hmem => (hkept name).mpr (hpol.resolve_left href name hmem)

def decimal (text : Text) : Option ℚ :=
  match text.splitOn '.' with
  | [whole] => (Text.readDigits whole).map fun n => (n : ℚ)
  | [whole, fraction] =>
    (Text.readDigits (whole ++ fraction)).map fun n => (n : ℚ) / 10 ^ fraction.length
  | _ => none

/-- The rational numbers, which are the numbers of the language as far as they are exact. -/
def rationalNumbers : JsNumbers ℚ where
  read := decimal
  isFinite _ := true
  lt a b := a < b
  same a b := a = b
  max := Max.max
  mul a b := a * b
  div a b := a / b
  round a := ⌊a + 1 / 2⌋
  zero := 0
  half := 1 / 2
  one := 1
  thousand := 1000

def fileOf (lines : List String) : Text := "\n".toList.intercalate (lines.map String.toList)

def oneRoot : List String := ["roots:", "  - repo: a", "    path: /a"]

def properFile : Text :=
  fileOf (oneRoot ++
    ["redact: # what leaves this host", "  scopes: [b, \"c\"]", "  fields:", "    - excerpt", "    - path # of the note"])

instance (policy : FederationRedactPolicy) : DecidablePred (Listed policy)
  | (some .fields, name) => inferInstanceAs (Decidable (name ∈ policy.fields ∧ name ∈ redactableFields))
  | (some .scopes, name) => inferInstanceAs (Decidable (name ∈ policy.scopes))
  | (none, _) => inferInstanceAs (Decidable False)

lemma redact_of_toOption {policy : FederationRedactPolicy}
    (h : (parseFederationYaml rationalNumbers raw).toOption.map (·.redact) = some policy) :
    ∃ config, parseFederationYaml rationalNumbers raw = .ok config ∧ config.redact = policy := by
  cases hparse : parseFederationYaml rationalNumbers raw with
  | error e =>
    rw [hparse] at h
    cases h
  | ok config =>
    rw [hparse] at h
    exact ⟨config, rfl, Option.some.inj h⟩

def properPolicy : FederationRedactPolicy :=
  { fields := ["excerpt".toList, "path".toList], scopes := ["b".toList, "c".toList]
    defaultDeny := false }

/-- A field that is misspelt, an item below an inline list, a list that another replaces, a list
on the line of the header, and a second block. -/
def leakingFiles : List Text :=
  [["redact:", "  fields:", "    - excerp"],
    ["redact:", "  fields: [path]", "    - id"],
    ["redact:", "  scopes: [a]", "  scopes: [b]"],
    ["redact: \x7bfields: [path]\x7d"],
    ["redact:", "  scopes: [a]", "redact:", "  fields: [path]"]].map fun lines =>
      fileOf (oneRoot ++ lines)

lemma leaks_of_mem {file : Text} (hfile : file ∈ leakingFiles) :
    ∃ config, parseFederationYaml rationalNumbers file = .ok config ∧
      DeclaresRedact file ∧ ¬ NeverLeaks rationalNumbers file config := by
  have hfil : ∀ file ∈ leakingFiles, DeclaresRedact file ∧
      ∃ policy ∈ (parseFederationYaml rationalNumbers file).toOption.map (·.redact),
        policy.defaultDeny = false ∧ ∃ name ∈ names file, ¬ Listed policy name := by
    decide +kernel
  obtain ⟨hdecl, policy, hpol, hdeny, name, hname, hlisted⟩ := hfil file hfile
  obtain ⟨config, hparse, hred⟩ := redact_of_toOption hpol
  refine ⟨config, hparse, hdecl, ?_⟩
  intro hleaks
  rcases hleaks.policy with hall | hall
  · rw [hred] at hall
    exact hlisted (hall name hname)
  · rw [hred] at hall
    rw [hall] at hdeny
    cases hdeny

end Redskilled.Memory.Federation
