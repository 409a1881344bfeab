import Redskilled.Foundation.JsText
import Redskilled.Foundation.JsMap
import Mathlib.Data.List.TakeDrop

/-!
# The claim marker

The wire format of `claim.ts`: a claimant posts a comment whose first line is
an HTML comment with space-delimited `key=value` fields and whose second line
is for humans. `parseClaimRecords` reads the fields back out of any comment
list and skips what is not a marker.
-/
namespace Redskilled.Tracker.ClaimMarker
open Foundation Foundation.Text List Option

inductive ClaimKind where
  | claim | concede
  deriving DecidableEq

inductive ConcedeReason where
  | lost | released | stale | unspecified

inductive Runner where
  | claude | codex | hermes | opencode | claudeMinimax

def ClaimKind.text : ClaimKind → Text
  | .claim => "claim".toList
  | .concede => "concede".toList

def ConcedeReason.text : ConcedeReason → Text
  | .lost => "lost".toList
  | .released => "released".toList
  | .stale => "stale".toList
  | .unspecified => "unspecified".toList

def Runner.text : Runner → Text
  | .claude => "claude".toList
  | .codex => "codex".toList
  | .hermes => "hermes".toList
  | .opencode => "opencode".toList
  | .claudeMinimax => "claude-minimax".toList

def concedeWording : ConcedeReason → Text
  | .lost => "lost the claim race to an earlier claimant".toList
  | .released => "released the claim it held".toList
  | .stale => "was released after its heartbeat exceeded the staleness window".toList
  | .unspecified => "lost the claim race or released".toList

structure ClaimRecord where
  commentId : Nat
  worker : Text
  kind : ClaimKind
  runner : Option Text
  createdAt : Option Text
  deriving DecidableEq

/-- A raw issue comment; `id` is assigned by the server. -/
structure RawClaimComment where
  id : Nat
  body : Text
  createdAt : Option Text

/-- A character of a printed number: digits, signs, a point, an exponent, `NaN` and
`Infinity`. -/
def isNumberChar (c : Char) : Bool := c.isDigit || "+-.eNaInfity".toList.contains c

structure NumberText where
  text : Text
  printed : ∀ c ∈ text, isNumberChar c = true

def NumberText.ofNat (n : Nat) : NumberText where
  text := number n
  printed c hc := by rw [isNumberChar, isDigit_of_mem_number hc, Bool.true_or]

structure MarkerSelf where
  worker : Text
  runner : Option Text := none
  createdAt : Option Text := none
  concededBy : Option Text := none
  lastHeartbeatAt : Option Text := none
  heartbeatAgeS : Option NumberText := none

def claimMarkerVersion : Nat := 1

def markerOpen : Text := "<!-- afk:claim".toList

/-- `value.replace(/[\s>]/g, "_")`. -/
def escapeField (value : Text) : Text :=
  value.map fun c => if Text.isWhitespace c || c == '>' then '_' else c

def truthy (t : Option Text) : Option Text := t.filter fun s => !s.isEmpty

/-- The fields only a concede carries: why, and the staleness evidence. -/
def concedeFields (self : MarkerSelf) (kind : ClaimKind) (reason : Option ConcedeReason) :
    List (Text × Text) :=
  if kind = .concede then
    (reason.map fun r => ("reason".toList, escapeField r.text)).toList ++
      ((truthy self.concededBy).map fun by' => ("by".toList, escapeField by')).toList ++
      ((truthy self.lastHeartbeatAt).map fun at' =>
        ("last-heartbeat".toList, escapeField at')).toList ++
      (self.heartbeatAgeS.map fun age => ("heartbeat-age-s".toList, age.text)).toList
  else []

def runnerField (self : MarkerSelf) : List (Text × Text) :=
  ((truthy self.runner).map fun r => ("runner".toList, escapeField r)).toList

def tsField (self : MarkerSelf) : List (Text × Text) :=
  ((truthy self.createdAt).map fun ts => ("ts".toList, escapeField ts)).toList

def keyedFields (self : MarkerSelf) (kind : ClaimKind) (reason : Option ConcedeReason) :
    List (Text × Text) :=
  ("worker".toList, escapeField self.worker) :: ("kind".toList, kind.text) ::
    (concedeFields self kind reason ++ runnerField self ++ tsField self)

def renderField (field : Text × Text) : Text := field.1 ++ '=' :: field.2

def markerFields (self : MarkerSelf) (kind : ClaimKind) (reason : Option ConcedeReason) :
    List Text :=
  ('v' :: number claimMarkerVersion) :: (keyedFields self kind reason).map renderField

def claimLine (self : MarkerSelf) : Text :=
  "🤖 AFK claim by worker `".toList ++ self.worker ++ "`".toList ++
    ((truthy self.runner).elim [] fun r => " (runner `".toList ++ r ++ "`)".toList) ++ ".".toList

def behalfLine (self : MarkerSelf) (concededBy : Text) : Text :=
  "🤖 AFK worker `".toList ++ self.worker ++ "` was conceded on behalf by `".toList ++
    concededBy ++ "` (".toList ++ concedeWording .stale ++
    ((truthy self.lastHeartbeatAt).elim [] fun at' =>
      "; last heartbeat `".toList ++ at' ++ "`".toList) ++
    (self.heartbeatAgeS.elim [] fun age => "; age ".toList ++ age.text ++ "s".toList) ++
    ").".toList

def concedeLine (self : MarkerSelf) (reason : Option ConcedeReason) : Text :=
  "🤖 AFK worker `".toList ++ self.worker ++ "` conceded this issue (".toList ++
    concedeWording (reason.getD .unspecified) ++ ").".toList

def humanLine (self : MarkerSelf) (kind : ClaimKind) (reason : Option ConcedeReason) : Text :=
  match kind, reason, truthy self.concededBy with
  | .claim, _, _ => claimLine self
  | .concede, some .stale, some concededBy => behalfLine self concededBy
  | .concede, _, _ => concedeLine self reason

def markerText (self : MarkerSelf) (kind : ClaimKind) (reason : Option ConcedeReason) : Text :=
  List.intercalate [' '] (markerFields self kind reason)

def renderClaimComment (self : MarkerSelf) (kind : ClaimKind) (reason : Option ConcedeReason) :
    Text :=
  markerOpen ++ ' ' :: (markerText self kind reason ++ ' ' :: ("-->".toList ++
    '\n' :: humanLine self kind reason))

def renderConcedeOnBehalf (owner evictor : Text) (lastHeartbeatAt : Option Text)
    (heartbeatAgeS : Option NumberText) : Text :=
  renderClaimComment { worker := owner, concededBy := some evictor, lastHeartbeatAt,
                       heartbeatAgeS } .concede (some .stale)

/-- `\s*-->` at the start of the text. -/
def closeAt (t : Text) : Option Text :=
  "-->".toList.isPrefixOf? (t.dropWhile Text.isWhitespace)

/-- The lazy group `([^>]*?)` up to the first place where the marker closes. -/
def lazyGroup : Text → Option (Text × Text)
  | [] => none
  | c :: t =>
    (closeAt (c :: t)).elim
      (if c = '>' then none else (lazyGroup t).map fun m => (c :: m.1, m.2))
      fun rest => some ([], rest)

/-- `MARKER_RE` anchored at the start of the text. -/
def matchMarker (t : Text) : Option (Text × Text) := do
  let t ← "<!--".toList.isPrefixOf? t
  let t ← "afk:claim".toList.isPrefixOf? (t.dropWhile Text.isWhitespace)
  if t.head?.any Text.isWhitespace then lazyGroup (t.dropWhile Text.isWhitespace) else none

/-- The groups of all matches of `MARKER_RE`, left to right. -/
def markersIn : Nat → Text → List Text
  | 0, _ => []
  | _ + 1, [] => []
  | fuel + 1, c :: t =>
    match matchMarker (c :: t) with
    | some (g, rest) => g :: markersIn fuel rest
    | none => markersIn fuel t

def parseField (tok : Text) : Option (Text × Text) :=
  match tok.span (· != '=') with
  | (c :: key, _ :: value) => some (c :: key, value)
  | _ => none

def parseFields (raw : Text) : JsMap Text Text :=
  ((Text.splitWhitespace raw).filterMap parseField).foldl (fun m f => JsMap.set m f.1 f.2) ∅

/-- One match of the marker as a record; a marker without a worker is skipped. -/
def recordOf (c : RawClaimComment) (marker : Text) : Option ClaimRecord :=
  let fields := parseFields marker
  match truthy (fields.lookup "worker".toList) with
  | none => none
  | some worker =>
    some {
      commentId := c.id
      worker
      kind := if fields.lookup "kind".toList = some "concede".toList then .concede else .claim
      runner := fields.lookup "runner".toList
      createdAt := (fields.lookup "ts".toList).or c.createdAt }

def parseClaimRecords (comments : List RawClaimComment) : List ClaimRecord :=
  comments.flatMap fun c => (markersIn c.body.length c.body).filterMap (recordOf c)

def Clean (t : Text) : Prop := Text.WhitespaceFree t ∧ '>' ∉ t

instance (t : Text) : Decidable (Clean t) := inferInstanceAs (Decidable (_ ∧ _))

lemma clean_escapeField (v : Text) : Clean (escapeField v) := by
  refine ⟨?_, ?_⟩
  · intro c hc
    obtain ⟨d, -, rfl⟩ := mem_map.mp hc
    split_ifs with h
    · decide
    · exact (Bool.or_eq_false_iff.mp (Bool.eq_false_iff.mpr h)).1
  · intro hc
    obtain ⟨d, -, hd⟩ := mem_map.mp hc
    split_ifs at hd with h
    · exact absurd hd (by decide)
    · simp [hd] at h

lemma escapeField_of_clean {v : Text} (h : Clean v) : escapeField v = v := by
  unfold escapeField
  conv_rhs => rw [← map_id v]
  refine map_congr_left fun c hc => ?_
  have hw := h.1 c hc
  have hg : c ≠ '>' := fun hcg => h.2 (hcg ▸ hc)
  simp [hw, hg]

variable {c : Char} {f m : Text × Text} {kind : ClaimKind} {reason : Option ConcedeReason}
  {self : MarkerSelf} {t : Text}

lemma closeAt_eq_some {rest : Text} :
    closeAt t = some rest ↔ "-->".toList ++ rest = t.dropWhile Text.isWhitespace :=
  isPrefixOf?_eq_some_iff_append_eq

lemma lazyGroup_stop {rest : Text} (h : closeAt (c :: t) = some rest) :
    lazyGroup (c :: t) = some ([], rest) := by
  rw [lazyGroup, h, elim_some]

lemma lazyGroup_skip (h : closeAt (c :: t) = none) (hc : c ≠ '>') :
    lazyGroup (c :: t) = (lazyGroup t).map fun m => (c :: m.1, m.2) := by
  rw [lazyGroup, h]
  exact if_neg hc

lemma not_close {f : Text} (hf : '>' ∉ f) (hne : f ≠ [])
    (hlast : ∀ c ∈ f.getLast?, Text.isWhitespace c = false) (tail : Text) :
    closeAt (f ++ ' ' :: tail) = none := by
  have hg : f.dropWhile Text.isWhitespace ≠ [] := by
    intro hnil
    rw [dropWhile_eq_nil_iff] at hnil
    have hl := hlast (f.getLast hne) (getLast?_eq_some_getLast hne)
    exact absurd (hnil _ (getLast_mem hne)) (by simp [hl])
  have hgt : '>' ∉ f.dropWhile Text.isWhitespace :=
    fun h => hf ((dropWhile_sublist _).subset h)
  refine eq_none_iff_forall_not_mem.mpr fun rest hrest => ?_
  rw [mem_def, closeAt_eq_some, dropWhile_append, if_neg (by simpa using hg)] at hrest
  generalize f.dropWhile Text.isWhitespace = g at hg hgt hrest
  match g, hg, hgt with
  | [a], _, _ => simp at hrest
  | [a, b], _, _ => simp at hrest
  | a :: b :: c :: g, _, hgt =>
    have hc : '>' ≠ c := fun h => hgt (by rw [h]; simp)
    simp [hc] at hrest

lemma lazyGroup_append {f : Text} (hf : '>' ∉ f)
    (hlast : ∀ c ∈ f.getLast?, Text.isWhitespace c = false) (tail : Text) :
    lazyGroup (f ++ ' ' :: ("-->".toList ++ tail)) = some (f, tail) := by
  induction f with
  | nil =>
    apply lazyGroup_stop
    rw [closeAt_eq_some]
    have hs : Text.isWhitespace ' ' = true := by decide
    have hd : Text.isWhitespace '-' = false := by decide
    simp [hs, hd]
  | cons c f ih =>
    have hc : c ≠ '>' := fun h => hf (by simp [h])
    have hrest := ih (fun h => hf (by simp [h])) fun d hd => hlast d (by
      cases f with
      | nil => simp at hd
      | cons a f => simpa using hd)
    have hskip := not_close hf (by simp) hlast ("-->".toList ++ tail)
    exact (lazyGroup_skip hskip hc).trans (congrArg _ hrest)

lemma gt_mem_of_lazyGroup (h : lazyGroup t = some m) :
    '>' ∈ t := by
  induction t generalizing m with
  | nil => simp [lazyGroup] at h
  | cons c t ih =>
    rw [lazyGroup] at h
    cases hp : closeAt (c :: t) with
    | some rest =>
      have hd := closeAt_eq_some.mp hp
      have hm : '>' ∈ (c :: t).dropWhile Text.isWhitespace := by rw [← hd]; simp
      exact (dropWhile_sublist _).subset hm
    | none =>
      rw [hp, elim_none] at h
      split_ifs at h with hc
      obtain ⟨m', hm', -⟩ := map_eq_some_iff.mp h
      exact mem_cons_of_mem _ (ih hm')

lemma gt_mem_of_matchMarker (h : matchMarker t = some m) :
    '>' ∈ t := by
  simp only [matchMarker, bind_eq_bind, bind_eq_some_iff] at h
  obtain ⟨t₁, h₁, t₂, h₂, h⟩ := h
  split_ifs at h
  have hm := (dropWhile_sublist _).subset (gt_mem_of_lazyGroup h)
  rw [isPrefixOf?_eq_some_iff_append_eq] at h₁ h₂
  have hm₁ : '>' ∈ t₁.dropWhile Text.isWhitespace := by
    rw [← h₂]; exact mem_append_right _ hm
  rw [← h₁]
  exact mem_append_right _ ((dropWhile_sublist _).subset hm₁)

lemma markersIn_eq_nil (h : '>' ∉ t) (fuel : Nat) : markersIn fuel t = [] := by
  induction fuel generalizing t with
  | zero => rfl
  | succ fuel ih =>
    cases t with
    | nil => rfl
    | cons c t =>
      have hnone : matchMarker (c :: t) = none :=
        eq_none_iff_forall_not_mem.mpr fun m hm => h (gt_mem_of_matchMarker hm)
      rw [markersIn, hnone]
      exact ih fun hm => h (mem_cons_of_mem _ hm)

lemma markerOpen_eq : markerOpen = "<!--".toList ++ ' ' :: "afk:claim".toList := by decide

lemma matchMarker_append {f : Text} (hc : Text.isWhitespace c = false)
    (hf : '>' ∉ c :: f) (hlast : ∀ d ∈ (c :: f).getLast?, Text.isWhitespace d = false)
    (tail : Text) :
    matchMarker (markerOpen ++ ' ' :: ((c :: f) ++ ' ' :: ("-->".toList ++ tail))) =
      some (c :: f, tail) := by
  have hl := lazyGroup_append hf hlast tail
  have hu : ((c :: f) ++ ' ' :: ("-->".toList ++ tail)).dropWhile Text.isWhitespace =
      (c :: f) ++ ' ' :: ("-->".toList ++ tail) :=
    dropWhile_cons_of_neg (by simp [hc])
  generalize (c :: f) ++ ' ' :: ("-->".toList ++ tail) = u at hl hu ⊢
  have hs : Text.isWhitespace ' ' = true := by decide
  have hopen : "<!--".toList.isPrefixOf? (markerOpen ++ ' ' :: u) =
      some (' ' :: ("afk:claim".toList ++ ' ' :: u)) := by
    rw [isPrefixOf?_eq_some_iff_append_eq, markerOpen_eq, append_assoc]
    rfl
  have hdrop : (' ' :: ("afk:claim".toList ++ ' ' :: u)).dropWhile Text.isWhitespace =
      "afk:claim".toList ++ ' ' :: u := by
    have ha : "afk:claim".toList = 'a' :: "fk:claim".toList := by decide
    rw [dropWhile_cons_of_pos hs, ha]
    exact dropWhile_cons_of_neg (by decide)
  have hword : "afk:claim".toList.isPrefixOf? ("afk:claim".toList ++ ' ' :: u) =
      some (' ' :: u) := isPrefixOf?_eq_some_iff_append_eq.mpr rfl
  have hspace : (' ' :: u).dropWhile Text.isWhitespace = u := by
    rw [dropWhile_cons_of_pos hs, hu]
  simp only [matchMarker, bind_eq_bind, hopen, bind_some, hdrop, hword, hspace,
    head?_cons, any_some, hs, if_true, hl]

lemma isWhitespace_of_isNumberChar (h : isNumberChar c = true) : Text.isWhitespace c = false := by
  rcases Bool.or_eq_true_iff.mp h with hdig | hsign
  · exact isWhitespace_of_isDigit hdig
  · have hall : "+-.eNaInfity".toList.all (fun d => !Text.isWhitespace d) = true := by decide
    simpa using all_eq_true.mp hall c (contains_iff_mem.mp hsign)

lemma NumberText.clean (n : NumberText) : Clean n.text := by
  constructor
  · intro c hc
    exact isWhitespace_of_isNumberChar (n.printed c hc)
  · intro hgt
    exact absurd (n.printed _ hgt) (by decide)

/-- A key that `parseField` finds again. -/
def FieldKey (k : Text) : Prop := k ≠ [] ∧ '=' ∉ k ∧ Clean k

instance (k : Text) : Decidable (FieldKey k) := inferInstanceAs (Decidable (_ ∧ _ ∧ _))

lemma clean_kind (k : ClaimKind) : Clean k.text := by cases k <;> decide

def concedeKeys : List Text :=
  ["reason".toList, "by".toList, "last-heartbeat".toList, "heartbeat-age-s".toList]

lemma concedeFields_keys
    (hf : f ∈ concedeFields self kind reason) :
    f.1 ∈ concedeKeys ∧ Clean f.2 := by
  unfold concedeFields at hf
  split_ifs at hf
  · simp only [mem_append, mem_toList, map_eq_some_iff] at hf
    rcases hf with ((⟨r, -, rfl⟩ | ⟨by', -, rfl⟩) | ⟨at', -, rfl⟩) | ⟨age, -, rfl⟩
    · exact ⟨by simp [concedeKeys], clean_escapeField _⟩
    · exact ⟨by simp [concedeKeys], clean_escapeField _⟩
    · exact ⟨by simp [concedeKeys], clean_escapeField _⟩
    · exact ⟨by simp [concedeKeys], age.clean⟩
  · simp at hf

lemma runnerField_keys (hf : f ∈ runnerField self) :
    f.1 = "runner".toList ∧ Clean f.2 := by
  simp only [runnerField, mem_toList, map_eq_some_iff] at hf
  obtain ⟨r, -, rfl⟩ := hf
  exact ⟨rfl, clean_escapeField _⟩

lemma tsField_keys (hf : f ∈ tsField self) :
    f.1 = "ts".toList ∧ Clean f.2 := by
  simp only [tsField, mem_toList, map_eq_some_iff] at hf
  obtain ⟨r, -, rfl⟩ := hf
  exact ⟨rfl, clean_escapeField _⟩

lemma optionalKeys
    (hf : f ∈ concedeFields self kind reason ++ runnerField self ++ tsField self) :
    f.1 ∈ concedeKeys ++ ["runner".toList, "ts".toList] := by
  simp only [mem_append] at hf
  rcases hf with (h | h) | h
  · exact mem_append_left _ (concedeFields_keys h).1
  · rw [(runnerField_keys h).1]; decide
  · rw [(tsField_keys h).1]; decide

lemma keyedFields_clean
    (hf : f ∈ keyedFields self kind reason) : FieldKey f.1 ∧ Clean f.2 := by
  have hkeys : ∀ k ∈ concedeKeys, FieldKey k := by decide
  simp only [keyedFields, mem_cons, mem_append] at hf
  rcases hf with rfl | rfl | (h | h) | h
  · exact ⟨show FieldKey "worker".toList by decide, clean_escapeField _⟩
  · exact ⟨show FieldKey "kind".toList by decide, clean_kind _⟩
  · exact ⟨hkeys _ (concedeFields_keys h).1, (concedeFields_keys h).2⟩
  · obtain ⟨hk, hv⟩ := runnerField_keys h
    exact ⟨hk ▸ by decide, hv⟩
  · obtain ⟨hk, hv⟩ := tsField_keys h
    exact ⟨hk ▸ by decide, hv⟩

lemma clean_append {s : Text} : Clean (s ++ t) ↔ Clean s ∧ Clean t := by
  simp only [Clean, Text.whitespaceFree_append, mem_append, not_or]
  tauto

lemma clean_renderField (h : FieldKey f.1 ∧ Clean f.2) : Clean (renderField f) := by
  have heq : Clean ['='] := by decide
  exact clean_append.mpr ⟨h.1.2.2, clean_append.mpr ⟨heq, h.2⟩⟩

lemma markerFields_clean
    {w : Text} (hw : w ∈ markerFields self kind reason) : Clean w ∧ w ≠ [] := by
  simp only [markerFields, mem_cons, List.mem_map] at hw
  rcases hw with rfl | ⟨f, hf, rfl⟩
  · decide
  · exact ⟨clean_renderField (keyedFields_clean hf), by simp [renderField]⟩

lemma parseField_renderField (h : FieldKey f.1) : parseField (renderField f) = some f := by
  obtain ⟨k, v⟩ := f
  obtain ⟨hne, heq, -⟩ := h
  have hspan : (k ++ '=' :: v).span (· != '=') = (k, '=' :: v) := by
    have hall : ∀ c ∈ k, (c != '=') = true := fun c hc => by
      simpa using fun h : c = '=' => heq (h ▸ hc)
    rw [span_eq_takeWhile_dropWhile, takeWhile_append_of_pos hall, dropWhile_append_of_pos hall]
    simp
  obtain ⟨c, k', rfl⟩ := exists_cons_of_ne_nil hne
  simp only [parseField, renderField]
  rw [hspan]

lemma parseFields_markerText (self : MarkerSelf) (kind : ClaimKind)
    (reason : Option ConcedeReason) :
    parseFields (markerText self kind reason) =
      (keyedFields self kind reason).foldl (fun m f => JsMap.set m f.1 f.2) ∅ := by
  have hspl := @Text.splitWhitespace_intercalate (markerFields self kind reason)
    (by simp [markerFields]) fun w hw =>
      ⟨(markerFields_clean hw).1.1, (markerFields_clean hw).2⟩
  have hvers : parseField ('v' :: number claimMarkerVersion) = none := by decide
  have hfields : ((keyedFields self kind reason).map renderField).filterMap parseField =
      keyedFields self kind reason := by
    rw [filterMap_map]
    conv_rhs => rw [← filterMap_some (l := keyedFields self kind reason)]
    exact filterMap_congr fun f hf => parseField_renderField (keyedFields_clean hf).1
  rw [parseFields, markerText, hspl, markerFields, filterMap_cons_none hvers, hfields]

lemma lookup_foldl_set {fs : List (Text × Text)} {k : Text} (m : JsMap Text Text)
    (h : ∀ f ∈ fs, f.1 ≠ k) :
    (fs.foldl (fun m f => JsMap.set m f.1 f.2) m).lookup k = m.lookup k := by
  induction fs generalizing m with
  | nil => rfl
  | cons f fs ih =>
    rw [foldl_cons, ih _ fun g hg => h g (mem_cons_of_mem _ hg)]
    exact JsMap.lookup_set_ne m f.2 (h f mem_cons_self).symm

section
variable (self : MarkerSelf) (kind : ClaimKind) (reason : Option ConcedeReason)

lemma lookup_worker :
    (parseFields (markerText self kind reason)).lookup "worker".toList =
      some (escapeField self.worker) := by
  rw [parseFields_markerText, keyedFields, foldl_cons, foldl_cons, lookup_foldl_set]
  · rw [JsMap.lookup_set_ne _ _ (show "worker".toList ≠ "kind".toList by decide),
      JsMap.lookup_set_self]
  · exact fun f hf => ne_of_mem_of_not_mem (optionalKeys hf) (by decide)

lemma lookup_kind :
    (parseFields (markerText self kind reason)).lookup "kind".toList = some kind.text := by
  rw [parseFields_markerText, keyedFields, foldl_cons, foldl_cons, lookup_foldl_set]
  · exact JsMap.lookup_set_self _ _ _
  · exact fun f hf => ne_of_mem_of_not_mem (optionalKeys hf) (by decide)

lemma lookup_head_none {k : Text} (hw : k ≠ "worker".toList) (hk : k ≠ "kind".toList)
    (hc : k ∉ concedeKeys) :
    ((concedeFields self kind reason).foldl (fun m f => JsMap.set m f.1 f.2)
      (JsMap.set (JsMap.set ∅ "worker".toList (escapeField self.worker)) "kind".toList
        kind.text)).lookup k = none := by
  rw [lookup_foldl_set, JsMap.lookup_set_ne _ _ hk, JsMap.lookup_set_ne _ _ hw]
  · rfl
  · exact fun f hf => ne_of_mem_of_not_mem (concedeFields_keys hf).1 hc

lemma lookup_runner :
    (parseFields (markerText self kind reason)).lookup "runner".toList =
      (truthy self.runner).map escapeField := by
  rw [parseFields_markerText, keyedFields, foldl_cons, foldl_cons, foldl_append,
    foldl_append, lookup_foldl_set]
  · have hnone := lookup_head_none self kind reason (k := "runner".toList) (by decide)
      (by decide) (by decide)
    cases hr : truthy self.runner with
    | none =>
      simp only [runnerField, hr, map_none, toList_none, foldl_nil]
      exact hnone
    | some r =>
      simp only [runnerField, hr, map_some, toList_some, foldl_cons, foldl_nil]
      exact JsMap.lookup_set_self _ _ _
  · intro f hf
    rw [(tsField_keys hf).1]
    decide

lemma lookup_ts :
    (parseFields (markerText self kind reason)).lookup "ts".toList =
      (truthy self.createdAt).map escapeField := by
  rw [parseFields_markerText, keyedFields, foldl_cons, foldl_cons, foldl_append, foldl_append]
  cases hr : truthy self.createdAt with
  | none =>
    simp only [tsField, hr, map_none, toList_none, foldl_nil]
    rw [lookup_foldl_set]
    · exact lookup_head_none self kind reason (by decide) (by decide) (by decide)
    · intro f hf
      rw [(runnerField_keys hf).1]
      decide
  | some ts =>
    simp only [tsField, hr, map_some, toList_some, foldl_cons, foldl_nil]
    exact JsMap.lookup_set_self _ _ _

end

def recordFor (c : RawClaimComment) (self : MarkerSelf) (kind : ClaimKind) : ClaimRecord :=
  { commentId := c.id
    worker := escapeField self.worker
    kind
    runner := (truthy self.runner).map escapeField
    createdAt := ((truthy self.createdAt).map escapeField).or c.createdAt }

lemma intercalate_clean {ws : List Text} (h : ∀ w ∈ ws, Clean w ∧ w ≠ []) :
    '>' ∉ List.intercalate [' '] ws ∧
      ∀ d ∈ (List.intercalate [' '] ws).getLast?, Text.isWhitespace d = false := by
  induction ws with
  | nil => simp [intercalate]
  | cons w ws ih =>
    obtain ⟨⟨hfree, hgt⟩, hne⟩ := h w mem_cons_self
    cases ws with
    | nil =>
      have hw : intercalate [' '] [w] = w := by simp [intercalate]
      rw [hw]
      exact ⟨hgt, fun d hd => hfree d (mem_of_getLast? hd)⟩
    | cons v vs =>
      obtain ⟨hgt', hlast⟩ := ih fun x hx => h x (mem_cons_of_mem _ hx)
      have hne' : intercalate [' '] (v :: vs) ≠ [] := by
        have hv := (h v (by simp)).2
        cases vs <;> simp [intercalate, hv]
      have hcons : intercalate [' '] (w :: v :: vs) =
          w ++ ' ' :: intercalate [' '] (v :: vs) := by
        simp [intercalate]
      rw [hcons]
      refine ⟨?_, ?_⟩
      · simp only [mem_append, mem_cons, not_or]
        exact ⟨hgt, by decide, hgt'⟩
      · rw [getLast?_append, getLast?_cons_of_ne_nil hne']
        obtain ⟨d, hd⟩ := ne_none_iff_exists'.mp (mt getLast?_eq_none_iff.mp hne')
        simpa [hd] using hlast d hd

lemma markerText_head (self : MarkerSelf) (kind : ClaimKind) (reason : Option ConcedeReason) :
    ∃ f, markerText self kind reason = 'v' :: f :=
  ⟨_, by simp [markerText, markerFields, keyedFields, intercalate]; rfl⟩

lemma matchMarker_render (self : MarkerSelf) (kind : ClaimKind) (reason : Option ConcedeReason) :
    matchMarker (renderClaimComment self kind reason) =
      some (markerText self kind reason, '\n' :: humanLine self kind reason) := by
  obtain ⟨hgt, hlast⟩ := intercalate_clean fun w (hw : w ∈ markerFields self kind reason) =>
    markerFields_clean hw
  obtain ⟨f, hf⟩ := markerText_head self kind reason
  have hm : intercalate [' '] (markerFields self kind reason) = 'v' :: f := hf
  rw [hm] at hgt hlast
  rw [renderClaimComment, hf]
  exact matchMarker_append (by decide) hgt hlast _

lemma markersIn_render
    (hhum : '>' ∉ humanLine self kind reason) :
    markersIn (renderClaimComment self kind reason).length
      (renderClaimComment self kind reason) = [markerText self kind reason] := by
  have hmatch := matchMarker_render self kind reason
  have htail : '>' ∉ '\n' :: humanLine self kind reason := by
    simp only [mem_cons, not_or]
    exact ⟨by decide, hhum⟩
  cases hbody : renderClaimComment self kind reason with
  | nil => simp [renderClaimComment] at hbody
  | cons c t =>
    rw [hbody] at hmatch
    rw [length_cons, markersIn, hmatch]
    exact congrArg _ (markersIn_eq_nil htail _)

lemma truthy_of_ne_nil (h : t ≠ []) : truthy (some t) = some t := by
  simp [truthy, h]

/-- Rendering and parsing: a comment rendered for a claimant with a name holds
exactly that claimant's marker, provided its human line carries no `>`. -/
lemma parse_render (c : RawClaimComment) (hbody : c.body = renderClaimComment self kind reason)
    (hwork : self.worker ≠ []) (hhum : '>' ∉ humanLine self kind reason) :
    parseClaimRecords [c] = [recordFor c self kind] := by
  have hname : escapeField self.worker ≠ [] := by simpa [escapeField] using hwork
  have hrec : recordOf c (markerText self kind reason) = some (recordFor c self kind) := by
    simp only [recordOf, lookup_worker, lookup_kind, lookup_runner, lookup_ts,
      truthy_of_ne_nil hname, recordFor]
    cases kind <;> rfl
  rw [parseClaimRecords, flatMap_singleton, hbody, markersIn_render hhum]
  simp [hrec]

lemma parseClaimRecords_append (cs ds : List RawClaimComment) :
    parseClaimRecords (cs ++ ds) = parseClaimRecords cs ++ parseClaimRecords ds :=
  flatMap_append

/-- No text that the second line shows holds a `>`. -/
structure MarkerSelf.Plain (m : MarkerSelf) : Prop where
  worker : '>' ∉ m.worker
  runner : ∀ r, truthy m.runner = some r → '>' ∉ r
  concededBy : ∀ by', truthy m.concededBy = some by' → '>' ∉ by'
  lastHeartbeatAt : ∀ at', truthy m.lastHeartbeatAt = some at' → '>' ∉ at'

lemma plain_claimant {worker : Text} (hwork : '>' ∉ worker) (runner : Option Runner)
    (createdAt : Option Text) :
    MarkerSelf.Plain { worker, runner := runner.map Runner.text, createdAt } := by
  constructor
  · exact hwork
  · intro r hr
    obtain ⟨name, -, rfl⟩ := map_eq_some_iff.mp (filter_eq_some_iff.mp hr).1
    cases name <;> decide
  · rintro by' ⟨⟩
  · rintro at' ⟨⟩

lemma gt_notMem_elim {t : Option Text} {shown : Text → Text}
    (h : ∀ v, t = some v → '>' ∉ shown v) : '>' ∉ t.elim [] shown := by
  cases t with
  | none => exact not_mem_nil
  | some v => exact h v rfl

section
variable {self : MarkerSelf} (hplain : self.Plain)
include hplain

lemma gt_notMem_claimLine : '>' ∉ claimLine self := by
  unfold claimLine
  simp only [mem_append, not_or]
  refine ⟨⟨⟨⟨?_, hplain.worker⟩, ?_⟩, gt_notMem_elim fun r hr => ?_⟩, ?_⟩
  · decide
  · decide
  · simp only [mem_append, not_or]
    exact ⟨⟨by decide, hplain.runner r hr⟩, by decide⟩
  · decide

lemma gt_notMem_behalfLine {concededBy : Text} (hby : '>' ∉ concededBy) :
    '>' ∉ behalfLine self concededBy := by
  have hage : '>' ∉ self.heartbeatAgeS.elim [] fun age => "; age ".toList ++ age.text ++ "s".toList := by
    cases self.heartbeatAgeS with
    | none => exact not_mem_nil
    | some age =>
      simp only [elim_some, mem_append, not_or]
      exact ⟨⟨by decide, age.clean.2⟩, by decide⟩
  unfold behalfLine
  simp only [mem_append, not_or]
  refine ⟨⟨⟨⟨⟨⟨⟨⟨?_, hplain.worker⟩, ?_⟩, hby⟩, ?_⟩, ?_⟩, gt_notMem_elim fun at' hat => ?_⟩, hage⟩, ?_⟩
  · decide
  · decide
  · decide
  · decide
  · simp only [mem_append, not_or]
    exact ⟨⟨by decide, hplain.lastHeartbeatAt at' hat⟩, by decide⟩
  · decide

lemma gt_notMem_concedeLine (reason : Option ConcedeReason) : '>' ∉ concedeLine self reason := by
  have hwordi : ∀ r, '>' ∉ concedeWording r := by intro r; cases r <;> decide
  unfold concedeLine
  simp only [mem_append, not_or]
  refine ⟨⟨⟨⟨?_, hplain.worker⟩, ?_⟩, hwordi _⟩, ?_⟩
  · decide
  · decide
  · decide

lemma gt_notMem_humanLine (kind : ClaimKind) (reason : Option ConcedeReason) :
    '>' ∉ humanLine self kind reason := by
  unfold humanLine
  split
  · exact gt_notMem_claimLine hplain
  · next concededBy hby => exact gt_notMem_behalfLine hplain (hplain.concededBy concededBy hby)
  · exact gt_notMem_concedeLine hplain _

end

/-- A text that a field carries unchanged and that is not left out. -/
def Carried (t : Text) : Prop := t ≠ [] ∧ Clean t

instance (t : Text) : Decidable (Carried t) := inferInstanceAs (Decidable (_ ∧ _))

structure MarkerSelf.Carries (m : MarkerSelf) : Prop where
  worker : Carried m.worker
  runner : ∀ r ∈ m.runner, Carried r
  createdAt : ∀ ts ∈ m.createdAt, Carried ts
  concededBy : ∀ by' ∈ m.concededBy, Carried by'
  lastHeartbeatAt : ∀ at' ∈ m.lastHeartbeatAt, Carried at'

lemma truthy_of_carried {t : Option Text} (h : ∀ v ∈ t, Carried v) : truthy t = t := by
  cases t with
  | none => rfl
  | some v => exact truthy_of_ne_nil (h v rfl).1

lemma map_escapeField {t : Option Text} (h : ∀ v ∈ t, Carried v) : t.map escapeField = t := by
  cases t with
  | none => rfl
  | some v => rw [map_some, escapeField_of_clean (h v rfl).2]

lemma MarkerSelf.Carries.plain {m : MarkerSelf} (h : m.Carries) : m.Plain := by
  have hshown : ∀ {t : Option Text}, (∀ v ∈ t, Carried v) → ∀ v, truthy t = some v → '>' ∉ v := by
    intro t ht v hv
    rw [truthy_of_carried ht] at hv
    exact (ht v hv).2.2
  exact ⟨h.worker.2.2, hshown h.runner, hshown h.concededBy, hshown h.lastHeartbeatAt⟩

lemma recordFor_carried (c : RawClaimComment) {m : MarkerSelf} (h : m.Carries) (kind : ClaimKind) :
    recordFor c m kind =
      { commentId := c.id, worker := m.worker, kind, runner := m.runner
        createdAt := m.createdAt.or c.createdAt } := by
  rw [recordFor, escapeField_of_clean h.worker.2, truthy_of_carried h.runner,
    truthy_of_carried h.createdAt, map_escapeField h.runner, map_escapeField h.createdAt]

lemma parse_carried {m : MarkerSelf} (h : m.Carries) (id : Nat) (kind : ClaimKind)
    (reason : Option ConcedeReason) (posted : Option Text) :
    parseClaimRecords [{ id, body := renderClaimComment m kind reason, createdAt := posted }] =
      [{ commentId := id, worker := m.worker, kind, runner := m.runner
         createdAt := m.createdAt.or posted }] := by
  rw [parse_render _ rfl h.worker.1 (gt_notMem_humanLine h.plain kind reason),
    recordFor_carried _ h kind]

lemma behalf_carries {owner evictor : Text} {lastHeartbeatAt : Option Text}
    (hown : Carried owner) (hevict : Carried evictor)
    (hbeat : ∀ at' ∈ lastHeartbeatAt, Carried at') (heartbeatAgeS : Option NumberText) :
    MarkerSelf.Carries
      { worker := owner, concededBy := some evictor, lastHeartbeatAt, heartbeatAgeS } := by
  constructor
  · exact hown
  · rintro r ⟨⟩
  · rintro ts ⟨⟩
  · rintro by' ⟨⟩
    exact hevict
  · exact hbeat

/-- A comment rendered of texts that are not empty and hold neither whitespace nor `>` parses
to one record, which says again who marked the issue and how. -/
theorem markers_round_trip :
    (∀ (m : MarkerSelf) (id : Nat) (kind : ClaimKind) (reason : Option ConcedeReason)
      (posted : Option Text), m.Carries →
      ∃ r, parseClaimRecords
          [{ id, body := renderClaimComment m kind reason, createdAt := posted }] = [r] ∧
        r.commentId = id ∧ r.worker = m.worker ∧ r.kind = kind ∧ r.runner = m.runner ∧
        ∀ ts, m.createdAt = some ts → r.createdAt = some ts) ∧
    ∀ (owner evictor : Text) (lastHeartbeatAt : Option Text) (heartbeatAgeS : Option NumberText)
      (id : Nat) (posted : Option Text), Carried owner → Carried evictor →
      (∀ at' ∈ lastHeartbeatAt, Carried at') →
      ∃ r, parseClaimRecords
          [{ id, body := renderConcedeOnBehalf owner evictor lastHeartbeatAt heartbeatAgeS
             createdAt := posted }] = [r] ∧
        r.commentId = id ∧ r.worker = owner ∧ r.kind = .concede ∧ r.runner = none := by
  constructor
  · intro m id kind reason posted hm
    refine ⟨_, parse_carried hm id kind reason posted, rfl, rfl, rfl, rfl, ?_⟩
    intro ts hts
    rw [hts, Option.some_or]
  · intro owner evictor lastHeartbeatAt heartbeatAgeS id posted hown hevict hbeat
    have hcarr := behalf_carries hown hevict hbeat heartbeatAgeS
    exact ⟨_, parse_carried hcarr id .concede (some .stale) posted, rfl, rfl, rfl, rfl⟩

def dispatched : MarkerSelf where
  worker := "mbp.local:w6HSO-3".toList
  runner := some "claude".toList
  createdAt := some "2026-06-10T23:10:24Z".toList

lemma dispatched_carries : dispatched.Carries := by
  constructor
  · decide
  · rintro r ⟨⟩
    decide
  · rintro ts ⟨⟩
    decide
  · rintro by' ⟨⟩
  · rintro at' ⟨⟩

theorem dispatched_round_trip : (∃ r, parseClaimRecords
        [{ id := 7, body := renderClaimComment dispatched .claim none, createdAt := none }] = [r] ∧
      r.worker = dispatched.worker) ∧
    ∃ r, parseClaimRecords
        [{ id := 9
           body := renderConcedeOnBehalf dispatched.worker "vps:w2".toList none
             (some (.ofNat 1200))
           createdAt := none }] = [r] ∧ r.kind = .concede := by
  constructor
  · obtain ⟨r, hr, -, hwork, -⟩ :=
      markers_round_trip.1 dispatched 7 .claim none none dispatched_carries
    exact ⟨r, hr, hwork⟩
  · obtain ⟨r, hr, -, -, hkind, -⟩ := markers_round_trip.2 dispatched.worker "vps:w2".toList none
      (some (.ofNat 1200)) 9 none dispatched_carries.worker (by decide) (by rintro at' ⟨⟩)
    exact ⟨r, hr, hkind⟩

lemma gt_notMem_lazyGroup (h : lazyGroup t = some m) :
    '>' ∉ m.1 := by
  induction t generalizing m with
  | nil => cases h
  | cons c t ih =>
    rw [lazyGroup] at h
    cases hclose : closeAt (c :: t) with
    | some rest =>
      rw [hclose] at h
      cases h
      exact not_mem_nil
    | none =>
      rw [hclose, elim_none, ite_none_left_eq_some] at h
      obtain ⟨hne, hmap⟩ := h
      obtain ⟨n, hn, rfl⟩ := map_eq_some_iff.mp hmap
      simp only [mem_cons, not_or]
      exact ⟨fun heq => hne heq.symm, ih hn⟩

lemma gt_notMem_markersIn {fuel : ℕ} {g : Text} (h : g ∈ markersIn fuel t) : '>' ∉ g := by
  induction fuel generalizing t with
  | zero => exact absurd h not_mem_nil
  | succ fuel ih =>
    cases t with
    | nil => exact absurd h not_mem_nil
    | cons c t =>
      rw [markersIn] at h
      split at h
      · next group rest hmatch =>
        rcases mem_cons.mp h with rfl | h
        · simp only [matchMarker, bind_eq_bind, bind_eq_some_iff, ite_none_right_eq_some] at hmatch
          obtain ⟨_, -, _, -, -, hlazy⟩ := hmatch
          exact gt_notMem_lazyGroup hlazy
        · exact ih h
      · exact ih h

lemma lookup_foldl_mem {fs : List (Text × Text)} {k v : Text} {m : JsMap Text Text}
    (h : (fs.foldl (fun m f => JsMap.set m f.1 f.2) m).lookup k = some v) :
    (∃ f ∈ fs, f.2 = v) ∨ m.lookup k = some v := by
  induction fs generalizing m with
  | nil => exact .inr h
  | cons f fs ih =>
    rw [foldl_cons] at h
    rcases ih h with ⟨g, hg, hv⟩ | hv
    · exact .inl ⟨g, mem_cons_of_mem _ hg, hv⟩
    · by_cases hk : f.1 = k
      · subst hk
        rw [JsMap.lookup_set_self] at hv
        exact .inl ⟨f, mem_cons_self, some.inj hv⟩
      · rw [JsMap.lookup_set_ne m f.2 (Ne.symm hk)] at hv
        exact .inr hv

lemma mem_parseField {tok : Text} (h : parseField tok = some f) : ∀ c ∈ f.2, c ∈ tok := by
  unfold parseField at h
  split at h
  · next key d value hspan =>
    cases h
    intro c hc
    rw [span_eq_takeWhile_dropWhile] at hspan
    have hdrop := (Prod.mk.inj hspan).2
    apply (dropWhile_suffix (· != '=')).subset
    rw [hdrop]
    exact mem_cons_of_mem _ hc
  · cases h

lemma clean_of_parse {cs : List RawClaimComment} {r : ClaimRecord}
    (h : r ∈ parseClaimRecords cs) : r.worker ≠ [] ∧ Clean r.worker := by
  obtain ⟨c, -, hr⟩ := mem_flatMap.mp h
  obtain ⟨marker, hmark, hrec⟩ := mem_filterMap.mp hr
  have hgt : '>' ∉ marker := gt_notMem_markersIn hmark
  simp only [recordOf] at hrec
  cases hlook : truthy ((parseFields marker).lookup "worker".toList) with
  | none =>
    rw [hlook] at hrec
    cases hrec
  | some worker =>
    rw [hlook] at hrec
    cases hrec
    obtain ⟨hsome, hne⟩ := filter_eq_some_iff.mp hlook
    refine ⟨by simpa using hne, ?_⟩
    rcases lookup_foldl_mem hsome with ⟨f, hf, rfl⟩ | hnone
    · obtain ⟨tok, htok, hparse⟩ := mem_filterMap.mp hf
      obtain ⟨hfree, hsub⟩ := mem_of_splitWhitespace htok
      have hin : ∀ c ∈ f.2, c ∈ tok := mem_parseField hparse
      exact ⟨fun c hc => hfree c (hin c hc), fun hc => hgt (hsub _ (hin _ hc))⟩
    · cases hnone

end Redskilled.Tracker.ClaimMarker
