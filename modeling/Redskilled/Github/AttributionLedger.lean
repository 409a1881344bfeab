import Redskilled.Foundation.Machine
import Redskilled.Github.Attribution

/-!
# What the report finds of the ledger

A ledger starts without a lane and takes one call of `record` after the other. Any of
them may be refused, and any operation on the file may fail.
-/
namespace Redskilled.Github
open Foundation Foundation.Text List

variable (locale : Locale) (format : ToonlFormat)

/-- The lane, and the observations that were recorded so far. -/
structure Ledger where
  file : LaneFile
  recorded : List GithubSpendObservation

def total (observations : List GithubSpendObservation) : ℕ := (observations.map (·.cost)).sum

structure RecordCall where
  operation : GithubAttributedOperation
  cost : Option ℚ
  observedAt : Text
  actor : Option Text
  weather : Weather

section
variable (identity : Option Text) (maxBytes : ℕ)

def observe (call : RecordCall) : Except RecordError GithubSpendObservation :=
  makeObservation locale call.operation call.cost call.observedAt call.actor identity

def record (ledger : Ledger) (call : RecordCall) : Ledger × Except RecordError Unit :=
  match observe locale identity call with
  | .error error => (ledger, .error error)
  | .ok observation =>
    match write format maxBytes ledger.file observation call.weather with
    | (file, .error error) => (⟨file, ledger.recorded⟩, .error error)
    | (file, .ok ()) => (⟨file, ledger.recorded ++ [observation]⟩, .ok ())

/-- One ledger, from before its first row on. -/
def recording : Machine Ledger RecordCall where
  start ledger := ledger.file = none ∧ ledger.recorded = []
  next ledger call := some (record locale format identity maxBytes ledger call).1

/-- The rows that the target has room for hold two neighbours of one header. -/
def KeepsPair (file : LaneFile) (observation : GithubSpendObservation) : Prop :=
  let incomingBytes := byteLength (format.writerText [toToonlRecord observation])
  laneOverCeiling file incomingBytes maxBytes = true ∧
    ∃ rows kept, readLaneRows format file = some rows ∧ kept <:+ rows ∧
      byteLength (format.encodeRows kept) + incomingBytes ≤ targetBytes maxBytes incomingBytes ∧
        ¬ kept.IsChain fun a b => format.header a ≠ format.header b

/-- The call has a key, its append is not torn, no trim keeps two neighbours of one header,
and the costs add up exactly. -/
def Steady (ledger : Ledger) (call : RecordCall) : Prop :=
  ∀ observation, observe locale identity call = .ok observation → observation.operationKey ≠ [] ∧
      (∀ written, call.weather.appendFails = some written → written = 0) ∧
        ¬ KeepsPair format maxBytes ledger.file observation ∧
          total (ledger.recorded ++ [observation]) < 2 ^ 53

end

structure Window where
  windowFrom : Text
  windowTo : Text
  start : ℤ
  stop : ℤ
  nonempty : start < stop

def Window.Covers (window : Window) (observations : List GithubSpendObservation) : Prop :=
  locale.dateParse window.windowFrom = some window.start ∧
    locale.dateParse window.windowTo = some window.stop ∧
      ∀ o ∈ observations, ∃ observed, locale.dateParse o.observedAt = some observed ∧
        window.start ≤ observed ∧ observed < window.stop

/-- The report over a window, of every pool, is that of the last recorded observations. -/
def ReportsLast (window : Window) (ledger : Ledger) : Prop :=
  ∃ kept r, kept <:+ ledger.recorded ∧
    ((readObservations locale format ledger.file).observations.filter
      (isReported locale window.start window.stop none)) = kept ∧
    report locale format ledger.file window.windowFrom window.windowTo none = .ok r ∧
      r.unreadableRecords = 0 ∧ r.totalCount = kept.length ∧
        r.totalCost = ((total kept : ℚ≥0) : JsNumber)

/-- What `makeObservation` checks. -/
structure Sound (o : GithubSpendObservation) : Prop where
  dated : (locale.dateParse o.observedAt).isSome = true
  named : o.actor ≠ some []
  safe : o.cost ≤ maxSafeInteger

section
variable {locale} {format} {o : GithubSpendObservation} {os : List GithubSpendObservation}

lemma num_of_isSafeCost {n : ℚ} (h : isSafeCost n = true) : n.num.toNat ≤ maxSafeInteger := by
  simp only [isSafeCost, Bool.decide_and, Bool.and_eq_true, decide_eq_true_eq] at h
  obtain ⟨hden, hnonn, hle⟩ := h
  have hnum : (n.num : ℚ) = n := (Rat.den_eq_one_iff n).mp hden
  have hpos : 0 ≤ n.num := Rat.num_nonneg.mpr hnonn
  rw [← hnum] at hle
  have hle' : n.num ≤ (maxSafeInteger : ℤ) := by exact_mod_cast hle
  omega

lemma observe_sound {identity : Option Text} {call : RecordCall}
    (h : observe locale identity call = .ok o) : Sound locale o := by
  unfold observe makeObservation at h
  by_cases hdate : locale.dateParse call.observedAt = none
  · rw [if_pos hdate] at h
    cases h
  · rw [if_neg hdate] at h
    cases hcost : call.cost with
    | none =>
      rw [hcost] at h
      cases h
    | some cost =>
      rw [hcost] at h
      dsimp only at h
      cases hsafe : isSafeCost cost with
      | false =>
        rw [hsafe] at h
        cases h
      | true =>
        rw [hsafe, if_neg (by decide)] at h
        split_ifs at h with hact
        cases h
        constructor
        · exact Option.isSome_iff_ne_none.mpr hdate
        · intro hnil
          change call.actor = some [] at hnil
          rw [hnil] at hact
          exact hact rfl
        · exact num_of_isSafeCost hsafe

lemma isSafeCost_natCast {n : ℕ} (h : n ≤ maxSafeInteger) : isSafeCost (n : ℚ) = true := by
  have hle : (n : ℚ) ≤ maxSafeInteger := by exact_mod_cast h
  simp only [isSafeCost, Rat.den_natCast, Nat.cast_nonneg, hle, and_self, decide_true]

lemma readPool_text (pool : GithubRateBudget) : readPool pool.text = some pool := by
  cases pool
  · rfl
  · rfl
  · rfl

lemma readObservation_toToonlRecord (h : Sound locale o) :
    readObservation locale (toToonlRecord o) = if o.operationKey = [] then none else some o := by
  obtain ⟨observedAt, operationKey, identity, pool, actor, cost⟩ := o
  obtain ⟨hdat, hnam, hsafe⟩ := h
  have hcost := isSafeCost_natCast hsafe
  have hact : readActor (toToonlRecord ⟨observedAt, operationKey, identity, pool, actor, cost⟩) =
      some actor := by
    cases actor with
    | none => cases identity <;> rfl
    | some actor =>
      have hne : actor ≠ [] := fun hnil => hnam (congrArg some hnil)
      cases identity <;> exact if_neg hne
  have hvers : (toToonlRecord ⟨observedAt, operationKey, identity, pool, actor, cost⟩).lookup
      "version".toList = some (.number 1) := rfl
  have hobserv : (toToonlRecord ⟨observedAt, operationKey, identity, pool, actor, cost⟩).lookup
      "observed_at".toList = some (.text observedAt) := rfl
  have hkey : (toToonlRecord ⟨observedAt, operationKey, identity, pool, actor, cost⟩).lookup
      "operation_key".toList = some (.text operationKey) := rfl
  have hpool : (toToonlRecord ⟨observedAt, operationKey, identity, pool, actor, cost⟩).lookup
      "pool".toList = some (.text pool.text) := by
    cases identity <;> rfl
  have hspent : (toToonlRecord ⟨observedAt, operationKey, identity, pool, actor, cost⟩).lookup
      "cost".toList = some (.number cost) := by
    cases identity <;> cases actor <;> rfl
  have hident : (toToonlRecord ⟨observedAt, operationKey, identity, pool, actor, cost⟩).lookup
      "identity".toList = identity.map .text := by
    cases identity <;> cases actor <;> rfl
  simp only [readObservation, hact, hvers, hobserv, hkey, hpool, hspent, hident,
    readPool_text, hdat, hcost, true_and, and_true]
  by_cases hnil : operationKey = []
  · rw [if_pos hnil, if_neg (not_not.mpr hnil)]
  · rw [if_neg hnil, if_pos hnil]
    cases identity with
    | none => rfl
    | some identity => rfl

end

/-- The lane after some writers, each with its rows. -/
def laneText (written : List (List GithubSpendObservation)) : Text :=
  written.flatMap fun os => format.writerText (os.map toToonlRecord)

/-- The lane of rows with a header each. -/
def spreadText (os : List GithubSpendObservation) : Text := laneText format (os.map fun o => [o])

/-- No two neighbours have one header. -/
def Spread (os : List GithubSpendObservation) : Prop :=
  os.IsChain fun a b => format.header (toToonlRecord a) ≠ format.header (toToonlRecord b)

section
variable {locale} {format} {o : GithubSpendObservation} {os : List GithubSpendObservation}
  {written : List (List GithubSpendObservation)}

lemma unlines_append (ls ms : List Text) :
    unlines newline (ls ++ ms) = unlines newline ls ++ unlines newline ms :=
  flatMap_append

lemma laneText_eq : laneText format written =
    unlines newline (written.flatMap fun os => format.pushed none (os.map toToonlRecord)) := by
  induction written with
  | nil => rfl
  | cons os written ih =>
    rw [flatMap_cons, unlines_append, ← ih]
    rfl

lemma laneText_append (more : List (List GithubSpendObservation)) :
    laneText format (written ++ more) = laneText format written ++ laneText format more :=
  flatMap_append

lemma newline_notMem_pushed (hheader : ∀ o, newline ∉ format.header (toToonlRecord o))
    (hline : ∀ o, newline ∉ format.line (toToonlRecord o)) (inHand : Option Text) :
    ∀ l ∈ format.pushed inHand (os.map toToonlRecord), newline ∉ l := by
  induction os generalizing inHand with
  | nil =>
    intro l hl
    cases hl
  | cons o os ih =>
    intro l hl
    rw [map_cons, ToonlFormat.pushed, mem_append] at hl
    rcases hl with hl | hl
    · split_ifs at hl
      · rw [mem_singleton.mp hl]
        exact hline o
      · rcases mem_cons.mp hl with rfl | hl
        · exact hheader o
        · rw [mem_singleton.mp hl]
          exact hline o
    · exact ih _ l hl

lemma splitOn_unlines {ls : List Text} (h : ∀ l ∈ ls, newline ∉ l) :
    (unlines newline ls).splitOn newline = ls ++ [[]] := by
  induction ls with
  | nil => rfl
  | cons l ls ih =>
    have htext : unlines newline (l :: ls) = l ++ newline :: unlines newline ls := by
      rw [unlines, flatMap_cons, append_assoc]
      rfl
    rw [htext, splitOn_append_cons_self_of_not_mem (h l mem_cons_self),
      ih fun m hm => h m (mem_cons_of_mem l hm)]
    rfl

lemma splitOn_laneText (law : format.Lawful) : (laneText format written).splitOn newline =
    (written.flatMap fun os => format.pushed none (os.map toToonlRecord)) ++ [[]] := by
  rw [laneText_eq]
  apply splitOn_unlines
  intro l hl
  obtain ⟨os, -, hl⟩ := mem_flatMap.mp hl
  exact newline_notMem_pushed law.header_line law.line_line none l hl

lemma trim_ne_nil {t : Text} {c : Char} (hc : c ∈ t) (h : isWhitespace c = false) :
    trim t ≠ [] := by
  intro hnil
  rw [trim, rdropWhile_eq_nil_iff] at hnil
  have hdrop : t.dropWhile isWhitespace = [] := by
    cases hrest : t.dropWhile isWhitespace with
    | nil => rfl
    | cons d rest =>
      have hne : t.dropWhile isWhitespace ≠ [] := by
        rw [hrest]
        exact cons_ne_nil d rest
      have hhead := head_dropWhile_not isWhitespace hne
      simp only [hrest, head_cons] at hhead
      have hall := hnil d (by rw [hrest]; exact mem_cons_self)
      rw [hhead] at hall
      cases hall
  have hspace := dropWhile_eq_nil_iff.mp hdrop c hc
  rw [h] at hspace
  cases hspace

lemma mark_notBlank {t : Text} (h : headerMark.isPrefixOf t = true) : trim t ≠ [] := by
  obtain ⟨rest, rfl⟩ := isPrefixOf_iff_prefix.mp h
  exact trim_ne_nil (c := '[') (mem_append_left _ mem_cons_self) (by decide)

lemma readPair_row (law : format.Lawful) (h : Sound locale o) :
    readPair locale format (format.header (toToonlRecord o)) (format.line (toToonlRecord o)) =
      if o.operationKey = [] then none else some o := by
  have hparse := law.parse_written [[o]] (by simp)
  have htext : (([[o]] : List (List GithubSpendObservation)).flatMap fun os =>
      format.writerText (os.map toToonlRecord)) =
      unlines newline [format.header (toToonlRecord o), format.line (toToonlRecord o)] := by
    simp only [flatMap_cons, flatMap_nil, append_nil, ToonlFormat.writerText,
      map_cons, map_nil, ToonlFormat.pushed]
    rfl
  rw [htext] at hparse
  rw [readPair, hparse]
  exact readObservation_toToonlRecord h

lemma readLines_blank : readLines locale format [[]] = ⟨[], 0⟩ := rfl

variable {more : List Text}

lemma readLines_pushed_cons (law : format.Lawful) (h : Sound locale o) (inHand : Option Text)
    (hmore : more ≠ []) :
    readLines locale format (format.pushed inHand ((o :: os).map toToonlRecord) ++ more) =
      (readLines locale format (format.pushed (some (format.header (toToonlRecord o)))
        (os.map toToonlRecord) ++ more)).add
        (if inHand = some (format.header (toToonlRecord o)) ∨ o.operationKey = [] then none
          else some o) := by
  have hline := law.line_blank o
  rw [map_cons, ToonlFormat.pushed]
  by_cases hhand : inHand = some (format.header (toToonlRecord o))
  · rw [if_pos hhand, if_pos (.inl hhand), singleton_append, cons_append]
    generalize hrest : format.pushed (some (format.header (toToonlRecord o)))
      (os.map toToonlRecord) ++ more = rest
    cases rest with
    | nil => exact absurd (append_eq_nil_iff.mp hrest).2 hmore
    | cons row rest => rw [readLines, if_neg hline, if_pos (.inl (law.line_mark o))]
  · rw [if_neg hhand]
    simp only [cons_append, nil_append]
    rw [readLines, if_neg (mark_notBlank (law.header_mark o))]
    have hheader : ¬ (headerMark.isPrefixOf (format.header (toToonlRecord o)) = false ∨
        trim (format.line (toToonlRecord o)) = []) := by
      rintro (hmark | hblank)
      · rw [law.header_mark o] at hmark
        cases hmark
      · exact hline hblank
    rw [if_neg hheader, readPair_row law h]
    simp only [hhand, false_or]

lemma le_unreadable_add (read : ObservationRead) (row : Option GithubSpendObservation) :
    read.unreadable ≤ (read.add row).unreadable := by
  cases row with
  | none => exact Nat.le_succ _
  | some o => exact le_rfl

lemma unreadable_le (law : format.Lawful) (hsound : ∀ o ∈ os, Sound locale o)
    (inHand : Option Text) (hmore : more ≠ []) :
    (readLines locale format more).unreadable ≤
      (readLines locale format (format.pushed inHand (os.map toToonlRecord) ++ more)).unreadable := by
  induction os generalizing inHand with
  | nil => exact le_rfl
  | cons o os ih =>
    rw [readLines_pushed_cons law (hsound o mem_cons_self) inHand hmore]
    exact (ih (fun p hp => hsound p (mem_cons_of_mem o hp)) _).trans (le_unreadable_add _ _)

lemma unreadable_written_le (law : format.Lawful)
    (hsound : ∀ os ∈ written, ∀ o ∈ os, Sound locale o) (hmore : more ≠ []) :
    (readLines locale format more).unreadable ≤ (readLines locale format
      ((written.flatMap fun os => format.pushed none (os.map toToonlRecord)) ++
        more)).unreadable := by
  induction written with
  | nil => exact le_rfl
  | cons os written ih =>
    rw [flatMap_cons, append_assoc]
    refine (ih fun ps hps => hsound ps (mem_cons_of_mem os hps)).trans ?_
    apply unreadable_le law (hsound os mem_cons_self)
    exact append_ne_nil_of_right_ne_nil _ hmore

lemma unreadable_of_pair (law : format.Lawful) (hsound : ∀ o ∈ os, Sound locale o)
    (hpair : ¬ Spread format os) (inHand : Option Text) (hmore : more ≠ []) :
    0 < (readLines locale format (format.pushed inHand (os.map toToonlRecord) ++ more)).unreadable := by
  induction os generalizing inHand with
  | nil => exact absurd isChain_nil hpair
  | cons o os ih =>
    have hrest : ∀ p ∈ os, Sound locale p := fun p hp => hsound p (mem_cons_of_mem o hp)
    rw [readLines_pushed_cons law (hsound o mem_cons_self) inHand hmore]
    refine Nat.lt_of_lt_of_le ?_ (le_unreadable_add _ _)
    by_cases hlat : Spread format os
    · cases os with
      | nil => exact absurd (isChain_singleton o) hpair
      | cons p os =>
        have hsame : format.header (toToonlRecord o) = format.header (toToonlRecord p) := by
          by_contra hne
          exact hpair (List.IsChain.cons_cons hne hlat)
        rw [readLines_pushed_cons law (hrest p mem_cons_self) _ hmore,
          if_pos (.inl (congrArg some hsame))]
        exact Nat.succ_pos _
    · exact ih hrest hlat _

lemma readObservations_spreadText (law : format.Lawful) (hsound : ∀ o ∈ os, Sound locale o)
    (hkeys : ∀ o ∈ os, o.operationKey ≠ []) :
    readObservations locale format (some (spreadText format os)) = ⟨os, 0⟩ := by
  unfold readObservations spreadText
  dsimp only
  rw [splitOn_laneText law]
  induction os with
  | nil => exact readLines_blank
  | cons o os ih =>
    have hrest := ih (fun p hp => hsound p (mem_cons_of_mem o hp))
      fun p hp => hkeys p (mem_cons_of_mem o hp)
    rw [map_cons, flatMap_cons, append_assoc,
      readLines_pushed_cons law (hsound o mem_cons_self) none
        (append_ne_nil_of_right_ne_nil _ (cons_ne_nil _ _))]
    rw [if_neg (by simp [hkeys o mem_cons_self])]
    change ObservationRead.add (readLines locale format ([] ++ _)) _ = _
    rw [nil_append, hrest]
    rfl

/-- The lane holds the rows with a header each. -/
structure Laid (format : ToonlFormat) (file : LaneFile) (os : List GithubSpendObservation) :
    Prop where
  text : file.getD [] = spreadText format os
  absent : file = none → os = []

lemma pushed_spread (hspr : Spread format os) {inHand : Option Text}
    (hhand : ∀ o ∈ os.head?, inHand ≠ some (format.header (toToonlRecord o))) :
    format.pushed inHand (os.map toToonlRecord) =
      os.flatMap fun o => format.pushed none [toToonlRecord o] := by
  induction os generalizing inHand with
  | nil => rfl
  | cons o os ih =>
    have hnext := isChain_cons.mp hspr
    have hrest : ∀ p ∈ os.head?, some (format.header (toToonlRecord o)) ≠
        some (format.header (toToonlRecord p)) := by
      intro p hp heq
      exact hnext.1 p hp (Option.some.inj heq)
    rw [map_cons, ToonlFormat.pushed, if_neg (hhand o rfl), ih hnext.2 hrest, flatMap_cons]
    rfl

lemma laneText_spread (hspr : Spread format os) : laneText format [os] = spreadText format os := by
  rw [spreadText, laneText_eq, laneText_eq, flatMap_cons, flatMap_nil, append_nil,
    pushed_spread hspr (fun _ _ h => by cases h), flatMap_map]
  rfl

lemma spreadText_append (ps : List GithubSpendObservation) :
    spreadText format (os ++ ps) = spreadText format os ++ spreadText format ps := by
  rw [spreadText, map_append, laneText_append]
  rfl

lemma spreadText_singleton (o : GithubSpendObservation) :
    spreadText format [o] = format.writerText [toToonlRecord o] := by
  simp only [spreadText, laneText, map_cons, map_nil, flatMap_cons, flatMap_nil, append_nil]

lemma spreadText_notBlank (law : format.Lawful) (hne : os ≠ []) :
    trim (spreadText format os) ≠ [] := by
  cases os with
  | nil => exact absurd rfl hne
  | cons o os =>
    obtain ⟨rest, hrest⟩ := isPrefixOf_iff_prefix.mp (law.header_mark o)
    apply trim_ne_nil (c := '[') _ (by decide)
    have hin : '[' ∈ format.header (toToonlRecord o) := by
      rw [← hrest]
      exact mem_append_left _ mem_cons_self
    rw [spreadText, laneText_eq, map_cons, flatMap_cons, unlines_append]
    apply mem_append_left
    exact mem_flatMap.mpr ⟨_, mem_cons_self, mem_append_left _ hin⟩

lemma parse_spreadText (law : format.Lawful) (hne : os ≠ []) :
    format.parseRecords (spreadText format os) = some (os.map toToonlRecord) := by
  have hparse := law.parse_written (os.map fun o => [o])
  have hflat : (os.map fun o => [o]).flatten = os := flatMap_singleton' os
  rw [hflat] at hparse
  exact hparse hne

lemma readLaneRows_laid {file : LaneFile} (law : format.Lawful) (h : Laid format file os) :
    readLaneRows format file = some (os.map toToonlRecord) := by
  cases file with
  | none =>
    rw [h.absent rfl]
    rfl
  | some raw =>
    have hraw : raw = spreadText format os := h.text
    unfold readLaneRows
    dsimp only
    split_ifs with hblank
    · have hnil : os = [] := by
        by_contra hne
        rw [hraw] at hblank
        exact spreadText_notBlank law hne hblank
      rw [hnil]
      rfl
    · rw [hraw, parse_spreadText law]
      rintro rfl
      exact hblank (hraw ▸ rfl)

lemma trim_laid {raw : Text} {k : ℕ} (law : format.Lawful) (h : Laid format (some raw) os) :
    trimLaneKeepLast format (some raw) k =
      some (some (laneText format [os.drop (os.length - k)])) := by
  have hraw : raw = spreadText format os := h.text
  have hcompl : dropIncompleteTail newline raw = raw := by
    rw [hraw, spreadText, laneText_eq]
    exact atBoundary_unlines _
  have hrows : parseComplete format raw = some (os.map toToonlRecord) := by
    unfold parseComplete
    split_ifs with hnil
    · have hempty : os = [] := by
        by_contra hne
        apply spreadText_notBlank law hne
        rw [← hraw, hnil]
        rfl
      rw [hempty]
      rfl
    · rw [hraw, parse_spreadText law]
      rintro rfl
      exact hnil hraw
  have hkept : (if k = 0 then [] else sliceLast k (os.map toToonlRecord)) =
      (os.drop (os.length - k)).map toToonlRecord := by
    split_ifs with hzero
    · rw [hzero, Nat.sub_zero, drop_length]
      rfl
    · rw [sliceLast, length_map, map_drop]
  simp only [trimLaneKeepLast, hcompl, hrows, Option.map_some, hkept]
  rw [laneText, flatMap_cons, flatMap_nil, append_nil]

variable {ceiling : ℕ} {file : LaneFile} {weather : Weather}

def incoming (format : ToonlFormat) (o : GithubSpendObservation) : ℕ :=
  byteLength (format.writerText [toToonlRecord o])

def keeping (format : ToonlFormat) (ceiling : ℕ) (os : List GithubSpendObservation)
    (o : GithubSpendObservation) : ℕ :=
  keepLastWithin format (os.map toToonlRecord) (incoming format o)
    (targetBytes ceiling (incoming format o))

def keptRows (format : ToonlFormat) (ceiling : ℕ) (os : List GithubSpendObservation)
    (o : GithubSpendObservation) : List GithubSpendObservation :=
  os.drop (os.length - keeping format ceiling os o)

variable (ceiling weather o) in
lemma write_cases (law : format.Lawful) (h : Laid format file os) :
    (∃ error, write format ceiling file o weather = (file, .error error)) ∨
      (laneOverCeiling file (incoming format o) ceiling = false ∧
        write format ceiling file o weather =
          append file (format.writerText [toToonlRecord o]) weather) ∨
      (laneOverCeiling file (incoming format o) ceiling = true ∧
        write format ceiling file o weather =
          append (some (laneText format [keptRows format ceiling os o]))
            (format.writerText [toToonlRecord o]) weather) := by
  simp only [write, readLaneRows_laid law h]
  by_cases hmkd : weather.mkdirFails = true
  · rw [if_pos hmkd]
    exact .inl ⟨_, rfl⟩
  rw [if_neg hmkd]
  by_cases hstat : weather.statFails = true
  · rw [if_pos hstat]
    exact .inl ⟨_, rfl⟩
  rw [if_neg hstat]
  cases hover : laneOverCeiling file (byteLength (format.writerText [toToonlRecord o])) ceiling with
  | false => exact .inr (.inl ⟨hover, rfl⟩)
  | true =>
    rw [if_pos rfl]
    by_cases hlarge : ceiling < byteLength (format.writerText [toToonlRecord o])
    · rw [if_pos hlarge]
      exact .inl ⟨_, rfl⟩
    rw [if_neg hlarge]
    by_cases hread : weather.readFails = true
    · rw [if_pos hread]
      exact .inl ⟨_, rfl⟩
    rw [if_neg hread]
    by_cases htrim : weather.trimFails = true
    · rw [if_pos htrim]
      exact .inl ⟨_, rfl⟩
    rw [if_neg htrim]
    cases file with
    | none => exact .inl ⟨_, rfl⟩
    | some raw =>
      rw [trim_laid law h]
      exact .inr (.inr ⟨hover, rfl⟩)

lemma keptRows_suffix : keptRows format ceiling os o <:+ os := List.drop_suffix _ _

lemma byteLength_append (t u : Text) : byteLength (t ++ u) = byteLength t + byteLength u := by
  simp only [byteLength, map_append, sum_append]

lemma encodeRows_append (rows more : List ToonlRecord) :
    format.encodeRows (rows ++ more) = format.encodeRows rows ++ format.encodeRows more :=
  flatMap_append

lemma sliceLast_suffix {m n : ℕ} (h : m ≤ n) (rows : List ToonlRecord) :
    sliceLast m rows <:+ sliceLast n rows := by
  unfold sliceLast
  have hspl : rows.length - m = (rows.length - n) + (rows.length - m - (rows.length - n)) := by
    omega
  rw [hspl, ← drop_drop]
  exact drop_suffix _ _

lemma fitsWithin_down {rows : List ToonlRecord} {bytes target m n : ℕ} (h : m ≤ n)
    (hfits : fitsWithin format rows bytes target n = true) :
    fitsWithin format rows bytes target m = true := by
  obtain ⟨front, hfront⟩ := sliceLast_suffix h rows
  unfold fitsWithin at hfits ⊢
  rw [← hfront, encodeRows_append, byteLength_append] at hfits
  simp only [decide_eq_true_eq] at hfits ⊢
  omega

lemma keepsPair_iff (law : format.Lawful) (h : Laid format file os) :
    KeepsPair format ceiling file o ↔ laneOverCeiling file (incoming format o) ceiling = true ∧
      ¬ Spread format (keptRows format ceiling os o) := by
  have hfits : fitsWithin format (os.map toToonlRecord) (incoming format o)
      (targetBytes ceiling (incoming format o)) (keeping format ceiling os o) = true := by
    apply bisect_fits
    have hnone : sliceLast 0 (os.map toToonlRecord) = [] := by
      rw [sliceLast, Nat.sub_zero, drop_length]
    rw [fitsWithin, hnone, decide_eq_true_eq]
    change 0 + _ ≤ max _ _
    omega
  have hchain : ∀ ps : List GithubSpendObservation, Spread format ps ↔
      (ps.map toToonlRecord).IsChain fun a b => format.header a ≠ format.header b := by
    intro ps
    rw [isChain_map]
    rfl
  have hkept : sliceLast (keeping format ceiling os o) (os.map toToonlRecord) =
      (keptRows format ceiling os o).map toToonlRecord := by
    rw [sliceLast, length_map, ← map_drop]
    rfl
  unfold KeepsPair
  rw [readLaneRows_laid law h]
  constructor
  · rintro ⟨hover, rows, kept, hrows, hsuff, hroom, hpair⟩
    refine ⟨hover, fun hspr => hpair ?_⟩
    cases hrows
    have hslice : kept = sliceLast kept.length (os.map toToonlRecord) :=
      suffix_iff_eq_drop.mp hsuff
    have hle : kept.length ≤ keeping format ceiling os o := by
      apply le_bisect (fun a b => fitsWithin_down) (by omega) hsuff.length_le
      rw [fitsWithin, ← hslice]
      exact decide_eq_true hroom
    rw [hslice]
    apply List.IsChain.suffix _ (sliceLast_suffix hle _)
    rw [hkept]
    exact (hchain _).mp hspr
  · rintro ⟨hover, hpair⟩
    refine ⟨hover, _, (keptRows format ceiling os o).map toToonlRecord, rfl, ?_, ?_, ?_⟩
    · rw [← hkept]
      exact drop_suffix _ _
    · rw [← hkept]
      exact of_decide_eq_true hfits
    · exact fun hspr => hpair ((hchain _).mpr hspr)

end

section

/-- A cost that is a natural number. -/
def costNat (spend : GithubOperationSpend) : ℕ :=
  match spend.cost with
  | some q => ⌊q⌋₊
  | none => 0

lemma add_natCast {m n : ℕ} (h : m + n < 2 ^ 53) :
    JsNumber.add ((m : ℚ≥0) : JsNumber) ((n : ℚ≥0) : JsNumber) =
      (((m + n : ℕ) : ℚ≥0) : JsNumber) := by
  have hcast : ((m : ℚ≥0) + n) = ((m + n : ℕ) : ℚ≥0) := (Nat.cast_add m n).symm
  have hnear := JsNumber.nearest_natCast h
  rw [← hcast] at hnear
  rw [← hcast]
  exact hnear

lemma total_natCast {ns : List ℕ} (h : ns.sum < 2 ^ 53) :
    JsNumber.total (ns.map fun n : ℕ => ((n : ℚ≥0) : JsNumber)) = ((ns.sum : ℚ≥0) : JsNumber) := by
  have hrun : ∀ (ns : List ℕ) (m : ℕ), m + ns.sum < 2 ^ 53 →
      (ns.map fun n : ℕ => ((n : ℚ≥0) : JsNumber)).foldl JsNumber.add ((m : ℚ≥0) : JsNumber) =
        (((m + ns.sum : ℕ) : ℚ≥0) : JsNumber) := by
    intro ns
    induction ns with
    | nil =>
      intro m _
      rfl
    | cons n ns ih =>
      intro m hm
      rw [sum_cons] at hm
      rw [map_cons, foldl_cons, add_natCast (by omega), ih _ (by omega), sum_cons, Nat.add_assoc]
  have hzero := hrun ns 0 (by omega)
  rw [Nat.zero_add] at hzero
  rw [← hzero, JsNumber.total, Nat.cast_zero]
  rfl

structure Tallied (m : JsMap Text GithubOperationSpend) (os : List GithubSpendObservation) :
    Prop where
  exact_ : ∀ spend ∈ m.values, spend.cost = ((costNat spend : ℚ≥0) : JsNumber)
  cost : (m.values.map costNat).sum = total os
  count : (m.values.map (·.count)).sum = os.length

lemma costNat_of_eq (spend : GithubOperationSpend) {n : ℕ}
    (h : spend.cost = ((n : ℚ≥0) : JsNumber)) : costNat spend = n := by
  unfold costNat
  rw [h]
  exact Nat.floor_natCast n

lemma Tallied.group {m : JsMap Text GithubOperationSpend} {os : List GithubSpendObservation}
    (h : Tallied m os) (o : GithubSpendObservation) (hsum : total (os ++ [o]) < 2 ^ 53) :
    Tallied (group m o) (os ++ [o]) := by
  have htot : total (os ++ [o]) = total os + o.cost := by
    simp only [total, map_append, sum_append, map_cons, map_nil, sum_cons, sum_nil, Nat.add_zero]
  rw [htot] at hsum
  unfold Github.group
  cases hfound : m.lookup (groupKey o) with
  | none =>
    have hcost : JsNumber.add 0 ((o.cost : ℚ≥0) : JsNumber) = ((o.cost : ℚ≥0) : JsNumber) := by
      have hadd := add_natCast (m := 0) (n := o.cost) (by omega)
      rwa [Nat.zero_add, Nat.cast_zero] at hadd
    simp only [Option.map_none, Option.getD_none, hcost]
    constructor
    · intro spend hspend
      rw [JsMap.values_set_of_none _ hfound, mem_append, mem_singleton] at hspend
      rcases hspend with hspend | rfl
      · exact h.exact_ spend hspend
      · rw [costNat_of_eq _ (n := o.cost) rfl]
    · rw [JsMap.values_set_of_none _ hfound, map_append, sum_append, h.cost, htot,
        map_singleton, sum_singleton, costNat_of_eq _ (n := o.cost) rfl]
    · rw [JsMap.values_set_of_none _ hfound, map_append, sum_append, h.count,
        map_singleton, sum_singleton, length_append, length_singleton]
  | some current =>
    simp only [Option.map_some, Option.getD_some]
    obtain ⟨front, back, hval, hset⟩ := JsMap.values_set_of_some
      (⟨o.operationKey, o.pool, o.actor, current.count + 1,
        JsNumber.add current.cost ((o.cost : ℚ≥0) : JsNumber)⟩ : GithubOperationSpend) hfound
    have hcurr : current.cost = ((costNat current : ℚ≥0) : JsNumber) := by
      apply h.exact_
      rw [hval]
      exact mem_append_right _ mem_cons_self
    have hold := h.cost
    have hcount := h.count
    rw [hval] at hold hcount
    simp only [map_append, map_cons, sum_append, sum_cons] at hold hcount
    have hnew : JsNumber.add current.cost ((o.cost : ℚ≥0) : JsNumber) =
        (((costNat current + o.cost : ℕ) : ℚ≥0) : JsNumber) := by
      rw [hcurr, add_natCast (by omega)]
    have hnat := costNat_of_eq ⟨o.operationKey, o.pool, o.actor, current.count + 1,
      JsNumber.add current.cost ((o.cost : ℚ≥0) : JsNumber)⟩ hnew
    constructor
    · intro spend hspend
      rw [hset, mem_append, mem_cons] at hspend
      rcases hspend with hspend | rfl | hspend
      · apply h.exact_
        rw [hval]
        exact mem_append_left _ hspend
      · rw [hnat]
        exact hnew
      · apply h.exact_
        rw [hval]
        exact mem_append_right _ (mem_cons_of_mem _ hspend)
    · rw [hset]
      simp only [map_append, map_cons, sum_append, sum_cons, hnat, htot]
      omega
    · rw [hset]
      simp only [map_append, map_cons, sum_append, sum_cons, length_append, length_singleton]
      omega

lemma tallied_foldl (os : List GithubSpendObservation) (hsum : total os < 2 ^ 53) :
    Tallied (os.foldl group ∅) os := by
  induction os using reverseRecOn with
  | nil =>
    refine ⟨?_, rfl, rfl⟩
    intro spend hspend
    cases hspend
  | append_singleton os o ih =>
    rw [foldl_append]
    apply (ih _).group o hsum
    refine lt_of_le_of_lt ?_ hsum
    simp only [total, map_append, sum_append]
    omega

end

section
variable {locale} {format} {identity : Option Text} {maxBytes : ℕ} {ledger after : Ledger}
  {call : RecordCall} {window : Window} {os kept : List GithubSpendObservation}

/-- What is recorded is dated and has a key, its costs add up exactly, and the last of it
lies on the lane with a header each. -/
structure Kept (locale : Locale) (format : ToonlFormat) (ledger : Ledger) : Prop where
  sound : ∀ o ∈ ledger.recorded, Sound locale o
  keys : ∀ o ∈ ledger.recorded, o.operationKey ≠ []
  safe : total ledger.recorded < 2 ^ 53
  laid : ∃ kept, kept <:+ ledger.recorded ∧ Laid format ledger.file kept

lemma laid_append {file : LaneFile} (h : Laid format file os) (o : GithubSpendObservation) :
    Laid format (some (file.getD [] ++ format.writerText [toToonlRecord o])) (os ++ [o]) := by
  refine ⟨?_, fun hnone => by cases hnone⟩
  rw [Option.getD_some, h.text, spreadText_append, spreadText_singleton]

variable {weather : Weather}

lemma append_cases (file : LaneFile) (segment : Text)
    (h : ∀ written, weather.appendFails = some written → written = 0) :
    append file segment weather = (some (file.getD [] ++ segment), .ok ()) ∨
      append file segment weather = (file, .error .unwritten) := by
  unfold append
  cases hfails : weather.appendFails with
  | none => exact .inl rfl
  | some written =>
    rw [h written hfails]
    exact .inr rfl

lemma write_steady {o : GithubSpendObservation} (law : format.Lawful)
    (hlaid : Laid format ledger.file os)
    (htorn : ∀ written, weather.appendFails = some written → written = 0)
    (hpair : ¬ KeepsPair format maxBytes ledger.file o) :
    ∃ kept, kept <:+ os ∧
      ((∃ file error, write format maxBytes ledger.file o weather = (file, .error error) ∧
        Laid format file kept) ∨
      ∃ file, write format maxBytes ledger.file o weather = (file, .ok ()) ∧
        Laid format file (kept ++ [o])) := by
  rcases write_cases o maxBytes weather law hlaid with
    ⟨error, hwrite⟩ | ⟨-, hwrite⟩ | ⟨hover, hwrite⟩
  · exact ⟨os, suffix_rfl, .inl ⟨_, error, hwrite, hlaid⟩⟩
  · refine ⟨os, suffix_rfl, ?_⟩
    rcases append_cases ledger.file (format.writerText [toToonlRecord o]) htorn with happ | happ
    · exact .inr ⟨_, hwrite.trans happ, laid_append hlaid o⟩
    · exact .inl ⟨_, _, hwrite.trans happ, hlaid⟩
  · have hspr : Spread format (keptRows format maxBytes os o) := by
      by_contra hnot
      exact hpair ((keepsPair_iff law hlaid).mpr ⟨hover, hnot⟩)
    rw [laneText_spread hspr] at hwrite
    have htrimm : Laid format (some (spreadText format (keptRows format maxBytes os o)))
        (keptRows format maxBytes os o) := ⟨rfl, fun hnone => by cases hnone⟩
    refine ⟨keptRows format maxBytes os o, keptRows_suffix, ?_⟩
    rcases append_cases (some (spreadText format (keptRows format maxBytes os o)))
      (format.writerText [toToonlRecord o]) htorn with happ | happ
    · exact .inr ⟨_, hwrite.trans happ, laid_append htrimm o⟩
    · exact .inl ⟨_, _, hwrite.trans happ, htrimm⟩

lemma kept_record (law : format.Lawful) (h : Kept locale format ledger)
    (hsteady : Steady locale format identity maxBytes ledger call) :
    Kept locale format (record locale format identity maxBytes ledger call).1 := by
  unfold record
  cases hobs : observe locale identity call with
  | error error => exact h
  | ok o =>
    obtain ⟨hkey, htorn, hpair, hsafe⟩ := hsteady o hobs
    obtain ⟨os, hsuff, hlaid⟩ := h.laid
    obtain ⟨kept, hkept, ⟨file, error, hwrite, hfile⟩ | ⟨file, hwrite, hfile⟩⟩ :=
      write_steady law hlaid htorn hpair
    · simp only [hwrite]
      exact ⟨h.sound, h.keys, h.safe, kept, hkept.trans hsuff, hfile⟩
    · simp only [hwrite]
      obtain ⟨front, hfront⟩ := hkept.trans hsuff
      refine ⟨?_, ?_, hsafe, kept ++ [o], ⟨front, ?_⟩, hfile⟩
      · intro p hp
        rcases mem_append.mp hp with hp | hp
        · exact h.sound p hp
        · rw [mem_singleton.mp hp]
          exact observe_sound hobs
      · intro p hp
        rcases mem_append.mp hp with hp | hp
        · exact h.keys p hp
        · rw [mem_singleton.mp hp]
          exact hkey
      · rw [← append_assoc, hfront]

lemma kept_of_reach (law : format.Lawful) (h : (recording locale format identity maxBytes).Reach
      (Steady locale format identity maxBytes) ledger) : Kept locale format ledger := by
  refine h.inv (Kept locale format) ?_ ?_
  · rintro ⟨file, recorded⟩ ⟨rfl, rfl⟩
    refine ⟨?_, ?_, Nat.two_pow_pos 53, [], suffix_rfl, rfl, fun _ => rfl⟩
    · intro o ho
      cases ho
    · intro o ho
      cases ho
  · intro ledger call after hkept hsteady hnext
    cases hnext
    exact kept_record law hkept hsteady

lemma report_covered (hcov : window.Covers locale ledger.recorded)
    (hkept : kept <:+ ledger.recorded)
    (hread : readObservations locale format ledger.file = ⟨kept, 0⟩) (hsafe : total kept < 2 ^ 53) :
    ReportsLast locale format window ledger := by
  obtain ⟨hfrom, hto, hins⟩ := hcov
  have hall : kept.filter (isReported locale window.start window.stop none) = kept := by
    apply filter_eq_self.mpr
    intro o ho
    obtain ⟨observed, hobserv, hstart, hstop⟩ := hins o (hkept.subset ho)
    simp only [isReported, hobserv, Option.all_some, Option.all_none, Bool.and_true,
      Bool.and_eq_true, decide_eq_true_eq]
    exact ⟨hstart, hstop⟩
  have htall := tallied_foldl kept hsafe
  have hperm := mergeSort_perm (kept.foldl group ∅).values
    (GithubOperationSpend.notAfter locale)
  unfold ReportsLast report
  rw [hfrom, hto, hread]
  simp only [if_neg (not_le.mpr window.nonempty), hall]
  refine ⟨kept, _, hkept, rfl, rfl, rfl, ?_, ?_⟩
  · exact (hperm.map (·.count)).sum_eq.trans htall.count
  · have hcosts : ((kept.foldl group ∅).values.mergeSort
        (GithubOperationSpend.notAfter locale)).map (·.cost) =
        (((kept.foldl group ∅).values.mergeSort (GithubOperationSpend.notAfter locale)).map
          costNat).map fun n : ℕ => ((n : ℚ≥0) : JsNumber) := by
      rw [map_map]
      apply map_congr_left
      intro spend hspend
      exact htall.exact_ spend (hperm.mem_iff.mp hspend)
    have hsum := (hperm.map costNat).sum_eq.trans htall.cost
    change JsNumber.total _ = _
    rw [hcosts, total_natCast (by rw [hsum]; exact hsafe), hsum]

lemma not_reportsLast (hcov : window.Covers locale ledger.recorded)
    (h : 0 < (readObservations locale format ledger.file).unreadable) :
    ¬ ReportsLast locale format window ledger := by
  rintro ⟨kept, r, -, -, hrep, hnone, -, -⟩
  unfold report at hrep
  rw [hcov.1, hcov.2.1] at hrep
  simp only [if_neg (not_le.mpr window.nonempty)] at hrep
  cases hrep
  simp only at hnone
  omega

lemma unreadable_of_write {o : GithubSpendObservation} {file : LaneFile}
    (law : format.Lawful) (hlaid : Laid format ledger.file os)
    (hsound : ∀ p ∈ os, Sound locale p) (ho : Sound locale o)
    (hwrite : write format maxBytes ledger.file o weather = (file, .ok ()))
    (hbad : o.operationKey = [] ∨ KeepsPair format maxBytes ledger.file o) :
    0 < (readObservations locale format file).unreadable := by
  have happen : ∀ base, append base (format.writerText [toToonlRecord o]) weather =
      (file, .ok ()) → file = some (base.getD [] ++ format.writerText [toToonlRecord o]) := by
    intro base happ
    unfold append at happ
    split at happ
    · cases happ
      rfl
    · cases happ
    · cases happ
  have hwrit : ∀ written, file = some (laneText format written ++
      format.writerText [toToonlRecord o]) → readObservations locale format file =
        readLines locale format ((written.flatMap fun os =>
          format.pushed none (os.map toToonlRecord)) ++
            (format.pushed none ([o].map toToonlRecord) ++ [[]])) := by
    intro written hfile
    have hone : format.writerText [toToonlRecord o] = laneText format [[o]] := by
      rw [laneText, flatMap_cons, flatMap_nil, append_nil]
      rfl
    rw [hfile, readObservations, hone, ← laneText_append, splitOn_laneText law, flatMap_append, append_assoc]
    rfl
  have hlast : format.pushed none ([o].map toToonlRecord) ++ [[]] ≠ [] :=
    append_ne_nil_of_right_ne_nil _ (cons_ne_nil _ _)
  have hkey : o.operationKey = [] → 0 < (readLines locale format
      (format.pushed none ([o].map toToonlRecord) ++ [[]])).unreadable := by
    intro hnil
    rw [readLines_pushed_cons law ho none (cons_ne_nil _ _), if_pos (.inr hnil)]
    exact Nat.succ_pos _
  rcases write_cases o maxBytes weather law hlaid with
    ⟨error, hfail⟩ | ⟨hund, happ⟩ | ⟨hover, happ⟩
  · rw [hfail] at hwrite
    cases hwrite
  · have hfile := happen ledger.file (happ.symm.trans hwrite)
    rw [hlaid.text, spreadText] at hfile
    rw [hwrit _ hfile]
    have hnil : o.operationKey = [] := by
      refine hbad.resolve_right fun hpair => ?_
      have hover := ((keepsPair_iff law hlaid).mp hpair).1
      rw [hund] at hover
      cases hover
    refine Nat.lt_of_lt_of_le (hkey hnil) (unreadable_written_le law ?_ hlast)
    intro ps hps p hp
    obtain ⟨q, hq, rfl⟩ := mem_map.mp hps
    rw [mem_singleton.mp hp]
    exact hsound q hq
  · have hfile := happen _ (happ.symm.trans hwrite)
    rw [Option.getD_some] at hfile
    rw [hwrit _ hfile, flatMap_cons, flatMap_nil, append_nil]
    have hkept : ∀ p ∈ keptRows format maxBytes os o, Sound locale p :=
      fun p hp => hsound p (keptRows_suffix.subset hp)
    rcases hbad with hnil | hpair
    · exact Nat.lt_of_lt_of_le (hkey hnil) (unreadable_le law hkept none hlast)
    · exact unreadable_of_pair law hkept ((keepsPair_iff law hlaid).mp hpair).2 none hlast

/-- In a run of steady calls every report is that of the last recorded observations. -/
theorem reports_last_while_steady (law : format.Lawful) :
    (∀ ledger, (recording locale format identity maxBytes).Reach
        (Steady locale format identity maxBytes) ledger →
      ∀ window : Window, window.Covers locale ledger.recorded →
        ReportsLast locale format window ledger) ∧
    ∀ ledger call after o, (recording locale format identity maxBytes).Reach
        (Steady locale format identity maxBytes) ledger →
      record locale format identity maxBytes ledger call = (after, .ok ()) →
      observe locale identity call = .ok o →
      o.operationKey = [] ∨ KeepsPair format maxBytes ledger.file o →
      ∀ window : Window, window.Covers locale after.recorded →
        ¬ ReportsLast locale format window after := by
  constructor
  · intro ledger hreach window hcov
    have hkept := kept_of_reach law hreach
    obtain ⟨kept, hsuff, hlaid⟩ := hkept.laid
    obtain ⟨front, hfront⟩ := hsuff
    have hsafe : total kept < 2 ^ 53 := by
      have htot := hkept.safe
      rw [← hfront, total, map_append, sum_append] at htot
      exact Nat.lt_of_le_of_lt (Nat.le_add_left _ _) htot
    have hsound : ∀ o ∈ kept, Sound locale o := by
      intro o ho
      apply hkept.sound
      rw [← hfront]
      exact mem_append_right _ ho
    have hkeys : ∀ o ∈ kept, o.operationKey ≠ [] := by
      intro o ho
      apply hkept.keys
      rw [← hfront]
      exact mem_append_right _ ho
    apply report_covered hcov ⟨front, hfront⟩ _ hsafe
    cases hfile : ledger.file with
    | none =>
      rw [hlaid.absent hfile]
      rfl
    | some raw =>
      have htext := hlaid.text
      rw [hfile, Option.getD_some] at htext
      rw [htext]
      exact readObservations_spreadText law hsound hkeys
  · intro ledger call after o hreach hrec hobs hbad window hcov
    have hkept := kept_of_reach law hreach
    obtain ⟨kept, hsuff, hlaid⟩ := hkept.laid
    apply not_reportsLast hcov
    unfold record at hrec
    rw [hobs] at hrec
    rcases hwrite : write format maxBytes ledger.file o call.weather with ⟨file, error | ⟨⟨⟩⟩⟩
    · simp only [hwrite] at hrec
      cases hrec
    · simp only [hwrite] at hrec
      cases hrec
      exact unreadable_of_write law hlaid (fun p hp => hkept.sound p (hsuff.subset hp))
        (observe_sound hobs) hwrite hbad

end

end Redskilled.Github
