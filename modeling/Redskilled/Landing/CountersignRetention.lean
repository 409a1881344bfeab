import Redskilled.Foundation.Bisect
import Redskilled.Landing.CountersignAuthority

/-!
# Retention of the countersigns

A row that would take the lane over its ceiling is appended behind a trim: the lane is read,
the newest rows that leave room are counted, the lane is read again and written anew with
that many of its last rows, and only then the row is appended. Between the second reading and
the rewriting other processes may append, and what they append is lost. Where nobody does,
the lane is what is left of the history when its first rows are dropped.

A drop is more than a loss of records. A head all of whose rows are dropped counts as one
that nobody judged, and is then let through by the next head of its patch. So a refusal is
safe where the trims leave each change its heads, or leave nothing of it, and nothing more is
judged of a change that was dropped.
-/
namespace Redskilled.Landing.Countersign
open Foundation Acp.TicketLoop

structure LaneFormat where
  appended : CountersignRow → ℕ
  encoded : List CountersignRow → ℕ

def lastRows (n : ℕ) (rows : List CountersignRow) : List CountersignRow :=
  rows.drop (rows.length - n)

/-- How many of the last rows leave room for what comes in. -/
def keepLastWithin (format : LaneFormat) (rows : List CountersignRow) (incomingBytes targetBytes : ℕ) :
    ℕ :=
  bisect (fun middle => format.encoded (lastRows middle rows) + incomingBytes ≤ targetBytes)
    rows.length 0 rows.length

/-- Half of the ceiling, or as much as comes in. -/
def targetBytes (incomingBytes ceiling : ℕ) : ℕ := max incomingBytes (ceiling / 2)

inductive Phase where
  | idle
  | sizing (row : CountersignRow)
  | reading (row : CountersignRow)
  | trimming (row : CountersignRow) (keepLast : ℕ)
  /-- What is written anew, and how many rows had been appended when the lane was read. -/
  | replacing (row : CountersignRow) (kept : List CountersignRow) (seen : ℕ)
  | appending (row : CountersignRow)

structure Lane where
  rows : List CountersignRow
  size : ℕ
  phase : ℕ → Phase
  history : List CountersignRow

inductive Act where
  | append (row : CountersignRow)
  | stat
  | readFile
  | trim
  /-- The size of a lane that is written anew is left to whoever writes it. -/
  | rename (size : ℕ)
  | appendFile
  | reject

namespace Lane

def goto (s : Lane) (id : ℕ) (phase : Phase) : Lane :=
  { s with phase := Function.update s.phase id phase }

def next (format : LaneFormat) (ceiling : ℕ) (s : Lane) (id : ℕ) : Act → Option Lane
  | .append row =>
    match s.phase id with
    | .idle => some (s.goto id (.sizing row))
    | _ => none
  | .stat =>
    match s.phase id with
    | .sizing row =>
      if s.size + format.appended row ≤ ceiling then some (s.goto id (.appending row))
      else if ceiling < format.appended row then some (s.goto id .idle)
      else some (s.goto id (.reading row))
    | _ => none
  | .readFile =>
    match s.phase id with
    | .reading row => some (s.goto id (.trimming row (keepLastWithin format s.rows
        (format.appended row) (targetBytes (format.appended row) ceiling))))
    | _ => none
  | .trim =>
    match s.phase id with
    | .trimming row keepLast =>
      some (s.goto id (.replacing row (lastRows keepLast s.rows) s.history.length))
    | _ => none
  | .rename size =>
    match s.phase id with
    | .replacing row kept _ =>
      some ({ s with rows := kept, size := size }.goto id (.appending row))
    | _ => none
  | .appendFile =>
    match s.phase id with
    | .appending row => some ({ s with
        rows := s.rows ++ [row]
        size := s.size + format.appended row
        history := s.history ++ [row] }.goto id .idle)
    | _ => none
  | .reject => some (s.goto id .idle)

/-- Nothing is appended between the reading of a trim and its rewriting. -/
def unraced (s : Lane) (step : ℕ × Act) : Bool :=
  match step.2, s.phase step.1 with
  | .rename _, .replacing _ kept seen => seen = s.history.length || kept.isEmpty
  | _, _ => true

end Lane

/-- The heads of a change, in the order of their first rows. -/
def headsOf (rows : List CountersignRow) (pr : ℕ) (patchId : Text) : List CountersignKey :=
  ((rows.map (·.toCountersignKey)).filter fun key =>
    decide (key.pr = pr) && decide (key.patchId = patchId)).eraseDups

/-- The lane has a row of each head that the history has of this change, and in its order. -/
def Whole (rows history : List CountersignRow) (change : CountersignKey) : Prop :=
  headsOf rows change.pr change.patchId = headsOf history change.pr change.patchId

instance instDecidableWhole (rows history : List CountersignRow) (change : CountersignKey) :
    Decidable (Whole rows history change) :=
  inferInstanceAs (Decidable (_ = _))

/-- A trim leaves a change all its heads or no row, and no row is appended for a change of which
heads are gone. -/
def Lane.sparing (s : Lane) (step : ℕ × Act) : Bool :=
  match step.2, s.phase step.1 with
  | .rename _, .replacing _ kept _ =>
    kept.all fun row => Whole kept s.history row.toCountersignKey
  | .appendFile, .appending row => Whole s.rows s.history row.toCountersignKey
  | _, _ => true

def Lane.safe (s : Lane) (step : ℕ × Act) : Bool := s.unraced step && s.sparing step

/-- Any number of processes append to one lane, whatever it held. -/
def ledger (format : LaneFormat) (ceiling : ℕ) : Machine Lane (ℕ × Act) where
  start s := s.history = s.rows ∧ ∀ id, s.phase id = .idle
  next s step := s.next format ceiling step.1 step.2

/-- The rows are what is left when the first ones are dropped. -/
def Kept (rows history : List CountersignRow) : Prop := ∃ n ≤ history.length, rows = history.drop n

/-- The head has no row left, and the first candidate of its patch that is left is strong
enough. -/
def Grants (rows : List CountersignRow) (key : CountersignKey) (requirement : VerifyRequirement) :
    Prop :=
  lastOf rows key = none ∧ ∃ row, firstCandidate rows key = some row ∧
    countersignMeetsRequirement requirement row.countersign = true

section
variable {rows history : List CountersignRow} {row : CountersignRow} {key : CountersignKey}
  {requirement : VerifyRequirement}

lemma Kept.lastRows (h : Kept rows history) (n : ℕ) : Kept (lastRows n rows) history := by
  obtain ⟨m, hm, rfl⟩ := h
  rw [Countersign.lastRows, List.drop_drop, List.length_drop]
  exact ⟨_, by omega, rfl⟩

lemma Kept.concat (h : Kept rows history) : Kept (rows ++ [row]) (history ++ [row]) := by
  obtain ⟨n, hn, rfl⟩ := h
  refine ⟨n, ?_, (List.drop_append_of_le_length hn).symm⟩
  rw [List.length_append]
  omega

lemma kept_nil : Kept [] history := ⟨history.length, le_refl _, List.drop_length.symm⟩

lemma Kept.lastOf (h : Kept rows history) (hlast : lastOf rows key = some row) :
    lastOf history key = some row := by
  obtain ⟨n, -, rfl⟩ := h
  exact lastOf_drop n hlast

lemma grants_iff (h : Kept rows history)
    (href : (decideLandCountersign history key requirement).decision.allowed = false) :
    (decideLandCountersign rows key requirement).decision.allowed = true ↔
      Grants rows key requirement := by
  rw [allowed_decide, Grants]
  rw [allowed_decide] at href
  cases hrows : Countersign.lastOf rows key with
  | some last =>
    rw [h.lastOf hrows] at href
    simp [href]
  | none =>
    simp only [true_and]
    exact Option.any_eq_true ..

lemma headsOf_concat (pr : ℕ) (patchId : Text) :
    headsOf (rows ++ [row]) pr patchId = headsOf rows pr patchId ++
      if row.pr = pr ∧ row.patchId = patchId ∧
          row.toCountersignKey ∉ headsOf rows pr patchId then [row.toCountersignKey] else [] := by
  simp only [headsOf, List.map_append, List.filter_append, List.eraseDups_append,
    List.mem_eraseDups]
  congr 1
  generalize (rows.map (·.toCountersignKey)).filter (fun key =>
    decide (key.pr = pr) && decide (key.patchId = patchId)) = old
  by_cases hchange : row.pr = pr ∧ row.patchId = patchId
  · by_cases hmem : row.toCountersignKey ∈ old
    · simp [hchange, hmem, List.removeAll]
    · simp [hchange, hmem, List.removeAll, List.eraseDups_cons]
  · have hoth : ¬ (row.pr = pr ∧ row.patchId = patchId ∧ row.toCountersignKey ∉ old) :=
      fun h => hchange ⟨h.1, h.2.1⟩
    have hpred : (decide (row.pr = pr) && decide (row.patchId = patchId)) = false := by
      simpa using hchange
    simp [hoth, hpred, List.removeAll]

lemma mem_headsOf {pr : ℕ} {patchId : Text} : key ∈ headsOf rows pr patchId ↔
    lastOf rows key ≠ none ∧ key.pr = pr ∧ key.patchId = patchId := by
  rw [headsOf, List.mem_eraseDups, List.mem_filter, ne_eq, lastOf_eq_none]
  simp

/-- What a function of keys finds first, it finds first among the heads of the change that it
asks for. -/
lemma findSome?_headsOf {β : Type*} (f : CountersignKey → Option β) {pr : ℕ} {patchId : Text}
    (hf : ∀ other, f other ≠ none → other.pr = pr ∧ other.patchId = patchId) :
    (headsOf rows pr patchId).findSome? f = rows.findSome? fun row => f row.toCountersignKey := by
  induction rows using List.reverseRecOn with
  | nil => rfl
  | append_singleton rows row ih =>
    rw [headsOf_concat, List.findSome?_append, List.findSome?_append, ih]
    split_ifs with hnew
    · rfl
    · cases hfound : rows.findSome? fun row => f row.toCountersignKey with
      | some found => rfl
      | none =>
        have hnone : f row.toCountersignKey = none := by
          by_contra hsome
          obtain ⟨hpr, hpatch⟩ := hf _ hsome
          have hold : row.toCountersignKey ∈ headsOf rows pr patchId := by
            by_contra hmem
            exact hnew ⟨hpr, hpatch, hmem⟩
          exact hsome (List.findSome?_eq_none_iff.mp (ih.trans hfound) _ hold)
        simp [hnone]

lemma Whole.concat {change : CountersignKey} (h : Whole rows history change) :
    Whole (rows ++ [row]) (history ++ [row]) change := by
  rw [Whole, headsOf_concat, headsOf_concat, h]

/-- A lane with all heads of a change decides it as the history does. -/
lemma Whole.allowed (hwhole : Whole rows history key) (h : Kept rows history) :
    (decideLandCountersign rows key requirement).decision.allowed =
      (decideLandCountersign history key requirement).decision.allowed := by
  have hlast : ∀ other : CountersignKey, other.pr = key.pr → other.patchId = key.patchId →
      lastOf rows other = lastOf history other := by
    intro other hpr hpatch
    cases hrows : Countersign.lastOf rows other with
    | some last => exact (h.lastOf hrows).symm
    | none =>
      cases hhist : Countersign.lastOf history other with
      | none => rfl
      | some last =>
        have hmem : other ∈ headsOf rows key.pr key.patchId := by
          rw [hwhole, mem_headsOf]
          exact ⟨hhist ▸ Option.some_ne_none last, hpr, hpatch⟩
        exact absurd hrows (mem_headsOf.mp hmem).1
  have hcandidate : candidate rows key = candidate history key := by
    funext other
    by_cases hchange : other.pr = key.pr ∧ other.patchId = key.patchId
    · rw [candidate, candidate, hlast other hchange.1 hchange.2]
    · rw [candidate_eq_none_of_change hchange, candidate_eq_none_of_change hchange]
  have hchange : ∀ other, candidate history key other ≠ none →
      other.pr = key.pr ∧ other.patchId = key.patchId := by
    intro other
    rw [ne_eq, not_imp_comm]
    exact candidate_eq_none_of_change
  have hfirst : firstCandidate rows key = firstCandidate history key := by
    rw [firstCandidate, firstCandidate, hcandidate, ← findSome?_headsOf _ hchange,
      ← findSome?_headsOf _ hchange, hwhole]
  rw [allowed_decide, allowed_decide, hlast key rfl rfl, hfirst]

lemma exists_of_allowed (h : (decideLandCountersign rows key requirement).decision.allowed = true) :
    ∃ row ∈ rows, row.pr = key.pr ∧ row.patchId = key.patchId := by
  rw [allowed_decide] at h
  cases hlast : Countersign.lastOf rows key with
  | some last =>
    have hkey := key_of_lastOf hlast
    refine ⟨last, List.mem_of_mem_filter (List.mem_of_getLast? hlast), ?_⟩
    rw [hkey]
    exact ⟨rfl, rfl⟩
  | none =>
    rw [hlast] at h
    obtain ⟨row, hfirst, -⟩ := (Option.any_eq_true ..).mp h
    obtain ⟨other, hcandidate⟩ := exists_of_firstCandidate hfirst
    obtain ⟨hoth, hpr, hpatch, -⟩ := candidate_eq_some.mp hcandidate
    refine ⟨row, List.mem_of_mem_filter (List.mem_of_getLast? hoth), ?_⟩
    rw [key_of_lastOf hoth]
    exact ⟨hpr, hpatch⟩

/-- No drop grants a change of which the lane has all heads or no row. -/
lemma refused_of_whole (h : Kept rows history)
    (hwhole : ∀ row ∈ rows, Whole rows history row.toCountersignKey)
    (href : (decideLandCountersign history key requirement).decision.allowed = false) :
    (decideLandCountersign rows key requirement).decision.allowed = false := by
  by_contra hallow
  rw [Bool.not_eq_false] at hallow
  obtain ⟨row, hmem, hpr, hpatch⟩ := exists_of_allowed hallow
  have hchange : Whole rows history key := by
    have hrow := hwhole row hmem
    rwa [Whole, hpr, hpatch] at hrow
  rw [hchange.allowed h, href] at hallow
  cases hallow

end

structure Lane.Inv (s : Lane) : Prop where
  rows : Kept s.rows s.history
  trims : ∀ id row kept seen, s.phase id = .replacing row kept seen →
    seen ≤ s.history.length ∧ Kept kept (s.history.take seen)

section
variable {format : LaneFormat} {ceiling : ℕ} {s t : Lane} {id : ℕ} {act : Act}

lemma Lane.Inv.goto (h : s.Inv) (phase : Phase)
    (hphase : ∀ row kept seen, phase = .replacing row kept seen →
      seen ≤ s.history.length ∧ Kept kept (s.history.take seen)) : (s.goto id phase).Inv := by
  refine ⟨h.rows, ?_⟩
  intro other row kept seen hoth
  simp only [Lane.goto, Function.update_apply] at hoth
  split_ifs at hoth
  · exact hphase row kept seen hoth
  · exact h.trims other row kept seen hoth

lemma kept_of_unraced (h : s.Inv) {row : CountersignRow} {kept : List CountersignRow}
    {seen : ℕ} (hphase : s.phase id = .replacing row kept seen)
    (hok : seen = s.history.length ∨ kept = []) : Kept kept s.history := by
  rcases hok with hseen | hnil
  · have hkept := (h.trims id row kept seen hphase).2
    rwa [hseen, List.take_length] at hkept
  · rw [hnil]
    exact kept_nil

lemma Lane.next_cases (hstep : s.next format ceiling id act = some t) :
    (∃ phase, (∀ row kept seen, phase ≠ .replacing row kept seen) ∧ t = s.goto id phase) ∨
    (∃ row keepLast, t = s.goto id (.replacing row (lastRows keepLast s.rows) s.history.length)) ∨
    (∃ row kept seen size, act = .rename size ∧ s.phase id = .replacing row kept seen ∧
      t = ({ s with rows := kept, size := size } : Lane).goto id (.appending row)) ∨
    ∃ row, act = .appendFile ∧ s.phase id = .appending row ∧ t = ({ s with
        rows := s.rows ++ [row]
        size := s.size + format.appended row
        history := s.history ++ [row] } : Lane).goto id .idle := by
  cases act with
  | append row =>
    simp only [Lane.next] at hstep
    split at hstep
    · exact .inl ⟨_, by rintro _ _ _ ⟨⟩, (Option.some.inj hstep).symm⟩
    · cases hstep
  | stat =>
    simp only [Lane.next] at hstep
    split at hstep
    · split_ifs at hstep
      all_goals exact .inl ⟨_, by rintro _ _ _ ⟨⟩, (Option.some.inj hstep).symm⟩
    · cases hstep
  | readFile =>
    simp only [Lane.next] at hstep
    split at hstep
    · exact .inl ⟨_, by rintro _ _ _ ⟨⟩, (Option.some.inj hstep).symm⟩
    · cases hstep
  | trim =>
    simp only [Lane.next] at hstep
    split at hstep
    · exact .inr (.inl ⟨_, _, (Option.some.inj hstep).symm⟩)
    · cases hstep
  | rename size =>
    simp only [Lane.next] at hstep
    split at hstep
    · next row kept seen hphase =>
        exact .inr (.inr (.inl ⟨row, kept, seen, size, rfl, hphase, (Option.some.inj hstep).symm⟩))
    · cases hstep
  | appendFile =>
    simp only [Lane.next] at hstep
    split at hstep
    · next row hphase =>
        exact .inr (.inr (.inr ⟨row, rfl, hphase, (Option.some.inj hstep).symm⟩))
    · cases hstep
  | reject => exact .inl ⟨.idle, by rintro _ _ _ ⟨⟩, (Option.some.inj hstep).symm⟩

lemma Lane.Inv.next (h : s.Inv) (hok : s.unraced (id, act) = true)
    (hstep : s.next format ceiling id act = some t) : t.Inv := by
  rcases Lane.next_cases hstep with ⟨phase, hphase, rfl⟩ | ⟨row, keepLast, rfl⟩ |
    ⟨row, kept, seen, size, rfl, hphase, rfl⟩ | ⟨row, rfl, hphase, rfl⟩
  · exact h.goto phase fun row kept seen heq => absurd heq (hphase row kept seen)
  · apply h.goto
    rintro _ _ _ ⟨⟩
    rw [List.take_length]
    exact ⟨le_refl _, h.rows.lastRows _⟩
  · have hok' : seen = s.history.length ∨ kept = [] := by
      simpa [Lane.unraced, hphase] using hok
    have hkept : ({ s with rows := kept, size := size } : Lane).Inv :=
      ⟨kept_of_unraced h hphase hok', h.trims⟩
    exact hkept.goto _ (by rintro _ _ _ ⟨⟩)
  · have happ : ({ s with
        rows := s.rows ++ [row]
        size := s.size + format.appended row
        history := s.history ++ [row] } : Lane).Inv := by
      refine ⟨h.rows.concat, ?_⟩
      intro other row' kept seen hoth
      obtain ⟨hseen, hkept⟩ := h.trims other row' kept seen hoth
      rw [List.take_append_of_le_length hseen, List.length_append]
      exact ⟨by omega, hkept⟩
    exact happ.goto _ (by rintro _ _ _ ⟨⟩)

lemma inv_of_reach
    (h : (ledger format ceiling).Reach (fun s step => s.unraced step = true) s) : s.Inv := by
  apply h.inv
  · rintro s ⟨hhist, hidle⟩
    refine ⟨⟨0, Nat.zero_le _, hhist.symm⟩, ?_⟩
    intro id row kept seen hphase
    rw [hidle id] at hphase
    cases hphase
  · intro s step t hs hok hstep
    exact hs.next hok hstep

/-- The lane has of each change no row or all heads. -/
def Lane.Spared (s : Lane) : Prop :=
  ∀ row ∈ s.rows, Whole s.rows s.history row.toCountersignKey

lemma Lane.Spared.next (h : s.Spared) (hok : s.sparing (id, act) = true)
    (hstep : s.next format ceiling id act = some t) : t.Spared := by
  rcases Lane.next_cases hstep with ⟨phase, -, rfl⟩ | ⟨row, keepLast, rfl⟩ |
    ⟨row, kept, seen, size, rfl, hphase, rfl⟩ | ⟨row, rfl, hphase, rfl⟩
  · exact h
  · exact h
  · simp only [Lane.sparing, hphase, List.all_eq_true, decide_eq_true_eq] at hok
    exact hok
  · simp only [Lane.sparing, hphase, decide_eq_true_eq] at hok
    intro last hmem
    rcases List.mem_append.mp hmem with hmem | hmem
    · exact (h last hmem).concat
    · rw [List.mem_singleton.mp hmem]
      exact hok.concat

lemma spared_of_reach (h : (ledger format ceiling).Reach (fun s step => s.safe step = true) s) :
    s.Spared := by
  apply h.inv
  · rintro s ⟨hhist, -⟩ row -
    rw [Whole, hhist]
  · intro s step t hs hok hstep
    exact hs.next (Bool.and_eq_true_iff.mp hok).2 hstep

/-- Where no row is appended while another process trims, only the oldest rows are gone. Where
besides the trims leave each change its heads or nothing, and nothing more is judged of a
change that lost heads, no change is granted that the history refuses. -/
theorem retention_refuses :
    (∀ s, (ledger format ceiling).Reach (fun s step => s.unraced step = true) s →
      ∃ n, s.rows = s.history.drop n) ∧
    ∀ s, (ledger format ceiling).Reach (fun s step => s.safe step = true) s → ∀ key requirement,
        (decideLandCountersign s.history key requirement).decision.allowed = false →
          (decideLandCountersign s.rows key requirement).decision.allowed = false := by
  constructor
  · intro s h
    obtain ⟨n, -, hrows⟩ := (inv_of_reach h).rows
    exact ⟨n, hrows⟩
  · intro s h key requirement
    have hunr : (ledger format ceiling).Reach (fun s step => s.unraced step = true) s :=
      h.mono fun s step hok => (Bool.and_eq_true_iff.mp hok).1
    exact refused_of_whole (inv_of_reach hunr).rows (spared_of_reach h)

/-- No trim is under way but that of one process, and nothing was appended since it read. -/
def Alone (id : ℕ) (s : Lane) : Prop :=
  (∀ other, other ≠ id → s.phase other = .idle) ∧
    ∀ row kept seen, s.phase id = .replacing row kept seen → seen = s.history.length

lemma Alone.unraced (h : Alone id s) (act : Act) : s.unraced (id, act) = true := by
  unfold Lane.unraced
  split
  · next _ row kept seen _ hphase => simp [h.2 row kept seen hphase]
  · rfl

lemma Alone.goto (h : Alone id s) (phase : Phase)
    (hphase : ∀ row kept seen, phase = .replacing row kept seen → seen = s.history.length) :
    Alone id (s.goto id phase) := by
  constructor
  · intro other hoth
    simp only [Lane.goto, Function.update_of_ne hoth]
    exact h.1 other hoth
  · intro row kept seen hrepl
    simp only [Lane.goto, Function.update_self] at hrepl
    exact hphase row kept seen hrepl

lemma Alone.next (h : Alone id s) (hstep : s.next format ceiling id act = some t) : Alone id t := by
  rcases Lane.next_cases hstep with ⟨phase, hphase, rfl⟩ | ⟨row, keepLast, rfl⟩ |
    ⟨row, kept, seen, size, rfl, hphase, rfl⟩ | ⟨row, rfl, hphase, rfl⟩
  · exact h.goto phase fun row kept seen heq => absurd heq (hphase row kept seen)
  · exact h.goto _ (by rintro _ _ _ ⟨⟩; rfl)
  · have hkept : Alone id ({ s with rows := kept, size := size } : Lane) := h
    exact hkept.goto _ (by rintro _ _ _ ⟨⟩)
  · constructor
    · intro other hoth
      simp only [Lane.goto, Function.update_of_ne hoth]
      exact h.1 other hoth
    · intro row' kept seen hrepl
      simp only [Lane.goto, Function.update_self] at hrepl
      cases hrepl

lemma reach_of_alone (h : (ledger format ceiling).Reach (fun _ step => step.1 = id) s) :
    (ledger format ceiling).Reach (fun s step => s.unraced step = true) s := by
  have hboth : Alone id s ∧ (ledger format ceiling).Reach (fun s step => s.unraced step = true) s := by
    apply h.inv
    · rintro s ⟨hhist, hidle⟩
      refine ⟨⟨fun other _ => hidle other, ?_⟩, .of_start ⟨hhist, hidle⟩⟩
      intro row kept seen hphase
      rw [hidle id] at hphase
      cases hphase
    · rintro s ⟨other, act⟩ t ⟨halone, hreach⟩ hid hstep
      obtain rfl : other = id := hid
      exact ⟨halone.next hstep, hreach.step (halone.unraced act) hstep⟩
  exact hboth.2

/-- Where one process alone writes the lane, only its oldest rows are gone, and of what the
history refuses the lane allows exactly what the drop grants. -/
theorem sole_writer_retains (h : (ledger format ceiling).Reach (fun _ step => step.1 = id) s) :
    (∃ n, s.rows = s.history.drop n) ∧ ∀ key requirement,
      (decideLandCountersign s.history key requirement).decision.allowed = false →
        ((decideLandCountersign s.rows key requirement).decision.allowed = true ↔
          Grants s.rows key requirement) := by
  have hkept := (inv_of_reach (reach_of_alone h)).rows
  obtain ⟨n, -, hrows⟩ := hkept
  exact ⟨⟨n, hrows⟩, fun key requirement href =>
    grants_iff (inv_of_reach (reach_of_alone h)).rows href⟩

end

section

def plainLane : LaneFormat := ⟨fun _ => 100, fun rows => 100 * rows.length⟩

def emptyLane : Lane := ⟨[], 0, fun _ => .idle, []⟩

def appends (row : CountersignRow) : List (ℕ × Act) :=
  [(0, .append row), (0, .stat), (0, .appendFile)]

def trims (row : CountersignRow) : List (ℕ × Act) :=
  [(0, .append row), (0, .stat), (0, .readFile), (0, .trim), (0, .rename 100), (0, .appendFile)]

/-- The verifier refuses one head, and passes the next one of the same patch. -/
def dropped : List (ℕ × Act) :=
  appends (judgement judgedHead .verifierFailed) ++ trims (judgement rejudgedHead .testVerified)

/-- One process writes and the drop grants the head that the verifier refused, as it has no row
left. -/
theorem sole_writer_drops : ∃ s : Lane, s.rows = [judgement rejudgedHead .testVerified] ∧
    (∃ n, s.rows = s.history.drop n) ∧
    Grants s.rows judgedHead unlabeledVerifyRequirement ∧
    ¬ Grants s.rows rejudgedHead (verifyRequirementFor .live) := by
  have hrun : ((ledger plainLane 150).execIf (fun _ step => decide (step.1 = 0)) emptyLane
      dropped).map (fun s => (s.rows, s.history)) = some ([judgement rejudgedHead .testVerified],
        [judgement judgedHead .verifierFailed, judgement rejudgedHead .testVerified]) := rfl
  obtain ⟨s, hs, hfacts⟩ := Option.map_eq_some_iff.mp hrun
  obtain ⟨hrows, hhist⟩ := Prod.mk.inj hfacts
  have hreach : (ledger plainLane 150).Reach (fun _ step => step.1 = 0) s :=
    ⟨emptyLane, dropped, ⟨rfl, fun _ => rfl⟩,
      (Machine.run_of_execIf hs).mono fun _ _ => of_decide_eq_true⟩
  obtain ⟨hkept, hgrants⟩ := sole_writer_retains hreach
  refine ⟨s, hrows, hkept, ?_, ?_⟩
  · apply (hgrants judgedHead unlabeledVerifyRequirement _).mp
    · rw [hrows]
      decide +kernel
    · rw [hhist]
      decide +kernel
  · intro hgrant
    have hallow := (hgrants rejudgedHead (verifyRequirementFor .live)
      (by rw [hhist]; decide +kernel)).mpr hgrant
    rw [hrows] at hallow
    exact absurd hallow (by decide +kernel)

/-- The head that the verifier refused may land once its row is dropped. -/
theorem dropped_refusal_grants : ¬ ∀ (format : LaneFormat) (ceiling : ℕ) (s : Lane),
    (ledger format ceiling).Reach anyStep s → (∃ n, s.rows = s.history.drop n) ∧ ∀ key requirement,
        (decideLandCountersign s.history key requirement).decision.allowed = false →
          (decideLandCountersign s.rows key requirement).decision.allowed = false := by
  intro hall
  have hrun : ((ledger plainLane 150).exec emptyLane dropped).map (fun s => (s.rows, s.history)) =
      some ([judgement rejudgedHead .testVerified],
        [judgement judgedHead .verifierFailed, judgement rejudgedHead .testVerified]) := rfl
  obtain ⟨s, hs, hfacts⟩ := Option.map_eq_some_iff.mp hrun
  obtain ⟨hrows, hhist⟩ := Prod.mk.inj hfacts
  have href := (hall plainLane 150 s (Machine.reach_of_exec ⟨rfl, fun _ => rfl⟩ hs)).2
    judgedHead unlabeledVerifyRequirement
  rw [hrows, hhist] at href
  exact absurd (href (by decide +kernel)) (by decide +kernel)

def otherHead : CountersignKey := ⟨8, List.replicate 7 'd', ['q'], by decide⟩

/-- The trim drops another change, and of the head that it keeps the earlier judgements. -/
def retained : List (ℕ × Act) :=
  appends (judgement otherHead .verifierFailed) ++ appends (judgement judgedHead .testVerified) ++
    appends (judgement judgedHead .typeCheckOnly) ++
    appends (judgement judgedHead .verifierFailed) ++
    trims (judgement rejudgedHead .testVerified)

/-- The refused head stays refused though the next one of its patch is judged well. -/
theorem dropped_retention : ∃ s : Lane, (∃ n, s.rows = s.history.drop n) ∧ s.history.length = 5 ∧
    s.rows = [judgement judgedHead .verifierFailed, judgement rejudgedHead .testVerified] ∧
    ∀ key ∈ [judgedHead, otherHead],
      (decideLandCountersign s.rows key unlabeledVerifyRequirement).decision.allowed = false := by
  have hrun : ((ledger plainLane 400).execIf Lane.safe emptyLane retained).map
      (fun s => (s.rows, s.history)) =
      some ([judgement judgedHead .verifierFailed, judgement rejudgedHead .testVerified],
        [judgement otherHead .verifierFailed, judgement judgedHead .testVerified,
          judgement judgedHead .typeCheckOnly, judgement judgedHead .verifierFailed,
          judgement rejudgedHead .testVerified]) := by
    decide +kernel
  obtain ⟨s, hs, hfacts⟩ := Option.map_eq_some_iff.mp hrun
  obtain ⟨hrows, hhist⟩ := Prod.mk.inj hfacts
  have hreach : (ledger plainLane 400).Reach (fun s step => s.safe step = true) s :=
    ⟨emptyLane, retained, ⟨rfl, fun _ => rfl⟩, Machine.run_of_execIf hs⟩
  refine ⟨s, retention_refuses.1 s (hreach.mono fun s step hok => (Bool.and_eq_true_iff.mp hok).1),
    by rw [hhist]; rfl, hrows, ?_⟩
  intro key hkey
  apply retention_refuses.2 s hreach
  rw [hhist]
  revert key
  decide +kernel

end
end Redskilled.Landing.Countersign
