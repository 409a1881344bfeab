import Redskilled.Daemon.HostCeiling

/-!
# The walls of the Workers

Every Worker is born inside a memory wall. A declared budget is its own wall and
is never narrowed; the others take the host's share of a slot, or the headroom
under the declared budgets where that is less. A derived wall is no reservation,
so no admission counts it.
-/
namespace Redskilled.Daemon.ScopeCeiling
open Foundation Admission HostCeiling List

/-- The ceiling of one Worker's scope; without a `memoryMax` it has no wall. -/
structure RedskilledScopeCeiling where
  memoryMax : Option Text
  reason : Text

def declaredCeiling (budget : Option WorkerBudget) : Option Text :=
  budget.bind fun b => b.memoryMax <|> b.memoryHigh

/-- `String(n)`: the digits of a whole number below `10 ^ 21`, `other` for the
rest. -/
def numberText (other : JsNumber → Text) : JsNumber → Text
  | (q : ℚ≥0) => if q = ⌊q⌋₊ ∧ ⌊q⌋₊ < 10 ^ 21 then Text.number ⌊q⌋₊ else other q
  | ⊤ => other ⊤

section
variable (other : JsNumber → Text) (ceiling : HostCeiling) (source : Text)

/-- The bytes of a derived wall under a memory ceiling: the share of a slot, and
no more than the headroom. -/
def derivedBytes (memory : JsNumber) (workers : List WorkerView) : JsNumber :=
  let headroom := JsNumber.sub memory (measureHostConsumption workers).memoryBytes
  let share := ceiling.workerCount.elim headroom fun slots =>
    JsNumber.mathFloor (JsNumber.divNat memory slots)
  min headroom share

def deriveWorkerScopeCeiling (workers : List WorkerView) (budget : Option WorkerBudget) :
    RedskilledScopeCeiling :=
  match declaredCeiling budget, ceiling.memoryBytes with
  | some declared, _ =>
    { memoryMax := some declared
      reason := "the client declared this Worker's memory ceiling (".toList ++ declared ++
        "), so the host derived none".toList }
  | none, none =>
    { memoryMax := none
      reason := "this host admits Workers against no memory ceiling, so there is no accounting to derive a per-Worker ceiling from; the daemon's RSS sampling floor is the only remaining ceiling".toList }
  | none, some memory =>
    let bytes := derivedBytes ceiling memory workers
    let limit := numberText other memory
    if bytes ≤ 0 then
      { memoryMax := none
        reason := "this host's memory ceiling of ".toList ++ limit ++
          " bytes is already fully committed to ".toList ++ Text.number workers.length ++
          " Worker(s), so no positive per-Worker ceiling can be derived; the daemon's RSS sampling floor is the only remaining ceiling".toList }
    else
      let origin := match ceiling.workerCount with
        | none => "the headroom under this host's memory ceiling of ".toList ++ limit ++
            " bytes; this host declares no Worker slot count (REDSKILLED_WORKER_CEILING is unset), so this ceiling is a per-Worker wall and not memory the host sets aside — N Workers may carry N such walls, and the host ceiling is not enforced host-wide. Declare a slot count to make it divide into shares that sum to it".toList
        | some slots => "this host's memory ceiling of ".toList ++ limit ++
            " bytes shared across its ".toList ++ Text.number slots ++ " Worker slot(s)".toList
      { memoryMax := some (numberText other bytes)
        reason := "derived from ".toList ++ origin ++ " (ceiling source: ".toList ++ source ++
          [')'] }

structure ScopedWorker where
  worker : WorkerView
  memoryCeiling : Option Text

abbrev Scopes := JsMap Text ScopedWorker

def views (scopes : Scopes) : List WorkerView := scopes.values.map (·.worker)

def startScoped (scopes : Scopes) (spec : WorkerSpec) (outside : Outside) :
    Except StartError Scopes :=
  let memoryCeiling := deriveWorkerScopeCeiling other ceiling source (views scopes) spec.budget
  let admission := evaluateWorkerAdmission (numberText other)
    { ceiling, workers := views scopes, budget := spec.budget
      projectLabel := some spec.projectLabel, interactive := spec.interactive }
  match launchWorker spec admission outside with
  | .error e => .error e
  | .ok worker =>
    .ok (scopes.set worker.workerId { worker, memoryCeiling := memoryCeiling.memoryMax })

inductive ScopeStep where
  | birth (spec : WorkerSpec) (outside : Outside)
  | death (workerId : Text)

def next (scopes : Scopes) : ScopeStep → Option Scopes
  | .birth spec outside =>
    if spec.interactive then none
    else some ((startScoped other ceiling source scopes spec outside).toOption.getD scopes)
  | .death workerId => some (scopes.erase workerId)

/-- The births and deaths of Workers without the interactive reservation, from a
host that holds none. -/
def scopes : Machine Scopes ScopeStep where
  start s := s = ∅
  next := next other ceiling source

end

def ScopedWorker.wall (w : ScopedWorker) : JsNumber :=
  (w.memoryCeiling.bind parseMemoryBudget).getD 0

def ScopedWorker.declares (w : ScopedWorker) : Bool := (declaredCeiling w.worker.budget).isSome

def wallBytes (workers : List ScopedWorker) : JsNumber := (workers.map (·.wall)).sum

def declared (s : Scopes) : List ScopedWorker := s.values.filter (·.declares)

def derived (s : Scopes) : List ScopedWorker := s.values.filter fun w => !w.declares

lemma number_ne_nil (n : ℕ) : Text.number n ≠ [] := by
  rw [Text.number, Nat.toList_repr]
  exact Nat.toDigits_ne_nil

lemma decimalNumber_number {n : ℕ} (h : n < 2 ^ 53) :
    decimalNumber (Text.number n) [] = ((n : ℚ≥0) : JsNumber) := by
  have hdig : Nat.ofDigitChars 10 (Text.number n) 0 = n := by
    rw [Text.number, Nat.toList_repr]
    exact Nat.ofDigitChars_toDigits (by decide) (by decide)
  rw [decimalNumber, append_nil, hdig, length_nil, pow_zero, div_one]
  exact JsNumber.nearest_natCast h

lemma parseMemoryBudget_number {n : ℕ} (h : n < 2 ^ 53) :
    parseMemoryBudget (Text.number n) = some ((n : ℚ≥0) : JsNumber) := by
  have hspace : (Text.number n).dropWhile Text.isWhitespace = Text.number n := by
    apply dropWhile_eq_self_iff.mpr
    intro hne
    simpa using Text.whitespaceFree_number n _ (getElem_mem hne)
  have hall : (Text.number n).takeWhile Char.isDigit = Text.number n :=
    takeWhile_eq_self_iff.mpr fun _ hc => Text.isDigit_of_mem_number hc
  have hrest : (Text.number n).dropWhile Char.isDigit = [] :=
    dropWhile_eq_nil_iff.mpr fun _ hc => Text.isDigit_of_mem_number hc
  have hscal : JsNumber.scale ((n : ℚ≥0) : JsNumber) 1 = ((n : ℚ≥0) : JsNumber) := by
    change JsNumber.nearest ((n : ℚ≥0) * 1) = _
    rw [mul_one]
    exact JsNumber.nearest_natCast h
  have hround : JsNumber.mathRound ((n : ℚ≥0) : JsNumber) = ((n : ℚ≥0) : JsNumber) := by
    have hfloor : ⌊(n : ℚ≥0) + 1 / 2⌋₊ = n := by
      apply (Nat.floor_eq_iff zero_le).mpr
      constructor
      · exact le_self_add
      · exact add_lt_add_of_le_of_lt le_rfl (by norm_num)
    change ((⌊(n : ℚ≥0) + 1 / 2⌋₊ : ℚ≥0) : JsNumber) = _
    rw [hfloor]
  unfold parseMemoryBudget
  dsimp only
  rw [hspace, hall, hrest, if_neg (number_ne_nil n)]
  simp only [readFraction, dropWhile_nil, readUnit, dropByteLetter, all_nil, if_true]
  rw [decimalNumber_number h, hscal, hround]

lemma numberText_natCast (other : JsNumber → Text) {n : ℕ} (h : n < 2 ^ 53) :
    numberText other ((n : ℚ≥0) : JsNumber) = Text.number n := by
  have hbound : n < 10 ^ 21 := h.trans (by norm_num)
  have hfloor : ⌊(n : ℚ≥0)⌋₊ = n := Nat.floor_natCast n
  simp only [numberText, hfloor, hbound, and_self, if_true]

section
variable {ceiling : HostCeiling} {workers : List WorkerView} {m c : ℕ}

lemma isInteger_committedBytes (workers : List WorkerView) :
    JsNumber.IsInteger (committedBytes workers) := by
  induction workers with
  | nil => exact JsNumber.isInteger_zero
  | cons worker workers ih =>
    exact (isInteger_committed worker.budget).add ih

lemma consumption_whole {b : JsNumber} (hm : m < 2 ^ 53)
    (h : JsNumber.add (measureHostConsumption workers).memoryBytes b ≤ ((m : ℚ≥0) : JsNumber)) :
    ∃ n : ℕ, (measureHostConsumption workers).memoryBytes = ((n : ℚ≥0) : JsNumber) := by
  have hbel : ((m : ℚ≥0) : JsNumber) < ((2 ^ 53 : ℚ≥0) : JsNumber) := by
    exact_mod_cast hm
  have htot : (measureHostConsumption workers).memoryBytes < ((2 ^ 53 : ℚ≥0) : JsNumber) :=
    le_self_add.trans_lt (JsNumber.lt_of_add_lt (h.trans_lt hbel))
  have hexact : (measureHostConsumption workers).memoryBytes = committedBytes workers := by
    rw [← sum_bytes]
    exact JsNumber.total_exact (fun n hn => isInteger_of_mem_bytes hn) htot
  obtain ⟨q, hq⟩ := WithTop.ne_top_iff_exists.mp htot.ne_top
  obtain ⟨n, rfl⟩ := isInteger_committedBytes workers q (hexact.symm.trans hq.symm)
  exact ⟨n, hq.symm⟩

lemma derivedBytes_whole {n : ℕ} (hc : ceiling.workerCount = some c) (hpos : 0 < c)
    (hm : m < 2 ^ 53)
    (hn : (measureHostConsumption workers).memoryBytes = ((n : ℚ≥0) : JsNumber)) :
    ∃ b : ℕ, b ≤ m / c ∧
      derivedBytes ceiling ((m : ℚ≥0) : JsNumber) workers = ((b : ℚ≥0) : JsNumber) := by
  refine ⟨min (m - n) (m / c), min_le_right _ _, ?_⟩
  unfold derivedBytes
  dsimp only
  rw [hc, hn, Option.elim_some, JsNumber.sub_natCast hm, JsNumber.mathFloor_divNat hm hpos]
  push_cast
  rfl

end

section
variable {other : JsNumber → Text} {ceiling : HostCeiling} {source : Text} {s t : Scopes}

def held (other : JsNumber → Text) (ceiling : HostCeiling) (source : Text)
    (workers : List WorkerView) (worker : WorkerView) : ScopedWorker :=
  { worker
    memoryCeiling :=
      (deriveWorkerScopeCeiling other ceiling source workers worker.budget).memoryMax }

lemma startScoped_ok {spec : WorkerSpec} {outside : Outside}
    (h : startScoped other ceiling source s spec outside = .ok t) :
    (evaluateWorkerAdmission (numberText other)
      { ceiling, workers := views s, budget := spec.budget
        projectLabel := some spec.projectLabel, interactive := spec.interactive }).admitted = true ∧
      ∃ worker, worker.budget = spec.budget ∧
        t = s.set worker.workerId (held other ceiling source (views s) worker) := by
  unfold startScoped at h
  dsimp only at h
  split at h
  · cases h
  · rename_i worker hlaunch
    cases h
    obtain ⟨hadm, hbudg⟩ := launchWorker_ok hlaunch
    refine ⟨hadm, worker, hbudg, ?_⟩
    rw [held, hbudg]

lemma next_cases {a : ScopeStep} (h : next other ceiling source s a = some t) : t = s ∨
      (∃ (spec : WorkerSpec) (worker : WorkerView), (evaluateWorkerAdmission (numberText other)
          { ceiling, workers := views s, budget := spec.budget
            projectLabel := some spec.projectLabel, interactive := false }).admitted = true ∧
          worker.budget = spec.budget ∧
          t = s.set worker.workerId (held other ceiling source (views s) worker)) ∨
      ∃ workerId, t = s.erase workerId := by
  cases a with
  | birth spec outside =>
    simp only [next] at h
    split_ifs at h with hint
    cases h
    cases hr : startScoped other ceiling source s spec outside with
    | error e => exact Or.inl rfl
    | ok t =>
      obtain ⟨hadm, worker, hbudg, rfl⟩ := startScoped_ok hr
      rw [Bool.eq_false_iff.mpr hint] at hadm
      exact Or.inr (Or.inl ⟨spec, worker, hadm, hbudg, rfl⟩)
  | death workerId =>
    cases h
    exact Or.inr (Or.inr ⟨workerId, rfl⟩)

end

def Sound (share : ℕ) (w : ScopedWorker) : Prop :=
  (∀ d, declaredCeiling w.worker.budget = some d → w.memoryCeiling = some d) ∧
    (w.declares = false → w.wall ≤ ((share : ℚ≥0) : JsNumber))

structure Slotted (m c : ℕ) (s : Scopes) : Prop where
  count : s.values.length ≤ c
  memory : committedBytes (views s) ≤ ((m : ℚ≥0) : JsNumber)
  sound : ∀ w ∈ s.values, Sound (m / c) w

section
variable {other : JsNumber → Text} {ceiling : HostCeiling} {source : Text} {s t : Scopes} {m c : ℕ}

lemma declares_eq_false {w : ScopedWorker} :
    w.declares = false ↔ declaredCeiling w.worker.budget = none := by
  rw [ScopedWorker.declares, Option.isSome_eq_false_iff, Option.isNone_iff_eq_none]

lemma committedBytes_views (s : Scopes) : committedBytes (views s) =
      (s.values.map fun w => (budgetMemoryCharge w.worker.budget).committed).sum := by
  rw [committedBytes, views, map_map]
  rfl

lemma sound_born {budget : Option WorkerBudget} {projectLabel : Option Text} {worker : WorkerView}
    {workers : List WorkerView} (hc : ceiling.workerCount = some c)
    (hm : ceiling.memoryBytes = some ((m : ℚ≥0) : JsNumber)) (hsafe : m < 2 ^ 53)
    (hadm : (evaluateWorkerAdmission (numberText other)
      { ceiling, workers, budget, projectLabel, interactive := false }).admitted = true) :
    Sound (m / c) (held other ceiling source workers worker) := by
  obtain ⟨hcount, hmemory⟩ := (admitted_iff ..).mp hadm
  have hpos : 0 < c := by
    have hroom : workers.length < c := (hcount c hc).1 rfl
    omega
  obtain ⟨n, hn⟩ := consumption_whole hsafe (hmemory _ hm).2
  obtain ⟨b, hb, hbyt⟩ := derivedBytes_whole hc hpos hsafe hn
  constructor
  · intro d hd
    have hd' : declaredCeiling worker.budget = some d := hd
    simp only [held, deriveWorkerScopeCeiling, hd']
  · intro hund
    have hnone : declaredCeiling worker.budget = none := declares_eq_false.mp hund
    have hb53 : b < 2 ^ 53 := (hb.trans (Nat.div_le_self m c)).trans_lt hsafe
    simp only [ScopedWorker.wall, held, deriveWorkerScopeCeiling, hnone, hm, hbyt]
    split_ifs
    · exact zero_le
    · rw [numberText_natCast other hb53, Option.bind_some, parseMemoryBudget_number hb53,
        Option.getD_some]
      exact_mod_cast hb

lemma slotted_step {a : ScopeStep} (hc : ceiling.workerCount = some c)
    (hm : ceiling.memoryBytes = some ((m : ℚ≥0) : JsNumber)) (hsafe : m < 2 ^ 53)
    (h : Slotted m c s) (hn : next other ceiling source s a = some t) : Slotted m c t := by
  rcases next_cases hn with rfl | ⟨spec, worker, hadm, hbudg, rfl⟩ | ⟨workerId, rfl⟩
  · exact h
  · obtain ⟨hcount, hmemory⟩ := (admitted_iff ..).mp hadm
    have hbel : ((m : ℚ≥0) : JsNumber) < ((2 ^ 53 : ℚ≥0) : JsNumber) := by exact_mod_cast hsafe
    constructor
    · have hroom : (views s).length < c := (hcount c hc).1 rfl
      have hlength := length_set_le s worker.workerId
        (held other ceiling source (views s) worker)
      rw [views, length_map] at hroom
      omega
    · have hset := sum_values_set_le
        (fun w : ScopedWorker => (budgetMemoryCharge w.worker.budget).committed) s worker.workerId
        (held other ceiling source (views s) worker)
      rw [committedBytes_views]
      apply hset.trans
      rw [← committedBytes_views]
      change committedBytes (views s) + (budgetMemoryCharge worker.budget).committed ≤ _
      rw [hbudg]
      exact projected_exact hbel (hmemory _ hm).2
    · intro w hw
      rcases JsMap.mem_values_set hw with rfl | hw
      · exact sound_born hc hm hsafe hadm
      · exact h.sound w hw
  · have hsub := JsMap.values_erase_sublist s workerId
    constructor
    · exact hsub.length_le.trans h.count
    · exact (committedBytes_sublist (hsub.map _)).trans h.memory
    · intro w hw
      exact h.sound w (hsub.subset hw)

lemma slotted_of_reach (hc : ceiling.workerCount = some c)
    (hm : ceiling.memoryBytes = some ((m : ℚ≥0) : JsNumber)) (hsafe : m < 2 ^ 53)
    (h : (scopes other ceiling source).Reach anyStep s) : Slotted m c s := by
  apply h.inv (Slotted m c)
  · rintro s rfl
    constructor
    · exact Nat.zero_le c
    · exact zero_le
    · rintro w ⟨⟩
  · exact fun _ _ _ hs _ hn => slotted_step hc hm hsafe hs hn

lemma wall_of_declares {share : ℕ} {w : ScopedWorker} (h : Sound share w)
    (hw : w.declares = true) : w.wall = (budgetMemoryCharge w.worker.budget).committed := by
  obtain ⟨d, hd⟩ := Option.isSome_iff_exists.mp hw
  have hbudg : (w.worker.budget.bind fun b => b.memoryMax <|> b.memoryHigh) = some d := hd
  rw [ScopedWorker.wall, h.1 d hd, Option.bind_some, budgetMemoryCharge, hbudg]
  dsimp only
  cases parseMemoryBudget d <;> rfl

lemma wallBytes_split (l : List ScopedWorker) :
    wallBytes l = wallBytes (l.filter (·.declares)) + wallBytes (l.filter fun w => !w.declares) := by
  unfold wallBytes
  induction l with
  | nil => simp
  | cons w l ih =>
    cases hw : w.declares
    · simp only [filter_cons, hw, Bool.not_false, if_true, Bool.false_eq_true, if_false,
        map_cons, sum_cons, ih]
      ac_rfl
    · simp only [filter_cons, hw, Bool.not_true, if_true, Bool.false_eq_true, if_false,
        map_cons, sum_cons, ih]
      ac_rfl

lemma wallBytes_le_of_share {l : List ScopedWorker} (hl : l.length ≤ c)
    (h : ∀ w ∈ l, w.wall ≤ (((m / c : ℕ) : ℚ≥0) : JsNumber)) :
    wallBytes l ≤ ((m : ℚ≥0) : JsNumber) := by
  have hnat : l.length * (m / c) ≤ m :=
    (Nat.mul_le_mul_right _ hl).trans (Nat.mul_div_le m c)
  calc wallBytes l ≤ (l.map (·.wall)).length • (((m / c : ℕ) : ℚ≥0) : JsNumber) := by
        apply sum_le_card_nsmul
        intro b hb
        obtain ⟨w, hw, rfl⟩ := mem_map.mp hb
        exact h w hw
    _ = ((l.length * (m / c) : ℕ) : ℚ≥0) := by
        rw [length_map, ← WithTop.coe_nsmul, nsmul_eq_mul]
        push_cast
        rfl
    _ ≤ ((m : ℚ≥0) : JsNumber) := by exact_mod_cast hnat

/-- In every run of admitted births and deaths under a ceiling below `2 ^ 53` bytes, the declared
walls of the live Workers sum to no more than the ceiling, and so do the derived ones, of which each
is at most a slot's share. -/
theorem walls_divide (hc : ceiling.workerCount = some c)
    (hm : ceiling.memoryBytes = some ((m : ℚ≥0) : JsNumber)) (hsafe : m < 2 ^ 53)
    (h : (scopes other ceiling source).Reach anyStep s) :
    wallBytes (declared s) ≤ ((m : ℚ≥0) : JsNumber) ∧
      (∀ w ∈ derived s, w.wall ≤ (((m / c : ℕ) : ℚ≥0) : JsNumber)) ∧
      wallBytes (derived s) ≤ ((m : ℚ≥0) : JsNumber) ∧
      ((derived s = [] ∨ ∀ w ∈ declared s, w.wall ≤ (((m / c : ℕ) : ℚ≥0) : JsNumber)) →
        wallBytes s.values ≤ ((m : ℚ≥0) : JsNumber)) := by
  have hs := slotted_of_reach hc hm hsafe h
  have hdecl : wallBytes (declared s) ≤ ((m : ℚ≥0) : JsNumber) := by
    have hwalls : (declared s).map (·.wall) =
        (declared s).map fun w => (budgetMemoryCharge w.worker.budget).committed := by
      apply map_congr_left
      intro w hw
      obtain ⟨hmem, hdeclar⟩ := mem_filter.mp hw
      exact wall_of_declares (hs.sound w hmem) hdeclar
    calc wallBytes (declared s)
        = ((declared s).map fun w => (budgetMemoryCharge w.worker.budget).committed).sum := by
          rw [wallBytes, hwalls]
      _ ≤ (s.values.map fun w => (budgetMemoryCharge w.worker.budget).committed).sum :=
          ((filter_sublist).map _).sum_le_sum fun _ _ => zero_le
      _ = committedBytes (views s) := (committedBytes_views s).symm
      _ ≤ ((m : ℚ≥0) : JsNumber) := hs.memory
  have hshare : ∀ w ∈ derived s, w.wall ≤ (((m / c : ℕ) : ℚ≥0) : JsNumber) := by
    intro w hw
    obtain ⟨hmem, hder⟩ := mem_filter.mp hw
    exact (hs.sound w hmem).2 (by simpa using hder)
  have hlength : (derived s).length ≤ c := (length_filter_le ..).trans hs.count
  refine ⟨hdecl, hshare, wallBytes_le_of_share hlength hshare, ?_⟩
  rintro (hnone | hsmall)
  · calc wallBytes s.values = wallBytes (declared s) + wallBytes (derived s) := wallBytes_split _
      _ = wallBytes (declared s) := by rw [hnone]; exact add_zero _
      _ ≤ ((m : ℚ≥0) : JsNumber) := hdecl
  · apply wallBytes_le_of_share hs.count
    intro w hw
    cases hw' : w.declares with
    | true => exact hsmall w (mem_filter.mpr ⟨hw, hw'⟩)
    | false => exact hshare w (mem_filter.mpr ⟨hw, by simp [hw']⟩)

end

section

def birth (id : Text) (budget : Option Text) : ScopeStep :=
  .birth
    { workerId := some id, projectLabel := ['p'], workspacePath := ['w'], command := ['c']
      budget := budget.map fun b => { memoryHigh := none, memoryMax := some b }
      interactive := false }
    spawns

/-- Two slots under a ceiling of `m` bytes. -/
def twoSlots (m : ℕ) : HostCeiling :=
  { memoryBytes := some ((m : ℚ≥0) : JsNumber), workerCount := some 2
    interactiveReservation := none }

/-- Declared budgets are not narrowed, and the walls sum past the ceiling. -/
theorem walls_pass_ceiling :
    (¬ ∀ (m c : ℕ) ceiling other source s, m < 2 ^ 53 → ceiling.workerCount = some c →
      ceiling.memoryBytes = some ((m : ℚ≥0) : JsNumber) →
      (scopes other ceiling source).Reach anyStep s →
      wallBytes s.values ≤ ((m : ℚ≥0) : JsNumber)) ∧
    ¬ ∀ (m c : ℕ) ceiling other source s, ceiling.workerCount = some c →
      ceiling.memoryBytes = some ((m : ℚ≥0) : JsNumber) →
      (scopes other ceiling source).Reach anyStep s → derived s = [] →
      wallBytes s.values ≤ ((m : ℚ≥0) : JsNumber) := by
  constructor
  · intro h
    have hrun : ((scopes (fun _ => []) (twoSlots (2 ^ 33)) []).exec ∅
        [birth ['a'] none, birth ['b'] (some ['8', 'G'])]).map
          (fun s => decide (wallBytes s.values ≤ (((2 ^ 33 : ℕ) : ℚ≥0) : JsNumber))) =
        some false := by
      decide +kernel
    obtain ⟨s, hs, hbyt⟩ := Option.map_eq_some_iff.mp hrun
    exact of_decide_eq_false hbyt
      (h (2 ^ 33) 2 _ _ _ s (by norm_num) rfl rfl (Machine.reach_of_exec rfl hs))
  · intro h
    have hrun : ((scopes (fun _ => []) (twoSlots (2 ^ 53)) []).exec ∅
        [birth ['a'] (some ['8', '1', '9', '2', 'T']), birth ['b'] (some ['1'])]).map
          (fun s => decide (derived s = [] →
            wallBytes s.values ≤ (((2 ^ 53 : ℕ) : ℚ≥0) : JsNumber))) =
        some false := by
      decide +kernel
    obtain ⟨s, hs, hbyt⟩ := Option.map_eq_some_iff.mp hrun
    exact of_decide_eq_false hbyt
      (h (2 ^ 53) 2 _ _ _ s rfl rfl (Machine.reach_of_exec rfl hs))

theorem shares_fill : ∃ s : Scopes, wallBytes s.values = ((2 ^ 33 : ℚ≥0) : JsNumber) ∧
      wallBytes s.values ≤ (((2 ^ 33 : ℕ) : ℚ≥0) : JsNumber) := by
  have hrun : ((scopes (fun _ => []) (twoSlots (2 ^ 33)) []).exec ∅
      [birth ['a'] none, birth ['b'] (some ['4', 'G'])]).map
        (fun s => decide (wallBytes s.values = ((2 ^ 33 : ℚ≥0) : JsNumber) ∧
          ∀ w ∈ declared s, w.wall ≤ (((2 ^ 33 / 2 : ℕ) : ℚ≥0) : JsNumber))) =
      some true := by
    decide +kernel
  obtain ⟨s, hs, hwalls⟩ := Option.map_eq_some_iff.mp hrun
  obtain ⟨hsum, hsmall⟩ := of_decide_eq_true hwalls
  exact ⟨s, hsum, (walls_divide rfl rfl (by norm_num)
    (Machine.reach_of_exec rfl hs)).2.2.2 (Or.inr hsmall)⟩

end

end Redskilled.Daemon.ScopeCeiling
