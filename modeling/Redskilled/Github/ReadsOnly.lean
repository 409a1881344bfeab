import Redskilled.Github.RestPlan

/-!
# The planner plans only reads

A planned command line is read as `gh` reads it: the path is an operand, the method that is put
in stands first, and the words of the caller follow with their own flags. So the request is a
read where the caller's last method is one, or where none is stated and nothing is sent.
-/
namespace Redskilled.Github.RestPlan
open Foundation Flags

def IsRead (method : Text) : Prop := method = getMethod ∨ method = headMethod

/-- The method that a flag states is that of a read. -/
def StatesRead (method : Text) : Prop := method = [] ∨ IsRead (upper method)

section
variable (print : Option ℚ → Text) (refuses : Reading → Bool)

/-- What a planned command line is to do. -/
def PlansOnlyReads : GithubRestReadRequest → Prop
  | .graphql _ _ => True
  | .rest path args =>
    ∀ words path' decodes,
      planGithubRestRead print (.rest path args) = .plan ("api".toList :: words) path' decodes →
        ∀ method, ghApi refuses words = some method → IsRead method
  | .single kind number fields repo =>
    (∀ args path decodes,
        planGithubRestRead print (.single kind number fields repo) = .plan args path decodes →
          ∀ field ∈ requestedFields fields, field ∈ projectionsFor kind) ∧
      ∀ field ∈ requestedFields fields, field ∉ projectionsFor kind → ∃ unavailable reason,
          planGithubRestRead print (.single kind number fields repo) =
            .unavailable unavailable reason ∧ field ∈ unavailable

/-- The flags state a read, or state no method, and nothing is sent unless a method is put in. -/
def FlagsRead (putIn : Bool) (r : Reading) : Prop :=
  (∃ method, lastValue methodName r = some method ∧ StatesRead method) ∨
    (lastValue methodName r = none ∧ (putIn = true ∨ hasBody r = false))

/-- Either `gh` refuses the words of the caller behind this path, or their flags state a read. -/
def WordsRead (path : Text) (args : List Text) : Prop :=
  ∀ r, read ghApiFlags none args = some r → r.operands = [] →
    refuses ((r.withFlags (if needsExplicitGet args then [⟨methodName, getMethod⟩]
      else [])).withOperand path) = false → FlagsRead (needsExplicitGet args) r

/-- The same where the path is a flag itself. -/
def PathFlagsRead (path : Text) (args : List Text) : Prop :=
  ∀ r, read ghApiFlags none (path :: explicitGet args ++ args) = some r →
    r.operands.length = 1 → refuses r = false → FlagsRead false r

/-- When the planner plans only reads. -/
def Readable : GithubRestReadRequest → Prop
  | .graphql _ _ => True
  | .rest path args =>
    Text.trim path = [] ∨ isMutation args = true ∨ inputFlag ∈ args ∨
      if (Text.trim path).head? = some '-' then PathFlagsRead refuses (Text.trim path) args
      else WordsRead refuses (Text.trim path) args
  | .single _ number fields _ =>
    objectNumber number = none ∨ ∀ field ∈ requestedFields fields, field ∉ inheritedNames

end

lemma lastValue_withFlags (name : Text) (flags : List Flag) (r : Reading) :
    lastValue name (r.withFlags flags) =
      (lastValue name r).or (((flags.filter (·.name = name)).getLast?).map Flag.value) := by
  unfold lastValue Reading.withFlags
  rw [List.filter_append, List.getLast?_append]
  cases (r.flags.filter (·.name = name)).getLast? <;> rfl

lemma not_isRead_postMethod : ¬ IsRead postMethod := by
  have hget : postMethod ≠ getMethod := by decide
  have hhead : postMethod ≠ headMethod := by decide
  rintro (h | h)
  · exact hget h
  · exact hhead h

lemma issuedMethod_read_iff (r : Reading) : IsRead (issuedMethod r) ↔ FlagsRead false r := by
  unfold issuedMethod FlagsRead
  cases lastValue methodName r with
  | none =>
    cases hasBody r with
    | false => simp [IsRead]
    | true =>
      constructor
      · intro hread
        exact absurd hread not_isRead_postMethod
      · simp
  | some method =>
    by_cases hempty : method = []
    · simp [hempty, IsRead, StatesRead]
    · simp [hempty, StatesRead]

lemma read_explicitGet (args : List Text) : read ghApiFlags none (explicitGet args ++ args) =
      (read ghApiFlags none args).map fun r =>
        r.withFlags (if needsExplicitGet args then [⟨methodName, getMethod⟩] else []) := by
  unfold explicitGet
  cases needsExplicitGet args with
  | false =>
    rw [if_neg Bool.false_ne_true, if_neg Bool.false_ne_true, List.nil_append]
    cases read ghApiFlags none args <;> rfl
  | true =>
    rw [if_pos rfl, if_pos rfl]
    have hlook : lookupLong ghApiFlags methodName =
        some ⟨methodName, some 'X', true⟩ := by decide +kernel
    have hhead : ∀ c ∈ methodName.head?, c ≠ '-' := by simp [methodName]
    exact read_long hlook rfl (by decide) hhead (by decide) args

lemma flagsRead_withMethod (r : Reading) (putIn : Bool) :
    FlagsRead false (r.withFlags (if putIn then [⟨methodName, getMethod⟩] else [])) ↔
      FlagsRead putIn r := by
  cases putIn with
  | false => rfl
  | true =>
    have hget : (([(⟨methodName, getMethod⟩ : Flag)].filter
        (·.name = methodName)).getLast?).map Flag.value = some getMethod := by decide
    have hread : StatesRead getMethod := .inr (.inl (by decide))
    unfold FlagsRead
    rw [if_pos rfl, lastValue_withFlags, hget]
    cases lastValue methodName r with
    | none =>
      constructor
      · exact fun _ => .inr ⟨rfl, .inl rfl⟩
      · exact fun _ => .inl ⟨_, rfl, hread⟩
    | some method =>
      constructor
      · rintro (hstat | ⟨hnone, -⟩)
        · exact .inl hstat
        · cases hnone
      · rintro (hstat | ⟨hnone, -⟩)
        · exact .inl hstat
        · cases hnone

section
variable {refuses : Reading → Bool}

lemma ghApi_read_iff (words : List Text) :
    (∀ method, ghApi refuses words = some method → IsRead method) ↔
      ∀ r, read ghApiFlags none words = some r → r.operands.length = 1 → refuses r = false →
        FlagsRead false r := by
  unfold ghApi
  cases read ghApiFlags none words with
  | none => simp
  | some r =>
    simp only [Option.bind_some, Option.some.injEq, forall_eq']
    split_ifs with hgo
    · simp only [Option.some.injEq, forall_eq', hgo.1, hgo.2, forall_const]
      exact issuedMethod_read_iff r
    · constructor
      · intro _ hone href
        exact absurd ⟨hone, href⟩ hgo
      · intro _ method h
        cases h

lemma words_read_iff {path : Text} (hpath : path.head? ≠ some '-') (args : List Text) :
    (∀ method, ghApi refuses (path :: explicitGet args ++ args) = some method → IsRead method) ↔
      WordsRead refuses path args := by
  rw [ghApi_read_iff, List.cons_append, read_operand hpath, read_explicitGet]
  unfold WordsRead
  cases read ghApiFlags none args with
  | none => simp
  | some r =>
    simp only [Option.map_some, Option.some.injEq, forall_eq']
    have hlength : ∀ flags : List Flag,
        ((r.withFlags flags).withOperand path).operands.length = 1 ↔ r.operands = [] := by
      intro flags
      simp [Reading.withOperand, Reading.withFlags]
    rw [hlength]
    constructor
    · intro h hnil href
      exact (flagsRead_withMethod r _).mp (h hnil href)
    · intro h hnil href
      exact (flagsRead_withMethod r _).mpr (h hnil href)

lemma isIn_iff (kind : GithubSingleObjectKind) (field : Text) :
    isIn kind field = true ↔ field ∈ projectionsFor kind ∨ field ∈ inheritedNames := by
  simp [isIn]

lemma not_inherited_of_declared {kind : GithubSingleObjectKind} {field : Text}
    (h : field ∈ projectionsFor kind) : field ∉ inheritedNames := by
  have hiss : ∀ field ∈ ISSUE_PROJECTIONS, field ∉ inheritedNames := by decide +kernel
  have hpr : ∀ field ∈ PR_PROJECTIONS, field ∉ inheritedNames := by decide +kernel
  cases kind with
  | issue => exact hiss field h
  | pr => exact hpr field h

lemma single_iff (print : Option ℚ → Text) (kind : GithubSingleObjectKind) (number : Option ℚ)
    (fields : List Text) (repo : Option Text) :
    PlansOnlyReads print refuses (.single kind number fields repo) ↔
      Readable refuses (.single kind number fields repo) := by
  simp only [PlansOnlyReads, Readable, planGithubRestRead]
  by_cases hempty : requestedFields fields = []
  · simp [hempty]
  rw [if_neg hempty]
  cases hnumb : objectNumber number with
  | none =>
    constructor
    · exact fun _ => .inl rfl
    · intro _
      constructor
      · intro args path decodes h
        cases h
      · intro field hfield _
        exact ⟨_, _, rfl, hfield⟩
  | some number =>
    simp only [reduceCtorEq, false_or]
    constructor
    · rintro ⟨hplan, hrep⟩ field hfield hinh
      have hnot : field ∉ projectionsFor kind := fun hin =>
        not_inherited_of_declared hin hinh
      obtain ⟨unavailable, reason, h, hin⟩ := hrep field hfield hnot
      split_ifs at h with hmiss
      obtain ⟨rfl, -⟩ := GithubRestRead.unavailable.inj h
      have hisIn := (isIn_iff kind field).mpr (.inr hinh)
      simp [hisIn] at hin
    · intro hfields
      have hisIn : ∀ field ∈ requestedFields fields,
          (isIn kind field = true ↔ field ∈ projectionsFor kind) := fun field hfield => by
        rw [isIn_iff, or_iff_left (hfields field hfield)]
      constructor
      · intro args path decodes h field hfield
        split_ifs at h with hmiss
        have hnil := not_not.mp hmiss
        have hall := List.filter_eq_nil_iff.mp hnil field hfield
        exact (hisIn field hfield).mp (by simpa using hall)
      · intro field hfield hnot
        have hmem : field ∈ (requestedFields fields).filter fun field => !isIn kind field := by
          rw [List.mem_filter]
          refine ⟨hfield, ?_⟩
          rw [← hisIn field hfield] at hnot
          simpa using hnot
        rw [if_pos (List.ne_nil_of_mem hmem)]
        exact ⟨_, _, rfl, hmem⟩

end

/-- The planner plans only reads, and only what it can project, if and only if the flags of the
caller state no mutation in a spelling of their own and no field has an inherited name. -/
theorem plans_only_reads_iff (print : Option ℚ → Text) (refuses : Reading → Bool)
    (request : GithubRestReadRequest) :
    PlansOnlyReads print refuses request ↔ Readable refuses request := by
  cases request with
  | graphql query bindings => rfl
  | single kind number fields repo => exact single_iff print kind number fields repo
  | rest path args =>
    simp only [PlansOnlyReads, Readable, planGithubRestRead]
    by_cases hpath : Text.trim path = []
    · simp [hpath]
    rw [if_neg hpath]
    by_cases hmut : isMutation args = true ∨ inputFlag ∈ args
    · rw [if_pos hmut]
      rcases hmut with hmut | hinp
      · simp [hmut]
      · simp [hinp]
    rw [if_neg hmut]
    obtain ⟨hmut', hinp⟩ := not_or.mp hmut
    simp only [hpath, hmut', hinp, false_or]
    have hwords : (∀ words path' decodes,
        GithubRestRead.plan ("api".toList :: Text.trim path :: explicitGet args ++ args)
            (Text.trim path) [] = .plan ("api".toList :: words) path' decodes →
          ∀ method, ghApi refuses words = some method → IsRead method) ↔
        ∀ method, ghApi refuses (Text.trim path :: explicitGet args ++ args) = some method →
          IsRead method := by
      constructor
      · intro h
        exact h _ _ _ rfl
      · intro h words path' decodes hplan
        obtain ⟨hcons, -, -⟩ := GithubRestRead.plan.inj hplan
        obtain rfl := (List.cons.inj hcons).2
        exact h
    rw [hwords]
    split_ifs with hdash
    · rw [false_or]
      exact ghApi_read_iff _
    · rw [false_or]
      exact words_read_iff hdash args

/-- An attached method is no word of its own. -/
theorem attached_method_is_planned :
    ¬ ∀ (print : Option ℚ → Text) (refuses : Reading → Bool) (request : GithubRestReadRequest),
      PlansOnlyReads print refuses request := by
  intro h
  have hreq := h (fun _ => []) (fun _ => false)
    (.rest "repos/o/r/issues".toList ["-XPOST".toList])
  have hread := hreq ["repos/o/r/issues".toList, "-XPOST".toList] "repos/o/r/issues".toList []
    (by decide +kernel) postMethod (by decide +kernel)
  exact not_isRead_postMethod hread

end Redskilled.Github.RestPlan
