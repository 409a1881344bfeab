import Mathlib.Data.Finset.Basic
import Redskilled.Foundation.InOrder
import Redskilled.Foundation.JsText

/-!
# Batch edits

The labels of many issues are edited, or many issues linked under one, by GraphQL mutations of
a hundred issues each. Where one is answered that the quota is spent, the whole batch is done
again by REST, one issue at a time (`restConcurrency` 1).

All issues and labels exist. GraphQL adds and removes labels as sets; to delete by REST a label
that an issue does not carry is an error, and on both transports so is a link that stands.
-/
namespace Redskilled.Github.GhBatch
open Foundation

def GITHUB_GRAPHQL_BATCH_SIZE : ℕ := 100

structure Service where
  labels : ℕ → Finset Text
  /-- The issues that an issue is a sub-issue of. -/
  parents : ℕ → Finset ℕ

structure Command where
  numbers : List ℕ
  add : List Text
  remove : List Text

inductive Value where
  | ok
  | error (message : Text)

def Service.setLabels (s : Service) (number : ℕ) (labels : Finset Text) : Service :=
  { s with labels := Function.update s.labels number labels }

/-- `text || fallback`. -/
def orElse (text fallback : Text) : Text := if text.isEmpty then fallback else text

def edited (command : Command) (labels : Finset Text) : Finset Text :=
  (labels ∪ command.add.toFinset) \ command.remove.toFinset

def editLabelsGraphql (command : Command) (number : ℕ) (s : Service) : Value × Service :=
  (.ok, s.setLabels number (edited command (s.labels number)))

-- the first line of an error
variable (refusal : Text)

def deleteThenAdd (command : Command) (number : ℕ) : List Text → Service → Value × Service
  | label :: labels, s =>
    if label ∈ s.labels number then
      deleteThenAdd command number labels (s.setLabels number ((s.labels number).erase label))
    else (.error (orElse refusal ("failed to remove label ".toList ++ label)), s)
  | [], s =>
    if command.add.isEmpty then (.ok, s)
    else (.ok, s.setLabels number (s.labels number ∪ command.add.toFinset))

def editLabelsRestFallback (command : Command) (number : ℕ) : Service → Value × Service :=
  deleteThenAdd refusal command number command.remove

def addSubIssue (fallback : Text) (parent child : ℕ) (s : Service) : Value × Service :=
  if parent ∈ s.parents child then (.error (orElse refusal fallback), s)
  else
    (.ok, { s with parents := Function.update s.parents child (insert parent (s.parents child)) })

def linkSubIssuesGraphql : ℕ → ℕ → Service → Value × Service :=
  addSubIssue refusal "mutation failed".toList

def linkSubIssuesRestFallback : ℕ → ℕ → Service → Value × Service :=
  addSubIssue refusal "REST link failed".toList

def chunks : List ℕ → List (List ℕ)
  | [] => []
  | number :: numbers =>
    (number :: numbers.take (GITHUB_GRAPHQL_BATCH_SIZE - 1)) ::
      chunks (numbers.drop (GITHUB_GRAPHQL_BATCH_SIZE - 1))
  termination_by numbers => numbers.length
  decreasing_by simp only [List.length_drop, List.length_cons]; omega

def mutateChunks (mutate : ℕ → Service → Value × Service) :
    List (List ℕ) → ℕ → Service → Except Service (List (ℕ × Value) × Service)
  | [], _, s => .ok ([], s)
  | _ :: _, 0, s => .error s
  | targets :: rest, quota + 1, s =>
    let answer := inOrder mutate targets s
    (mutateChunks mutate rest quota answer.2).map fun done => (answer.1 ++ done.1, done.2)

def mapToKeyed (numbers : List ℕ) (initial : List (ℕ × Value)) : List (ℕ × Value) :=
  numbers.map fun number =>
    (number, (reported initial number).getD (.error "mutation skipped".toList))

def runBatch (graphql rest : ℕ → Service → Value × Service) (quota : ℕ) (numbers : List ℕ)
    (s : Service) : List (ℕ × Value) × Service :=
  match mutateChunks graphql (chunks numbers) quota s with
  | .ok done => (mapToKeyed numbers done.1, done.2)
  | .error s => inOrder rest numbers s

/-- `none` is a usage error. -/
def runEditLabels (command : Command) (quota : ℕ) (s : Service) :
    Option (List (ℕ × Value) × Service) :=
  if command.add.isEmpty && command.remove.isEmpty then none
  else
    some (runBatch (editLabelsGraphql command)
      (editLabelsRestFallback refusal command) quota command.numbers s)

def runLinkSubIssues (command : Command) (quota : ℕ) (s : Service) :
    Option (List (ℕ × Value) × Service) :=
  match command.numbers with
  | parent :: child :: children =>
    some (runBatch (linkSubIssuesGraphql refusal parent) (linkSubIssuesRestFallback refusal parent) quota
      (child :: children) s)
  | _ => none

/-- The issues of a batch end as they are to, and are reported `ok` exactly where they do. -/
def Agrees (numbers : List ℕ) (result : Option (List (ℕ × Value) × Service))
    (reaches : ℕ → Service → Prop) : Prop :=
  ∃ ended, result = some ended ∧ ∀ number ∈ numbers,
    reaches number ended.2 ∧ (reported ended.1 number = some .ok ↔ reaches number ended.2)

def EditsAgree (command : Command) (quota : ℕ) (s : Service) : Prop :=
  Agrees command.numbers (runEditLabels refusal command quota s) fun number t =>
    t.labels number = edited command (s.labels number)

def LinksAgree (command : Command) (quota : ℕ) (s : Service) : Prop :=
  Agrees command.numbers.tail (runLinkSubIssues refusal command quota s) fun child t =>
    ∃ parent ∈ command.numbers.head?, parent ∈ t.parents child

variable {refusal} {command : Command} {quota : ℕ} {numbers : List ℕ} {s : Service}

lemma agrees_iff {ended : List (ℕ × Value) × Service} {reaches : ℕ → Service → Prop} :
    Agrees numbers (some ended) reaches ↔
      ∀ n ∈ numbers, reported ended.1 n = some .ok ∧ reaches n ended.2 := by
  constructor
  · rintro ⟨_, ⟨⟩, h⟩ n hn
    exact ⟨(h n hn).2.mpr (h n hn).1, (h n hn).1⟩
  · intro h
    exact ⟨ended, rfl, fun n hn => ⟨(h n hn).2, iff_of_true (h n hn).1 (h n hn).2⟩⟩

section

lemma flatten_chunks (numbers : List ℕ) : (chunks numbers).flatten = numbers := by
  fun_induction chunks with
  | case1 => rfl
  | case2 number numbers ih => simp [ih]

def applied (quota : ℕ) (numbers : List ℕ) : List ℕ := ((chunks numbers).take quota).flatten

lemma applied_subset (quota : ℕ) (numbers : List ℕ) : applied quota numbers ⊆ numbers := by
  intro n hn
  obtain ⟨chunk, hchunk, hmem⟩ := List.mem_flatten.mp hn
  rw [← flatten_chunks numbers]
  exact List.mem_flatten.mpr ⟨chunk, List.mem_of_mem_take hchunk, hmem⟩

lemma exists_applied (h : quota < (chunks numbers).length) (hquota : quota ≠ 0) :
    ∃ n, n ∈ applied quota numbers := by
  cases numbers with
  | nil => simp [chunks] at h
  | cons n numbers =>
    obtain ⟨quota, rfl⟩ := Nat.exists_eq_succ_of_ne_zero hquota
    exact ⟨n, by simp [applied, chunks]⟩

lemma mutateChunks_eq (mutate : ℕ → Service → Value × Service) (cs : List (List ℕ)) (quota : ℕ)
    (s : Service) : mutateChunks mutate cs quota s =
      if quota < cs.length then .error (inOrder mutate (cs.take quota).flatten s).2
      else .ok (inOrder mutate cs.flatten s) := by
  induction cs generalizing quota s with
  | nil => rfl
  | cons targets rest ih =>
    cases quota with
    | zero => rfl
    | succ quota =>
      simp only [mutateChunks, ih, List.length_cons, Nat.add_lt_add_iff_right,
        List.take_succ_cons, List.flatten_cons, inOrder_append]
      split_ifs <;> rfl

lemma runBatch_agrees {graphql rest : ℕ → Service → Value × Service}
    {reaches : ℕ → Service → Prop} :
    Agrees numbers (some (runBatch graphql rest quota numbers s)) reaches ↔ ∀ n ∈ numbers,
        if quota < (chunks numbers).length then
          reported (inOrder rest numbers (inOrder graphql (applied quota numbers) s).2).1 n =
              some .ok ∧
            reaches n (inOrder rest numbers (inOrder graphql (applied quota numbers) s).2).2
        else
          reported (inOrder graphql numbers s).1 n = some .ok ∧
            reaches n (inOrder graphql numbers s).2 := by
  rw [agrees_iff, runBatch, mutateChunks_eq, flatten_chunks, ← applied]
  refine forall₂_congr fun n hn => ?_
  split_ifs
  · rfl
  · simp only [mapToKeyed, reported_map hn, Option.some.injEq]
    cases reported (inOrder graphql numbers s).1 n <;> simp

end

section
variable {fallback : Text} {parent : ℕ} {children : List ℕ}

lemma parents_addSubIssue (child : ℕ) (s : Service) :
    (addSubIssue refusal fallback parent child s).2.parents =
      Function.update s.parents child (insert parent (s.parents child)) := by
  unfold addSubIssue
  split_ifs with h
  · rw [Finset.insert_eq_of_mem h, Function.update_eq_self]
  · rfl

variable (refusal fallback parent) in
lemma addSubIssue_framed :
    Framed (addSubIssue refusal fallback parent) fun child s => s.parents child := by
  intro child other s hne
  simp [parents_addSubIssue, hne]

lemma addSubIssue_ok {child : ℕ} :
    (addSubIssue refusal fallback parent child s).1 = .ok ↔ parent ∉ s.parents child := by
  unfold addSubIssue
  split_ifs with h <;> simp [h]

lemma links_iff : (∀ child ∈ children,
      reported (inOrder (addSubIssue refusal fallback parent) children s).1 child = some .ok ∧
      parent ∈ (inOrder (addSubIssue refusal fallback parent) children s).2.parents child) ↔
    children.Nodup ∧ ∀ child ∈ children, parent ∉ s.parents child := by
  constructor
  · intro h
    exact nodup_of_reported (fun parents => parent ∈ parents)
      (addSubIssue_framed refusal fallback parent)
      (fun child s => by simp [parents_addSubIssue])
      (fun child s hlink hok => addSubIssue_ok.mp hok hlink) fun child hchild => (h child hchild).1
  · rintro ⟨hnod, hfree⟩ child hchild
    obtain ⟨u, hu, hrep, hpar⟩ :=
      row_of_nodup (addSubIssue_framed refusal fallback parent) hnod hchild s
    rw [hrep, hpar, addSubIssue_ok.mpr (by rw [hu]; exact hfree child hchild)]
    exact ⟨rfl, by simp [parents_addSubIssue]⟩

/-- The children differ and none is linked, and the quota is not spent between two chunks. -/
def LinksOnce (command : Command) (quota : ℕ) (s : Service) : Prop :=
  match command.numbers with
  | parent :: child :: children =>
    (child :: children).Nodup ∧ (∀ c ∈ child :: children, parent ∉ s.parents c) ∧
      (quota < (chunks (child :: children)).length → quota = 0)
  | _ => False

lemma linksAgree_iff : LinksAgree refusal command quota s ↔ LinksOnce command quota s := by
  unfold LinksAgree LinksOnce runLinkSubIssues
  obtain ⟨numbers, add, remove⟩ := command
  match numbers with
  | [] => simp [Agrees]
  | [_] => simp [Agrees]
  | parent :: child :: children =>
    simp only [List.tail_cons, List.head?_cons, Option.mem_some_iff, exists_eq_left', runBatch_agrees]
    generalize child :: children = children
    have happl (c : ℕ) : (inOrder (linkSubIssuesGraphql refusal parent) (applied quota children)
        s).2.parents c = if c ∈ applied quota children then insert parent (s.parents c)
          else s.parents c :=
      view_of_idem (F := fun _ w => insert parent w) (addSubIssue_framed _ _ _)
        (fun c u => by simp [parents_addSubIssue]) fun _ _ => by simp
    split_ifs with hquota
    · rw [linkSubIssuesRestFallback, links_iff]
      refine and_congr_right fun hnod => ?_
      constructor
      · intro hfree
        have hzero : quota = 0 := by
          by_contra hne
          obtain ⟨c, hc⟩ := exists_applied hquota hne
          have hnot := hfree c (applied_subset _ _ hc)
          rw [happl, if_pos hc] at hnot
          exact hnot (Finset.mem_insert_self _ _)
        subst hzero
        exact ⟨fun c hc => by simpa [applied, inOrder] using hfree c hc, fun _ => rfl⟩
      · rintro ⟨hfree, hzero⟩
        cases hzero hquota
        exact hfree
    · rw [linkSubIssuesGraphql, links_iff]
      simp [hquota]

end

section

variable (refusal command) in
lemma labels_frame : Framed (editLabelsRestFallback refusal command)
    fun number s => s.labels number := by
  intro number other s hne
  change (deleteThenAdd refusal command other command.remove s).2.labels number = _
  generalize command.remove = labels
  induction labels generalizing s with
  | nil =>
    unfold deleteThenAdd
    split_ifs
    · rfl
    · exact Function.update_of_ne hne _ _
  | cons label labels ih =>
    unfold deleteThenAdd
    split_ifs
    · exact (ih _).trans (Function.update_of_ne hne _ _)
    · rfl

variable (refusal command) in
lemma deleteThenAdd_ok (number : ℕ) (labels : List Text) (s : Service) :
    ((deleteThenAdd refusal command number labels s).1 = .ok ↔
        labels.Nodup ∧ ∀ label ∈ labels, label ∈ s.labels number) ∧
      ((deleteThenAdd refusal command number labels s).1 = .ok →
        (deleteThenAdd refusal command number labels s).2.labels number =
          (s.labels number \ labels.toFinset) ∪ command.add.toFinset) := by
  induction labels generalizing s with
  | nil =>
    unfold deleteThenAdd
    cases hadd : command.add <;> simp [Service.setLabels]
  | cons label labels ih =>
    unfold deleteThenAdd
    split_ifs with hlab
    · obtain ⟨hok, hlabels⟩ := ih (s.setLabels number ((s.labels number).erase label))
      simp only [Service.setLabels, Function.update_self, Finset.mem_erase] at hok hlabels
      constructor
      · rw [Service.setLabels, hok, List.nodup_cons]
        constructor
        · rintro ⟨hnod, hall⟩
          refine ⟨⟨fun hmem => (hall label hmem).1 rfl, hnod⟩, ?_⟩
          intro l hl
          rcases List.mem_cons.mp hl with rfl | hl
          · exact hlab
          · exact (hall l hl).2
        · rintro ⟨⟨hnot, hnod⟩, hall⟩
          exact ⟨hnod, fun l hl => ⟨fun heq => hnot (heq ▸ hl), hall l (List.mem_cons_of_mem _ hl)⟩⟩
      · intro h
        rw [Service.setLabels, hlabels h]
        ext l
        simp
        tauto
    · simp [hlab]

lemma deleteThenAdd_absent {label : Text} (hadd : label ∉ command.add) (number : ℕ)
    (labels : List Text) (s : Service) (h : label ∉ s.labels number) :
    label ∉ (deleteThenAdd refusal command number labels s).2.labels number := by
  induction labels generalizing s with
  | nil =>
    unfold deleteThenAdd
    split_ifs
    · exact h
    · simp [Service.setLabels, h, hadd]
  | cons first labels ih =>
    unfold deleteThenAdd
    split_ifs
    · exact ih _ (by simp [Service.setLabels, h])
    · exact h

/-- Nothing is to be removed, or REST does the batch from its start, and the labels to be removed
are on every issue, are not to be added and are named once, as is every issue. -/
def EditsOnce (command : Command) (quota : ℕ) (s : Service) : Prop :=
  (command.add ≠ [] ∨ command.remove ≠ []) ∧
    (quota < (chunks command.numbers).length → command.remove = [] ∨
      quota = 0 ∧ command.numbers.Nodup ∧ command.remove.Nodup ∧
        ∀ label ∈ command.remove, label ∉ command.add ∧
          ∀ number ∈ command.numbers, label ∈ s.labels number)

variable (command) in
lemma graphql_frame : Framed (editLabelsGraphql command) fun number s => s.labels number :=
  fun _ _ _ hne => Function.update_of_ne hne _ _

lemma labels_applied (targets : List ℕ) (number : ℕ) (s : Service) :
    (inOrder (editLabelsGraphql command) targets s).2.labels number =
      if number ∈ targets then edited command (s.labels number) else s.labels number := by
  refine view_of_idem (F := fun _ labels => edited command labels) (graphql_frame command)
    (fun _ _ => Function.update_self ..) fun _ labels => ?_
  ext label
  simp only [edited, Finset.mem_sdiff, Finset.mem_union]
  tauto

lemma rest_of_agrees {reached : Service} {first : Text} {rest : List Text}
    (hrem : command.remove = first :: rest) (hne : numbers ≠ [])
    (h : ∀ n ∈ numbers,
      reported (inOrder (editLabelsRestFallback refusal command) numbers reached).1 n = some .ok ∧
        (inOrder (editLabelsRestFallback refusal command) numbers reached).2.labels n =
          edited command (s.labels n)) :
    numbers.Nodup ∧ command.remove.Nodup ∧ ∀ label ∈ command.remove, label ∉ command.add ∧
      ∀ n ∈ numbers, label ∈ reached.labels n := by
  have hadd : ∀ label ∈ command.remove, label ∉ command.add := by
    intro label hlab hin
    obtain ⟨n, hn⟩ := List.exists_mem_of_ne_nil _ hne
    obtain ⟨_, _, -, -, hrep, hlabels⟩ := last_row (labels_frame refusal command) hn reached
    obtain ⟨hrepor, hedit⟩ := h n hn
    have hok := (deleteThenAdd_ok _ _ _ _ _).2 (Option.some.inj (hrep.symm.trans hrepor))
    have hmem : label ∈ edited command (s.labels n) := by
      rw [← hedit, hlabels, editLabelsRestFallback, hok]
      simp [hin]
    simp [edited, hlab] at hmem
  have hfirst : first ∈ command.remove := hrem ▸ List.mem_cons_self
  have habs (n : ℕ) (u : Service) :
      first ∉ (deleteThenAdd refusal command n command.remove u).2.labels n := by
    by_cases hin : first ∈ u.labels n
    · rw [hrem, deleteThenAdd, if_pos hin]
      exact deleteThenAdd_absent (hadd first hfirst) _ _ _ (by simp [Service.setLabels])
    · exact deleteThenAdd_absent (hadd first hfirst) _ _ _ hin
  have hnod := (nodup_of_reported (fun labels => first ∉ labels) (labels_frame refusal command)
    habs (fun n u hout hok => hout (((deleteThenAdd_ok _ _ _ _ _).1.mp hok).2 first hfirst))
    fun n hn => (h n hn).1).1
  have hall : ∀ n ∈ numbers, command.remove.Nodup ∧ ∀ label ∈ command.remove,
      label ∈ reached.labels n := by
    intro n hn
    obtain ⟨u, hu, hrep, -⟩ := row_of_nodup (labels_frame refusal command) hnod hn reached
    have hok := (deleteThenAdd_ok _ _ _ _ _).1.mp
      (Option.some.inj (hrep.symm.trans (h n hn).1))
    exact ⟨hok.1, fun label hlab => hu ▸ hok.2 label hlab⟩
  obtain ⟨n, hn⟩ := List.exists_mem_of_ne_nil _ hne
  exact ⟨hnod, (hall n hn).1, fun label hlab =>
    ⟨hadd label hlab, fun n hn => (hall n hn).2 label hlab⟩⟩

lemma editsAgree_iff : EditsAgree refusal command quota s ↔ EditsOnce command quota s := by
  unfold EditsAgree EditsOnce runEditLabels
  by_cases hsome : command.add ≠ [] ∨ command.remove ≠ []
  · have husage : (command.add.isEmpty && command.remove.isEmpty) = false := by
      rcases hsome with h | h <;> simp [h]
    rw [husage, if_neg (by simp), runBatch_agrees, and_iff_right hsome]
    by_cases hquota : quota < (chunks command.numbers).length
    · simp only [hquota, if_true, true_imp_iff]
      constructor
      · intro h
        cases hrem : command.remove with
        | nil => exact .inl rfl
        | cons first rest =>
          have hne : command.numbers ≠ [] := by
            intro hnil
            simp [hnil, chunks] at hquota
          obtain ⟨hnumb, hnod, hall⟩ := rest_of_agrees hrem hne h
          have hzero : quota = 0 := by
            by_contra hne
            obtain ⟨n, hn⟩ := exists_applied hquota hne
            have hin := (hall first (hrem ▸ List.mem_cons_self)).2 n (applied_subset _ _ hn)
            rw [labels_applied, if_pos hn] at hin
            simp [edited, hrem] at hin
          subst hzero
          exact .inr ⟨rfl, hnumb, hrem ▸ hnod, hrem ▸ hall⟩
      · rintro (hnil | ⟨rfl, hnumb, hnod, hall⟩) n hn
        · have hedit (labels : Finset Text) :
              edited command labels = labels ∪ command.add.toFinset := by
            simp [edited, hnil]
          obtain ⟨_, _, -, -, hrep, -⟩ := last_row (labels_frame refusal command) hn
            (inOrder (editLabelsGraphql command) (applied quota command.numbers) s).2
          refine ⟨hrep.trans (congrArg some ((deleteThenAdd_ok _ _ _ _ _).1.mpr ?_)), ?_⟩
          · simp [hnil]
          rw [view_of_idem (F := fun _ labels => edited command labels)
            (labels_frame refusal command), if_pos hn, labels_applied]
          · split_ifs <;> simp [hedit]
          · intro n u
            have hok := deleteThenAdd_ok refusal command n [] u
            rw [editLabelsRestFallback, hnil, hok.2 (hok.1.mpr (by simp)), hedit]
            simp
          · simp [hedit]
        · obtain ⟨u, hu, hrep, hlabels⟩ := row_of_nodup (labels_frame refusal command) hnumb hn s
          have hok := (deleteThenAdd_ok refusal command n command.remove
            u).1.mpr ⟨hnod, fun label hlab => hu ▸ (hall label hlab).2 n hn⟩
          refine ⟨hrep.trans (congrArg some hok), ?_⟩
          refine hlabels.trans ?_
          rw [editLabelsRestFallback, (deleteThenAdd_ok _ _ _ _ _).2 hok, hu]
          ext label
          have hlab := fun h => (hall label h).1
          simp [edited]
          tauto
    · simp only [hquota, if_false, false_imp_iff, iff_true]
      intro n hn
      obtain ⟨_, _, -, -, hrep, -⟩ := last_row (graphql_frame command) hn s
      exact ⟨hrep, by rw [labels_applied, if_pos hn]⟩
  · rw [not_or, not_not, not_not] at hsome
    simp [hsome, Agrees]

end

/-- Both transports agree exactly on such batches. -/
theorem batches_agree_iff (refusal : Text) (command : Command) (quota : ℕ) (s : Service) :
    (EditsAgree refusal command quota s ↔ EditsOnce command quota s) ∧
      (LinksAgree refusal command quota s ↔ LinksOnce command quota s) :=
  ⟨editsAgree_iff, linksAgree_iff⟩

/-- REST stops at a label that the issue does not carry. -/
theorem absent_label_keeps_from_adding :
    ¬ ∀ refusal command quota s, command.numbers ≠ [] → command.add ≠ [] →
      EditsAgree refusal command quota s := by
  intro h
  have hagr := h [] ⟨[1], ["a".toList], ["b".toList]⟩ 0 ⟨fun _ => ∅, fun _ => ∅⟩ nofun nofun
  obtain ⟨ended, hend, hall⟩ := hagr
  have hchunks : chunks [1] = [[1]] := by simp [chunks]
  simp only [runEditLabels, runBatch, hchunks] at hend
  cases hend
  have hlabels := (hall 1 List.mem_cons_self).1
  revert hlabels
  decide

end Redskilled.Github.GhBatch
