import Mathlib.Data.List.Infix
import Redskilled.Daemon.GithubOutbox
import Redskilled.Foundation.Fallible
import Redskilled.Foundation.JsValue

/-!
# The entries of the GitHub outbox

A write is normalised where it is accepted, and again where the outbox is read. What is
normalised is left as it is by the second time, the order of its fields included.

A write comes in as any value of the language. What is stored has only strings, numbers and
lists in it, and the value that the upstream answered.
-/
namespace Redskilled.Daemon.OutboxEntries
open Foundation

inductive OutboxError where
  | authority (message : String)
  | outbox (message : String)

abbrev Checked (α : Type) := Except OutboxError α

def refuse {α : Type} (message : String) : Checked α := .error (.authority message)

inductive FieldName where
  | version | entries | idempotencyKey | projectId | projectLabel | workspacePath
  | credentialProfile | write | queuedAt | state | publishedAt | value
  | kind | ref | sha | head | base | title | body | issue | add | remove | comment | labels
  deriving DecidableEq

namespace FieldName

def text : FieldName → Text
  | version => "version".toList
  | entries => "entries".toList
  | idempotencyKey => "idempotency_key".toList
  | projectId => "project_id".toList
  | projectLabel => "project_label".toList
  | workspacePath => "workspace_path".toList
  | credentialProfile => "credential_profile".toList
  | write => "write".toList
  | queuedAt => "queued_at".toList
  | state => "state".toList
  | publishedAt => "published_at".toList
  | value => "value".toList
  | kind => "kind".toList
  | ref => "ref".toList
  | sha => "sha".toList
  | head => "head".toList
  | base => "base".toList
  | title => "title".toList
  | body => "body".toList
  | issue => "issue".toList
  | add => "add".toList
  | remove => "remove".toList
  | comment => "comment".toList
  | labels => "labels".toList

def all : List FieldName :=
  [version, entries, idempotencyKey, projectId, projectLabel, workspacePath, credentialProfile,
    write, queuedAt, state, publishedAt, value, kind, ref, sha, head, base, title, body, issue, add,
    remove, comment, labels]

lemma mem_all (n : FieldName) : n ∈ all := by
  cases n <;> decide

lemma text_injective {m n : FieldName} (h : text m = text n) : m = n := by
  have hall : ∀ a ∈ all, ∀ b ∈ all, text a = text b → a = b := by decide +kernel
  exact hall m (mem_all m) n (mem_all n) h

end FieldName

abbrev Fields := List (Text × JsValue)

def get (fields : Fields) (name : FieldName) : JsValue := JsValue.field fields name.text

def object (fields : List (FieldName × JsValue)) : JsValue :=
  .object (fields.map fun f => (f.1.text, f.2))

def requireOnlyKeys (value : Fields) (allowed : List FieldName) : Checked Unit :=
  if ∀ f ∈ value, f.1 ∈ allowed.map FieldName.text then pure ()
  else refuse
    "a Project GitHub read cannot carry Project, credential, remote, or host authority fields"

def trimmed (value : JsValue) : Text := (value.asString.map Text.trim).getD []

def nonEmpty (value : JsValue) (message : String) : Checked Text :=
  if trimmed value = [] then refuse message else pure (trimmed value)

def scalar (value : JsValue) : Checked Text :=
  match value.asString with
  | none => .error (.outbox "redskilled GitHub outbox contains an invalid scalar")
  | some text =>
    if text.trim = [] then .error (.outbox "redskilled GitHub outbox contains an invalid scalar")
    else pure text

/-- The letter or digit that a name starts with, and what may come behind it. -/
def isName (rest : Char → Bool) (limit : Option ℕ) : Text → Bool
  | [] => false
  | c :: t => c.isAlphanum && t.all rest && limit.all (t.length ≤ ·)

/-- `/^[A-Za-z0-9][A-Za-z0-9._:-]{0,127}$/` -/
def isIdempotencyKey : Text → Bool :=
  isName (fun c => c.isAlphanum || ['.', '_', ':', '-'].contains c) (some 127)

/-- `/^[a-zA-Z0-9][a-zA-Z0-9._-]{0,63}$/` -/
def isProfileName : Text → Bool :=
  isName (fun c => c.isAlphanum || ['.', '_', '-'].contains c) (some 63)

def isBranchWord : Text → Bool :=
  isName (fun c => c.isAlphanum || ['.', '_', '/', '-'].contains c) none

def isHexDigit (c : Char) : Bool :=
  c.isDigit || ('a' ≤ c && c ≤ 'f') || ('A' ≤ c && c ≤ 'F')

/-- `/^(?:[0-9a-f]{40}|[0-9a-f]{64})$/i` -/
def isCommitSha (t : Text) : Bool := t.all isHexDigit && (t.length == 40 || t.length == 64)

/-- `/^[^/\s]+\/[^/\s]+$/` -/
def isRepositoryLabel (t : Text) : Bool :=
  let owner := t.takeWhile (· ≠ '/')
  let name := (t.dropWhile (· ≠ '/')).drop 1
  !owner.isEmpty && !name.isEmpty && !name.contains '/' && !t.any Text.isWhitespace

def validateBranchName (value : JsValue) (label : String) : Checked Text :=
  let branch := trimmed value
  if branch = [] ∨ isBranchWord branch = false ∨ ['.', '.'] <:+: branch ∨ ['/', '/'] <:+: branch ∨
      branch.getLast? = some '.' ∨ branch.getLast? = some '/' ∨ ['@', '{'] <:+: branch then
    refuse ("a " ++ label ++ " may name only one ordinary branch")
  else pure branch

def branchRefs : Text := "refs/heads/".toList

def validateBranchRef (value : JsValue) (label : String) : Checked Text :=
  let ref := trimmed value
  if branchRefs <+: ref then do
    let _ ← validateBranchName (.string (ref.drop branchRefs.length)) label
    pure ref
  else refuse ("a " ++ label ++ " may name only one branch ref")

def each (check : JsValue → Checked Text) : List JsValue → Checked (List Text)
  | [] => pure []
  | v :: vs => do
      let t ← check v
      let ts ← each check vs
      pure (t :: ts)

def validateLabelList (value : JsValue) (label : String) : Checked (List Text) :=
  match value.asArray with
  | none => refuse (label ++ " must be an array of labels")
  | some items => each (nonEmpty · (label ++ " holds one empty label")) items

def labelName (entry : JsValue) : Checked Text :=
  let name := trimmed entry
  if name = [] ∨ ',' ∈ name ∨ '\n' ∈ name then
    refuse "an Issue label must be one non-empty label name"
  else pure name

def validateLabels (value : JsValue) : Checked (List Text) :=
  if value.isNullish then pure []
  else
    match value.asArray with
    | none => refuse "Issue labels must be a list of label names"
    | some items => each labelName items

def issueNumber (value : JsValue) (message : String) : Checked ℤ :=
  match value.asSafeInteger with
  | some n => if n ≤ 0 then refuse message else pure n
  | none => refuse message

def textBody (value : JsValue) (message : String) : Checked Text :=
  match value.asString with
  | some t => pure t
  | none => refuse message

inductive WriteKind where
  | repositoryPush
  | pullRequest
  | issueTransition
  | issuePublication
  deriving DecidableEq

namespace WriteKind

def text : WriteKind → Text
  | repositoryPush => "repository-push".toList
  | pullRequest => "pull-request".toList
  | issueTransition => "issue-transition".toList
  | issuePublication => "issue-publication".toList

def read (value : JsValue) : Option WriteKind :=
  value.asString.bind fun t =>
    [repositoryPush, pullRequest, issueTransition, issuePublication].find? (·.text = t)

lemma read_text (k : WriteKind) : read (.string k.text) = some k := by
  cases k <;> decide +kernel

end WriteKind

def texts (ts : List Text) : JsValue := .array (ts.map .string)

def writeOf (kind : WriteKind) (fields : List (FieldName × JsValue)) : JsValue :=
  object ((.kind, .string kind.text) :: fields)

def validateRepositoryPush (write : Fields) : Checked JsValue := do
  requireOnlyKeys write [.kind, .ref, .sha]
  let ref ← validateBranchRef (get write .ref) "push"
  let sha := trimmed (get write .sha)
  if isCommitSha sha then
    pure (writeOf .repositoryPush [(.ref, .string ref), (.sha, .string sha)])
  else refuse "a repository push needs one commit SHA"

def validatePullRequest (write : Fields) : Checked JsValue := do
  requireOnlyKeys write [.kind, .head, .base, .title, .body]
  let head ← validateBranchName (get write .head) "pull-request head"
  let base ← validateBranchName (get write .base) "pull-request base"
  let title ← nonEmpty (get write .title) "a pull request needs a title"
  let body ← textBody (get write .body) "a pull request needs a body"
  pure (writeOf .pullRequest
    [(.head, .string head), (.base, .string base), (.title, .string title), (.body, .string body)])

def transitionComment (value : JsValue) : Checked (Option Text) :=
  if value.isNullish then pure none
  else do
    let comment ← nonEmpty value "an Issue transition comment must not be empty"
    pure (some comment)

def validateIssueTransition (write : Fields) : Checked JsValue := do
  requireOnlyKeys write [.kind, .issue, .add, .remove, .comment]
  let issue ← issueNumber (get write .issue) "an Issue transition needs one positive Issue number"
  let add ← validateLabelList (get write .add) "an Issue transition add list"
  let remove ← validateLabelList (get write .remove) "an Issue transition remove list"
  if add.length = 0 ∧ remove.length = 0 then
    refuse "an Issue transition needs at least one label to add or remove"
  else do
    let comment ← transitionComment (get write .comment)
    pure (writeOf .issueTransition
      ([(.issue, .number issue), (.add, texts add), (.remove, texts remove)] ++
        comment.toList.map fun c => (.comment, .string c)))

def validateIssueComment (write : Fields) (body : Text) : Checked JsValue := do
  let issue ← issueNumber (get write .issue)
    "an Issue comment needs one positive Issue number and no title"
  if (get write .title).isNullish then
    if (get write .labels).isNullish then
      pure (writeOf .issuePublication [(.issue, .number issue), (.body, .string body)])
    else refuse "an Issue comment carries no labels"
  else refuse "an Issue comment needs one positive Issue number and no title"

def validateNewIssue (write : Fields) (body : Text) : Checked JsValue := do
  let labels ← validateLabels (get write .labels)
  let title ← nonEmpty (get write .title) "a new Issue publication needs a title"
  pure (writeOf .issuePublication
    ([(.title, .string title), (.body, .string body)] ++
      if labels.length = 0 then [] else [(.labels, texts labels)]))

def validateIssuePublication (write : Fields) : Checked JsValue := do
  requireOnlyKeys write [.kind, .issue, .title, .body, .labels]
  let body ← textBody (get write .body) "an Issue publication needs a body"
  if (get write .issue).isNullish then validateNewIssue write body
  else validateIssueComment write body

def validateWriteOf : WriteKind → Fields → Checked JsValue
  | .repositoryPush => validateRepositoryPush
  | .pullRequest => validatePullRequest
  | .issueTransition => validateIssueTransition
  | .issuePublication => validateIssuePublication

def validateWrite (write : JsValue) : Checked JsValue :=
  match write.asObject with
  | none => refuse "a GitHub write needs one mutation object"
  | some fields =>
    match WriteKind.read (get fields .kind) with
    | some kind => validateWriteOf kind fields
    | none => refuse
        "Project authority permits only repository push, pull request, and Issue publication writes"

structure WriteRequest where
  idempotencyKey : Text
  write : JsValue

def validateWriteRequest (request : JsValue) : Checked WriteRequest :=
  match request.asObject with
  | none => refuse "a GitHub write must be an object"
  | some fields => do
      requireOnlyKeys fields [.idempotencyKey, .write]
      let key := trimmed (get fields .idempotencyKey)
      if isIdempotencyKey key then do
        let write ← validateWrite (get fields .write)
        pure ⟨key, write⟩
      else refuse "a GitHub write needs one publishable idempotency key"

section
variable {fields : List (FieldName × JsValue)}

lemma get_object (fields : List (FieldName × JsValue)) (name : FieldName) :
    get (fields.map fun f => (f.1.text, f.2)) name = (fields.lookup name).getD .undefined :=
  JsValue.field_named (fun _ _ => FieldName.text_injective) name

lemma requireOnlyKeys_object {allowed : List FieldName} (h : ∀ f ∈ fields, f.1 ∈ allowed) :
    requireOnlyKeys (fields.map fun f => (f.1.text, f.2)) allowed = pure () := by
  apply if_pos
  intro f hf
  obtain ⟨g, hg, rfl⟩ := List.mem_map.mp hf
  exact List.mem_map_of_mem (h g hg)

lemma isJson_object (h : ∀ f ∈ fields, f.2.IsJson) : (object fields).IsJson :=
  JsValue.isJson_named h

lemma isJson_texts (ts : List Text) : (texts ts).IsJson := by
  apply JsValue.IsJson.array
  intro v hv
  obtain ⟨t, -, rfl⟩ := List.mem_map.mp hv
  exact .string t

end

lemma trimmed_trimmed (value : JsValue) : trimmed (.string (trimmed value)) = trimmed value := by
  have htrim : (trimmed value).trim = trimmed value := by
    unfold trimmed
    cases value.asString with
    | none => rfl
    | some t => exact Text.trim_trim t
  exact htrim

/-- What the check accepts it accepts again, and leaves as it is. -/
def Stable (check : JsValue → Checked Text) : Prop :=
  ∀ value text, check value = .ok text → check (.string text) = .ok text

lemma stable_of_trimmed {check : JsValue → Checked Text}
    (hsame : ∀ v w, trimmed v = trimmed w → check v = check w)
    (hkeeps : ∀ v t, check v = .ok t → t = trimmed v) : Stable check := by
  intro value text h
  have hagain : trimmed (.string text) = trimmed value := by
    rw [hkeeps value text h, trimmed_trimmed]
  rw [hsame _ _ hagain, h]

lemma eq_of_ite_refuse {p : Prop} [Decidable p] {message : String} {s t : Text}
    (h : (if p then refuse message else pure s : Checked Text) = .ok t) : t = s := by
  split_ifs at h
  · cases h
  · exact (Except.ok.inj h).symm

lemma stable_nonEmpty (message : String) : Stable (nonEmpty · message) :=
  stable_of_trimmed (fun _ _ h => by simp only [nonEmpty, h]) fun _ _ => eq_of_ite_refuse

lemma stable_labelName : Stable labelName :=
  stable_of_trimmed (fun _ _ h => by simp only [labelName, h]) fun _ _ => eq_of_ite_refuse

lemma stable_branchName (label : String) : Stable (validateBranchName · label) :=
  stable_of_trimmed (fun _ _ h => by simp only [validateBranchName, h]) fun _ _ => eq_of_ite_refuse

lemma stable_branchRef (label : String) : Stable (validateBranchRef · label) := by
  refine stable_of_trimmed (fun _ _ h => by simp only [validateBranchRef, h]) ?_
  intro value text h
  unfold validateBranchRef at h
  simp only at h
  split_ifs at h
  · obtain ⟨-, -, href⟩ := Fallible.do_ok_iff.mp h
    exact (Except.ok.inj href).symm
  · cases h

variable {ts : List Text} {value : JsValue}

lemma each_stable {check : JsValue → Checked Text} (hcheck : Stable check)
    {values : List JsValue} (h : each check values = .ok ts) :
    each check (ts.map .string) = .ok ts := by
  induction values generalizing ts with
  | nil =>
    obtain rfl := Except.ok.inj h
    rfl
  | cons v vs ih =>
    obtain ⟨t, ht, hrest⟩ := Fallible.do_ok_iff.mp h
    obtain ⟨ts', hts, hpure⟩ := Fallible.do_ok_iff.mp hrest
    obtain rfl := Except.ok.inj hpure
    rw [List.map_cons, each, hcheck v t ht, ih hts]
    rfl

lemma labelList_stable {label : String}
    (h : validateLabelList value label = .ok ts) : validateLabelList (texts ts) label = .ok ts := by
  unfold validateLabelList at h
  cases hitems : value.asArray with
  | none =>
    rw [hitems] at h
    cases h
  | some items =>
    rw [hitems] at h
    exact each_stable (stable_nonEmpty _) h

lemma labels_stable (h : validateLabels value = .ok ts) :
    validateLabels (if ts.length = 0 then .undefined else texts ts) = .ok ts := by
  split_ifs with hnone
  · rw [List.length_eq_zero_iff.mp hnone]
    rfl
  · unfold validateLabels at h
    split_ifs at h
    · rw [← Except.ok.inj h] at hnone
      exact absurd rfl hnone
    · cases hitems : value.asArray with
      | none =>
        rw [hitems] at h
        cases h
      | some items =>
        rw [hitems] at h
        exact each_stable stable_labelName h

lemma issueNumber_stable {message : String} {n : ℤ}
    (h : issueNumber value message = .ok n) : issueNumber (.number n) message = .ok n := by
  unfold issueNumber at h
  cases hsafe : value.asSafeInteger with
  | none =>
    rw [hsafe] at h
    cases h
  | some m =>
    rw [hsafe] at h
    obtain ⟨-, hle⟩ := JsValue.asSafeInteger_eq_some hsafe
    obtain rfl : n = m := by
      simp only at h
      split_ifs at h
      · cases h
      · exact (Except.ok.inj h).symm
    rw [issueNumber, JsValue.asSafeInteger_intCast hle]
    exact h

lemma comment_stable {comment : Option Text} (h : transitionComment value = .ok comment) :
    transitionComment ((comment.map JsValue.string).getD .undefined) = .ok comment := by
  unfold transitionComment at h
  split_ifs at h
  · obtain rfl := Except.ok.inj h
    rfl
  · obtain ⟨t, ht, hpure⟩ := Fallible.do_ok_iff.mp h
    obtain rfl := Except.ok.inj hpure
    have hagain := stable_nonEmpty _ value t ht
    simp only [Option.map_some, Option.getD_some, transitionComment, JsValue.isNullish, hagain]
    rfl

section
variable {write : Fields} {v : JsValue}

lemma validateRepositoryPush_ok_iff : validateRepositoryPush write = .ok v ↔
      requireOnlyKeys write [.kind, .ref, .sha] = .ok () ∧
        ∃ ref, validateBranchRef (get write .ref) "push" = .ok ref ∧
          isCommitSha (trimmed (get write .sha)) = true ∧ writeOf .repositoryPush
              [(.ref, .string ref), (.sha, .string (trimmed (get write .sha)))] = v := by
  unfold validateRepositoryPush
  simp only [Fallible.do_ok_iff]
  constructor
  · rintro ⟨⟨⟩, hkeys, ref, href, h⟩
    split_ifs at h with hsha
    · exact ⟨hkeys, ref, href, hsha, Except.ok.inj h⟩
    · cases h
  · rintro ⟨hkeys, ref, href, hsha, rfl⟩
    exact ⟨(), hkeys, ref, href, if_pos hsha⟩

lemma validatePullRequest_ok_iff : validatePullRequest write = .ok v ↔
      requireOnlyKeys write [.kind, .head, .base, .title, .body] = .ok () ∧ ∃ head base title body,
          validateBranchName (get write .head) "pull-request head" = .ok head ∧
          validateBranchName (get write .base) "pull-request base" = .ok base ∧
          nonEmpty (get write .title) "a pull request needs a title" = .ok title ∧
          textBody (get write .body) "a pull request needs a body" = .ok body ∧
            writeOf .pullRequest [(.head, .string head), (.base, .string base),
              (.title, .string title), (.body, .string body)] = v := by
  unfold validatePullRequest
  simp only [Fallible.do_ok_iff]
  constructor
  · rintro ⟨⟨⟩, hkeys, head, hhead, base, hbase, title, htitle, body, hbody, h⟩
    exact ⟨hkeys, head, base, title, body, hhead, hbase, htitle, hbody, Except.ok.inj h⟩
  · rintro ⟨hkeys, head, base, title, body, hhead, hbase, htitle, hbody, rfl⟩
    exact ⟨(), hkeys, head, hhead, base, hbase, title, htitle, body, hbody, rfl⟩

lemma validateIssueTransition_ok_iff : validateIssueTransition write = .ok v ↔
      requireOnlyKeys write [.kind, .issue, .add, .remove, .comment] = .ok () ∧
        ∃ issue add remove comment,
          issueNumber (get write .issue) "an Issue transition needs one positive Issue number" =
            .ok issue ∧
          validateLabelList (get write .add) "an Issue transition add list" = .ok add ∧
          validateLabelList (get write .remove) "an Issue transition remove list" = .ok remove ∧
          ¬(add.length = 0 ∧ remove.length = 0) ∧
          transitionComment (get write .comment) = .ok comment ∧ writeOf .issueTransition
              ([(.issue, .number issue), (.add, texts add), (.remove, texts remove)] ++
                comment.toList.map fun c => (.comment, .string c)) = v := by
  unfold validateIssueTransition
  simp only [Fallible.do_ok_iff]
  constructor
  · rintro ⟨⟨⟩, hkeys, issue, hiss, add, hadd, remove, hrem, h⟩
    split_ifs at h with hnone
    · cases h
    · obtain ⟨comment, hcomm, h⟩ := Fallible.do_ok_iff.mp h
      exact ⟨hkeys, issue, add, remove, comment, hiss, hadd, hrem, hnone, hcomm, Except.ok.inj h⟩
  · rintro ⟨hkeys, issue, add, remove, comment, hiss, hadd, hrem, hnone, hcomm, rfl⟩
    refine ⟨(), hkeys, issue, hiss, add, hadd, remove, hrem, ?_⟩
    rw [if_neg hnone]
    exact Fallible.do_ok_iff.mpr ⟨comment, hcomm, rfl⟩

lemma validateIssuePublication_ok_iff : validateIssuePublication write = .ok v ↔
      requireOnlyKeys write [.kind, .issue, .title, .body, .labels] = .ok () ∧
        ∃ body, textBody (get write .body) "an Issue publication needs a body" = .ok body ∧
          (((get write .issue).isNullish = true ∧ ∃ labels title,
              validateLabels (get write .labels) = .ok labels ∧
              nonEmpty (get write .title) "a new Issue publication needs a title" = .ok title ∧
                writeOf .issuePublication ([(.title, .string title), (.body, .string body)] ++
                  if labels.length = 0 then [] else [(.labels, texts labels)]) = v) ∨
            ((get write .issue).isNullish = false ∧ ∃ issue, issueNumber (get write .issue)
                "an Issue comment needs one positive Issue number and no title" = .ok issue ∧
              (get write .title).isNullish = true ∧ (get write .labels).isNullish = true ∧
                writeOf .issuePublication [(.issue, .number issue), (.body, .string body)] = v)) := by
  unfold validateIssuePublication
  simp only [Fallible.do_ok_iff]
  constructor
  · rintro ⟨⟨⟩, hkeys, body, hbody, h⟩
    refine ⟨hkeys, body, hbody, ?_⟩
    split_ifs at h with hnew
    · left
      obtain ⟨labels, hlabels, h⟩ := Fallible.do_ok_iff.mp h
      obtain ⟨title, htitle, h⟩ := Fallible.do_ok_iff.mp h
      exact ⟨hnew, labels, title, hlabels, htitle, Except.ok.inj h⟩
    · right
      obtain ⟨issue, hiss, h⟩ := Fallible.do_ok_iff.mp h
      split_ifs at h with htitle hlabels
      · exact ⟨Bool.eq_false_of_not_eq_true hnew, issue, hiss, htitle, hlabels, Except.ok.inj h⟩
      · cases h
      · cases h
  · rintro ⟨hkeys, body, hbody, h⟩
    refine ⟨(), hkeys, body, hbody, ?_⟩
    rcases h with ⟨hnew, labels, title, hlabels, htitle, rfl⟩ |
      ⟨hold, issue, hiss, htitle, hlabels, rfl⟩
    · rw [if_pos hnew]
      exact Fallible.do_ok_iff.mpr ⟨labels, hlabels, Fallible.do_ok_iff.mpr ⟨title, htitle, rfl⟩⟩
    · rw [if_neg (by rw [hold]; decide)]
      refine Fallible.do_ok_iff.mpr ⟨issue, hiss, ?_⟩
      rw [if_pos htitle, if_pos hlabels]
      rfl

end

def written (kind : WriteKind) (fields : List (FieldName × JsValue)) : Fields :=
  ((FieldName.kind, JsValue.string kind.text) :: fields).map fun f => (f.1.text, f.2)

/-- The write has the fields of its kind and values of JSON, and is normalised to itself. -/
def Normal (kind : WriteKind) (write : JsValue) : Prop :=
  ∃ fields : List (FieldName × JsValue), write = .object (written kind fields) ∧
    validateWriteOf kind (written kind fields) = .ok write ∧ ∀ f ∈ fields, f.2.IsJson

section
variable {kind : WriteKind} {fields : List (FieldName × JsValue)} {v : JsValue}

lemma get_written {name : FieldName} (hname : name ≠ .kind) :
    get (written kind fields) name = (fields.lookup name).getD .undefined := by
  have hbeq : (name == FieldName.kind) = false := beq_eq_false_iff_ne.mpr hname
  unfold written
  rw [get_object, List.lookup_cons, hbeq]

lemma requireOnlyKeys_written {allowed : List FieldName} (hkind : .kind ∈ allowed)
    (h : ∀ f ∈ fields, f.1 ∈ allowed) :
    requireOnlyKeys (written kind fields) allowed = .ok () := by
  apply requireOnlyKeys_object
  intro f hf
  rcases List.mem_cons.mp hf with rfl | hf
  · exact hkind
  · exact h f hf

variable {write : Fields}

lemma normal_repositoryPush (h : validateRepositoryPush write = .ok v) :
    Normal .repositoryPush v := by
  obtain ⟨-, ref, href, hsha, rfl⟩ := validateRepositoryPush_ok_iff.mp h
  refine ⟨_, rfl, validateRepositoryPush_ok_iff.mpr ⟨?_, ref, ?_, ?_, ?_⟩, ?_⟩
  · exact requireOnlyKeys_written (by decide) (by simp)
  · exact stable_branchRef _ _ _ href
  · rw [get_written (by decide)]
    exact (congrArg isCommitSha (trimmed_trimmed _)).trans hsha
  · rw [get_written (by decide)]
    exact congrArg (fun sha => writeOf .repositoryPush [(.ref, .string ref), (.sha, .string sha)])
      (trimmed_trimmed _)
  · simp [JsValue.IsJson.string]

lemma normal_pullRequest (h : validatePullRequest write = .ok v) : Normal .pullRequest v := by
  obtain ⟨-, head, base, title, body, hhead, hbase, htitle, -, rfl⟩ :=
    validatePullRequest_ok_iff.mp h
  refine ⟨_, rfl, validatePullRequest_ok_iff.mpr
    ⟨?_, head, base, title, body, ?_, ?_, ?_, ?_, rfl⟩, ?_⟩
  · exact requireOnlyKeys_written (by decide) (by simp)
  · exact stable_branchName _ _ _ hhead
  · rw [get_written (by decide)]
    exact stable_branchName _ _ _ hbase
  · rw [get_written (by decide)]
    exact stable_nonEmpty _ _ _ htitle
  · rw [get_written (by decide)]
    rfl
  · simp [JsValue.IsJson.string]

lemma normal_issueTransition (h : validateIssueTransition write = .ok v) :
    Normal .issueTransition v := by
  obtain ⟨-, issue, add, remove, comment, hiss, hadd, hrem, hsome, hcomm, rfl⟩ :=
    validateIssueTransition_ok_iff.mp h
  refine ⟨_, rfl, validateIssueTransition_ok_iff.mpr
    ⟨?_, issue, add, remove, comment, ?_, ?_, ?_, hsome, ?_, rfl⟩, ?_⟩
  · apply requireOnlyKeys_written (by decide)
    cases comment <;> simp
  · exact issueNumber_stable hiss
  · rw [get_written (by decide)]
    exact labelList_stable hadd
  · rw [get_written (by decide)]
    exact labelList_stable hrem
  · rw [get_written (by decide)]
    have hagain := comment_stable hcomm
    cases comment with
    | none => exact hagain
    | some c => exact hagain
  · cases comment <;> simp [JsValue.IsJson.string, JsValue.IsJson.number, isJson_texts]

lemma normal_issuePublication (h : validateIssuePublication write = .ok v) :
    Normal .issuePublication v := by
  obtain ⟨-, body, -, hrest⟩ := validateIssuePublication_ok_iff.mp h
  rcases hrest with ⟨-, labels, title, hlabels, htitle, rfl⟩ | ⟨-, issue, hiss, -, -, rfl⟩
  · refine ⟨_, rfl, validateIssuePublication_ok_iff.mpr
      ⟨?_, body, ?_, .inl ⟨?_, labels, title, ?_, ?_, rfl⟩⟩, ?_⟩
    · apply requireOnlyKeys_written (by decide)
      split_ifs <;> simp
    · rfl
    · rw [get_written (by decide)]
      split_ifs <;> rfl
    · rw [get_written (by decide)]
      have hagain := labels_stable hlabels
      split_ifs at hagain ⊢
      · exact hagain
      · exact hagain
    · rw [get_written (by decide)]
      exact stable_nonEmpty _ _ _ htitle
    · split_ifs <;> simp [JsValue.IsJson.string, isJson_texts]
  · refine ⟨_, rfl, validateIssuePublication_ok_iff.mpr
      ⟨?_, body, ?_, .inr ⟨?_, issue, ?_, ?_, ?_, rfl⟩⟩, ?_⟩
    · exact requireOnlyKeys_written (by decide) (by simp)
    · rw [get_written (by decide)]
      rfl
    · rw [get_written (by decide)]
      rfl
    · rw [get_written (by decide)]
      exact issueNumber_stable hiss
    · rw [get_written (by decide)]
      rfl
    · rw [get_written (by decide)]
      rfl
    · simp [JsValue.IsJson.string, JsValue.IsJson.number]

lemma normal_of_validate (h : validateWriteOf kind write = .ok v) : Normal kind v := by
  cases kind with
  | repositoryPush => exact normal_repositoryPush h
  | pullRequest => exact normal_pullRequest h
  | issueTransition => exact normal_issueTransition h
  | issuePublication => exact normal_issuePublication h

lemma get_kind : get (written kind fields) .kind = .string kind.text := by
  unfold written
  rfl

lemma Normal.isJson (h : Normal kind v) : v.IsJson := by
  obtain ⟨fields, rfl, -, hfields⟩ := h
  apply isJson_object
  intro f hf
  rcases List.mem_cons.mp hf with rfl | hf
  · exact .string kind.text
  · exact hfields f hf

lemma Normal.again (h : Normal kind v) : validateWrite v = .ok v := by
  obtain ⟨fields, rfl, hagain, -⟩ := h
  simp only [validateWrite, JsValue.asObject, get_kind, WriteKind.read_text]
  exact hagain

end

lemma validateWrite_again {write v : JsValue} (h : validateWrite write = .ok v) :
    validateWrite v = .ok v ∧ v.IsJson := by
  unfold validateWrite at h
  split at h
  · cases h
  · split at h
    · exact ⟨(normal_of_validate h).again, (normal_of_validate h).isJson⟩
    · cases h

lemma validateWriteRequest_ok_iff {fields : Fields} {request : WriteRequest} :
    validateWriteRequest (.object fields) = .ok request ↔
      requireOnlyKeys fields [.idempotencyKey, .write] = .ok () ∧
        isIdempotencyKey (trimmed (get fields .idempotencyKey)) = true ∧
          ∃ write, validateWrite (get fields .write) = .ok write ∧
            WriteRequest.mk (trimmed (get fields .idempotencyKey)) write = request := by
  simp only [validateWriteRequest, JsValue.asObject, Fallible.do_ok_iff]
  constructor
  · rintro ⟨⟨⟩, hkeys, h⟩
    split_ifs at h with hkey
    · obtain ⟨write, hwrite, h⟩ := Fallible.do_ok_iff.mp h
      exact ⟨hkeys, hkey, write, hwrite, Except.ok.inj h⟩
    · cases h
  · rintro ⟨hkeys, hkey, write, hwrite, rfl⟩
    refine ⟨(), hkeys, ?_⟩
    rw [if_pos hkey]
    exact Fallible.do_ok_iff.mpr ⟨write, hwrite, rfl⟩

def WriteRequest.asValue (request : WriteRequest) : JsValue :=
  object [(.idempotencyKey, .string request.idempotencyKey), (.write, request.write)]

/-- What a request is normalised to. -/
structure Accepted (request : WriteRequest) : Prop where
  again : validateWriteRequest request.asValue = .ok request
  named : request.idempotencyKey.trim ≠ []
  json : request.write.IsJson

lemma accepted_of_validate {raw : JsValue} {request : WriteRequest}
    (h : validateWriteRequest raw = .ok request) : Accepted request := by
  cases raw with
  | object fields =>
    obtain ⟨-, hkey, write, hwrite, rfl⟩ := validateWriteRequest_ok_iff.mp h
    obtain ⟨hagain, hjson⟩ := validateWrite_again hwrite
    have htrim := trimmed_trimmed (get fields .idempotencyKey)
    refine ⟨validateWriteRequest_ok_iff.mpr ⟨?_, ?_, write, ?_, ?_⟩, ?_, hjson⟩
    · exact requireOnlyKeys_object (by simp)
    · exact (congrArg isIdempotencyKey htrim).trans hkey
    · rw [get_object]
      exact hagain
    · rw [get_object]
      exact congrArg (WriteRequest.mk · write) htrim
    · intro hnone
      have hempty : trimmed (get fields .idempotencyKey) = [] := htrim.symm.trans hnone
      rw [hempty] at hkey
      cases hkey
  | _ => cases h

end Redskilled.Daemon.OutboxEntries
