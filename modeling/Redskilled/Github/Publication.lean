import Redskilled.Daemon.GithubReceipts
import Redskilled.Github.GatewayRead
import Mathlib.Data.List.Infix

/-!
# Publications

The upstream of the outbox writes to GitHub. What it publishes ends with a marker of the
idempotency key, and before it publishes it looks for the marker among what GitHub lists
first. A label transition sends its labels, which it may repeat, and publishes its
comment in the same way.

GitHub is the list of all that was ever published, in its order, by whomever. A call of
the upstream is a step for each of its requests, and may fail before or behind each.
-/
namespace Redskilled.Github.Publication
open Foundation Daemon List

structure Repository where
  owner : Text
  name : Text
  deriving DecidableEq

inductive Write where
  | repositoryPush (ref sha : Text)
  | pullRequest (head base title body : Text)
  | issueTransition (issue : ℕ) (add remove : List Text) (comment : Option Text)
  /-- An issue publication with an issue. -/
  | issueComment (issue : ℕ) (body : Text)
  | newIssue (title body : Text) (labels : List Text)
  deriving DecidableEq

abbrev Request := GithubOutbox.Request Write

inductive Place where
  | comment (repository : Repository) (issue : ℕ)
  | issue (repository : Repository)
  /-- The head is told with its owner. -/
  | pull (repository : Repository) (head base : Text)
  deriving DecidableEq

structure Item where
  id : ℕ
  place : Place
  body : Option Text
  /-- Whether the outbox posted it. -/
  own : Bool
  deriving DecidableEq

inductive Lookup where
  | comments (repository : Repository) (issue : ℕ)
  | issues (repository : Repository)
  | pulls (repository : Repository) (head base : Text)

/-- A pull request is listed as an issue, too. -/
def Place.isIssueOf (repository : Repository) : Place → Bool
  | .issue other | .pull other _ _ => decide (other = repository)
  | .comment _ _ => false

def perPage : ℕ := 100

/-- The comments of an issue are listed from the oldest on, all else from the newest. -/
def Lookup.page (forge : List Item) : Lookup → List Item
  | .comments repository issue =>
    (forge.filter fun item => decide (item.place = .comment repository issue)).take perPage
  | .issues repository =>
    (forge.filter fun item => item.place.isIssueOf repository).reverse.take perPage
  | .pulls repository head base =>
    (forge.filter fun item => decide (item.place = .pull repository head base)).reverse.take
      perPage

def isKeyChar (c : Char) : Bool := c.isAlphanum || c == '.' || c == '_' || c == ':' || c == '-'

/-- The keys that `validateWriteRequest` lets through. -/
def isPublishable : Text → Bool
  | [] => false
  | c :: rest => c.isAlphanum && rest.length ≤ 127 && rest.all isKeyChar

def githubOutboxMarker (idempotencyKey : Text) : Text :=
  "<!-- redskilled:github-outbox:".toList ++ idempotencyKey ++ " -->".toList

def Item.mentions (marker : Text) (item : Item) : Bool := item.body.any (Gateway.includes marker)

def findMarkedPublication (page : List Item) (marker : Text) : Option Item :=
  page.find? (Item.mentions marker)

/-- What the outbox published under the key. -/
def Item.carries (key : Text) (item : Item) : Bool :=
  item.own && item.body.any (githubOutboxMarker key).isSuffixOf

structure ApiRequest where
  lookup : Lookup
  path : Place
  body : Text

def marked (marker body : Text) : Text :=
  body ++ (if ['\n'].isSuffixOf body ∨ body = [] then [] else ['\n', '\n']) ++ marker

def apiWriteRequest (repository : Repository) (marker : Text) : Write → Option ApiRequest
  | .pullRequest head base _ body =>
    let ownHead := repository.owner ++ ':' :: head
    some ⟨.pulls repository ownHead base, .pull repository ownHead base, marked marker body⟩
  | .issueComment issue body =>
    some ⟨.comments repository issue, .comment repository issue, marked marker body⟩
  | .newIssue _ body _ => some ⟨.issues repository, .issue repository, marked marker body⟩
  | .repositoryPush _ _ | .issueTransition _ _ _ _ => none

def transitionComment (repository : Repository) (marker : Text) (issue : ℕ) (comment : Text) :
    ApiRequest :=
  ⟨.comments repository issue, .comment repository issue,
    comment ++ (if ['\n'].isSuffixOf comment then [] else ['\n', '\n']) ++ marker⟩

def Write.publication? (repository : Repository) (marker : Text) (write : Write) :
    Option ApiRequest :=
  match write with
  | .issueTransition issue _ _ comment => comment.map (transitionComment repository marker issue)
  | _ => apiWriteRequest repository marker write

inductive Value where
  | item (item : Item)
  | transition (issue : ℕ) (added removed : List Text) (commented : Bool)
  | pushed (ref sha : Text)
  deriving DecidableEq

def Write.answer (item : Item) : Write → Value
  | .issueTransition issue add remove _ => .transition issue add remove true
  | _ => .item item

inductive LabelRequest where
  | add (labels : List Text)
  | remove (label : Text)

/-- A label that is not there is as good as removed. -/
def LabelRequest.accepts (status : ℕ) : LabelRequest → Bool
  | .add _ => 200 ≤ status && status < 300
  | .remove _ => 200 ≤ status && status < 300 || status == 404

inductive Trip where
  | idle
  | push
  | labels (repository : Repository) (left : List LabelRequest)
  | lookup (repository : Repository)
  | post (repository : Repository)
  | done (value : Value)

def afterLabels (repository : Repository) : Write → Trip
  | .issueTransition issue add remove none => .done (.transition issue add remove false)
  | _ => .lookup repository

def labelTrip (repository : Repository) (write : Write) (left : List LabelRequest) : Trip :=
  if left.isEmpty then afterLabels repository write else .labels repository left

def begin (repository : Repository) (write : Write) : Trip :=
  match write with
  | .repositoryPush _ _ => .push
  | .issueTransition _ add remove _ =>
    labelTrip repository write
      ((if add.isEmpty then [] else [.add add]) ++ remove.map LabelRequest.remove)
  | _ => .lookup repository

structure State where
  outbox : GithubOutbox.State Write Value
  forge : List Item
  trip : Trip

inductive Step where
  | outbox (a : GithubOutbox.Step Write Value)
  | contact (repository : Repository)
  | pushed
  | labelled (status : ℕ)
  | lookedUp
  | posted
  | answered (now : Text)
  | failed
  | others (place : Place) (body : Option Text)

def isOwnStep : GithubOutbox.Step Write Value → Bool
  | .publish request _ => isPublishable request.key.idempotencyKey
  | .answered _ | .upstreamFailed => false
  | .resume _ _ | .resumed _ _ | .persisted | .persistFailed | .restart => true

namespace State
variable (s : State)

def request? : Option Request :=
  match s.outbox.stage with
  | .upstream call => some call.request
  | _ => none

def fail : Option State :=
  (GithubOutbox.next s.outbox .upstreamFailed).map fun outbox =>
    { s with outbox := outbox, trip := .idle }

def look (repository : Repository) (write : Write) : Option Item → State
  | some existing => { s with trip := .done (write.answer existing) }
  | none => { s with trip := .post repository }

def item (publication : ApiRequest) : Item :=
  ⟨s.forge.length, publication.path, some publication.body, true⟩

def post (write : Write) (publication : ApiRequest) : State :=
  { s with
    forge := s.forge ++ [s.item publication]
    trip := .done (write.answer (s.item publication)) }

end State

def marker (request : Request) : Text := githubOutboxMarker request.key.idempotencyKey

def next (s : State) : Step → Option State
  | .outbox a =>
    if isOwnStep a then
      (GithubOutbox.next s.outbox a).map fun outbox => { s with outbox := outbox, trip := .idle }
    else none
  | .contact repository =>
    match s.request?, s.trip with
    | some request, .idle => some { s with trip := begin repository request.write }
    | _, _ => none
  | .pushed =>
    match s.request?, s.trip with
    | some ⟨_, .repositoryPush ref sha⟩, .push => some { s with trip := .done (.pushed ref sha) }
    | _, _ => none
  | .labelled status =>
    match s.request?, s.trip with
    | some request, .labels repository (first :: left) =>
      if first.accepts status then
        some { s with trip := labelTrip repository request.write left }
      else s.fail
    | _, _ => none
  | .lookedUp =>
    match s.request?, s.trip with
    | some request, .lookup repository =>
      (request.write.publication? repository (marker request)).map fun publication =>
        s.look repository request.write
          (findMarkedPublication (publication.lookup.page s.forge) (marker request))
    | _, _ => none
  | .posted =>
    match s.request?, s.trip with
    | some request, .post repository =>
      (request.write.publication? repository (marker request)).map fun publication =>
        s.post request.write publication
    | _, _ => none
  | .answered now =>
    match s.trip with
    | .done value =>
      (GithubOutbox.next s.outbox (.answered ⟨now, value⟩)).map fun outbox =>
        { s with outbox := outbox, trip := .idle }
    | _ => none
  | .failed => s.fail
  | .others place body =>
    some { s with forge := s.forge ++ [⟨s.forge.length, place, body, false⟩] }

def fresh (forge : List Item) : State := ⟨GithubOutbox.fresh none, forge, .idle⟩

/-- The outbox starts with no file, and with whatever others have published. -/
def publication : Machine State Step where
  start s := s = fresh s.forge ∧ ∀ item ∈ s.forge, item.own = false
  next := next

lemma mem_key_ne {key : Text} (h : isPublishable key = true) : '<' ∉ key := by
  intro hmem
  cases key with
  | nil => cases hmem
  | cons c rest =>
    simp only [isPublishable, Bool.and_eq_true] at h
    rcases mem_cons.mp hmem with rfl | hmem
    · exact absurd h.1.1 (by decide)
    · exact absurd (all_eq_true.mp h.2 '<' hmem) (by decide)

lemma githubOutboxMarker_eq (key : Text) : githubOutboxMarker key =
      '<' :: ("!-- redskilled:github-outbox:".toList ++ key ++ " -->".toList) := rfl

lemma eq_of_suffix_marker {key key' : Text} (hkey' : isPublishable key' = true)
    (h : githubOutboxMarker key <:+ githubOutboxMarker key') : key = key' := by
  rw [githubOutboxMarker_eq key', suffix_cons_iff] at h
  rcases h with h | h
  · rw [githubOutboxMarker_eq, cons.injEq] at h
    exact append_cancel_left (append_cancel_right h.2)
  · have hmem : '<' ∈ "!-- redskilled:github-outbox:".toList ++ key' ++ " -->".toList := by
      apply h.subset
      rw [githubOutboxMarker_eq]
      exact mem_cons_self
    simp only [mem_append] at hmem
    rcases hmem with (hmem | hmem) | hmem
    · exact absurd hmem (by decide)
    · exact absurd hmem (mem_key_ne hkey')
    · exact absurd hmem (by decide)

lemma key_eq_of_suffix {key key' body : Text} (hkey : isPublishable key = true)
    (hkey' : isPublishable key' = true) (h : githubOutboxMarker key <:+ body)
    (h' : githubOutboxMarker key' <:+ body) : key = key' := by
  rcases suffix_or_suffix_of_suffix h h' with hsuff | hsuff
  · exact eq_of_suffix_marker hkey' hsuff
  · exact (eq_of_suffix_marker hkey hsuff).symm

lemma includes_of_suffix {part t : Text} (h : part <:+ t) : Gateway.includes part t = true := by
  rw [Gateway.includes, any_eq_true]
  exact ⟨part, (mem_tails part t).mpr h, by simp⟩

lemma suffix_marked (marker body : Text) : marker <:+ marked marker body :=
  suffix_append _ _

lemma suffix_publication {repository : Repository} {marker : Text} {write : Write}
    {publication : ApiRequest} (h : write.publication? repository marker = some publication) :
    marker <:+ publication.body := by
  cases write with
  | repositoryPush ref sha => cases h
  | pullRequest head base title body =>
    cases h
    exact suffix_marked marker body
  | issueTransition issue add remove comment =>
    cases comment with
    | none => cases h
    | some text =>
      cases h
      exact suffix_append _ _
  | issueComment issue body =>
    cases h
    exact suffix_marked marker body
  | newIssue title body labels =>
    cases h
    exact suffix_marked marker body

lemma page_subset {forge : List Item} {lookup : Lookup} : lookup.page forge ⊆ forge := by
  intro item hitem
  cases lookup with
  | comments repository issue => exact mem_of_mem_filter (mem_of_mem_take hitem)
  | issues repository =>
    exact mem_of_mem_filter (mem_reverse.mp (mem_of_mem_take hitem))
  | pulls repository head base =>
    exact mem_of_mem_filter (mem_reverse.mp (mem_of_mem_take hitem))

lemma Item.mentions_of_carries {item : Item} {key : Text} (h : item.carries key = true) :
    item.mentions (githubOutboxMarker key) = true := by
  rw [Item.carries, Bool.and_eq_true, Option.any_eq_true] at h
  obtain ⟨-, body, hbody, hsuff⟩ := h
  rw [Item.mentions, Option.any_eq_true]
  exact ⟨body, hbody, includes_of_suffix (isSuffixOf_iff_suffix.mp hsuff)⟩

end Redskilled.Github.Publication
