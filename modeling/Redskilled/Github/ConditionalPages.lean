import Mathlib.Data.List.TakeDrop
import Redskilled.Github.ConditionalClient

/-!
# Conditional pagination

`conditionalPaginate` reads a page after the other and stops at the first answer whose
headers name no next page. A page that is answered 304 is answered with the headers that
are held: they tell how many pages there were when the page was last read.

A server is a function of the collection, with an entity tag that tells bodies apart and a
link to the next page wherever there is one. The collection may change between any two
requests of the history; it stands still while the call in question runs.
-/
namespace Redskilled.Github
open Foundation Foundation.Text List Option

inductive Body (α : Type*) where
  | list (items : List α)
  | other

structure GithubPaginatedRestAnswer (α : Type*) where
  data : List α
  headers : GithubResponseHeaders
  requestCount : ℕ
  quotaFree : Bool

/-- A call that waits for an answer, or has ended. -/
inductive PaginateOutcome (α : Type*) where
  | waiting
  | failed (error : GithubError)
  | returned (answer : GithubPaginatedRestAnswer α)

section
variable {α : Type*} (reading : LimitReading) (input : GithubConditionalRestRequest)

def pageKey (page : ℕ) : Text := input.cacheKey ++ ":page:".toList ++ number page

def pageRequest (page : ℕ) : GithubConditionalRestRequest :=
  { input with cacheKey := pageKey input page, perPage := some 100, page := some page }

def readPage (page : ℕ) (turn : Turn (Body α)) (etags : GithubEtagStore (Body α)) :
    RestResult (Body α) :=
  conditionalRest reading (pageRequest input page) turn etags

/-- The loop of `conditionalPaginate`, by the turns that its requests meet. -/
def pagesFrom (page : ℕ) (sofar : GithubPaginatedRestAnswer α)
    (etags : GithubEtagStore (Body α)) :
    List (Turn (Body α)) → GithubEtagStore (Body α) × PaginateOutcome α
  | [] => (etags, .waiting)
  | turn :: turns =>
    match readPage reading input page turn etags with
    | (etags, .error error) => (etags, .failed error)
    | (etags, .ok answer) =>
      match answer.data with
      | .other =>
        (etags, .failed (.error ("GitHub returned a non-list body for ".toList ++
          jsonString input.cacheKey ++ " page ".toList ++ number page)))
      | .list items =>
        let sofar := {
          data := sofar.data ++ items
          headers := answer.headers
          requestCount := sofar.requestCount + 1
          quotaFree := sofar.quotaFree && answer.quotaFree }
        if hasNextPage answer.headers then pagesFrom (page + 1) sofar etags turns
        else (etags, .returned sofar)

def conditionalPaginate (etags : GithubEtagStore (Body α)) (turns : List (Turn (Body α))) :
    GithubEtagStore (Body α) × PaginateOutcome α :=
  pagesFrom reading input 1 ⟨[], ∅, 0, true⟩ etags turns

end

/-- A collection by its pages, none of which is empty. -/
structure Collection (α : Type*) where
  pages : List (List α)
  full : ∀ page ∈ pages, page ≠ []

namespace Collection
variable {α : Type*}

def items (c : Collection α) : List α := c.pages.flatten

def page (c : Collection α) (page : ℕ) : List α := (c.pages[page - 1]?).getD []

end Collection

structure Server (α : Type*) where
  etagOf : Body α → Text
  etagOf_injective : Function.Injective etagOf
  headers : Collection α → ℕ → GithubResponseHeaders
  etag_header : ∀ c page, header (headers c page) "etag".toList = some (etagOf (.list (c.page page)))
  next_iff : ∀ c page, hasNextPage (headers c page) = true ↔ page < c.pages.length

section
variable {α : Type*} (server : Server α) (reading : LimitReading)
  (input : GithubConditionalRestRequest)

/-- A 304 answers a tag that matches, and carries no headers. -/
inductive Server.Responds (c : Collection α) (page : ℕ) : Option Text → Response (Body α) → Prop
  | ok (tag : Option Text) : Responds c page tag (.ok (.list (c.page page)) (server.headers c page))
  | notModified (message : Text) :
      Responds c page (some (server.etagOf (.list (c.page page))))
        (.thrown ⟨some 304, ∅, message⟩)

/-- Some collection's answer, or an error of another kind. -/
def Server.Known (page : ℕ) (tag : Option Text) (turn : Turn (Body α)) : Prop :=
  (∃ c, server.Responds c page tag turn.response) ∨
    ∃ error : RequestError, turn.response = .thrown error ∧ error.status ≠ some 304

/-- The server answers for a collection, and neither the balance nor the ledger is in
the way. -/
def Server.Answers (c : Collection α) (page : ℕ) (tag : Option Text)
    (turn : Turn (Body α)) : Prop :=
  server.Responds c page tag turn.response ∧ (∀ observed ∈ turn.observed, observed.remaining ≠ 0) ∧
    turn.unrecorded = none

def Meets (allowed : ℕ → Option Text → Turn (Body α) → Prop) :
    ℕ → GithubEtagStore (Body α) → List (Turn (Body α)) → Prop
  | _, _, [] => True
  | page, etags, turn :: turns =>
    allowed page (ifNoneMatch etags (pageKey input page)) turn ∧
      Meets allowed (page + 1) (readPage reading input page turn etags).1 turns

inductive History : GithubEtagStore (Body α) → Prop
  | created (capacity : ℕ) : History (.create capacity)
  | called {etags : GithubEtagStore (Body α)} {turns : List (Turn (Body α))} : History etags →
      Meets reading input server.Known 1 etags turns →
      History (conditionalPaginate reading input etags turns).1

end

def Turn.notModified {β : Type*} (turn : Turn β) : Bool :=
  match turn.response with
  | .ok _ _ => false
  | .thrown error => error.status = some 304

/-- No page below the last is answered 304 from an entry that calls it the last. -/
def NoStaleEnd {α : Type*} (input : GithubConditionalRestRequest) (c : Collection α)
    (etags : GithubEtagStore (Body α)) (turns : List (Turn (Body α))) : Prop :=
  ∀ (page : ℕ) (turn : Turn (Body α)), page + 1 < c.pages.length → turns[page]? = some turn →
    turn.notModified = true → ∀ held ∈ etags.lookup (pageKey input (page + 1)),
      hasNextPage held.headers = true

section
variable {α : Type*} {server : Server α} {reading : LimitReading}
  {input : GithubConditionalRestRequest} {etags : GithubEtagStore (Body α)} {c : Collection α}
  {turn : Turn (Body α)} {turns : List (Turn (Body α))} {n : ℕ}

lemma pageKey_injective {m n : ℕ} (h : pageKey input m = pageKey input n) : m = n :=
  number_injective (append_cancel_left h)

namespace Collection

lemma page_of_lt (h : n < c.pages.length) : c.page (n + 1) = c.pages[n] := by
  simp only [page, Nat.add_sub_cancel, getElem?_eq_getElem h, getD_some]

lemma page_eq_nil_iff : c.page (n + 1) = [] ↔ c.pages.length ≤ n := by
  by_cases h : n < c.pages.length
  · rw [page_of_lt h]
    have hne := c.full _ (getElem_mem h)
    constructor
    · exact fun hnil => absurd hnil hne
    · omega
  · have hnone : c.pages[n]? = none := getElem?_eq_none (by omega)
    simp only [page, Nat.add_sub_cancel, hnone, getD_none, true_iff]
    omega

lemma page_append (k : ℕ) : c.page (n + 1) ++ ((c.pages.drop (n + 1)).take k).flatten =
    ((c.pages.drop n).take (k + 1)).flatten := by
  by_cases h : n < c.pages.length
  · rw [page_of_lt h, drop_eq_getElem_cons h, take_succ_cons, flatten_cons]
  · have hdrop : c.pages.drop n = [] := drop_eq_nil_of_le (by omega)
    have hdrop' : c.pages.drop (n + 1) = [] := drop_eq_nil_of_le (by omega)
    rw [page_eq_nil_iff.mpr (by omega), hdrop, hdrop', take_nil, take_nil]
    rfl

lemma take_eq_items_iff {k : ℕ} : (c.pages.take k).flatten = c.items ↔ c.pages.length ≤ k := by
  constructor
  · intro h
    by_contra hlt
    have hrest : (c.pages.drop k).flatten = [] := by
      have hspl : (c.pages.take k).flatten ++ (c.pages.drop k).flatten = c.items := by
        rw [← flatten_append, take_append_drop, items]
      rw [h] at hspl
      exact append_right_eq_self.mp hspl
    have hk : k < c.pages.length := by omega
    have hin : c.pages[k] ∈ c.pages.drop k := by
      rw [drop_eq_getElem_cons hk]
      exact mem_cons_self
    exact c.full _ (getElem_mem hk) (flatten_eq_nil_iff.mp hrest _ hin)
  · intro h
    rw [take_of_length_le h, items]

end Collection

def Holds (server : Server α) (page : ℕ) (held : GithubEtagEntry (Body α)) : Prop :=
  ∃ c : Collection α, held.data = .list (c.page page) ∧ held.etag = server.etagOf held.data ∧
    header held.headers "etag".toList = some held.etag ∧
      (hasNextPage held.headers = true ↔ page < c.pages.length)

def Knows (server : Server α) (input : GithubConditionalRestRequest)
    (etags : GithubEtagStore (Body α)) : Prop :=
  ∀ page, ∀ held ∈ etags.lookup (pageKey input page), Holds server page held

variable {page : ℕ} {sofar : GithubPaginatedRestAnswer α} {tag : Option Text}

lemma Server.Responds.cases {response : Response (Body α)}
    (h : server.Responds c page tag response) :
    response = .ok (.list (c.page page)) (server.headers c page) ∨
      tag = some (server.etagOf (.list (c.page page))) ∧
        ∃ message, response = .thrown ⟨some 304, ∅, message⟩ := by
  cases h with
  | ok => exact Or.inl rfl
  | notModified message => exact Or.inr ⟨rfl, message, rfl⟩

lemma Server.Responds.tag_of_notModified
    (h : server.Responds c page tag turn.response) (hfree : turn.notModified = true) :
    tag = some (server.etagOf (.list (c.page page))) := by
  rcases h.cases with hresp | ⟨htag, -⟩
  · rw [Turn.notModified, hresp] at hfree
    cases hfree
  · exact htag

variable (reading) in
lemma knows_readPage (hknows : Knows server input etags)
    (hturn : server.Known page (ifNoneMatch etags (pageKey input page)) turn) :
    Knows server input (readPage reading input page turn etags).1 := by
  intro other held hheld
  rcases lookup_conditionalRest hheld with hold | ⟨hkey, hwritt⟩
  · exact hknows other held hold
  · have hpage : other = page := pageKey_injective hkey
    subst hpage
    unfold Written at hwritt
    rcases hturn with ⟨c, hrespo⟩ | ⟨error, hresp, hstat⟩
    · rcases hrespo.cases with hresp | ⟨-, message, hresp⟩
      · rw [hresp] at hwritt
        obtain ⟨etag, hetag, rfl⟩ := hwritt
        have heq : etag = server.etagOf (.list (c.page other)) := by
          rw [server.etag_header] at hetag
          exact (some.inj hetag).symm
        exact ⟨c, rfl, heq, hetag, server.next_iff c other⟩
      · rw [hresp] at hwritt
        obtain ⟨-, old, hold, rfl⟩ := hwritt
        obtain ⟨c₀, hdata, hetag, hhead, hnext⟩ := hknows other old hold
        simp only [mergeHeaders_empty, hhead, getD_some]
        exact ⟨c₀, hdata, hetag, hhead, hnext⟩
    · rw [hresp] at hwritt
      exact absurd hwritt.1 hstat

lemma knows_pagesFrom (hknows : Knows server input etags)
    (hmeets : Meets reading input server.Known n etags turns) :
    Knows server input (pagesFrom reading input n sofar etags turns).1 := by
  induction turns generalizing n sofar etags with
  | nil => exact hknows
  | cons turn turns ih =>
    obtain ⟨hturn, hrest⟩ := hmeets
    have hread := knows_readPage reading hknows hturn
    unfold pagesFrom
    rcases hres : readPage reading input n turn etags with ⟨etags', error | answer⟩
    · rw [hres] at hread
      exact hread
    · rw [hres] at hread hrest
      dsimp only
      split
      · exact hread
      · split_ifs
        · exact ih hread hrest
        · exact hread

lemma knows_of_history (h : History server reading input etags) : Knows server input etags := by
  induction h with
  | created capacity =>
    intro page held hheld
    rw [Recency.lookup_create] at hheld
    cases hheld
  | called _ hmeets ih => exact knows_pagesFrom ih hmeets

/-- What the headers of an answer say about a next page, where the server answers a page
of the collection. -/
def SaysNext (input : GithubConditionalRestRequest) (c : Collection α)
    (etags : GithubEtagStore (Body α)) (n : ℕ) (turn : Turn (Body α)) : Prop :=
  if turn.notModified then
    ∃ held ∈ etags.lookup (pageKey input (n + 1)), hasNextPage held.headers = true
  else n + 1 < c.pages.length

variable (reading) in
lemma readPage_answers (hknows : Knows server input etags)
    (hturn : server.Answers c (n + 1) (ifNoneMatch etags (pageKey input (n + 1))) turn) :
    ∃ answer, (readPage reading input (n + 1) turn etags).2 = .ok answer ∧
      answer.data = .list (c.page (n + 1)) ∧
      (hasNextPage answer.headers = true ↔ SaysNext input c etags n turn) := by
  obtain ⟨hrespo, hobs, hrec⟩ := hturn
  have hread : readPage reading input (n + 1) turn etags =
      request reading (pageRequest input (n + 1)) turn (etags.touch (pageKey input (n + 1)))
        (etags.lookup (pageKey input (n + 1))) := by
    unfold readPage conditionalRest answered
    cases hbal : turn.observed with
    | none => rfl
    | some observed => simp only [if_neg (hobs observed hbal)]; rfl
  rw [hread]
  unfold request SaysNext
  rcases hrespo.cases with hresp | ⟨htag, message, hresp⟩
  · simp only [hresp, hrec, Turn.notModified, Bool.false_eq_true, if_false]
    exact ⟨_, rfl, rfl, server.next_iff c (n + 1)⟩
  · obtain ⟨held, hheld, hsame⟩ := map_eq_some_iff.mp htag
    obtain ⟨c₀, hdata, hetag, -, -⟩ := hknows (n + 1) held hheld
    have hbody : held.data = .list (c.page (n + 1)) :=
      server.etagOf_injective (hetag.symm.trans hsame)
    simp only [hresp, hrec, hheld, Turn.notModified, caught, if_true, decide_true,
      mergeHeaders_empty, mem_some_iff]
    refine ⟨_, rfl, hbody, ?_⟩
    constructor
    · intro hnext
      exact ⟨held, rfl, hnext⟩
    · rintro ⟨_, rfl, hnext⟩
      exact hnext

lemma not_saysNext (hknows : Knows server input etags)
    (hturn : server.Answers c (n + 1) (ifNoneMatch etags (pageKey input (n + 1))) turn)
    (hend : c.pages.length ≤ n) : ¬ SaysNext input c etags n turn := by
  unfold SaysNext
  rcases hturn.1.cases with hresp | ⟨htag, message, hresp⟩
  · simp only [hresp, Turn.notModified, Bool.false_eq_true, if_false]
    omega
  · simp only [hresp, Turn.notModified, decide_true, if_true]
    rintro ⟨held, hheld, hnext⟩
    obtain ⟨c₀, hdata, hetag, -, hlink⟩ := hknows (n + 1) held hheld
    have hsame : held.etag = server.etagOf (.list (c.page (n + 1))) := by
      obtain ⟨other, hoth, heq⟩ := map_eq_some_iff.mp htag
      rw [mem_def.mp hheld] at hoth
      rw [some.inj hoth, heq]
    have hbody := server.etagOf_injective (hetag.symm.trans hsame)
    rw [hdata, Body.list.injEq, Collection.page_eq_nil_iff.mpr hend,
      Collection.page_eq_nil_iff] at hbody
    have hlt := hlink.mp hnext
    omega

lemma Server.Answers.known
    (h : server.Answers c page tag turn) : server.Known page tag turn := Or.inl ⟨c, h.1⟩

lemma lookup_readPage {other : ℕ} (hne : other ≠ page) {held : GithubEtagEntry (Body α)}
    (h : (readPage reading input page turn etags).1.lookup (pageKey input other) = some held) :
    etags.lookup (pageKey input other) = some held := by
  rcases lookup_conditionalRest h with hold | ⟨hkey, -⟩
  · exact hold
  · exact absurd (pageKey_injective hkey) hne

lemma pagesFrom_returned {start : GithubEtagStore (Body α)}
    {answer : GithubPaginatedRestAnswer α} (hknows : Knows server input etags)
    (hheld : ∀ m, n ≤ m → ∀ held ∈ etags.lookup (pageKey input (m + 1)),
      held ∈ start.lookup (pageKey input (m + 1)))
    (hmeets : Meets reading input (server.Answers c) (n + 1) etags turns)
    (hret : (pagesFrom reading input (n + 1) sofar etags turns).2 = .returned answer) :
    ∃ last, answer.data = sofar.data ++ ((c.pages.drop n).take (last + 1)).flatten ∧
      (∀ i < last, ∃ turn, turns[i]? = some turn ∧ SaysNext input c start (n + i) turn) ∧
      ∃ turn, turns[last]? = some turn ∧
        (turn.notModified = true → ∃ held ∈ start.lookup (pageKey input (n + last + 1)),
          hasNextPage held.headers = false) ∧
        (turn.notModified = false → c.pages.length ≤ n + last + 1) := by
  induction turns generalizing n sofar etags with
  | nil => cases hret
  | cons turn turns ih =>
    obtain ⟨hturn, hrest⟩ := hmeets
    obtain ⟨page, hread, hdata, hnext⟩ := readPage_answers reading hknows hturn
    have hstore := knows_readPage reading hknows hturn.known
    unfold pagesFrom at hret
    rcases hres : readPage reading input (n + 1) turn etags with ⟨etags', result⟩
    rw [hres] at hread hret hrest hstore
    subst hread
    simp only [hdata] at hret
    by_cases hmore : hasNextPage page.headers = true
    · rw [if_pos hmore] at hret
      have hkept : ∀ m, n + 1 ≤ m → ∀ held ∈ etags'.lookup (pageKey input (m + 1)),
          held ∈ start.lookup (pageKey input (m + 1)) := by
        intro m hm held hin
        apply hheld m (by omega)
        have haft : (readPage reading input (n + 1) turn etags).1.lookup
            (pageKey input (m + 1)) = some held := by
          rw [hres]
          exact hin
        exact lookup_readPage (by omega) haft
      obtain ⟨last, hall, hbef, hlast⟩ := ih hstore hkept hrest hret
      refine ⟨last + 1, ?_, ?_, ?_⟩
      · rw [hall, append_assoc, Collection.page_append]
      · intro i hi
        cases i with
        | zero =>
          refine ⟨turn, rfl, ?_⟩
          have hsays := hnext.mp hmore
          unfold SaysNext at hsays ⊢
          split_ifs at hsays ⊢ with hfree
          · obtain ⟨held, hin, hlink⟩ := hsays
            exact ⟨held, hheld n le_rfl held hin, hlink⟩
          · exact hsays
        | succ i =>
          obtain ⟨later, hlat, hsays⟩ := hbef i (by omega)
          refine ⟨later, hlat, ?_⟩
          rwa [Nat.add_assoc, Nat.add_comm 1 i] at hsays
      · obtain ⟨later, hlat, hfree, hfull⟩ := hlast
        have hshift : n + 1 + last = n + (last + 1) := by omega
        rw [hshift] at hfree hfull
        exact ⟨later, hlat, hfree, hfull⟩
    · rw [if_neg hmore] at hret
      cases hret
      have hsays := mt hnext.mpr hmore
      refine ⟨0, ?_, ?_, turn, rfl, ?_, ?_⟩
      · rw [← Collection.page_append]
        simp
      · intro i hi
        exact absurd hi (Nat.not_lt_zero i)
      · intro hfree
        obtain ⟨held, hin, -⟩ := map_eq_some_iff.mp (hturn.1.tag_of_notModified hfree)
        refine ⟨held, hheld n le_rfl held hin, ?_⟩
        by_contra hlink
        apply hsays
        unfold SaysNext
        rw [if_pos hfree]
        exact ⟨held, hin, (Bool.not_eq_false _).mp hlink⟩
      · intro hfresh
        unfold SaysNext at hsays
        rw [hfresh] at hsays
        simp only [Bool.false_eq_true, if_false] at hsays
        omega

lemma pagesFrom_returns
    (hknows : Knows server input etags) (hn : n ≤ c.pages.length)
    (hmeets : Meets reading input (server.Answers c) (n + 1) etags turns)
    (henough : c.pages.length < n + turns.length) :
    ∃ answer, (pagesFrom reading input (n + 1) sofar etags turns).2 = .returned answer := by
  induction turns generalizing n sofar etags with
  | nil =>
    rw [length_nil] at henough
    omega
  | cons turn turns ih =>
    obtain ⟨hturn, hrest⟩ := hmeets
    obtain ⟨page, hread, hdata, hnext⟩ := readPage_answers reading hknows hturn
    have hstore := knows_readPage reading hknows hturn.known
    unfold pagesFrom
    rcases hres : readPage reading input (n + 1) turn etags with ⟨etags', result⟩
    rw [hres] at hread hrest hstore
    subst hread
    simp only [hdata]
    by_cases hmore : hasNextPage page.headers = true
    · rw [if_pos hmore]
      have hn' : n + 1 ≤ c.pages.length := by
        by_contra hend
        exact not_saysNext hknows hturn (by omega) (hnext.mp hmore)
      rw [length_cons] at henough
      exact ih hstore hn' hrest (by omega)
    · rw [if_neg hmore]
      exact ⟨_, rfl⟩

/-- While the collection stands still, a call that is answered returns; it returns all of
the collection exactly where no page below the last one is answered 304 from an entry that
calls it the last; and what costs no quota is the body held under the tag that was sent. -/
theorem returns_whole_iff_noStaleEnd (hhistory : History server reading input etags)
    (hmeets : Meets reading input (server.Answers c) 1 etags turns) :
    (c.pages.length < turns.length →
      ∃ answer, (conditionalPaginate reading input etags turns).2 = .returned answer) ∧
    (∀ answer, (conditionalPaginate reading input etags turns).2 = .returned answer →
      (answer.data = c.items ↔ NoStaleEnd input c etags turns)) ∧
    ∀ page turn answer, (readPage reading input page turn etags).2 = .ok answer →
      answer.quotaFree = true → ∃ tag, ifNoneMatch etags (pageKey input page) = some tag ∧
        server.etagOf answer.data = tag ∧
        ∃ held ∈ etags.lookup (pageKey input page), answer.data = held.data := by
  have hknows := knows_of_history hhistory
  refine ⟨?_, ?_, ?_⟩
  · intro henough
    exact pagesFrom_returns hknows (Nat.zero_le _) hmeets (by omega)
  · intro answer hret
    obtain ⟨last, hall, hbef, turn, hturn, hfree, hfull⟩ :=
      pagesFrom_returned (n := 0) hknows (fun _ _ _ hin => hin) hmeets hret
    simp only [nil_append, drop_zero, Nat.zero_add] at hall hbef hfree hfull
    rw [hall, Collection.take_eq_items_iff]
    constructor
    · intro hlength page later hpage hlat hnot held hin
      obtain ⟨other, hoth, hsays⟩ := hbef page (by omega)
      rw [hlat, some.injEq] at hoth
      subst hoth
      unfold SaysNext at hsays
      rw [if_pos hnot] at hsays
      obtain ⟨same, hsame, hlink⟩ := hsays
      rw [mem_def.mp hin] at hsame
      rwa [some.inj hsame]
    · intro hfresh
      by_contra hshort
      cases hnot : turn.notModified with
      | true =>
        obtain ⟨held, hin, hlink⟩ := hfree hnot
        have hsays := hfresh last turn (by omega) hturn hnot held hin
        rw [hlink] at hsays
        cases hsays
      | false =>
        have hend := hfull hnot
        omega
  · intro page turn answer hread hfree
    rcases answered_data hread with ⟨hcharg, -⟩ | ⟨held, hheld, hdata⟩
    · rw [hfree] at hcharg
      cases hcharg
    obtain ⟨-, -, hetag, -, -⟩ := hknows page held hheld
    refine ⟨held.etag, ?_, ?_, held, hheld, hdata⟩
    · exact congrArg (Option.map _) hheld
    · rw [hdata, hetag]

end

section

def nextLink (page : ℕ) : Text :=
  '<' :: ("https://api.github.com/repos/acme/widgets/issues?page=".toList ++ number (page + 1)) ++
    ">; rel=\"next\"".toList

lemma isNextLink_nextLink (page : ℕ) : isNextLink (nextLink page) = true := by
  have hurl : ∀ c ∈ "https://api.github.com/repos/acme/widgets/issues?page=".toList ++
      number (page + 1), decide (c ≠ '>') = true := by
    intro c hc
    rcases mem_append.mp hc with hc | hc
    · have hclean : ("https://api.github.com/repos/acme/widgets/issues?page=".toList.all
          fun c => decide (c ≠ '>')) = true := rfl
      exact all_eq_true.mp hclean c hc
    · have hdig := isDigit_of_mem_number hc
      rw [decide_eq_true_eq]
      intro heq
      rw [heq] at hdig
      cases hdig
  generalize hall : "https://api.github.com/repos/acme/widgets/issues?page=".toList ++
    number (page + 1) = url at hurl
  have hne : url ≠ [] := by
    rw [← hall]
    exact cons_ne_nil _ _
  have hspan : (url ++ ">; rel=\"next\"".toList).span (· ≠ '>') =
      (url, ">; rel=\"next\"".toList) := by
    have htake : (">; rel=\"next\"".toList).takeWhile (· ≠ '>') = [] := rfl
    have hdrop : (">; rel=\"next\"".toList).dropWhile (· ≠ '>') = ">; rel=\"next\"".toList := rfl
    rw [span_eq_takeWhile_dropWhile, takeWhile_append_of_pos hurl,
      dropWhile_append_of_pos hurl, htake, hdrop, append_nil]
  unfold isNextLink nextLink
  rw [hall]
  have hopen : ('<' :: url ++ ">; rel=\"next\"".toList).dropWhile isWhitespace =
      '<' :: (url ++ ">; rel=\"next\"".toList) := rfl
  rw [hopen]
  cases url with
  | nil => exact absurd rfl hne
  | cons c url =>
    simp only [hspan]
    rfl

def tagOf : Body Char → Text
  | .list items => '"' :: items ++ ['"']
  | .other => []

def pageHeaders (c : Collection Char) (page : ℕ) : GithubResponseHeaders :=
  if page < c.pages.length then
    JsMap.set (JsMap.set ∅ "etag".toList (tagOf (.list (c.page page)))) "link".toList (nextLink page)
  else JsMap.set ∅ "etag".toList (tagOf (.list (c.page page)))

def lettersServer : Server Char where
  etagOf := tagOf
  etagOf_injective := by
    intro a b h
    cases a with
    | list items =>
      cases b with
      | list others => rw [List.append_cancel_right (List.cons.inj h).2]
      | other => cases h
    | other =>
      cases b with
      | list others => cases h
      | other => rfl
  headers := pageHeaders
  etag_header := by
    intro c page
    unfold pageHeaders header
    split_ifs
    · rw [JsMap.lookup_set_ne _ _ (by decide), JsMap.lookup_set_self, Option.some_or]
    · rw [JsMap.lookup_set_self, Option.some_or]
  next_iff := by
    intro c page
    unfold pageHeaders hasNextPage header
    split_ifs with hmore
    · rw [JsMap.lookup_set_self, Option.some_or]
      simp only [isNextLink_nextLink, Bool.true_or, hmore]
    · rw [JsMap.lookup_set_ne _ _ (by decide), JsMap.lookup_set_ne _ _ (by decide)]
      simp only [hmore, iff_false]
      decide

def quietReading : LimitReading := ⟨fun _ => false, fun _ _ _ => none, fun _ => none⟩

def queueRequest : GithubConditionalRestRequest := ⟨"queue:acme/widgets".toList, .rest, none, none⟩

def onePage : Collection Char := ⟨[List.replicate 100 'a'], by decide⟩

def twoPages : Collection Char := ⟨[List.replicate 100 'a', ['b']], by decide⟩

def readTurn : Turn (Body Char) :=
  { response := .ok (.list (onePage.page 1)) (lettersServer.headers onePage 1), now := [] }

def unchangedTurn : Turn (Body Char) := { response := .thrown ⟨some 304, ∅, []⟩, now := [] }

def heldPage : GithubEtagStore (Body Char) :=
  (conditionalPaginate quietReading queueRequest (.create githubEtagStoreCapacity) [readTurn]).1

lemma history_heldPage : History lettersServer quietReading queueRequest heldPage :=
  .called (.created _) ⟨Or.inl ⟨onePage, .ok _⟩, trivial⟩

lemma meets_unchanged :
    Meets quietReading queueRequest (lettersServer.Answers twoPages) 1 heldPage [unchangedTurn] := by
  have htag : ifNoneMatch heldPage (pageKey queueRequest 1) =
      some (tagOf (.list (twoPages.page 1))) := by
    decide +kernel
  refine ⟨⟨?_, ?_, rfl⟩, trivial⟩
  · rw [htag]
    exact .notModified []
  · intro observed h
    cases h

lemma returned_unchanged :
    (conditionalPaginate quietReading queueRequest heldPage [unchangedTurn]).2 =
      .returned ⟨List.replicate 100 'a', lettersServer.headers onePage 1, 1, true⟩ := by
  rfl

/-- An item appended behind a full page is not seen: the page itself is unchanged. -/
theorem appended_page_is_missed :
    ∃ (etags : GithubEtagStore (Body Char)) (turns : List (Turn (Body Char)))
      (answer : GithubPaginatedRestAnswer Char),
      History lettersServer quietReading queueRequest etags ∧
        Meets quietReading queueRequest (lettersServer.Answers twoPages) 1 etags turns ∧
          (conditionalPaginate quietReading queueRequest etags turns).2 = .returned answer ∧
            answer.data ≠ twoPages.items := by
  refine ⟨heldPage, [unchangedTurn], _, history_heldPage, meets_unchanged, returned_unchanged, ?_⟩
  decide

/-- The held headers tell of one page, and there are two. -/
theorem unchanged_page_is_a_stale_end :
    List.replicate 100 'a' = twoPages.items ↔
      NoStaleEnd queueRequest twoPages heldPage [unchangedTurn] :=
  (returns_whole_iff_noStaleEnd history_heldPage meets_unchanged).2.1 _ returned_unchanged

end

end Redskilled.Github
