import Mathlib
import Redskilled.Foundation.JsText

/-!
# Promotion batches

`runPromotionEngine` of `plugin-memory/src/promotion-engine.ts`. A candidate that was promoted
is matched like a node from then on, under a number of no node. A later candidate that is
closest to it reinforces that number.

How texts are normalised, which keywords they have and how alike two embeddings or keyword
sets are is left open: any functions will do. A score is none where it is NaN.
-/
namespace Redskilled.Memory.PromotionEngine
open Foundation List

structure PromotionCandidate (ν : Type*) where
  type : Text
  title : Text
  content : Option Text
  embedding : Option (List ν)
  keywords : Option (List Text)

structure PromotionExistingNode (ν : Type*) where
  rid : ℤ
  type : Text
  title : Text
  content : Option Text
  embedding : Option (List ν)
  keywords : Option (List Text)
  reinforced : Option ℕ

inductive PromotionMatchKind where
  | exact | vector | keyword

structure MatchHit where
  index : ℕ
  kind : PromotionMatchKind

/-- `index` is the place of the target, which the source does not tell. -/
inductive PromotionDecision (ν : Type*) where
  | promote (candidate : PromotionCandidate ν)
  | reinforce (candidate : PromotionCandidate ν) (index : ℕ) (targetRid : ℤ)
      (kind : PromotionMatchKind) (reinforced : ℕ)
  | skip (candidate : PromotionCandidate ν)

/-- The options, and what is left open. The doubles other than NaN are ordered. -/
structure Setting (ν F : Type*) [LinearOrder F] where
  isPromotable : Text → Bool
  vectorThreshold : F
  keywordThreshold : F
  zero : F
  negInfinity : F
  negInfinity_lt : negInfinity < zero
  normalizeText : Text → Text
  extractKeywords : Text → List Text
  cosineSimilarity : List ν → List ν → Option F
  jaccard : List Text → List Text → Option F

variable {ν F : Type*} [LinearOrder F] (o : Setting ν F)

def textOf (title : Text) (between : Char) (content : Option Text) : Text :=
  title ++ between :: content.getD []

def keywordsOf (candidate : PromotionCandidate ν) : List Text :=
  candidate.keywords.getD (o.extractKeywords (textOf candidate.title ' ' candidate.content))

/-- A node of `existingShadow`. -/
def shadowOf (node : PromotionExistingNode ν) : PromotionExistingNode ν :=
  { node with
    keywords :=
      some (node.keywords.getD (o.extractKeywords (textOf node.title ' ' node.content)))
    reinforced := some (node.reinforced.getD 0) }

/-- The loop for the best score from the place `i` on: its place, and the score. -/
def bestFrom (score : PromotionExistingNode ν → Option F) :
    ℕ → Option ℕ × F → List (PromotionExistingNode ν) → Option ℕ × F
  | _, best, [] => best
  | i, best, node :: nodes =>
    bestFrom score (i + 1) (match score node with
      | none => best
      | some value => if best.2 < value then (some i, value) else best) nodes

def hitOf (kind : PromotionMatchKind) (threshold : F) (best : Option ℕ × F) : Option MatchHit :=
  best.1.bind fun index => if threshold ≤ best.2 then some ⟨index, kind⟩ else none

def isExact (candidate : PromotionCandidate ν) (node : PromotionExistingNode ν) : Bool :=
  node.type = candidate.type ∧ o.normalizeText (textOf node.title '\n' node.content) =
    o.normalizeText (textOf candidate.title '\n' candidate.content)

/-- The score of a node, none where the loop goes on without it. -/
def vectorScore (candidate : PromotionCandidate ν) (node : PromotionExistingNode ν) : Option F :=
  if node.type = candidate.type ∧ candidate.embedding.getD [] ≠ [] ∧ node.embedding.getD [] ≠ []
  then o.cosineSimilarity (candidate.embedding.getD []) (node.embedding.getD [])
  else none

def keywordScore (candidate : PromotionCandidate ν) (keywords : List Text)
    (node : PromotionExistingNode ν) : Option F :=
  if node.type = candidate.type ∧ keywords ≠ [] ∧ node.keywords.getD [] ≠ []
  then o.jaccard keywords (node.keywords.getD [])
  else none

def findMatch (candidate : PromotionCandidate ν) (keywords : List Text)
    (existing : List (PromotionExistingNode ν)) : Option MatchHit :=
  match existing.findIdx? (isExact o candidate) with
  | some index => some ⟨index, .exact⟩
  | none =>
    match hitOf .vector o.vectorThreshold
      (bestFrom (vectorScore o candidate) 0 (none, o.negInfinity) existing) with
    | some hit => some hit
    | none =>
      hitOf .keyword o.keywordThreshold
        (bestFrom (keywordScore o candidate keywords) 0 (none, o.zero) existing)

/-- The loop over the candidates. -/
structure Walk (ν : Type*) where
  existingShadow : List (PromotionExistingNode ν)
  promoted : ℕ
  decisions : List (PromotionDecision ν)

/-- A candidate as an existing node. -/
def asNode (candidate : PromotionCandidate ν) (rid : ℤ) : PromotionExistingNode ν :=
  ⟨rid, candidate.type, candidate.title, candidate.content, candidate.embedding,
    candidate.keywords, none⟩

def consider (walk : Walk ν) (candidate : PromotionCandidate ν) : Walk ν :=
  if o.isPromotable candidate.type = false then
    { walk with decisions := walk.decisions ++ [.skip candidate] }
  else
    let keywords := keywordsOf o candidate
    match findMatch o candidate keywords walk.existingShadow with
    | some hit =>
      match walk.existingShadow[hit.index]? with
      | none => walk
      | some target =>
        let reinforced := target.reinforced.getD 0 + 1
        { walk with
          existingShadow :=
            walk.existingShadow.set hit.index { target with reinforced := some reinforced }
          decisions := walk.decisions ++
            [.reinforce candidate hit.index target.rid hit.kind reinforced] }
    | none =>
      { existingShadow := walk.existingShadow ++ [{ asNode candidate (-1 - (walk.promoted + 1)) with
            keywords := some keywords, reinforced := some 0 }]
        promoted := walk.promoted + 1
        decisions := walk.decisions ++ [.promote candidate] }

def walkOf (existing : List (PromotionExistingNode ν)) (candidates : List (PromotionCandidate ν)) :
    Walk ν :=
  candidates.foldl (consider o) ⟨existing.map (shadowOf o), 0, []⟩

def runPromotionEngine (candidates : List (PromotionCandidate ν))
    (existing : List (PromotionExistingNode ν)) : List (PromotionDecision ν) :=
  (walkOf o existing candidates).decisions

def PromotionDecision.candidate : PromotionDecision ν → PromotionCandidate ν
  | .promote candidate | .reinforce candidate .. | .skip candidate => candidate

def PromotionDecision.promoted? : PromotionDecision ν → Option (PromotionCandidate ν)
  | .promote candidate => some candidate
  | _ => none

/-- The node at the place is reinforced. -/
def PromotionDecision.reinforces (index : ℕ) : PromotionDecision ν → Bool
  | .reinforce _ target .. => target = index
  | _ => false

/-- A batch collapses near-duplicates onto the nodes that are given. -/
structure Collapses (candidates : List (PromotionCandidate ν))
    (existing : List (PromotionExistingNode ν)) : Prop where
  decided : (runPromotionEngine o candidates existing).map (·.candidate) = candidates
  apart : ((runPromotionEngine o candidates existing).filterMap (·.promoted?)).Pairwise
    fun earlier later => ∀ rid, findMatch o later (keywordsOf o later)
      [shadowOf o (asNode earlier rid)] = none
  onto : ∀ before candidate index rid kind count after, runPromotionEngine o candidates existing =
        before ++ .reinforce candidate index rid kind count :: after →
      ∃ place node, existing[place]? = some node ∧ rid = node.rid ∧
        count = node.reinforced.getD 0 + before.countP (·.reinforces place) + 1
  again : ∀ added : List (PromotionCandidate ν × ℤ),
    added.map Prod.fst = (runPromotionEngine o candidates existing).filterMap (·.promoted?) →
      (runPromotionEngine o candidates
        (existing ++ added.map fun entry => asNode entry.1 entry.2)).filterMap (·.promoted?) = []

/-- Each candidate that matches is closest to a node that was given. -/
def MatchesGiven (candidates : List (PromotionCandidate ν))
    (existing : List (PromotionExistingNode ν)) : Prop :=
  ∀ before candidate after hit, candidates = before ++ candidate :: after →
    o.isPromotable candidate.type = true →
      findMatch o candidate (keywordsOf o candidate) (walkOf o existing before).existingShadow =
        some hit → hit.index < existing.length

variable {o} {candidate : PromotionCandidate ν} {keywords : List Text} {hit : MatchHit}
  {nodes existing : List (PromotionExistingNode ν)} {candidates : List (PromotionCandidate ν)}

lemma bestFrom_spec (score : PromotionExistingNode ν → Option F)
    (nodes : List (PromotionExistingNode ν)) (i : ℕ) (best : Option ℕ × F) :
    best.2 ≤ (bestFrom score i best nodes).2 ∧
      (∀ node ∈ nodes, ∀ value ∈ score node, value ≤ (bestFrom score i best nodes).2) ∧
      (bestFrom score i best nodes = best ∨ ∃ j < nodes.length,
        (bestFrom score i best nodes).1 = some (i + j) ∧
          ∃ node ∈ nodes, score node = some (bestFrom score i best nodes).2) := by
  induction nodes generalizing i best with
  | nil => exact ⟨le_rfl, nofun, .inl rfl⟩
  | cons node nodes ih =>
    have hnext : ∃ next, bestFrom score i best (node :: nodes) =
        bestFrom score (i + 1) next nodes ∧ best.2 ≤ next.2 ∧
          (∀ value ∈ score node, value ≤ next.2) ∧
            (next = best ∨ next.1 = some i ∧ score node = some next.2) := by
      cases hscore : score node with
      | none => exact ⟨best, by rw [bestFrom, hscore], le_rfl, nofun, .inl rfl⟩
      | some value =>
        by_cases hless : best.2 < value
        · exact ⟨(some i, value), by simp [bestFrom, hscore, hless], hless.le, by simp,
            .inr ⟨rfl, rfl⟩⟩
        · exact ⟨best, by simp [bestFrom, hscore, hless], le_rfl, by simpa using hless, .inl rfl⟩
    obtain ⟨next, heq, hle, hnode, horig⟩ := hnext
    obtain ⟨hkept, hmost, hfrom⟩ := ih (i + 1) next
    rw [heq]
    refine ⟨hle.trans hkept,
      forall_mem_cons.mpr ⟨fun value hvalue => (hnode value hvalue).trans hkept, hmost⟩, ?_⟩
    rcases hfrom with hsame | ⟨j, hj, hind, found, hfound, hscore⟩
    · rw [hsame]
      rcases horig with rfl | ⟨hind, hscore⟩
      · exact .inl rfl
      · exact .inr ⟨0, Nat.zero_lt_succ _, hind, node, mem_cons_self, hscore⟩
    · refine .inr ⟨j + 1, Nat.succ_lt_succ hj, ?_, found, mem_cons_of_mem _ hfound, hscore⟩
      rw [hind, Nat.add_right_comm, Nat.add_assoc]

lemma hitOf_spec (score : PromotionExistingNode ν → Option F)
    (nodes : List (PromotionExistingNode ν)) {least threshold : F} (h : least < threshold)
    (kind : PromotionMatchKind) :
    ((hitOf kind threshold (bestFrom score 0 (none, least) nodes)).isSome = true ↔
      ∃ node ∈ nodes, ∃ value ∈ score node, threshold ≤ value) ∧
    ∀ hit ∈ hitOf kind threshold (bestFrom score 0 (none, least) nodes),
      hit.index < nodes.length := by
  obtain ⟨-, hmost, hfrom⟩ := bestFrom_spec score nodes 0 (none, least)
  rcases hfrom with hnone | ⟨j, hj, hind, node, hnode, hscore⟩
  · rw [hnone] at hmost ⊢
    refine ⟨iff_of_false Bool.false_ne_true ?_, nofun⟩
    rintro ⟨node, hnode, value, hvalue, hle⟩
    exact absurd (hle.trans (hmost node hnode value hvalue)) (not_le.mpr h)
  · simp only [hitOf, hind, Option.bind_some]
    split_ifs with hle
    · refine ⟨iff_of_true rfl ⟨node, hnode, _, hscore, hle⟩, ?_⟩
      rintro _ ⟨⟩
      rwa [Nat.zero_add]
    · refine ⟨iff_of_false Bool.false_ne_true ?_, nofun⟩
      rintro ⟨other, hoth, value, hvalue, hthr⟩
      exact hle (hthr.trans (hmost other hoth value hvalue))

/-- The candidate matches the node, whichever other nodes there are. -/
def Matches (o : Setting ν F) (candidate : PromotionCandidate ν)
    (node : PromotionExistingNode ν) : Prop :=
  isExact o candidate node = true ∨
    (∃ value ∈ vectorScore o candidate node, o.vectorThreshold ≤ value) ∨
      ∃ value ∈ keywordScore o candidate (keywordsOf o candidate) node, o.keywordThreshold ≤ value

section
variable (hvector : o.zero < o.vectorThreshold) (hkeyword : o.zero < o.keywordThreshold)
include hvector hkeyword

lemma findMatch_spec : ((findMatch o candidate (keywordsOf o candidate) nodes).isSome = true ↔
      ∃ node ∈ nodes, Matches o candidate node) ∧
    ∀ hit ∈ findMatch o candidate (keywordsOf o candidate) nodes, hit.index < nodes.length := by
  have hvect := hitOf_spec (vectorScore o candidate) nodes
    (o.negInfinity_lt.trans hvector) .vector
  have hkeyw := hitOf_spec (keywordScore o candidate (keywordsOf o candidate)) nodes
    hkeyword .keyword
  have hspl : (∃ node ∈ nodes, Matches o candidate node) ↔
      (∃ node ∈ nodes, isExact o candidate node = true) ∨
        (∃ node ∈ nodes, ∃ value ∈ vectorScore o candidate node, o.vectorThreshold ≤ value) ∨
          ∃ node ∈ nodes, ∃ value ∈ keywordScore o candidate (keywordsOf o candidate) node,
            o.keywordThreshold ≤ value := by
    simp only [Matches, and_or_left, exists_or]
  rw [hspl]
  unfold findMatch
  cases hexact : nodes.findIdx? (isExact o candidate) with
  | some index =>
    obtain ⟨hlt, htrue, -⟩ := findIdx?_eq_some_iff_getElem.mp hexact
    refine ⟨iff_of_true rfl (.inl ⟨_, getElem_mem hlt, htrue⟩), ?_⟩
    rintro _ ⟨⟩
    exact hlt
  | none =>
    have hno : ¬ ∃ node ∈ nodes, isExact o candidate node = true := by
      simpa using findIdx?_eq_none_iff.mp hexact
    rw [or_iff_right hno, ← hvect.1, ← hkeyw.1]
    cases hhit : hitOf .vector o.vectorThreshold
        (bestFrom (vectorScore o candidate) 0 (none, o.negInfinity) nodes) with
    | some hit =>
      refine ⟨iff_of_true rfl (.inl rfl), ?_⟩
      rintro _ ⟨⟩
      exact hvect.2 hit hhit
    | none => simpa using hkeyw.2

lemma findMatch_eq_none : findMatch o candidate (keywordsOf o candidate) nodes = none ↔
      ∀ node ∈ nodes, ¬ Matches o candidate node := by
  rw [← Option.not_isSome_iff_eq_none, (findMatch_spec hvector hkeyword).1]
  simp

inductive Considered (o : Setting ν F) (shadow : List (PromotionExistingNode ν))
    (candidate : PromotionCandidate ν) :
    PromotionDecision ν → List (PromotionExistingNode ν) → Prop
  | skip (gate : o.isPromotable candidate.type = false) :
      Considered o shadow candidate (.skip candidate) shadow
  | reinforce (hit : MatchHit) (target : PromotionExistingNode ν)
      (gate : o.isPromotable candidate.type = true)
      (found : findMatch o candidate (keywordsOf o candidate) shadow = some hit)
      (place : shadow[hit.index]? = some target) :
      Considered o shadow candidate
        (.reinforce candidate hit.index target.rid hit.kind (target.reinforced.getD 0 + 1))
        (shadow.set hit.index { target with reinforced := some (target.reinforced.getD 0 + 1) })
  | promote (rid : ℤ) (negative : rid < 0) (gate : o.isPromotable candidate.type = true)
      (apart : ∀ node ∈ shadow, ¬ Matches o candidate node) :
      Considered o shadow candidate (.promote candidate)
        (shadow ++ [shadowOf o (asNode candidate rid)])

lemma considered (existing : List (PromotionExistingNode ν))
    (candidates : List (PromotionCandidate ν)) (candidate : PromotionCandidate ν) :
    ∃ decision shadow, runPromotionEngine o (candidates ++ [candidate]) existing =
        runPromotionEngine o candidates existing ++ [decision] ∧
      (walkOf o existing (candidates ++ [candidate])).existingShadow = shadow ∧
        Considered o (walkOf o existing candidates).existingShadow candidate decision shadow := by
  have hwalk : walkOf o existing (candidates ++ [candidate]) =
      consider o (walkOf o existing candidates) candidate := by
    rw [walkOf, foldl_append]
    rfl
  simp only [runPromotionEngine, hwalk]
  generalize walkOf o existing candidates = walk
  cases hgate : o.isPromotable candidate.type with
  | false =>
    rw [consider, if_pos hgate]
    exact ⟨_, _, rfl, rfl, .skip hgate⟩
  | true =>
    have hopen : ¬ o.isPromotable candidate.type = false := by simp [hgate]
    simp only [consider, if_neg hopen]
    cases hfound : findMatch o candidate (keywordsOf o candidate) walk.existingShadow with
    | none =>
      exact ⟨_, _, rfl, rfl,
        .promote _ (by omega) hgate ((findMatch_eq_none hvector hkeyword).mp hfound)⟩
    | some hit =>
      have hplace := getElem?_eq_getElem ((findMatch_spec hvector hkeyword).2 hit hfound)
      simp only [hplace]
      exact ⟨_, _, rfl, rfl, .reinforce hit _ hgate hfound hplace⟩

end

/-- What of a node matters for its matches. -/
def PromotionExistingNode.face (node : PromotionExistingNode ν) : PromotionExistingNode ν :=
  { node with rid := 0, reinforced := none }

lemma map_face_set {target : PromotionExistingNode ν} {index : ℕ} {count : Option ℕ}
    (h : nodes[index]? = some target) :
    (nodes.set index { target with reinforced := count }).map (·.face) = nodes.map (·.face) := by
  apply ext_getElem?
  intro place
  rw [getElem?_map, getElem?_map, getElem?_set]
  split_ifs with heq hlt
  · rw [← heq, h]
    rfl
  · exact absurd (List.getElem?_eq_some_iff.mp h).1 hlt
  · rfl

def promotions (decisions : List (PromotionDecision ν)) : List (PromotionCandidate ν) :=
  decisions.filterMap (·.promoted?)

/-- A candidate as a later one matches it. -/
def shadowFace (o : Setting ν F) (candidate : PromotionCandidate ν) : PromotionExistingNode ν :=
  (shadowOf o (asNode candidate 0)).face

/-- The faces of the nodes that were given, and of those that were promoted. -/
def facesOf (o : Setting ν F) (existing : List (PromotionExistingNode ν))
    (decisions : List (PromotionDecision ν)) : List (PromotionExistingNode ν) :=
  (existing.map (shadowOf o)).map (·.face) ++ (promotions decisions).map (shadowFace o)

/-- The number and the count at a place, behind some decisions. -/
def Row (existing : List (PromotionExistingNode ν)) (decisions : List (PromotionDecision ν))
    (place : ℕ) (rid : ℤ) (count : ℕ) : Prop :=
  (existing.length ≤ place → rid < 0) ∧ ∀ node, existing[place]? = some node →
    rid = node.rid ∧ count = node.reinforced.getD 0 + decisions.countP (·.reinforces place)

variable {decisions : List (PromotionDecision ν)} {decision : PromotionDecision ν}
  {shadow shadow' : List (PromotionExistingNode ν)}

lemma Row.concat {place : ℕ} {rid : ℤ} {count : ℕ} (h : Row existing decisions place rid count)
    (decision : PromotionDecision ν) :
    Row existing (decisions ++ [decision]) place rid
      (count + if decision.reinforces place then 1 else 0) := by
  refine ⟨h.1, fun node hnode => ⟨(h.2 node hnode).1, ?_⟩⟩
  rw [(h.2 node hnode).2, countP_append, countP_singleton, Nat.add_assoc]

structure Sound (o : Setting ν F) (existing shadow : List (PromotionExistingNode ν))
    (decisions : List (PromotionDecision ν)) : Prop where
  faces : shadow.map (·.face) = facesOf o existing decisions
  rows : ∀ place node, shadow[place]? = some node →
    Row existing decisions place node.rid (node.reinforced.getD 0)
  apart : (promotions decisions).Pairwise fun earlier later =>
    ¬ Matches o later (shadowFace o earlier)
  told : ∀ before candidate index rid kind count after,
    decisions = before ++ .reinforce candidate index rid kind count :: after →
      ∃ given, count = given + 1 ∧ Row existing before index rid given

lemma Sound.considered (h : Sound o existing shadow decisions)
    (hstep : Considered o shadow candidate decision shadow') :
    Sound o existing shadow' (decisions ++ [decision]) := by
  have htold : ∀ before c index rid kind count after,
      decisions ++ [decision] = before ++ .reinforce c index rid kind count :: after →
        ∃ given, count = given + 1 ∧ Row existing before index rid given := by
    intro before c index rid kind count after hspl
    rcases eq_nil_or_concat after with rfl | ⟨after, last, rfl⟩
    · obtain ⟨rfl, hlast⟩ := append_inj' hspl rfl
      cases hstep with
      | skip => cases hlast
      | promote => cases hlast
      | reinforce hit target gate found place =>
        cases singleton_inj.mp hlast
        exact ⟨_, rfl, h.rows _ _ place⟩
    · rw [concat_eq_append, ← cons_append, ← append_assoc] at hspl
      exact h.told _ _ _ _ _ _ _ (append_inj' hspl rfl).1
  have hfac := h.faces
  cases hstep with
  | skip gate =>
    refine ⟨?_, fun place node hnode => (h.rows place node hnode).concat _, ?_, htold⟩
    · simpa [facesOf, promotions, PromotionDecision.promoted?] using hfac
    · simpa [promotions, PromotionDecision.promoted?] using h.apart
  | reinforce hit target gate found place =>
    refine ⟨?_, ?_, ?_, htold⟩
    · rw [map_face_set place]
      simpa [facesOf, promotions, PromotionDecision.promoted?] using hfac
    · intro i node hnode
      rw [getElem?_set] at hnode
      split_ifs at hnode with hsame
      · cases hnode
        simpa [PromotionDecision.reinforces, hsame] using
          (h.rows i target (hsame ▸ place)).concat (.reinforce candidate hit.index target.rid
            hit.kind (target.reinforced.getD 0 + 1))
      · simpa [PromotionDecision.reinforces, hsame] using
          (h.rows i node hnode).concat (.reinforce candidate hit.index target.rid hit.kind
            (target.reinforced.getD 0 + 1))
    · simpa [promotions, PromotionDecision.promoted?] using h.apart
  | promote rid negative gate apart =>
    refine ⟨?_, ?_, ?_, htold⟩
    · simp only [map_append, hfac, facesOf, promotions, filterMap_append, append_assoc]
      rfl
    · intro i node hnode
      rcases Nat.lt_or_ge i shadow.length with hlt | hge
      · exact (h.rows i node ((getElem?_append_left hlt).symm.trans hnode)).concat _
      · have hlength := congrArg length hfac
        simp only [facesOf, length_map, length_append] at hlength
        rw [getElem?_append_right hge, getElem?_singleton] at hnode
        split_ifs at hnode
        cases hnode
        refine ⟨fun _ => negative, fun given hgiv => ?_⟩
        have hfar := (List.getElem?_eq_some_iff.mp hgiv).1
        omega
    · rw [promotions, filterMap_append]
      refine pairwise_append.mpr ⟨h.apart, pairwise_singleton .., ?_⟩
      intro earlier hearl later hlat
      obtain rfl : later = candidate := by simpa [PromotionDecision.promoted?] using hlat
      have hmem : shadowFace o earlier ∈ shadow.map (·.face) := by
        rw [hfac]
        exact mem_append_right _ (mem_map_of_mem hearl)
      obtain ⟨node, hnode, hface⟩ := mem_map.mp hmem
      rw [← hface]
      exact apart node hnode

section
variable (hvector : o.zero < o.vectorThreshold) (hkeyword : o.zero < o.keywordThreshold)
include hvector hkeyword

lemma sound_walkOf (existing : List (PromotionExistingNode ν))
    (candidates : List (PromotionCandidate ν)) :
    Sound o existing (walkOf o existing candidates).existingShadow
      (runPromotionEngine o candidates existing) := by
  induction candidates using reverseRecOn with
  | nil =>
    refine ⟨?_, ?_, Pairwise.nil, ?_⟩
    · simp [walkOf, runPromotionEngine, facesOf, promotions]
    · intro place node hnode
      have hmap : (existing.map (shadowOf o))[place]? = some node := hnode
      rw [getElem?_map] at hmap
      obtain ⟨given, hgiv, rfl⟩ := Option.map_eq_some_iff.mp hmap
      refine ⟨fun hfar => ?_, fun other hoth => ?_⟩
      · exact absurd (List.getElem?_eq_some_iff.mp hgiv).1 (Nat.not_lt.mpr hfar)
      · obtain rfl := Option.some.inj (hgiv.symm.trans hoth)
        exact ⟨rfl, rfl⟩
    · intro before _ _ _ _ _ _ hspl
      cases before <;> cases hspl
  | append_singleton candidates candidate ih =>
    obtain ⟨decision, shadow, hrun, hshad, hstep⟩ :=
      considered hvector hkeyword existing candidates candidate
    rw [hrun, hshad]
    exact ih.considered hstep

lemma decided (existing : List (PromotionExistingNode ν))
    (candidates : List (PromotionCandidate ν)) :
    (runPromotionEngine o candidates existing).map (·.candidate) = candidates := by
  induction candidates using reverseRecOn with
  | nil => rfl
  | append_singleton candidates candidate ih =>
    obtain ⟨decision, _, hrun, -, hstep⟩ :=
      considered hvector hkeyword existing candidates candidate
    rw [hrun, map_append, ih]
    cases hstep <;> rfl

lemma exists_face (existing : List (PromotionExistingNode ν)) (h : candidate ∈ candidates)
    (hgate : o.isPromotable candidate.type = true) :
    ∃ face ∈ facesOf o existing (runPromotionEngine o candidates existing),
      Matches o candidate face := by
  induction candidates using reverseRecOn with
  | nil => cases h
  | append_singleton candidates last ih =>
    obtain ⟨decision, _, hrun, -, hstep⟩ := considered hvector hkeyword existing candidates last
    have hfac := (sound_walkOf hvector hkeyword existing candidates).faces
    rw [hrun, facesOf, promotions, filterMap_append, map_append, ← append_assoc, ← promotions,
      ← facesOf]
    rcases mem_append.mp h with hmem | hlast
    · obtain ⟨face, hface, hmatch⟩ := ih hmem
      exact ⟨face, mem_append_left _ hface, hmatch⟩
    · obtain rfl := mem_singleton.mp hlast
      cases hstep with
      | skip gate =>
        rw [hgate] at gate
        cases gate
      | reinforce hit target gate found place =>
        obtain ⟨node, hnode, hmatch⟩ :=
          (findMatch_spec hvector hkeyword).1.mp (by rw [found]; rfl)
        have hface := mem_map_of_mem (f := (·.face)) hnode
        rw [hfac] at hface
        exact ⟨node.face, mem_append_left _ hface, hmatch⟩
      | promote rid negative gate apart =>
        exact ⟨shadowFace o candidate, mem_append_right _ (mem_singleton_self _),
          .inl (decide_eq_true ⟨rfl, rfl⟩)⟩

lemma promotions_eq_nil (h : ∀ candidate ∈ candidates, o.isPromotable candidate.type = true →
      ∃ face ∈ (existing.map (shadowOf o)).map (·.face), Matches o candidate face) :
    promotions (runPromotionEngine o candidates existing) = [] := by
  induction candidates using reverseRecOn with
  | nil => rfl
  | append_singleton candidates candidate ih =>
    obtain ⟨decision, _, hrun, -, hstep⟩ :=
      considered hvector hkeyword existing candidates candidate
    have hnone := ih fun c hc => h c (mem_append_left _ hc)
    have hfac := (sound_walkOf hvector hkeyword existing candidates).faces
    rw [facesOf, hnone, map_nil, append_nil] at hfac
    rw [hrun, promotions, filterMap_append, ← promotions, hnone, nil_append]
    cases hstep with
    | skip gate => rfl
    | reinforce hit target gate found place => rfl
    | promote rid negative gate apart =>
      obtain ⟨face, hface, hmatch⟩ := h candidate (by simp) gate
      rw [← hfac] at hface
      obtain ⟨node, hnode, rfl⟩ := mem_map.mp hface
      exact absurd hmatch (apart node hnode)

lemma matchesGiven_iff : MatchesGiven o candidates existing ↔
    ∀ decision ∈ runPromotionEngine o candidates existing, ∀ index,
      decision.reinforces index = true → index < existing.length := by
  induction candidates using reverseRecOn with
  | nil => simp [MatchesGiven, runPromotionEngine, walkOf]
  | append_singleton candidates candidate ih =>
    obtain ⟨decision, _, hrun, -, hstep⟩ :=
      considered hvector hkeyword existing candidates candidate
    have hlast : (∀ index, decision.reinforces index = true → index < existing.length) ↔
        ∀ hit, o.isPromotable candidate.type = true → findMatch o candidate (keywordsOf o candidate)
            (walkOf o existing candidates).existingShadow = some hit →
              hit.index < existing.length := by
      cases hstep with
      | skip gate => simp [PromotionDecision.reinforces, gate]
      | reinforce hit target gate found place =>
        simp [PromotionDecision.reinforces, gate, found]
      | promote rid negative gate apart =>
        simp [PromotionDecision.reinforces, (findMatch_eq_none hvector hkeyword).mpr apart]
    rw [hrun, forall_mem_append, forall_mem_singleton, ← ih, hlast]
    constructor
    · intro h
      constructor
      · rintro before c after hit rfl
        exact h before c (after ++ [candidate]) hit (by simp)
      · intro hit
        exact h candidates candidate [] hit rfl
    · rintro ⟨hearl, hlast⟩ before c after hit hspl
      rcases eq_nil_or_concat after with rfl | ⟨after, last, rfl⟩
      · obtain ⟨rfl, hc⟩ := append_inj' hspl rfl
        obtain rfl := singleton_inj.mp hc
        exact hlast hit
      · rw [concat_eq_append, ← cons_append, ← append_assoc] at hspl
        exact hearl before c after hit (append_inj' hspl rfl).1

end

/-- A batch collapses onto the nodes that are given where no candidate is closest to one that
was promoted before it. -/
theorem collapses_iff (hvector : o.zero < o.vectorThreshold) (hkeyword : o.zero < o.keywordThreshold)
    (hrids : ∀ node ∈ existing, 0 ≤ node.rid) :
    Collapses o candidates existing ↔ MatchesGiven o candidates existing := by
  have hsound := sound_walkOf hvector hkeyword existing candidates
  rw [matchesGiven_iff hvector hkeyword]
  constructor
  · intro h decision hdec index hind
    obtain ⟨before, after, hspl⟩ := append_of_mem hdec
    cases decision with
    | promote candidate => cases hind
    | skip candidate => cases hind
    | reinforce candidate target rid kind count =>
      obtain rfl : target = index := of_decide_eq_true hind
      obtain ⟨place, node, hnode, rfl, -⟩ := h.onto _ _ _ _ _ _ _ hspl
      by_contra hfar
      obtain ⟨given, -, hneg, -⟩ := hsound.told _ _ _ _ _ _ _ hspl
      have hrid := hrids node (mem_of_getElem? hnode)
      have hless := hneg (not_lt.mp hfar)
      omega
  · intro h
    constructor
    · exact decided hvector hkeyword existing candidates
    · refine hsound.apart.imp fun {earlier later} hapart rid => ?_
      exact (findMatch_eq_none hvector hkeyword).mpr (forall_mem_singleton.mpr hapart)
    · intro before candidate index rid kind count after hspl
      have hmem : PromotionDecision.reinforce candidate index rid kind count ∈
          runPromotionEngine o candidates existing := by
        rw [hspl]
        simp
      have hlt := h _ hmem index (decide_eq_true rfl)
      have hnode := getElem?_eq_getElem hlt
      obtain ⟨given, rfl, -, hrow⟩ := hsound.told _ _ _ _ _ _ _ hspl
      exact ⟨index, _, hnode, (hrow _ hnode).1, congrArg (· + 1) (hrow _ hnode).2⟩
    · intro added hadd
      apply promotions_eq_nil hvector hkeyword
      intro candidate hcandidate hgate
      obtain ⟨face, hface, hmatch⟩ :=
        exists_face hvector hkeyword existing hcandidate hgate
      refine ⟨face, ?_, hmatch⟩
      have hfac : ((added.map fun entry => asNode entry.1 entry.2).map (shadowOf o)).map
          (·.face) = (added.map Prod.fst).map (shadowFace o) := by
        simp only [map_map]
        rfl
      rw [map_append, map_append, hfac, hadd]
      exact hface

/-- Texts match where they are the same. -/
def plain : Setting ℤ ℤ :=
  ⟨fun _ => true, 1, 1, 0, -1, by decide, id, fun _ => [], fun _ _ => none, fun _ _ => none⟩

def aFix : PromotionCandidate ℤ := ⟨"fix".toList, "a".toList, none, none, none⟩

theorem collapses_one :
    Collapses plain [aFix] [asNode aFix 0] ↔ MatchesGiven plain [aFix] [asNode aFix 0] :=
  collapses_iff (by decide) (by decide) (by decide)

/-- The second of two equal candidates reinforces a number of no node. -/
theorem equal_candidates : ¬ Collapses plain [aFix, aFix] [] := by
  intro h
  obtain ⟨place, node, hnode, -⟩ := h.onto [.promote aFix] aFix 0 (-2) .exact 1 [] rfl
  cases hnode

end Redskilled.Memory.PromotionEngine
