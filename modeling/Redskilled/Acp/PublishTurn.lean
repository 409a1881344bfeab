import Mathlib.Data.List.Induction

/-!
# Publication at the end of a turn

The publisher of `packages/worker/src/acp/publish-request.ts`. At the end of a prompt turn it
reads the branch and the commit of the Worktree and asks the parent to publish them. It
remembers the commit it asked for last, and does so before the parent has answered.
-/
namespace Redskilled.Acp.PublishTurn

structure WorkerPublication where
  branch : String
  commit : String

structure WorkerPublisherOptions where
  idempotencyScope : String
  /-- The commit the Worktree held before the implementer ran. -/
  baselineCommit : Option String
  publishRef : Option String

structure RedskilledPublishRequest where
  idempotencyKey : String
  branch : String
  commit : String

inductive WorkerPublishOutcome where
  | requested (publication : WorkerPublication) (receipt : String)
  | refused (publication : WorkerPublication) (detail : String)

/-- How the world answers one call. -/
structure Turn where
  readPublication : Except String (Option WorkerPublication)
  updateRef : Except String Unit
  request : Except String String

/-- A call that is over. -/
structure Call where
  turn : Turn
  outcome : Option WorkerPublishOutcome
  request : Option RedskilledPublishRequest

/-- The publisher, and the calls so far, oldest first. -/
structure WorkerPublisher where
  published : Option String
  calls : List Call

variable (options : WorkerPublisherOptions)

def publicationOf (turn : Turn) : Option WorkerPublication :=
  match turn.readPublication with
  | .error _ => none
  | .ok none => none
  | .ok (some here) =>
    match options.publishRef with
    | none => some here
    | some ref => some { here with branch := ref }

def unanchored (turn : Turn) : Option String :=
  match options.publishRef, turn.updateRef with
  | some ref, .error _ => some ref
  | _, _ => none

def requestOf (publication : WorkerPublication) : RedskilledPublishRequest where
  idempotencyKey := options.idempotencyScope ++ ":" ++ publication.commit
  branch := publication.branch
  commit := publication.commit

def outcomeOf (publication : WorkerPublication) : Except String String → WorkerPublishOutcome
  | .ok receipt => .requested publication receipt
  | .error detail => .refused publication detail

def publishTurn (published : Option String) (turn : Turn) : Option String × Call :=
  match publicationOf options turn with
  | none => (published, ⟨turn, none, none⟩)
  | some publication =>
    if some publication.commit = published then (published, ⟨turn, none, none⟩)
    else
      match unanchored options turn with
      | some ref =>
        (published, ⟨turn, some (.refused publication
          ("the Worktree refused to anchor " ++ ref ++ " at " ++ publication.commit)), none⟩)
      | none =>
        (some publication.commit, ⟨turn, some (outcomeOf publication turn.request),
          some (requestOf options publication)⟩)

def createWorkerPublisher : WorkerPublisher := ⟨options.baselineCommit, []⟩

def WorkerPublisher.call (publisher : WorkerPublisher) (turn : Turn) : WorkerPublisher where
  published := (publishTurn options publisher.published turn).1
  calls := publisher.calls ++ [(publishTurn options publisher.published turn).2]

def run (turns : List Turn) : WorkerPublisher :=
  turns.foldl (WorkerPublisher.call options) (createWorkerPublisher options)

def Answered (calls : List Call) (commit : String) : Prop :=
  ∃ call ∈ calls, call.request.map (·.commit) = some commit ∧
    ∃ receipt, call.turn.request = .ok receipt

/-- A call that says nothing had nothing to say, and none asks for what was answered. -/
def Sound (earlier : List Call) (call : Call) : Prop :=
  (call.outcome = none → ∀ publication, publicationOf options call.turn = some publication →
    options.baselineCommit = some publication.commit ∨ Answered earlier publication.commit) ∧
  ∀ request, call.request = some request → ¬ Answered earlier request.commit

/-- Every call of the sequence is sound. -/
def PublishesAll (turns : List Turn) : Prop :=
  ∀ before turn after, turns = before ++ turn :: after → Sound options (run options before).calls
      (publishTurn options (run options before).published turn).2

/-- The commit of the last request, the baseline before there is one. -/
def lastAsked (calls : List Call) : Option String :=
  calls.foldl (fun last call => (call.request.map (·.commit)).or last) options.baselineCommit

/-- The commit asked for last was answered, unless it is the baseline, and any other that was
answered is kept from being asked for by its ref. -/
def Settled (calls : List Call) (turn : Turn) : Prop :=
  ∀ publication, publicationOf options turn = some publication →
    if lastAsked options calls = some publication.commit then
      options.baselineCommit = some publication.commit ∨ Answered calls publication.commit
    else unanchored options turn = none → ¬ Answered calls publication.commit

variable {options} {turn : Turn} {calls : List Call} {published : Option String}

lemma remembered (published : Option String) (turn : Turn) :
    (publishTurn options published turn).1 =
      ((publishTurn options published turn).2.request.map (·.commit)).or published := by
  unfold publishTurn
  split
  · rfl
  · split_ifs
    · rfl
    · split <;> rfl

lemma published_run (turns : List Turn) :
    (run options turns).published = lastAsked options (run options turns).calls := by
  induction turns using List.reverseRecOn with
  | nil => rfl
  | append_singleton turns turn ih =>
    rw [run, List.foldl_append, ← run]
    simp only [List.foldl_cons, List.foldl_nil, WorkerPublisher.call, lastAsked, List.foldl_append]
    rw [← lastAsked, ← ih]
    exact remembered _ _

lemma sound_iff_published (h : published = lastAsked options calls) :
    Sound options calls (publishTurn options published turn).2 ↔ Settled options calls turn := by
  subst h
  unfold Sound Settled publishTurn
  cases hread : publicationOf options turn with
  | none => simp [hread]
  | some publication =>
    by_cases hlast : lastAsked options calls = some publication.commit
    · simp [hread, hlast]
    · cases hanchor : unanchored options turn with
      | some ref => simp [hlast, Ne.symm hlast]
      | none => simp [hlast, Ne.symm hlast, requestOf]

/-- A sequence of calls publishes everything, and nothing twice, exactly where each turn finds
what came before it settled. -/
theorem publishesAll_iff (options : WorkerPublisherOptions) (turns : List Turn) :
    PublishesAll options turns ↔ ∀ before turn after, turns = before ++ turn :: after →
      Settled options (run options before).calls turn := by
  constructor
  · intro h before turn after hturns
    exact (sound_iff_published (published_run before)).mp (h before turn after hturns)
  · intro h before turn after hturns
    exact (sound_iff_published (published_run before)).mpr (h before turn after hturns)

/-- The parent is out of reach for one turn, and the next finds the same commit. -/
theorem failed_request_silences :
    ¬ ∀ (options : WorkerPublisherOptions) (turns : List Turn), PublishesAll options turns := by
  intro h
  let turn : Turn := ⟨.ok (some ⟨"topic", "b"⟩), .ok (), .error "unreachable"⟩
  have hsound := h ⟨"worker", some "a", none⟩ [turn, turn] [turn] turn [] rfl
  rcases hsound.1 rfl ⟨"topic", "b"⟩ rfl with hbase | ⟨call, hcall, -, receipt, hrec⟩
  · simp at hbase
  · cases List.mem_singleton.mp hcall
    cases hrec

end Redskilled.Acp.PublishTurn
