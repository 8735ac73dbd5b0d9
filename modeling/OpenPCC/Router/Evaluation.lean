import OpenPCC.Router.Manager

/-!
# Graded evaluation and the routing set

The router's own evaluator grades the health checks of a node over a window of time and routes to
the nodes that are graded well. It dereferences the agent of a healthy node without a check, so an
evaluation can panic; a step in which one does leaves no state behind. The routing set is what the
manager's updates add up to.
-/

namespace Router

open Go

/-! ## Grading -/

inductive Status where
  | ok | unavailable | unknown
  deriving DecidableEq, Repr

/-- The success rate is a `float64`, and `none` if it is NaN. An infinite one is rejected like any
other number that is out of range. -/
structure GraderConfig where
  minChecks : Int := 3
  minSuccessRate : Option Rat := some (float64 (9 / 10))
  maxRecentFailureStreak : Int := 3
  maxAge : Int := 15 * 60 * 1000000000
  deriving DecidableEq, Repr

structure Grader where
  cfg : GraderConfig
  deriving DecidableEq, Repr

/-- The defaults above are those of `DefaultGraderConfig`. A rate is left out of an error's
arguments. -/
def newGrader (cfg : GraderConfig) : Except Err Grader :=
  if cfg.minChecks ≤ 0 then
    .error (.new "min checks must be at least 1, got %d" [.int cfg.minChecks])
  else if float64Less cfg.minSuccessRate (some 0) ∨ float64Less (some 1) cfg.minSuccessRate then
    .error (.new "unavailable threshold needs to be between 0 and 1, got %v" [])
  else if cfg.maxRecentFailureStreak < 0 then
    .error (.new "max failure streak needs to be at least 0, got %v"
      [.int cfg.maxRecentFailureStreak])
  else if cfg.maxAge ≤ 0 then
    .error (.new "needs a max age, got %v" [.int cfg.maxAge])
  else if cfg.maxRecentFailureStreak = 0 ∧ cfg.minSuccessRate = some 0 then
    .error (.new
      "needs a failure condition, both max failure streak and unavailable threshold are zero" [])
  else .ok ⟨cfg⟩

theorem newGrader_default : newGrader {} = .ok ⟨{}⟩ := by
  decide +kernel

namespace Grader

variable (g : Grader)

def maxAge : Int := g.cfg.maxAge

/-- `Grade`, at the time `now`. -/
def grade (now : Time) (history : History) : Status :=
  let window := history.after (now - g.cfg.maxAge)
  if window.length < g.cfg.minChecks then .unknown
  else
    let stats := window.stats
    if g.cfg.maxRecentFailureStreak ≠ 0 ∧
        stats.currentFailureStreak ≥ g.cfg.maxRecentFailureStreak then .unavailable
    else if g.cfg.minSuccessRate ≠ some 0 then
      match stats.successRate with
      | none => .unknown
      | some rate => if float64Less (some rate) g.cfg.minSuccessRate then .unavailable else .ok
    else .ok

/-- The history is that of a healthy node: the window has enough checks, it does not end with too
many failures, and the share of successes is not below the rate. -/
structure Healthy (now : Time) (history : History) : Prop where
  checks : g.cfg.minChecks ≤ (history.after (now - g.cfg.maxAge)).length
  streak : g.cfg.maxRecentFailureStreak ≠ 0 →
    (((history.after (now - g.cfg.maxAge)).reverse.takeWhile (!·.isSuccessful)).length : Int) <
      g.cfg.maxRecentFailureStreak
  rate : ∀ minimum, g.cfg.minSuccessRate = some minimum → minimum ≠ 0 →
    minimum ≤ float64
      (float64 ((history.after (now - g.cfg.maxAge)).countP (·.isSuccessful) : Int) /
        float64 ((history.after (now - g.cfg.maxAge)).length : Int))

end Grader

/-! ## The evaluator -/

/-- What the clocks show at one evaluation: `time.Now` and the grader's `NowFunc`. -/
structure Clocks where
  now : Time
  graderNow : Time
  deriving DecidableEq, Repr

/-- `GradedNodeEvaluator`. -/
def gradedNodeEvaluator (g : Grader) (interval : Int) (t : Clocks) (a : Option Agent)
    (nh : Option NodeHealth) : Outcome (Option RoutingInfo × Option Int) :=
  if a.isNone ∧ nh.isNone then .ok (none, none)
  else if a.any (·.shutdownAt.isSome) then .ok (none, none)
  else if a.any (·.lastEventTimestamp < t.now - g.maxAge) then .ok (none, none)
  else
    match g.grade t.graderNow ((nh.map (·.history)).getD []) with
    | .ok => do
      -- the agent may be nil: a node can be known by its health checks alone
      let a ← .deref a
      return (a.routingInfo, some interval)
    | .unknown => .ok (none, some interval)
    | .unavailable => .ok (none, none)

/-- An evaluation that returns evicts the node, keeps it, or routes to its running agent. -/
theorem gradedNodeEvaluator_cases {g : Grader} {interval : Int} {t : Clocks} {a : Option Agent}
    {nh : Option NodeHealth} {r : Option RoutingInfo × Option Int}
    (h : gradedNodeEvaluator g interval t a nh = .ok r) :
    r = (none, none) ∨ r = (none, some interval) ∨
      ∃ agent, a = some agent ∧ agent.shutdownAt = none ∧
        r = (agent.routingInfo, some interval) := by
  rw [gradedNodeEvaluator] at h
  split at h
  · exact .inl (by cases h; rfl)
  · split at h
    · exact .inl (by cases h; rfl)
    · next hrunning =>
      split at h
      · exact .inl (by cases h; rfl)
      · split at h
        · obtain ⟨agent, hagent, hret⟩ := Outcome.bind_eq_ok.1 h
          rw [Outcome.deref_eq_ok] at hagent
          subst hagent
          refine .inr (.inr ⟨agent, rfl, ?_, by cases hret; rfl⟩)
          simpa using hrunning
        · exact .inr (.inl (by cases h; rfl))
        · exact .inl (by cases h; rfl)

/-- The evaluation returns, and routing info only if it is that of an agent. -/
def SafeEvaluation (g : Grader) (interval : Int) (t : Clocks) (a : Option Agent)
    (nh : Option NodeHealth) : Prop :=
  ∃ info next, gradedNodeEvaluator g interval t a nh = .ok (info, next) ∧
    ∀ i, info = some i → ∃ agent, a = some agent ∧ agent.routingInfo = some i

/-- A healthy node of which no agent is known. -/
def Grader.Orphaned (g : Grader) (now : Time) (a : Option Agent) (nh : Option NodeHealth) : Prop :=
  a = none ∧ ∃ h, nh = some h ∧ g.Healthy now h.history

/-- The evaluator where it returns. -/
def gradedEvaluator (g : Grader) (interval : Int) (t : Clocks) : NodeEvaluator where
  evaluate a nh :=
    match gradedNodeEvaluator g interval t a nh with
    | .ok r => r
    | _ => (none, none)
  info_nil a nh := by
    split
    · next r h =>
      obtain rfl | rfl | ⟨agent, -, -, rfl⟩ := gradedNodeEvaluator_cases h
      · intro _
        rfl
      · intro _
        rfl
      · intro hnext
        cases hnext
    · intro _
      rfl
  evicts_absent := rfl

/-! ## The routing set -/

abbrev RoutingSet := AList fun _ : UUID => RoutingInfo

/-- `routingSet.Update`: the additions first, then the deletions. -/
def RoutingSet.update (nodes : RoutingSet) (u : RoutingUpdate) : RoutingSet :=
  u.deletes.foldl (fun nodes id => nodes.erase id) (u.adds ∪ nodes)

/-- The routing set after all calls of `Update`. -/
def Manager.routingSet (m : Manager) : RoutingSet :=
  m.updates.foldr (fun u nodes => RoutingSet.update nodes u) ∅

/-- Every node in the routing set has a running agent with that routing info. -/
def Manager.Sound (m : Manager) : Prop :=
  ∀ id info, m.routingSet.lookup id = some info →
    ∃ agent, m.state.agents.lookup id = some agent ∧ agent.routingInfo = some info ∧
      agent.shutdownAt = none

/-! ## Runs -/

/-- An operation with what the clocks show at the evaluations, and their order. -/
structure GradedAct where
  op : Op
  clocks : UUID → Clocks
  order : List UUID

/-- The act with the evaluator's answers where they are given. -/
def GradedAct.act (g : Grader) (interval : Int) (x : GradedAct) : Act :=
  ⟨x.op, fun id => gradedEvaluator g interval (x.clocks id), x.order⟩

/-- The nodes that are evaluated. -/
def GradedAct.visited (x : GradedAct) : List UUID :=
  match x.op with
  | .background nodeID => [nodeID]
  | _ => x.order

/-- No evaluation panics, in the state `s`. -/
def GradedAct.returns (g : Grader) (interval : Int) (x : GradedAct) (s : RouterState) : Bool :=
  x.visited.all fun id => decide (Outcome.NoPanic (gradedNodeEvaluator g interval (x.clocks id)
    (s.agents.lookup id) (s.health.lookup id)))

/-- A step of a manager with the graded evaluator; it panics if an evaluation does. Evaluations of
other nodes do not change what is known of a node, so each sees the state after the merge. -/
def Manager.gradedStep (g : Grader) (interval : Int) (m : Manager) (x : GradedAct) :
    Outcome Manager :=
  if x.returns g interval (m.merge x.op).1 then .ok (m.step (x.act g interval)) else .panic

/-- The nodes that are evaluated after the merge have agents, if they are healthy. -/
def Manager.KnowsAgents (g : Grader) (m : Manager) (x : GradedAct) : Prop :=
  ∀ id ∈ x.visited, ¬ g.Orphaned (x.clocks id).graderNow ((m.merge x.op).1.agents.lookup id)
    ((m.merge x.op).1.health.lookup id)

/-- The states after the completed steps of a run. -/
inductive Manager.GradedReachable (g : Grader) (interval : Int) : Manager → Prop
  | init : GradedReachable g interval {}
  | step {m m' : Manager} {x : GradedAct} (hm : GradedReachable g interval m)
      (he : m.Enabled (x.act g interval)) (hstep : m.gradedStep g interval x = .ok m') :
      GradedReachable g interval m'

end Router
