import OpenPCC.Router.Proof.RoutingSet

/-!
# Evaluations that panic

The loop of `Stats` counts the successes and the failures at the end of a window (`stats_eq`), so an
accepted grader grades the histories of healthy nodes as OK (`grade_eq_ok_iff`). The evaluator
dereferences the agent for these alone. It panics if and only if a healthy node has no agent
(`gradedNodeEvaluator_eq_panic_iff`), which a router reaches by health checks that are gossiped.
-/

namespace Router

open Go

/-! ## Statistics -/

/-- The loop counts failures as long as it has seen no success. -/
theorem foldl_count (checks : List Check) (stats : HistoryStats) (failStreak : Bool) :
    (checks.foldl HistoryStats.count (stats, failStreak)).1 =
      { stats with
        successes := stats.successes + checks.countP (·.isSuccessful)
        currentFailureStreak := stats.currentFailureStreak +
          if failStreak then (checks.takeWhile (!·.isSuccessful)).length else 0 } := by
  induction checks generalizing stats failStreak with
  | nil => cases failStreak <;> rfl
  | cons c checks ih =>
    rw [List.foldl_cons]
    cases hc : c.isSuccessful with
    | true =>
      have hcount : HistoryStats.count (stats, failStreak) c =
          ({ stats with successes := stats.successes + 1 }, false) := by
        simp [HistoryStats.count, hc]
      rw [hcount, ih, List.countP_cons_of_pos hc, List.takeWhile_cons_of_neg (by simp [hc])]
      simp only [Bool.false_eq_true, if_false, List.length_nil, ite_self]
      rw [Nat.add_assoc, Nat.add_comm 1]
    | false =>
      rw [List.countP_cons_of_neg (by simp [hc]), List.takeWhile_cons_of_pos (by simp [hc])]
      cases failStreak with
      | true =>
        have hcount : HistoryStats.count (stats, true) c =
            ({ stats with currentFailureStreak := stats.currentFailureStreak + 1 }, true) := by
          simp [HistoryStats.count, hc]
        rw [hcount, ih]
        simp only [if_true, List.length_cons]
        rw [Nat.add_assoc, Nat.add_comm 1]
      | false =>
        have hcount : HistoryStats.count (stats, false) c = (stats, false) := by
          simp [HistoryStats.count, hc]
        rw [hcount, ih]
        rfl

theorem stats_eq (h : History) :
    h.stats =
      ⟨h.length, h.countP (·.isSuccessful), (h.reverse.takeWhile (!·.isSuccessful)).length⟩ := by
  rw [History.stats, foldl_count]
  simp

/-! ## Grading -/

theorem minChecks_pos {cfg : GraderConfig} {g : Grader} (h : newGrader cfg = .ok g) :
    0 < g.cfg.minChecks := by
  rw [newGrader] at h
  split at h
  · cases h
  · next hchecks =>
    have hcfg : g.cfg = cfg := by
      repeat' split at h
      all_goals cases h
      rfl
    rw [hcfg]
    omega

theorem float64Less_eq_false_iff {rate : Rat} {minimum : Option Rat} :
    float64Less (some rate) minimum = false ↔ ∀ q, minimum = some q → q ≤ rate := by
  cases minimum with
  | none => simp [float64Less]
  | some q => simp [float64Less]

/-- A grader with at least one check gives OK to the histories of healthy nodes. -/
theorem grade_eq_ok_iff {g : Grader} (hpos : 0 < g.cfg.minChecks) {now : Time} {history : History} :
    g.grade now history = .ok ↔ g.Healthy now history := by
  simp only [Grader.grade, stats_eq, HistoryStats.successRate]
  constructor
  · intro h
    split at h
    · cases h
    next hchecks =>
    split at h
    · cases h
    next hstreak =>
    refine ⟨not_lt.1 hchecks, fun hmax => ?_, fun minimum hminimum hne => ?_⟩
    · exact not_le.1 fun hge => hstreak ⟨hmax, hge⟩
    · have hrate : g.cfg.minSuccessRate ≠ some 0 := by
        rw [hminimum]
        exact fun heq => hne (Option.some.inj heq)
      rw [if_pos hrate] at h
      split at h
      · cases h
      next rate hsome =>
      split at h
      · cases h
      next hless =>
      rw [Bool.not_eq_true, float64Less_eq_false_iff] at hless
      split at hsome
      · cases hsome
      · cases hsome
        exact hless minimum hminimum
  · intro h
    have hlen : (history.after (now - g.cfg.maxAge)).length ≠ 0 := by
      have := h.checks
      omega
    rw [if_neg (not_lt.2 h.checks), if_neg fun hand => not_le.2 (h.streak hand.1) hand.2,
      if_neg hlen]
    split
    · next hrate =>
      have hless : float64Less
          (some (float64 (float64
            ((history.after (now - g.cfg.maxAge)).countP (·.isSuccessful) : Int) /
              float64 ((history.after (now - g.cfg.maxAge)).length : Int))))
          g.cfg.minSuccessRate = false := by
        refine float64Less_eq_false_iff.2 fun minimum hminimum => ?_
        refine h.rate minimum hminimum fun hzero => hrate ?_
        rw [hminimum, hzero]
      simp only [hless, Bool.false_eq_true, if_false]
    · rfl

/-! ## The evaluator -/

theorem gradedNodeEvaluator_eq_panic_iff {g : Grader} (hpos : 0 < g.cfg.minChecks) {interval : Int}
    {t : Clocks} {a : Option Agent} {nh : Option NodeHealth} :
    gradedNodeEvaluator g interval t a nh = .panic ↔ g.Orphaned t.graderNow a nh := by
  rw [gradedNodeEvaluator, Grader.Orphaned]
  cases a with
  | some agent =>
    refine iff_of_false ?_ (by simp)
    repeat' split
    all_goals simp [Outcome.deref]
  | none =>
    cases nh with
    | none => simp
    | some h =>
      simp only [Option.isNone_none, Option.isNone_some, Bool.false_eq_true, and_false, if_false,
        Option.any_none, Option.map_some, Option.getD_some, true_and, Option.some.injEq,
        exists_eq_left', ← grade_eq_ok_iff hpos]
      cases g.grade t.graderNow h.history <;> simp [Outcome.deref]

theorem gradedNodeEvaluator_ne_err (g : Grader) (interval : Int) (t : Clocks) (a : Option Agent)
    (nh : Option NodeHealth) (e : Err) : gradedNodeEvaluator g interval t a nh ≠ .err e := by
  rw [gradedNodeEvaluator]
  repeat' split
  all_goals cases a <;> simp [Outcome.deref]

theorem noPanic_gradedNodeEvaluator_iff {g : Grader} (hpos : 0 < g.cfg.minChecks) {interval : Int}
    {t : Clocks} {a : Option Agent} {nh : Option NodeHealth} :
    Outcome.NoPanic (gradedNodeEvaluator g interval t a nh) ↔ ¬ g.Orphaned t.graderNow a nh := by
  rw [Outcome.NoPanic, ne_eq, gradedNodeEvaluator_eq_panic_iff hpos]

theorem safeEvaluation_iff {g : Grader} (hpos : 0 < g.cfg.minChecks) {interval : Int} {t : Clocks}
    {a : Option Agent} {nh : Option NodeHealth} :
    SafeEvaluation g interval t a nh ↔ ¬ g.Orphaned t.graderNow a nh := by
  constructor
  · rintro ⟨info, next, hok, -⟩ horphaned
    cases hok.symm.trans ((gradedNodeEvaluator_eq_panic_iff hpos).2 horphaned)
  · intro hknown
    cases hresult : gradedNodeEvaluator g interval t a nh with
    | panic => exact absurd ((gradedNodeEvaluator_eq_panic_iff hpos).1 hresult) hknown
    | err e => exact absurd hresult (gradedNodeEvaluator_ne_err g interval t a nh e)
    | ok r =>
      refine ⟨r.1, r.2, hresult, fun info hinfo => ?_⟩
      obtain rfl | rfl | ⟨agent, hagent, -, rfl⟩ := gradedNodeEvaluator_cases hresult
      · cases hinfo
      · cases hinfo
      · exact ⟨agent, hagent, hinfo⟩

/-! ## Runs -/

theorem gradedStep_eq_ok_iff_knowsAgents {g : Grader} (hpos : 0 < g.cfg.minChecks) {interval : Int}
    {m m' : Manager} {x : GradedAct} :
    m.gradedStep g interval x = .ok m' ↔ m.KnowsAgents g x ∧ m.step (x.act g interval) = m' := by
  have hreturns : x.returns g interval (m.merge x.op).1 = true ↔ m.KnowsAgents g x := by
    rw [GradedAct.returns, List.all_eq_true, Manager.KnowsAgents]
    refine forall₂_congr fun id _ => ?_
    rw [decide_eq_true_iff, noPanic_gradedNodeEvaluator_iff hpos]
  rw [gradedStep_eq_ok_iff, hreturns]

theorem foldlM_gradedStep_iff {g : Grader} (hpos : 0 < g.cfg.minChecks) {interval : Int}
    (acts : List GradedAct) (m : Manager) :
    (∃ m', acts.foldlM (Manager.gradedStep g interval) m = .ok m') ↔
      Trace.Along (fun m x => m.step (x.act g interval)) (Manager.KnowsAgents g) m acts := by
  induction acts generalizing m with
  | nil => exact iff_of_true ⟨m, rfl⟩ trivial
  | cons x acts ih =>
    rw [Trace.Along, ← ih, List.foldlM_cons]
    simp only [Outcome.bind_eq_ok, gradedStep_eq_ok_iff_knowsAgents hpos]
    constructor
    · rintro ⟨m', m₁, ⟨hknown, rfl⟩, hrest⟩
      exact ⟨hknown, m', hrest⟩
    · rintro ⟨hknown, m', hrest⟩
      exact ⟨m', _, ⟨hknown, rfl⟩, hrest⟩

/-- An evaluation of an accepted grader is safe if and only if it is not of a healthy node without
an agent. A run of a router returns from all of them if and only if no step comes to one. -/
theorem evaluation_safe_iff {cfg : GraderConfig} {g : Grader} (hg : newGrader cfg = .ok g)
    (interval : Int) :
    (∀ t a nh, SafeEvaluation g interval t a nh ↔ ¬ g.Orphaned t.graderNow a nh) ∧
    ∀ (m : Manager) (acts : List GradedAct),
      (∃ m', acts.foldlM (Manager.gradedStep g interval) m = .ok m') ↔
        Trace.Along (fun m x => m.step (x.act g interval)) (Manager.KnowsAgents g) m acts := by
  have hpos := minChecks_pos hg
  exact ⟨fun t a nh => safeEvaluation_iff hpos, fun m acts => foldlM_gradedStep_iff hpos acts m⟩

def gossipedCheck (timestamp : Time) : Check := ⟨1, [], 0, timestamp, 0, 200, []⟩

def gossipedHealth : NodeHealth := ⟨[gossipedCheck 10, gossipedCheck 11, gossipedCheck 12]⟩

/-- With its agent, the healthy node is routed to. -/
theorem evaluation_safe_iff_agent :
    let agent : Agent := ⟨1, 10, some nodeInfo, none⟩
    newGrader {} = .ok ⟨{}⟩ ∧
      SafeEvaluation ⟨{}⟩ 5 ⟨20, 20⟩ (some agent) (some gossipedHealth) := by
  intro agent
  refine ⟨newGrader_default, ((evaluation_safe_iff newGrader_default 5).1 _ _ _).2 ?_⟩
  rintro ⟨hnone, -⟩
  cases hnone

/-- A check of a node of which no heartbeat has arrived. -/
def gossipAct (timestamp : Time) : GradedAct :=
  ⟨.mergeHealthcheck (gossipedCheck timestamp), fun _ => ⟨20, 20⟩, [1]⟩

/-- The state of a router with the default grader after the checks. -/
def gossipedState (timestamps : List Time) : Manager :=
  timestamps.foldl (fun m t => m.step ((gossipAct t).act ⟨{}⟩ 5)) {}

/-- Two checks of a node without an agent are too few to grade it, and the third one is the end of
the router. -/
theorem gossiped_checks_panic :
    newGrader {} = .ok ⟨{}⟩ ∧ (gossipedState [10, 11]).GradedReachable ⟨{}⟩ 5 ∧
      (gossipedState [10, 11]).Enabled ((gossipAct 12).act ⟨{}⟩ 5) ∧
      (gossipedState [10, 11]).gradedStep ⟨{}⟩ 5 (gossipAct 12) = .panic ∧
      gradedNodeEvaluator ⟨{}⟩ 5 ⟨20, 20⟩ none (some gossipedHealth) = .panic := by
  have hfirst : (gossipedState [10]).GradedReachable ⟨{}⟩ 5 := by
    refine .step (x := gossipAct 10) .init (by decide +kernel) (gradedStep_eq_ok_iff.2 ⟨?_, rfl⟩)
    decide +kernel
  have hsecond : (gossipedState [10, 11]).GradedReachable ⟨{}⟩ 5 := by
    refine .step (x := gossipAct 11) hfirst (by decide +kernel) (gradedStep_eq_ok_iff.2 ⟨?_, rfl⟩)
    decide +kernel
  exact ⟨newGrader_default, hsecond, by decide +kernel, by decide +kernel, by decide +kernel⟩

end Router
