import MartyCore.Flow.Validate

/-!
# `Flow.Run` — driving a flow with the next-step selector

The caller of `selectNextStep` keeps a current step, asks for the next one under each outcome it observes and
moves there when it gets one. `answers` is that run: one call per outcome, each with its own hash-map order,
the current step moving on `Ok(Some(next))` and staying otherwise.

On a well-formed request the selector is a partial function on declared steps (`selectNextStep_of_wellFormed`),
so each answer is a `Step` of an acyclic relation: the steps of a run are strictly ordered by reachability
(`pairwise_visited`), hence never repeat and are fewer than the declared ones. On any other request every
call fails.
-/

namespace MartyCore.Flow

open Relation List

/-! ## One call -/

/-- The lookup the selector ends with. -/
def nextStep (r : FlowGraphRequest) (current : String) (outcome : TransitionOutcome) : Option String :=
  (r.transitions.find? (fun t => decide (t.decision = (current, outcome)))).map FlowGraphTransition.toStepId

variable {current next : String} {r : FlowGraphRequest}

theorem nextStep_step {outcome : TransitionOutcome}
    (h : nextStep r current outcome = some next) : Step r current next := by
  unfold nextStep at h
  rw [Option.map_eq_some_iff] at h
  obtain ⟨t, hfind, hto⟩ := h
  have hdec : t.decision = (current, outcome) := by
    simpa using find?_some hfind
  have hfrom : t.fromStepId = current := congrArg Prod.fst hdec
  exact ⟨t, mem_of_find?_eq_some hfind, hfrom, hto⟩

variable (outcome : TransitionOutcome)

/-- The selector's search asks for the transition's decision. -/
theorem find_eq_nextStep (r : FlowGraphRequest) (current : String) :
    (r.transitions.find? (fun t => t.fromStepId == current && t.outcome == outcome)).map
      FlowGraphTransition.toStepId = nextStep r current outcome := by
  congr 2
  funext t
  unfold FlowGraphTransition.decision
  rw [Bool.eq_iff_iff, Bool.and_eq_true, beq_iff_eq, beq_iff_eq, decide_eq_true_eq, Prod.mk.injEq]

theorem any_stepId_eq_false (r : FlowGraphRequest) (current : String) :
    r.steps.any (fun step => step.stepId == current) = false ↔ current ∉ r.stepIds := by
  unfold FlowGraphRequest.stepIds
  rw [← Bool.not_eq_true, any_eq_true, mem_map]
  simp only [beq_iff_eq]

/-- On a well-formed request the selector looks the decision up, from declared steps only. -/
theorem selectNextStep_of_wellFormed (hwf : WellFormed r)
    (order : IterationOrder (String × Nat)) (current : String) :
    selectNextStep order r current outcome =
      if current ∈ r.stepIds then .ok (nextStep r current outcome)
      else Exec.fail (.invalidGraph "current_step_id must reference a declared step") := by
  obtain ⟨d, hd⟩ := (validateGraph_decides order r).ok_iff.mpr hwf
  unfold selectNextStep
  rw [hd, Result.ok_bind, find_eq_nextStep]
  simp only [Exec.reject, Result.reject, any_stepId_eq_false]
  by_cases hmem : current ∈ r.stepIds
  · simp [hmem]
  · simp [hmem, Exec.fail]

/-- On any other request every call fails with the validator's error. -/
theorem selectNextStep_of_not_wellFormed (hwf : ¬ WellFormed r)
    (order : IterationOrder (String × Nat)) (current : String) :
    ∃ e, selectNextStep order r current outcome = .error (.err e) := by
  rcases validateGraph_decides order r with ⟨d, -, h, -⟩ | ⟨e, he, -⟩
  · exact absurd h hwf
  · refine ⟨e, ?_⟩
    unfold selectNextStep
    rw [he, Result.error_bind]

/-! ## Whole runs -/

/-- One call of a run: the outcome observed, and the hash-map order of that call. -/
structure Call where
  order : IterationOrder (String × Nat)
  outcome : TransitionOutcome

/-- The answers of a run from `current`; a returned step becomes the current one. -/
def answers (r : FlowGraphRequest) : String → List Call → List (Exec FlowError (Option String))
  | _, [] => []
  | current, call :: calls =>
    match selectNextStep call.order r current call.outcome with
    | .ok (some next) => .ok (some next) :: answers r next calls
    | answer => answer :: answers r current calls

/-- The steps among the answers. -/
def returned (as : List (Exec FlowError (Option String))) : List String :=
  as.filterMap (fun answer => match answer with
    | .ok next => next
    | .error _ => none)

section

variable {r : FlowGraphRequest} (hwf : WellFormed r)
include hwf

variable (calls : List Call)

theorem answers_cons {call : Call} (hcur : current ∈ r.stepIds) :
    answers r current (call :: calls) = .ok (nextStep r current call.outcome) ::
      answers r ((nextStep r current call.outcome).getD current) calls := by
  conv => lhs; unfold answers
  rw [selectNextStep_of_wellFormed _ hwf, if_pos hcur]
  cases nextStep r current call.outcome <;> rfl

theorem nextStep_declared {outcome : TransitionOutcome}
    (h : nextStep r current outcome = some next) : next ∈ r.stepIds := by
  obtain ⟨t, ht, -, rfl⟩ := nextStep_step h
  exact (hwf.ends_declared t ht).2

theorem nextStep_getD_declared (hcur : current ∈ r.stepIds) :
    (nextStep r current outcome).getD current ∈ r.stepIds := by
  cases hnext : nextStep r current outcome with
  | none => exact hcur
  | some next => exact nextStep_declared hwf hnext

/-- From a declared step no call of a run fails. -/
theorem answers_ok : ∀ current ∈ r.stepIds, ∀ answer ∈ answers r current calls, ∃ next, answer = .ok next := by
  induction calls with
  | nil => exact fun _ _ answer h => absurd h (not_mem_nil)
  | cons call calls ih =>
    intro current hcur answer hmem
    rw [answers_cons hwf calls hcur] at hmem
    rcases mem_cons.mp hmem with rfl | hmem
    · exact ⟨_, rfl⟩
    · exact ih _ (nextStep_getD_declared call.outcome hwf hcur) answer hmem

/-- The run lemma: every step a run visits is reached, by at least one transition, from every step visited
    before it; and it is declared. -/
theorem pairwise_visited :
    ∀ current ∈ r.stepIds,
      (current :: returned (answers r current calls)).Pairwise (TransGen (Step r)) ∧
      ∀ id ∈ returned (answers r current calls), id ∈ r.stepIds := by
  induction calls with
  | nil =>
    intro current _
    exact ⟨pairwise_singleton _ _, fun id h => absurd h not_mem_nil⟩
  | cons call calls ih =>
    intro current hcur
    cases hnext : nextStep r current call.outcome with
    | none =>
      rw [answers_cons hwf calls hcur, hnext]
      exact ih current hcur
    | some next =>
      rw [answers_cons hwf calls hcur, hnext]
      have hdecl := nextStep_declared hwf hnext
      obtain ⟨hpair, hids⟩ := ih next hdecl
      have hstep : TransGen (Step r) current next := TransGen.single (nextStep_step hnext)
      show (current :: next :: returned (answers r next calls)).Pairwise (TransGen (Step r)) ∧
        ∀ id ∈ next :: returned (answers r next calls), id ∈ r.stepIds
      refine ⟨pairwise_cons.mpr ⟨?_, hpair⟩, ?_⟩
      · intro id hid
        rcases mem_cons.mp hid with rfl | hid
        · exact hstep
        · exact hstep.trans ((pairwise_cons.mp hpair).1 id hid)
      · intro id hid
        rcases mem_cons.mp hid with rfl | hid
        · exact hdecl
        · exact hids id hid

/-- No step is visited twice: it would reach itself. -/
theorem nodup_visited : (r.entryStepId :: returned (answers r r.entryStepId calls)).Nodup := by
  refine (pairwise_visited hwf calls r.entryStepId hwf.entry_declared).1.imp ?_
  rintro a b hab rfl
  exact hwf.acyclic a hab

/-- A run returns fewer steps than are declared. -/
theorem length_returned_lt : (returned (answers r r.entryStepId calls)).length + 1 ≤ r.steps.length := by
  have hsub : r.entryStepId :: returned (answers r r.entryStepId calls) ⊆ r.stepIds := by
    intro id hid
    rcases mem_cons.mp hid with rfl | hid
    · exact hwf.entry_declared
    · exact (pairwise_visited hwf calls r.entryStepId hwf.entry_declared).2 id hid
  have hle := ((nodup_visited hwf calls).subperm hsub).length_le
  unfold FlowGraphRequest.stepIds at hle
  rwa [length_map] at hle

end

/-- An answer that is `Ok` and contributes no step is `Ok(None)`. -/
theorem eq_none_of_returned_nil {as : List (Exec FlowError (Option String))}
    (hok : ∀ answer ∈ as, ∃ next, answer = .ok next) (hnil : returned as = []) :
    ∀ answer ∈ as, answer = .ok none := by
  intro answer hmem
  obtain ⟨next, rfl⟩ := hok answer hmem
  have hnone := filterMap_eq_nil_iff.mp hnil _ hmem
  rw [show next = none from hnone]

theorem returned_append (as bs : List (Exec FlowError (Option String))) :
    returned (as ++ bs) = returned as ++ returned bs := filterMap_append

/-- **A flow run never revisits a step and always ends.** On a request the validator accepts, whatever the
    outcomes and hash-map orders of the calls: no call fails, no step is returned twice or is the entry, at
    most one step less than the declared ones is returned, and once that many have been every later answer is
    `None`. A permuted request gets the same answers. On a request the validator rejects, every call — on
    every permutation of it as well — is answered with an error. -/
theorem run_never_revisits (r : FlowGraphRequest) :
    ((∃ order d, validateGraph order r = .ok d) →
      (∀ calls : List Call,
        (∀ answer ∈ answers r r.entryStepId calls, ∃ next, answer = .ok next) ∧
        (r.entryStepId :: returned (answers r r.entryStepId calls)).Nodup ∧
        (returned (answers r r.entryStepId calls)).length ≤ r.steps.length - 1 ∧
        ∀ before after, answers r r.entryStepId calls = before ++ after →
          r.steps.length - 1 ≤ (returned before).length → ∀ answer ∈ after, answer = .ok none) ∧
      ∀ r' : FlowGraphRequest, r'.entryStepId = r.entryStepId → r'.steps.Perm r.steps →
        r'.transitions.Perm r.transitions → ∀ order order' current outcome,
          selectNextStep order' r' current outcome = selectNextStep order r current outcome) ∧
    ((∃ order e, validateGraph order r = .error e) →
      ∀ r' : FlowGraphRequest, r'.entryStepId = r.entryStepId → r'.steps.Perm r.steps →
        r'.transitions.Perm r.transitions → ∀ order current outcome,
          ∃ e, selectNextStep order r' current outcome = .error (.err e)) := by
  constructor
  · rintro ⟨order, d, hd⟩
    have hwf : WellFormed r := (validateGraph_decides order r).ok_iff.mp ⟨d, hd⟩
    refine ⟨fun calls => ?_, ?_⟩
    · have hok := answers_ok hwf calls r.entryStepId hwf.entry_declared
      have hlen := length_returned_lt hwf calls
      refine ⟨hok, nodup_visited hwf calls, by omega, ?_⟩
      intro before after heq hfull
      -- the bound is on the whole run, so the rest of a full run returns nothing
      rw [heq, returned_append, length_append] at hlen
      have hnil : returned after = [] := eq_nil_of_length_eq_zero (by omega)
      apply eq_none_of_returned_nil _ hnil
      exact fun answer hmem => hok answer (heq ▸ mem_append_right before hmem)
    · intro r' hentry hsteps htrans order order' current outcome
      have hwf' : WellFormed r' := hwf.of_perm hentry hsteps htrans
      have hids : current ∈ r'.stepIds ↔ current ∈ r.stepIds := (hsteps.map _).mem_iff
      rw [selectNextStep_of_wellFormed _ hwf, selectNextStep_of_wellFormed _ hwf', nextStep, nextStep,
        find?_of_perm (atMostOne_of_nodup_map hwf.deterministic (current, outcome)) htrans]
      simp only [hids]
  · rintro ⟨order, e, he⟩ r' hentry hsteps htrans order' current outcome
    apply selectNextStep_of_not_wellFormed
    intro hwf'
    have hwf : WellFormed r := hwf'.of_perm hentry.symm hsteps.symm htrans.symm
    obtain ⟨d, hd⟩ := (validateGraph_decides order r).ok_iff.mpr hwf
    rw [hd] at he
    cases he

theorem run_never_revisits_approvalGraph :
    returned (answers approvalGraph "start"
      [⟨keyOrder, .success⟩, ⟨reverseKeyOrder, .approvalGranted⟩, ⟨keyOrder, .success⟩])
        = ["approve", "end"] ∧
    (returned (answers approvalGraph "start"
      [⟨keyOrder, .success⟩, ⟨reverseKeyOrder, .approvalGranted⟩, ⟨keyOrder, .success⟩])).length ≤ 2 ∧
    selectNextStep reverseKeyOrder approvalGraphReversed "start" .success
      = selectNextStep keyOrder approvalGraph "start" .success := by
  have h := (run_never_revisits approvalGraph).1 ⟨keyOrder, ⟨true, 3, 2⟩, by decide⟩
  refine ⟨by decide, (h.1 _).2.2.1, ?_⟩
  exact h.2 approvalGraphReversed rfl (reverse_perm _) (reverse_perm _) _ _ _ _

/-- Two steps whose ids are both outside the grammar. -/
def malformedGraph : FlowGraphRequest := ⟨"start", [⟨"!a"⟩, ⟨"!b"⟩], []⟩

/-- A rejected request is not answered with `None`, and its two listings get different answers: the error names
    the first malformed id. -/
theorem selectNextStep_malformedGraph :
    selectNextStep keyOrder malformedGraph "start" .success
      = .error (.err (.invalidGraph "invalid step_id: !a")) ∧
    selectNextStep keyOrder { malformedGraph with steps := malformedGraph.steps.reverse } "start" .success
      = .error (.err (.invalidGraph "invalid step_id: !b")) := by
  decide

/-! ## Lifecycles -/

/-- The status that a caller keeps: the decided one, or the old one if the request is refused. -/
def advance (status : FlowInstanceStatus) (request : FlowTransitionRequest) : FlowInstanceStatus :=
  match evaluateTransition { request with current := status } with
  | .ok decision => decision.newState
  | .error _ => status

theorem advance_eq (status : FlowInstanceStatus) (request : FlowTransitionRequest) :
    advance status request = if status.canTransitionTo request.target then request.target else status := by
  unfold advance evaluateTransition
  by_cases hsame : status = request.target
  · simp [hsame]
  · cases status.canTransitionTo request.target <;> simp [hsame, Exec.fail]

/-- **Over every run of requests**, a status is terminal exactly if no requests change it any more. One that is not the
    first was entered from one that is not terminal, `completed` from `in_progress`, and `created` never. -/
theorem lifecycle_run (start : FlowInstanceStatus) (requests : List FlowTransitionRequest) :
    ((requests.foldl advance start).isTerminal = true ↔ ∀ more : List FlowTransitionRequest,
      more.foldl advance (requests.foldl advance start) = requests.foldl advance start) ∧
    (requests.foldl advance start = start ∨ ∃ before request after, requests = before ++ request :: after ∧
      requests.foldl advance start = request.target ∧ (before.foldl advance start).isTerminal = false ∧
      request.target ≠ .created ∧ (request.target = .completed → before.foldl advance start = .inProgress)) := by
  have htable : ∀ source target : FlowInstanceStatus, source.canTransitionTo target = true →
      source.isTerminal = false ∧ target ≠ .created ∧ (target = .completed → source = .inProgress) := by
    intro source target
    cases source <;> cases target <;> decide
  constructor
  · generalize requests.foldl advance start = status
    constructor
    · intro hterminal
      refine foldl_fixed' (fun request => ?_)
      rw [advance_eq, if_neg]
      exact fun hallowed => Bool.false_ne_true ((htable _ _ hallowed).1.symm.trans hterminal)
    · intro hfixed
      -- everything else can be cancelled
      have hcancel := hfixed [⟨.created, .cancelled, none, none⟩]
      rw [foldl_cons, foldl_nil, advance_eq] at hcancel
      cases status <;> first | rfl | cases hcancel
  · induction requests using List.reverseRecOn with
    | nil => exact .inl rfl
    | append_singleton before request ih =>
      rw [foldl_append, foldl_cons, foldl_nil, advance_eq]
      split
      · rename_i hallowed
        exact .inr ⟨before, request, [], rfl, rfl, htable _ _ hallowed⟩
      · refine ih.imp id ?_
        rintro ⟨earlier, entering, after, rfl, hentry⟩
        exact ⟨earlier, entering, after ++ [request], append_assoc _ _ _, hentry⟩

end MartyCore.Flow
