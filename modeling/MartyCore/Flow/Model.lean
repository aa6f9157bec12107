import MartyCore.Lib.Exec
import MartyCore.Lib.SortedMap
import MartyCore.Lib.Text

/-!
# `Flow.Model` — lifecycle transitions and flow-graph decisions

The embedding of `marty-verification/src/flow.rs`: the lifecycle table of a flow instance
(`evaluateTransition`), the graph validator (`validateGraph`) and the next-step selector
(`selectNextStep`).

`validateGraph` is written as the source runs it. The two hash maps (`adjacency`, `indegree`) are ordered
maps here, and the one place where the source iterates over a hash map — collecting the initial roots —
reads the entries in an arbitrary `IterationOrder`. The sets are lists of their elements. `adjacency[…]`,
the two `expect`s and `*degree -= 1` are the places that could panic and are modelled as such. The two
`while` loops carry fuel: the number of transitions plus one for the search, the number of steps for the
peeling.
-/

namespace MartyCore.Flow

open Exec

/-! ## Instance lifecycle -/

inductive FlowInstanceStatus where
  | created | pending | inProgress | awaitingWallet | awaitingApproval | awaitingEvidence
  | completed | failed | cancelled | expired
deriving DecidableEq, Repr

namespace FlowInstanceStatus

/-- The `snake_case` serde name, which is also the `Display` text. -/
def display : FlowInstanceStatus → String
  | created => "created"
  | pending => "pending"
  | inProgress => "in_progress"
  | awaitingWallet => "awaiting_wallet"
  | awaitingApproval => "awaiting_approval"
  | awaitingEvidence => "awaiting_evidence"
  | completed => "completed"
  | failed => "failed"
  | cancelled => "cancelled"
  | expired => "expired"

def isTerminal : FlowInstanceStatus → Bool
  | completed | failed | cancelled | expired => true
  | _ => false

def canTransitionTo : FlowInstanceStatus → FlowInstanceStatus → Bool
  | created, pending | created, inProgress | created, cancelled => true
  | pending, inProgress | pending, cancelled => true
  | inProgress, awaitingWallet | inProgress, awaitingApproval | inProgress, awaitingEvidence
  | inProgress, completed | inProgress, failed | inProgress, cancelled | inProgress, expired => true
  | awaitingWallet, inProgress | awaitingWallet, cancelled | awaitingWallet, expired => true
  | awaitingApproval, inProgress | awaitingApproval, failed | awaitingApproval, cancelled => true
  | awaitingEvidence, inProgress | awaitingEvidence, cancelled | awaitingEvidence, expired => true
  | _, _ => false

end FlowInstanceStatus

inductive TransitionOutcome where
  | success | failure | timeout | userCancel | approvalGranted | approvalDenied | conditionMet
  | always | qrScanned | tokenExchanged | credentialIssued
deriving DecidableEq, Repr

inductive FlowError where
  | transitionNotAllowed (fromStatus toStatus : FlowInstanceStatus)
  | invalidGraph (message : String)
  | ambiguousTransition (fromStepId : String) (outcome : TransitionOutcome)
  | limitExceeded (message : String)
deriving DecidableEq, Repr

structure FlowTransitionRequest where
  current : FlowInstanceStatus
  target : FlowInstanceStatus
  actor : Option String
  event : Option String

structure FlowTransitionDecision where
  priorState : FlowInstanceStatus
  newState : FlowInstanceStatus
  terminal : Bool
  noOp : Bool
  actor : Option String
  event : String
deriving DecidableEq, Repr

/-- Evaluate a lifecycle transition; the same-state request is a no-op before the table is consulted. -/
def evaluateTransition (request : FlowTransitionRequest) : Exec FlowError FlowTransitionDecision :=
  let decision (noOp : Bool) : FlowTransitionDecision :=
    { priorState := request.current
      newState := request.target
      terminal := request.target.isTerminal
      noOp := noOp
      actor := request.actor
      event := request.event.getD (request.current.display ++ "_to_" ++ request.target.display) }
  if request.current = request.target then .ok (decision true)
  else if !request.current.canTransitionTo request.target then
    fail (.transitionNotAllowed request.current request.target)
  else .ok (decision false)

/-! ## Graph requests -/

structure FlowGraphStep where
  stepId : String
deriving DecidableEq, Repr

structure FlowGraphTransition where
  fromStepId : String
  toStepId : String
  outcome : TransitionOutcome
deriving DecidableEq, Repr

structure FlowGraphRequest where
  entryStepId : String
  steps : List FlowGraphStep
  transitions : List FlowGraphTransition
deriving DecidableEq, Repr

structure FlowGraphDecision where
  valid : Bool
  stepCount : Nat
  transitionCount : Nat
deriving DecidableEq, Repr

def maxSteps : Nat := 1024
def maxTransitions : Nat := 8192
def maxStepIdBytes : Nat := 128

/-- An ASCII letter or digit first, then letters, digits, `_` and `-`; the length is in UTF-8 bytes. -/
def validStepId (value : String) : Bool :=
  if value.isEmpty || decide (value.utf8ByteSize > maxStepIdBytes)
      || !value.toList.all Text.isAscii then false
  else
    match value.toList with
    | [] => false
    | first :: rest => first.isAlphanum && rest.all (fun c => c.isAlphanum || c == '_' || c == '-')

/-! ## `validate_graph` -/

/-- The loop over `request.steps`: check each id and insert it into `step_ids`. -/
def collectStepIds : List FlowGraphStep → List String → Exec FlowError (List String)
  | [], stepIds => .ok stepIds
  | step :: rest, stepIds => do
    reject (validStepId step.stepId = false) (.invalidGraph ("invalid step_id: " ++ step.stepId))
    reject (step.stepId ∈ stepIds) (.invalidGraph "step_id values must be unique")
    collectStepIds rest (step.stepId :: stepIds)

/-- The state of the loop over `request.transitions`. -/
structure GraphTables where
  adjacency : SortedMap String (List String)
  indegree : SortedMap String Nat
  decisions : List (String × TransitionOutcome)

/-- Every declared step with no successors and in-degree zero. -/
def emptyTables (steps : List FlowGraphStep) : GraphTables where
  adjacency := steps.foldl (fun m step => m.insert step.stepId []) SortedMap.empty
  indegree := steps.foldl (fun m step => m.insert step.stepId 0) SortedMap.empty
  decisions := []

/-- One transition: both ends declared, the decision new, then the two table updates. -/
def addTransition (stepIds : List String) (tables : GraphTables) (transition : FlowGraphTransition) :
    Exec FlowError GraphTables := do
  reject (transition.fromStepId ∉ stepIds ∨ transition.toStepId ∉ stepIds)
    (.invalidGraph "transitions must reference declared steps")
  reject ((transition.fromStepId, transition.outcome) ∈ tables.decisions)
    (.ambiguousTransition transition.fromStepId transition.outcome)
  -- the tables have every declared step, so neither `expect` fires
  let successors ← expect "validated source" (tables.adjacency.get? transition.fromStepId)
  let degree ← expect "validated destination" (tables.indegree.get? transition.toStepId)
  .ok { adjacency := tables.adjacency.insert transition.fromStepId (successors ++ [transition.toStepId])
        indegree := tables.indegree.insert transition.toStepId (degree + 1)
        decisions := (transition.fromStepId, transition.outcome) :: tables.decisions }

def addTransitions (stepIds : List String) : List FlowGraphTransition → GraphTables → Exec FlowError GraphTables
  | [], tables => .ok tables
  | transition :: rest, tables => do
    let tables ← addTransition stepIds tables transition
    addTransitions stepIds rest tables

/-- The reachability loop: pop the front, skip it if seen, otherwise extend the back with its successors. -/
def searchLoop (adjacency : SortedMap String (List String)) :
    Nat → List String → List String → Exec FlowError (List String)
  | _, [], reachable => .ok reachable
  | 0, _ :: _, _ => .error .fuel
  | fuel + 1, stepId :: frontier, reachable =>
    -- a step may be queued once per transition into it
    if stepId ∈ reachable then searchLoop adjacency fuel frontier reachable
    else do
      let successors ← expect "index of a missing key" (adjacency.get? stepId)
      searchLoop adjacency fuel (frontier ++ successors) (stepId :: reachable)

/-- The inner loop of the peeling: lower each destination's degree and queue it when it reaches zero. -/
def releaseLoop : List String → SortedMap String Nat → List String → Exec FlowError (SortedMap String Nat × List String)
  | [], indegree, roots => .ok (indegree, roots)
  | destination :: rest, indegree, roots => do
    let degree ← expect "validated destination" (indegree.get? destination)
    -- `*degree -= 1` on a `usize`
    if degree = 0 then .error (.panic "attempt to subtract with overflow")
    else
      releaseLoop rest (indegree.insert destination (degree - 1))
        (if degree - 1 = 0 then roots ++ [destination] else roots)

/-- The outer loop of the peeling; the result is `visited`. -/
def peelLoop (adjacency : SortedMap String (List String)) :
    Nat → List String → SortedMap String Nat → Nat → Exec FlowError Nat
  | _, [], _, visited => .ok visited
  | 0, _ :: _, _, _ => .error .fuel
  | fuel + 1, stepId :: roots, indegree, visited => do
    let successors ← expect "index of a missing key" (adjacency.get? stepId)
    let (indegree, roots) ← releaseLoop successors indegree roots
    peelLoop adjacency fuel roots indegree (visited + 1)

variable (order : IterationOrder (String × Nat))

/-- The steps of in-degree zero, in the order the hash map yields them. -/
def initialRoots (indegree : SortedMap String Nat) : List String :=
  (order.arrange indegree.entries).filterMap (fun e => if e.2 = 0 then some e.1 else none)

/-- Validate a bounded, deterministic, acyclic flow graph. -/
def validateGraph (request : FlowGraphRequest) : Exec FlowError FlowGraphDecision := do
  reject (request.steps = []) (.invalidGraph "at least one step is required")
  reject (request.steps.length > maxSteps)
    (.limitExceeded ("graph contains more than " ++ toString maxSteps ++ " steps"))
  reject (request.transitions.length > maxTransitions)
    (.limitExceeded ("graph contains more than " ++ toString maxTransitions ++ " transitions"))
  reject (validStepId request.entryStepId = false) (.invalidGraph "entry_step_id is invalid")
  let stepIds ← collectStepIds request.steps []
  reject (request.entryStepId ∉ stepIds)
    (.invalidGraph "entry_step_id must reference a declared step")
  let tables ← addTransitions stepIds request.transitions (emptyTables request.steps)
  let reachable ← searchLoop tables.adjacency (request.transitions.length + 1) [request.entryStepId] []
  reject (reachable.length ≠ request.steps.length)
    (.invalidGraph "every step must be reachable from entry_step_id")
  let visited ← peelLoop tables.adjacency request.steps.length (initialRoots order tables.indegree)
    tables.indegree 0
  reject (visited ≠ request.steps.length) (.invalidGraph "flow graph must be acyclic")
  .ok { valid := true
        stepCount := request.steps.length
        transitionCount := request.transitions.length }

/-- Select the sole next step for an outcome after validating the whole graph. -/
def selectNextStep (request : FlowGraphRequest)
    (currentStepId : String) (outcome : TransitionOutcome) : Exec FlowError (Option String) := do
  -- every call validates the whole graph again
  let _ ← validateGraph order request
  reject (request.steps.any (fun step => step.stepId == currentStepId) = false)
    (.invalidGraph "current_step_id must reference a declared step")
  .ok ((request.transitions.find? (fun transition =>
      transition.fromStepId == currentStepId && transition.outcome == outcome)).map
    FlowGraphTransition.toStepId)

end MartyCore.Flow
