import MartyCore.Flow.Model
import MartyCore.Lib.Graph

/-!
# `Flow.WellFormed` — what a well-formed flow graph is

The contract side of the validator, stated without a single loop or table: the size limits, the id grammar,
declared and distinct steps, a deterministic transition relation, every step reachable from the entry, no
directed cycle (`WellFormed`). The transition relation `Step` is read off the request; `successors` is the
same relation as successor lists, which is the form the graph library works on.

`WellFormed` only looks at the request up to the order of its two lists (`WellFormed.of_perm`).
-/

namespace MartyCore.Flow

open Relation

/-- The declared step ids, in request order. -/
def FlowGraphRequest.stepIds (r : FlowGraphRequest) : List String := r.steps.map FlowGraphStep.stepId

/-- `[A-Za-z0-9][A-Za-z0-9_-]{0,127}`. -/
def StepIdGrammar (value : String) : Prop :=
  ∃ first rest, value.toList = first :: rest ∧ first.isAlphanum = true ∧
    (∀ c ∈ rest, c.isAlphanum = true ∨ c = '_' ∨ c = '-') ∧ rest.length ≤ 127

/-- Some transition leads from `a` to `b`. -/
def Step (r : FlowGraphRequest) (a b : String) : Prop :=
  ∃ t ∈ r.transitions, t.fromStepId = a ∧ t.toStepId = b

/-- What a transition decides on: its source and the outcome that selects it. -/
def FlowGraphTransition.decision (t : FlowGraphTransition) : String × TransitionOutcome :=
  (t.fromStepId, t.outcome)

/-- **A well-formed flow graph.** -/
structure WellFormed (r : FlowGraphRequest) : Prop where
  steps_pos : 1 ≤ r.steps.length
  steps_le : r.steps.length ≤ 1024
  transitions_le : r.transitions.length ≤ 8192
  entry_grammar : StepIdGrammar r.entryStepId
  step_grammar : ∀ id ∈ r.stepIds, StepIdGrammar id
  distinct : r.stepIds.Nodup
  entry_declared : r.entryStepId ∈ r.stepIds
  ends_declared : ∀ t ∈ r.transitions, t.fromStepId ∈ r.stepIds ∧ t.toStepId ∈ r.stepIds
  deterministic : (r.transitions.map FlowGraphTransition.decision).Nodup
  reachable : ∀ id ∈ r.stepIds, ReflTransGen (Step r) r.entryStepId id
  acyclic : ∀ id, ¬ TransGen (Step r) id id

/-! ## The id grammar -/

theorem isAscii_of_idChar {c : Char} (h : c.isAlphanum = true ∨ c = '_' ∨ c = '-') : Text.isAscii c = true := by
  rcases h with h | rfl | rfl
  · exact Text.isAscii_of_isAlphanum h
  · decide
  · decide

/-- The source's byte-level test is the grammar: all its characters are ASCII, so bytes are characters. -/
theorem validStepId_iff (value : String) : validStepId value = true ↔ StepIdGrammar value := by
  unfold validStepId StepIdGrammar
  cases hl : value.toList with
  | nil => simp
  | cons first rest =>
    have hne : value.isEmpty = false := by
      rw [← Bool.not_eq_true, String.isEmpty_iff]
      rintro rfl
      simp at hl
    -- the bound is on bytes in the source and on characters in the grammar
    have hsize : (first :: rest).all Text.isAscii = true → value.utf8ByteSize = rest.length + 1 := by
      intro ha
      rw [Text.utf8ByteSize_eq_utf8Len, hl, Text.utf8Len_of_isAscii ha, List.length_cons]
    constructor
    · intro h
      simp only [hne, Bool.false_or, Bool.or_eq_true, decide_eq_true_eq, Bool.not_eq_true'] at h
      split at h
      · simp at h
      · rename_i hguard
        rw [not_or, Bool.not_eq_false] at hguard
        have hs := hsize hguard.2
        have hlen : ¬ value.utf8ByteSize > 128 := hguard.1
        refine ⟨first, rest, rfl, ?_⟩
        simp only [Bool.and_eq_true, List.all_eq_true, Bool.or_eq_true, beq_iff_eq] at h
        exact ⟨h.1, fun c hc => or_assoc.mp (h.2 c hc), by omega⟩
    · rintro ⟨f, rs, heq, hfirst, hrest, hlen⟩
      injection heq with hf hr
      subst hf; subst hr
      have hascii : (first :: rest).all Text.isAscii = true := by
        rw [List.all_eq_true]
        intro c hc
        rcases List.mem_cons.mp hc with rfl | hc
        · exact isAscii_of_idChar (.inl hfirst)
        · exact isAscii_of_idChar (hrest c hc)
      have hs := hsize hascii
      have hle : ¬ value.utf8ByteSize > maxStepIdBytes := by
        show ¬ value.utf8ByteSize > 128
        omega
      simp only [hne, hle, hascii, decide_false, Bool.or_self, Bool.not_true, Bool.false_eq_true,
        if_false, Bool.and_eq_true, hfirst, true_and, List.all_eq_true, Bool.or_eq_true, beq_iff_eq]
      exact fun c hc => or_assoc.mpr (hrest c hc)

/-! ## The transition relation as successor lists -/

/-- The targets of a step's transitions, in request order and with repetitions. -/
def successors (transitions : List FlowGraphTransition) (id : String) : List String :=
  (transitions.filter (fun t => t.fromStepId == id)).map FlowGraphTransition.toStepId

theorem mem_successors {r : FlowGraphRequest} {a b : String} : b ∈ successors r.transitions a ↔ Step r a b := by
  unfold successors Step
  simp only [List.mem_map, List.mem_filter, beq_iff_eq, and_assoc]

theorem edge_eq_step (r : FlowGraphRequest) : Graph.Edge (successors r.transitions) = Step r := by
  funext a b
  exact propext mem_successors

/-! ## Order independence -/

theorem Step.of_perm {r r' : FlowGraphRequest} (h : r'.transitions.Perm r.transitions) : Step r' = Step r := by
  funext a b
  exact propext ⟨fun ⟨t, ht, he⟩ => ⟨t, h.mem_iff.mp ht, he⟩, fun ⟨t, ht, he⟩ => ⟨t, h.mem_iff.mpr ht, he⟩⟩

/-- Well-formedness does not depend on the order in which steps and transitions are listed. -/
theorem WellFormed.of_perm {r r' : FlowGraphRequest} (hentry : r'.entryStepId = r.entryStepId)
    (hsteps : r'.steps.Perm r.steps) (htrans : r'.transitions.Perm r.transitions)
    (h : WellFormed r) : WellFormed r' := by
  have hids : r'.stepIds.Perm r.stepIds := hsteps.map _
  refine ⟨?_, ?_, ?_, ?_, ?_, ?_, ?_, ?_, ?_, ?_, ?_⟩
  · rw [hsteps.length_eq]; exact h.steps_pos
  · rw [hsteps.length_eq]; exact h.steps_le
  · rw [htrans.length_eq]; exact h.transitions_le
  · rw [hentry]; exact h.entry_grammar
  · exact fun id hid => h.step_grammar id (hids.mem_iff.mp hid)
  · exact hids.nodup_iff.mpr h.distinct
  · rw [hentry]; exact hids.mem_iff.mpr h.entry_declared
  · intro t ht
    obtain ⟨hf, hto⟩ := h.ends_declared t (htrans.mem_iff.mp ht)
    exact ⟨hids.mem_iff.mpr hf, hids.mem_iff.mpr hto⟩
  · exact (htrans.map _).nodup_iff.mpr h.deterministic
  · intro id hid
    rw [Step.of_perm htrans, hentry]
    exact h.reachable id (hids.mem_iff.mp hid)
  · rw [Step.of_perm htrans]; exact h.acyclic

end MartyCore.Flow
