import MartyCore.Flow.WellFormed

/-!
# `Flow.Validate` — the validator decides well-formedness

One specification per loop of `validateGraph`, each in the `Exec.Decides` form (what it accepts, what its
result satisfies, and that it returns), then the assembly:

* `collectStepIds_decides` and `addTransitions_decides` — the id checks and the two tables (`TablesInv`);
* `searchLoop_spec` — the worklist visits exactly the reachable steps within its fuel (`Graph.SearchInv`);
* `peelLoop_spec` — the peeling pops everything iff there is no cycle (`Graph.PeelInv`);
* `validateGraph_decides` — **the validator accepts exactly the well-formed graphs**, whatever the hash-map
  order, and never panics.
-/

namespace MartyCore.Flow

open Relation SortedMap Exec.Decides MartyCore.Graph List

/-! ## The step ids -/

/-- The step loop accepts fresh, well-formed, pairwise distinct ids and returns them (latest first). -/
theorem collectStepIds_decides (steps : List FlowGraphStep) (seen : List String) :
    Exec.Decides (collectStepIds steps seen)
      ((∀ id ∈ steps.map FlowGraphStep.stepId, StepIdGrammar id) ∧
        (steps.map FlowGraphStep.stepId).Nodup ∧ ∀ id ∈ steps.map FlowGraphStep.stepId, id ∉ seen)
      (fun ids => ids = (steps.map FlowGraphStep.stepId).reverse ++ seen) := by
  induction steps generalizing seen with
  | nil => exact Exec.decides_ok (by simp) (by simp)
  | cons step rest ih =>
    rw [map_cons, nodup_fresh_cons_iff, forall_mem_cons]
    refine reject_bind ?_ (fun hvalid => reject_bind ?_ (fun hfresh =>
      ?_))
    · rintro ⟨⟨hg, -⟩, -⟩
      rw [Bool.not_eq_false, validStepId_iff]
      exact hg
    · exact fun h => h.2.1
    · rw [Bool.not_eq_false, validStepId_iff] at hvalid
      refine (ih (step.stepId :: seen)).imp ?_ ?_
      · constructor
        · rintro ⟨hgs, hnew⟩
          exact ⟨⟨hvalid, hgs⟩, hfresh, hnew⟩
        · rintro ⟨⟨-, hgs⟩, -, hnew⟩
          exact ⟨hgs, hnew⟩
      · intro ids hids
        rw [hids]
        simp

/-! ## The adjacency and in-degree tables -/

/-- The tables after the transitions `done`: successor lists, in-degrees and taken decisions. -/
structure TablesInv (stepIds : List String) (done : List FlowGraphTransition) (tables : GraphTables) : Prop where
  adjacency : ∀ id, tables.adjacency.get? id
    = if id ∈ stepIds then some (successors done id) else none
  indegree : ∀ id, tables.indegree.get? id
    = if id ∈ stepIds then some (done.countP (fun t => t.toStepId == id)) else none
  decisions : ∀ d, d ∈ tables.decisions ↔ d ∈ done.map FlowGraphTransition.decision

theorem get?_foldl_insert {ν : Type} (v : ν) (steps : List FlowGraphStep) (m : SortedMap String ν) (id : String) :
    (steps.foldl (fun m step => m.insert step.stepId v) m).get? id
      = if id ∈ steps.map FlowGraphStep.stepId then some v else m.get? id := by
  induction steps generalizing m with
  | nil => simp
  | cons step rest ih =>
    rw [foldl_cons, ih, get?_insert]
    by_cases hid : id = step.stepId
    · simp [hid]
    · simp [hid]

theorem emptyTables_inv (steps : List FlowGraphStep) :
    TablesInv (steps.map FlowGraphStep.stepId) [] (emptyTables steps) where
  adjacency := by intro id; simp only [emptyTables, get?_foldl_insert]; rfl
  indegree := by intro id; simp only [emptyTables, get?_foldl_insert]; rfl
  decisions := by intro d; simp [emptyTables]

theorem successors_snoc (done : List FlowGraphTransition) (t : FlowGraphTransition) (id : String) :
    successors (done ++ [t]) id
      = if t.fromStepId = id then successors done id ++ [t.toStepId] else successors done id := by
  unfold successors
  by_cases h : t.fromStepId = id
  · simp [h]
  · simp [h]

variable {done : List FlowGraphTransition} {stepIds : List String} {tables : GraphTables}

/-- One transition is accepted when both ends are declared and its decision is new. -/
theorem addTransition_decides
    (h : TablesInv stepIds done tables) (t : FlowGraphTransition) :
    Exec.Decides (addTransition stepIds tables t)
      ((t.fromStepId ∈ stepIds ∧ t.toStepId ∈ stepIds) ∧ t.decision ∉ done.map FlowGraphTransition.decision)
      (TablesInv stepIds (done ++ [t])) := by
  refine reject_bind ?_ (fun hdecl => reject_bind ?_ (fun hfresh => ?_))
  · rintro ⟨⟨hf, ht⟩, -⟩
    exact fun h => h.elim (fun hn => hn hf) (fun hn => hn ht)
  · rw [h.decisions]
    exact fun hp => hp.2
  · rw [not_or, not_not, not_not] at hdecl
    rw [h.decisions] at hfresh
    -- both ends are declared, so neither `expect` fires
    refine expect_bind (by rw [h.adjacency, if_pos hdecl.1])
      (expect_bind (by rw [h.indegree, if_pos hdecl.2])
        (Exec.decides_ok ⟨hdecl, hfresh⟩ ⟨?_, ?_, ?_⟩))
    · intro id
      show (tables.adjacency.insert _ _).get? id = _
      rw [get?_insert, successors_snoc, h.adjacency]
      by_cases hid : id = t.fromStepId
      · subst hid; simp [hdecl.1]
      · simp [hid, Ne.symm hid]
    · intro id
      show (tables.indegree.insert _ _).get? id = _
      rw [get?_insert, h.indegree, countP_append]
      by_cases hid : id = t.toStepId
      · subst hid; simp [hdecl.2]
      · simp [hid, Ne.symm hid]
    · intro d
      show d ∈ (t.fromStepId, t.outcome) :: tables.decisions ↔ _
      rw [map_append, mem_append, mem_cons, h.decisions, map_singleton, mem_singleton]
      exact Or.comm

/-- The transition loop accepts declared, pairwise deterministic transitions and builds their tables. -/
theorem addTransitions_decides (rest : List FlowGraphTransition) :
    ∀ {done : List FlowGraphTransition} {tables : GraphTables}, TablesInv stepIds done tables →
      (done.map FlowGraphTransition.decision).Nodup →
      Exec.Decides (addTransitions stepIds rest tables)
        ((∀ t ∈ rest, t.fromStepId ∈ stepIds ∧ t.toStepId ∈ stepIds) ∧
          ((done ++ rest).map FlowGraphTransition.decision).Nodup)
        (TablesInv stepIds (done ++ rest)) := by
  induction rest with
  | nil =>
    intro done tables h hnd
    rw [append_nil]
    exact Exec.decides_ok ⟨by simp, hnd⟩ h
  | cons t rest ih =>
    intro done tables h hnd
    have happ : done ++ t :: rest = done ++ [t] ++ rest := by simp
    rw [happ, forall_mem_cons]
    refine (addTransition_decides h t).bind ?_ (fun tables' hp hinv => ?_)
    · rintro ⟨⟨hdecl, -⟩, hnd'⟩
      rw [← happ] at hnd'
      exact ⟨hdecl, notMem_map_of_nodup hnd'⟩
    · refine (ih hinv (nodup_map_concat_iff.mpr ⟨hp.2, hnd⟩)).imp ?_ (fun _ hq => hq)
      exact ⟨fun hr => ⟨⟨hp.1, hr.1⟩, hr.2⟩, fun hr => ⟨hr.1.2, hr.2⟩⟩

/-! ## The reachability loop -/

variable {U : Finset String} {adjacency : SortedMap String (List String)} {adj : String → List String}

/-- Within `searchCost` iterations the loop returns a finished search, and it never indexes a missing key:
    everything it pops is a declared step. -/
theorem searchLoop_spec {s : String}
    (hget : ∀ id ∈ U, adjacency.get? id = some (adj id)) (hclosed : ∀ id ∈ U, ∀ d ∈ adj id, d ∈ U) :
    ∀ (fuel : Nat) (frontier reachable : List String), SearchInv adj s frontier reachable →
      (∀ id ∈ frontier, id ∈ U) → (∀ id ∈ reachable, id ∈ U) →
      searchCost adj U frontier reachable ≤ fuel →
      ∃ visited, searchLoop adjacency fuel frontier reachable = .ok visited ∧
        SearchInv adj s [] visited ∧ ∀ id ∈ visited, id ∈ U := by
  intro fuel
  induction fuel with
  | zero =>
    intro frontier reachable hinv _ hreach hcost
    cases frontier with
    | nil => exact ⟨reachable, rfl, hinv, hreach⟩
    | cons x frontier =>
      simp only [searchCost, length_cons] at hcost
      omega
  | succ fuel ih =>
    intro frontier reachable hinv hfront hreach hcost
    cases frontier with
    | nil => exact ⟨reachable, rfl, hinv, hreach⟩
    | cons x frontier =>
      have hxU : x ∈ U := hfront x mem_cons_self
      have hfront' : ∀ id ∈ frontier, id ∈ U := fun id hid => hfront id (mem_cons_of_mem x hid)
      simp only [searchLoop]
      by_cases hx : x ∈ reachable
      · rw [if_pos hx]
        have hdrop := searchCost_skip adj U x frontier reachable
        exact ih frontier reachable (hinv.skip hx) hfront' hreach (by omega)
      · rw [if_neg hx, hget x hxU]
        have hdrop := searchCost_visit adj frontier hxU hx
        refine ih (frontier ++ adj x) (x :: reachable) (hinv.visit hx) ?_ ?_ (by omega)
        · intro id hid
          rcases mem_append.mp hid with h | h
          · exact hfront' id h
          · exact hclosed x hxU id h
        · intro id hid
          rcases mem_cons.mp hid with rfl | h
          · exact hxU
          · exact hreach id h

/-! ## The peeling loops -/

/-- What the inner loop needs before it releases `ds`: the table holds the degrees, these suffice for the
    repetitions of each destination, and no queued step is released again. -/
structure Releasable (U : Finset String) (ds : List String) (indegree : SortedMap String Nat)
    (roots : List String) (deg : String → Nat) : Prop where
  table : ∀ id ∈ U, indegree.get? id = some (deg id)
  declared : ∀ d ∈ ds, d ∈ U
  count_le : ∀ d, ds.count d ≤ deg d
  roots_nodup : roots.Nodup
  roots_fresh : ∀ v ∈ roots, v ∉ ds

/-- The queue after `d` has been lowered to `degree - 1`. -/
theorem mem_queue {d v : String} {roots : List String} {degree : Nat} (hvd : v ≠ d) :
    v ∈ (if degree - 1 = 0 then roots ++ [d] else roots) ↔ v ∈ roots := by
  split
  · simp [hvd]
  · exact Iff.rfl

/-- Lowering `d` once and then the rest by their counts lowers everything by its count. -/
theorem lowered_count {d : String} {rest : List String} {deg : String → Nat} (v : String) :
    Function.update deg d (deg d - 1) v - rest.count v = deg v - (d :: rest).count v := by
  by_cases hv : v = d
  · subst hv
    rw [Function.update_self, count_cons_self]
    omega
  · rw [Function.update_of_ne hv, count_cons_of_ne (Ne.symm hv)]

variable {indegree : SortedMap String Nat}

/-- One turn of the inner loop. -/
theorem Releasable.next {d : String} {rest : List String} {roots : List String}
    {deg : String → Nat} (h : Releasable U (d :: rest) indegree roots deg) :
    Releasable U rest (indegree.insert d (deg d - 1)) (if deg d - 1 = 0 then roots ++ [d] else roots)
      (Function.update deg d (deg d - 1)) := by
  have hpos : rest.count d + 1 ≤ deg d := by
    have hle := h.count_le d
    rwa [count_cons_self] at hle
  have hdroots : d ∉ roots := fun hmem => h.roots_fresh d hmem mem_cons_self
  refine ⟨?_, fun v hv => h.declared v (mem_cons_of_mem d hv), ?_, ?_, ?_⟩
  · intro id hid
    rw [get?_insert]
    by_cases hd : id = d
    · subst hd
      rw [if_pos rfl, Function.update_self]
    · rw [if_neg hd, Function.update_of_ne hd]
      exact h.table id hid
  · intro v
    by_cases hv : v = d
    · subst hv
      rw [Function.update_self]
      omega
    · rw [Function.update_of_ne hv]
      have hle := h.count_le v
      rwa [count_cons_of_ne (Ne.symm hv)] at hle
  · split
    · rw [← concat_eq_append]
      exact h.roots_nodup.concat hdroots
    · exact h.roots_nodup
  · intro v hv hrest
    by_cases hvd : v = d
    · subst hvd
      split at hv
      · -- `v` was queued because its degree is used up, so it does not come again
        have hcount := count_pos_iff.mpr hrest
        omega
      · exact hdroots hv
    · exact h.roots_fresh v ((mem_queue hvd).mp hv) (mem_cons_of_mem d hrest)

/-- Releasing the successors `ds` of a popped step lowers their degrees by their multiplicity and queues
    exactly those that reach zero. The degrees suffice, so neither the `expect` nor the subtraction panics. -/
theorem releaseLoop_spec (ds : List String) :
    ∀ (indegree : SortedMap String Nat) (roots : List String) (deg : String → Nat),
      Releasable U ds indegree roots deg →
      ∃ indegree' roots', releaseLoop ds indegree roots = .ok (indegree', roots') ∧
        (∀ id ∈ U, indegree'.get? id = some (deg id - ds.count id)) ∧ roots'.Nodup ∧
        ∀ v, v ∈ roots' ↔ v ∈ roots ∨ (v ∈ ds ∧ deg v - ds.count v = 0) := by
  induction ds with
  | nil =>
    intro indegree roots deg h
    exact ⟨indegree, roots, rfl, by simpa using h.table, h.roots_nodup, by simp⟩
  | cons d rest ih =>
    intro indegree roots deg h
    have hdroots : d ∉ roots := fun hmem => h.roots_fresh d hmem mem_cons_self
    have hpos : rest.count d + 1 ≤ deg d := by
      have hle := h.count_le d
      rwa [count_cons_self] at hle
    obtain ⟨indegree', roots', hrun, hget', hnd', hmem⟩ := ih _ _ _ h.next
    refine ⟨indegree', roots', ?_, ?_, hnd', ?_⟩
    · simp only [releaseLoop, h.table d (h.declared d mem_cons_self), Exec.expect, Result.orFail,
        Result.ok_bind]
      rw [if_neg (by omega)]
      exact hrun
    · intro id hid
      rw [hget' id hid, lowered_count]
    · intro v
      rw [hmem v, lowered_count, mem_cons]
      by_cases hvd : v = d
      · subst hvd
        rw [count_cons_self]
        by_cases h0 : deg v - 1 = 0
        · have hz : deg v - (rest.count v + 1) = 0 := by omega
          simp [h0, hz]
        · rw [if_neg h0]
          simp only [hdroots, false_or, true_or, true_and]
          refine ⟨fun hzero => hzero.2, fun hzero => ⟨?_, hzero⟩⟩
          exact count_pos_iff.mp (by omega)
      · rw [mem_queue hvd]
        simp [hvd]

/-- The peeling returns a finished peeling, and `visited` counts the popped steps. -/
theorem peelLoop_spec
    (hget : ∀ id ∈ U, adjacency.get? id = some (adj id)) (hclosed : ∀ u v, v ∈ adj u → u ∈ U ∧ v ∈ U) :
    ∀ (fuel : Nat) {popped : Finset String} {roots : List String} {indegree : SortedMap String Nat}
      {deg : String → Nat}, PeelInv adj U popped roots deg →
      (∀ id ∈ U, indegree.get? id = some (deg id)) → U.card ≤ fuel + popped.card →
      ∃ (popped' : Finset String) (deg' : String → Nat),
        peelLoop adjacency fuel roots indegree popped.card = .ok popped'.card ∧
        PeelInv adj U popped' [] deg' := by
  intro fuel
  induction fuel with
  | zero =>
    intro popped roots indegree deg hinv _ hcard
    cases roots with
    | nil => exact ⟨popped, deg, rfl, hinv⟩
    | cons x roots =>
      -- out of fuel every step is popped, so no root can be left
      obtain ⟨hxU, hxp, -⟩ := hinv.root_mem
      have heq : popped = U := Finset.eq_of_subset_of_card_le hinv.popped_sub (by omega)
      exact absurd (heq ▸ hxU) hxp
  | succ fuel ih =>
    intro popped roots indegree deg hinv hdeg hcard
    cases roots with
    | nil => exact ⟨popped, deg, rfl, hinv⟩
    | cons x roots =>
      obtain ⟨hxU, hxp, hx0⟩ := hinv.root_mem
      obtain ⟨hxroots, hnd⟩ := nodup_cons.mp hinv.roots_nodup
      have hle : ∀ d, (adj x).count d ≤ deg d := by
        intro d
        by_cases hd : d ∈ adj x
        · exact hinv.count_le_deg (hclosed x d hd).2
        · rw [count_eq_zero_of_not_mem hd]; exact Nat.zero_le _
      have hdisj : ∀ v ∈ roots, v ∉ adj x := by
        intro v hv hmem
        have h0 := ((hinv.mem_roots v).mp (mem_cons_of_mem x hv)).2.2
        have := hle v
        have := count_pos_iff.mpr hmem
        omega
      obtain ⟨indegree', roots', hrun, hdeg', hnd', hmem⟩ := releaseLoop_spec (adj x) indegree roots deg
        ⟨hdeg, fun d hd => (hclosed x d hd).2, hle, hnd, hdisj⟩
      have hinv' : PeelInv adj U (insert x popped) roots' (fun v => deg v - (adj x).count v) :=
        hinv.pop hclosed (fun v _ => rfl) hnd' hmem
      have hcard' : (insert x popped).card = popped.card + 1 := Finset.card_insert_of_notMem hxp
      obtain ⟨popped', deg', hpeel, hfinal⟩ := ih hinv' hdeg' (by omega)
      refine ⟨popped', deg', ?_, hfinal⟩
      rw [hcard'] at hpeel
      simp only [peelLoop, hget x hxU, Exec.expect, Result.orFail, Result.ok_bind, hrun]
      exact hpeel

/-! ## Counting edges through the request -/

theorem successors_cons (t : FlowGraphTransition) (ts : List FlowGraphTransition) (id : String) :
    successors (t :: ts) id
      = if t.fromStepId = id then t.toStepId :: successors ts id else successors ts id := by
  unfold successors
  by_cases h : t.fromStepId = id
  · simp [h]
  · simp [h]

/-- Each transition is an out-edge of at most one step: the search's fuel is the number of transitions. -/
theorem sum_successors_length_le (U : Finset String) (ts : List FlowGraphTransition) :
    ∑ u ∈ U, (successors ts u).length ≤ ts.length := by
  induction ts with
  | nil => simp [successors]
  | cons t ts ih =>
    have hstep : ∀ u, (successors (t :: ts) u).length
        = (successors ts u).length + if t.fromStepId = u then 1 else 0 := by
      intro u
      rw [successors_cons]
      split <;> simp
    simp only [hstep, Finset.sum_add_distrib, Finset.sum_ite_eq, length_cons]
    split <;> omega

/-- With every source declared, a step's in-degree is the number of transitions that lead to it. -/
theorem sum_successors_count {ts : List FlowGraphTransition} (hU : ∀ t ∈ ts, t.fromStepId ∈ U) (v : String) :
    ∑ u ∈ U, (successors ts u).count v = ts.countP (fun t => t.toStepId == v) := by
  induction ts with
  | nil => simp [successors]
  | cons t ts ih =>
    have hstep : ∀ u, (successors (t :: ts) u).count v
        = (successors ts u).count v + if t.fromStepId = u then (if t.toStepId == v then 1 else 0) else 0 := by
      intro u
      rw [successors_cons]
      split
      · rw [count_cons]
      · simp
    rw [forall_mem_cons] at hU
    simp only [hstep, Finset.sum_add_distrib, Finset.sum_ite_eq, if_pos hU.1, ih hU.2, countP_cons]

/-- The initial roots are the steps of in-degree zero, each once, whatever the iteration order. -/
theorem mem_initialRoots {order : IterationOrder (String × Nat)}
    {id : String} : id ∈ initialRoots order indegree ↔ indegree.get? id = some 0 := by
  unfold initialRoots
  rw [mem_filterMap, ← mem_iff_get?]
  constructor
  · rintro ⟨⟨k, n⟩, hmem, hif⟩
    split at hif
    · rename_i h0
      injection hif with hk
      have hn : n = 0 := h0
      subst hk; subst hn
      exact (order.perm _).mem_iff.mp hmem
    · simp at hif
  · intro hmem
    exact ⟨(id, 0), (order.perm _).mem_iff.mpr hmem, by simp⟩

variable (order : IterationOrder (String × Nat))

theorem initialRoots_nodup (indegree : SortedMap String Nat) : (initialRoots order indegree).Nodup := by
  have hnd : indegree.entries.Nodup :=
    indegree.sorted.imp (fun h heq => absurd (congrArg Prod.fst heq) (ne_of_lt h))
  refine List.Nodup.filterMap ?_ ((order.perm _).nodup_iff.mpr hnd)
  rintro ⟨k, n⟩ ⟨k', n'⟩ b hb hb'
  split at hb
  · split at hb'
    · rename_i h0 h0'
      injection hb with hk
      injection hb' with hk'
      exact Prod.ext (hk.trans hk'.symm) (h0.trans h0'.symm)
    · simp at hb'
  · simp at hb

/-! ## The validator -/

/-- The declared ids as a node set. -/
def nodeSet (r : FlowGraphRequest) : Finset String := r.stepIds.toFinset

variable {r : FlowGraphRequest}

theorem mem_nodeSet {id : String} : id ∈ nodeSet r ↔ id ∈ r.stepIds :=
  mem_toFinset

theorem card_nodeSet (hnd : r.stepIds.Nodup) : (nodeSet r).card = r.steps.length := by
  unfold nodeSet
  rw [toFinset_card_of_nodup hnd, FlowGraphRequest.stepIds, length_map]

theorem card_eq_iff {s : Finset String} (hsub : s ⊆ U) : s.card = U.card ↔ s = U :=
  ⟨fun hcard => Finset.eq_of_subset_of_card_le hsub hcard.ge, fun heq => by rw [heq]⟩

/-- The reachability test passes exactly when every declared step is reachable. -/
theorem visited_length_iff (hnd : r.stepIds.Nodup) {visited : List String}
    (hinv : SearchInv (successors r.transitions) r.entryStepId [] visited) (hsub : ∀ id ∈ visited, id ∈ nodeSet r) :
    visited.length = r.steps.length ↔ ∀ id ∈ r.stepIds, ReflTransGen (Step r) r.entryStepId id := by
  have hmem : ∀ id, id ∈ visited ↔ ReflTransGen (Step r) r.entryStepId id := by
    intro id
    rw [← edge_eq_step]
    exact hinv.mem_iff_reaches id
  have hcard : visited.toFinset.card = visited.length := toFinset_card_of_nodup hinv.nodup
  have hsub' : visited.toFinset ⊆ nodeSet r := fun id hid => hsub id (mem_toFinset.mp hid)
  rw [← hcard, ← card_nodeSet hnd, card_eq_iff hsub', Finset.Subset.antisymm_iff, and_iff_right hsub']
  simp only [Finset.subset_iff, mem_nodeSet, mem_toFinset, hmem]

theorem TablesInv.congr {ids ids' : List String}
    (hids : ∀ id, id ∈ ids ↔ id ∈ ids') (h : TablesInv ids done tables) : TablesInv ids' done tables := by
  refine ⟨fun id => ?_, fun id => ?_, h.decisions⟩
  · rw [h.adjacency id]
    simp only [hids]
  · rw [h.indegree id]
    simp only [hids]

section

variable {r : FlowGraphRequest} {tables : GraphTables} (hnd : r.stepIds.Nodup)
  (hends : ∀ t ∈ r.transitions, t.fromStepId ∈ r.stepIds ∧ t.toStepId ∈ r.stepIds)
  (h : TablesInv r.stepIds r.transitions tables)

include hends in
theorem successors_mem_nodeSet : ∀ u v, v ∈ successors r.transitions u → u ∈ nodeSet r ∧ v ∈ nodeSet r := by
  intro u v hv
  obtain ⟨t, ht, rfl, rfl⟩ := mem_successors.mp hv
  rw [mem_nodeSet, mem_nodeSet]
  exact hends t ht

include h

theorem TablesInv.adjacency_of_mem :
    ∀ id ∈ nodeSet r, tables.adjacency.get? id = some (successors r.transitions id) := by
  intro id hid
  rw [h.adjacency, if_pos (mem_nodeSet.mp hid)]

include hends

include hnd in
/-- The search returns within its fuel, and its test is reachability of every declared step. -/
theorem search_of_tables (hentry : r.entryStepId ∈ r.stepIds) :
    ∃ visited, searchLoop tables.adjacency (r.transitions.length + 1) [r.entryStepId] [] = .ok visited ∧
      (visited.length = r.steps.length ↔ ∀ id ∈ r.stepIds, ReflTransGen (Step r) r.entryStepId id) := by
  -- the entry is queued once, and each transition queues its end once
  have hfuel : searchCost (successors r.transitions) (nodeSet r) [r.entryStepId] []
      ≤ r.transitions.length + 1 := by
    have hsum := sum_successors_length_le (nodeSet r) r.transitions
    simp only [searchCost, length_singleton, toFinset_nil, Finset.sdiff_empty]
    omega
  have hfront : ∀ id ∈ [r.entryStepId], id ∈ nodeSet r := by
    intro id hid
    rw [mem_singleton.mp hid, mem_nodeSet]
    exact hentry
  obtain ⟨visited, hsearch, hvisited, hsub⟩ := searchLoop_spec h.adjacency_of_mem
    (fun u _ v hv => (successors_mem_nodeSet hends u v hv).2) _ _ [] (SearchInv.init _ _) hfront
    (by simp) hfuel
  exact ⟨visited, hsearch, visited_length_iff hnd hvisited hsub⟩

/-- The peeling starts from the steps without a predecessor, in whatever order they come. -/
theorem peelInv_initialRoots (order : IterationOrder (String × Nat)) :
    PeelInv (successors r.transitions) (nodeSet r) ∅ (initialRoots order tables.indegree)
      (fun id => r.transitions.countP (fun t => t.toStepId == id)) := by
  refine PeelInv.init (fun v _ => ?_) (initialRoots_nodup _ _) (fun v => ?_)
  · exact (sum_successors_count (fun t ht => mem_nodeSet.mpr (hends t ht).1) v).symm
  · rw [mem_initialRoots, h.indegree, mem_nodeSet]
    by_cases hv : v ∈ r.stepIds
    · rw [if_pos hv, Option.some_inj]
      exact ⟨fun hzero => ⟨hv, hzero⟩, fun hzero => hzero.2⟩
    · rw [if_neg hv]
      exact ⟨fun hnone => by simp at hnone, fun hmem => absurd hmem.1 hv⟩

include hnd in
/-- The peeling returns, and its test is acyclicity. -/
theorem peel_of_tables (order : IterationOrder (String × Nat)) :
    ∃ visited, peelLoop tables.adjacency r.steps.length (initialRoots order tables.indegree) tables.indegree 0
        = .ok visited ∧
      (visited = r.steps.length ↔ ∀ id, ¬ TransGen (Step r) id id) := by
  have hedge := successors_mem_nodeSet hends
  have hdeg : ∀ id ∈ nodeSet r, tables.indegree.get? id
      = some (r.transitions.countP (fun t => t.toStepId == id)) := by
    intro id hid
    rw [h.indegree, if_pos (mem_nodeSet.mp hid)]
  have hfuel : (nodeSet r).card ≤ r.steps.length + (∅ : Finset String).card := by
    rw [card_nodeSet hnd]
    exact Nat.le_add_right _ _
  obtain ⟨popped, deg, hpeel, hfinal⟩ := peelLoop_spec h.adjacency_of_mem hedge r.steps.length
    (peelInv_initialRoots hends h order) hdeg hfuel
  refine ⟨popped.card, hpeel, ?_⟩
  have hacyclic := hfinal.popped_eq_iff_acyclic hedge
  unfold Acyclic at hacyclic
  rw [edge_eq_step] at hacyclic
  rw [← hacyclic, ← card_nodeSet hnd, card_eq_iff hfinal.popped_sub]

end

/-- **The validator decides well-formedness**: for every hash-map order it returns the decision of a
    well-formed graph and an error for any other, and it never panics. -/
theorem validateGraph_decides (r : FlowGraphRequest) : Exec.Decides (validateGraph order r) (WellFormed r)
      (fun d => d = ⟨true, r.steps.length, r.transitions.length⟩) := by
  -- one step per guard or loop of the source; each yields its field of `WellFormed`
  refine reject_bind (fun h he => ?_) (fun hpos => ?_)
  · have := h.steps_pos
    rw [he, length_nil] at this
    omega
  refine reject_bind (fun h => Nat.not_lt.mpr h.steps_le) (fun hsteps => ?_)
  refine reject_bind (fun h => Nat.not_lt.mpr h.transitions_le) (fun htrans => ?_)
  refine reject_bind (fun h => ?_) (fun hentry => ?_)
  · rw [Bool.not_eq_false, validStepId_iff]; exact h.entry_grammar
  rw [Bool.not_eq_false, validStepId_iff] at hentry
  refine (collectStepIds_decides r.steps []).bind
    (fun h => ⟨h.step_grammar, h.distinct, by simp⟩) (fun ids hids hideq => ?_)
  obtain ⟨hgrammar, hnd, -⟩ := hids
  have hmem : ∀ id, id ∈ ids ↔ id ∈ r.stepIds := by
    intro id
    rw [hideq, append_nil, mem_reverse]
    exact Iff.rfl
  refine reject_bind (fun h => ?_) (fun hdecl => ?_)
  · rw [not_not, hmem]; exact h.entry_declared
  rw [not_not, hmem] at hdecl
  have hempty : TablesInv ids [] (emptyTables r.steps) :=
    (emptyTables_inv r.steps).congr (fun id => (hmem id).symm)
  refine (addTransitions_decides r.transitions hempty (by simp)).bind (fun h => ⟨?_, ?_⟩)
    (fun tables hends htab => ?_)
  · intro t ht
    rw [hmem, hmem]; exact h.ends_declared t ht
  · exact h.deterministic
  obtain ⟨hends, hdet⟩ := hends
  simp only [hmem, nil_append] at hends hdet htab
  have htables : TablesInv r.stepIds r.transitions tables := htab.congr hmem
  obtain ⟨visited, hsearch, hreach⟩ := search_of_tables hnd hends htables hdecl
  rw [hsearch, Result.ok_bind]
  refine reject_bind (fun h => ?_) (fun hlen => ?_)
  · rw [not_not, hreach]; exact h.reachable
  rw [not_not, hreach] at hlen
  obtain ⟨peeled, hpeel, hacyclic⟩ := peel_of_tables hnd hends htables order
  rw [hpeel, Result.ok_bind]
  refine reject_bind (fun h => ?_) (fun hvisited => ?_)
  · rw [not_not, hacyclic]; exact h.acyclic
  rw [not_not, hacyclic] at hvisited
  refine Exec.decides_ok ⟨?_, Nat.not_lt.mp hsteps, Nat.not_lt.mp htrans, hentry, hgrammar, hnd, hdecl,
    hends, hdet, hlen, hvisited⟩ rfl
  exact length_pos_iff.mpr hpos

/-- **Acceptance is well-formedness.** `validateGraph` returns `Ok` iff the request is well formed and returns
    an error otherwise, for every hash-map order; listing the steps and transitions in another order, or
    iterating over the hash map in another order, does not change the verdict. -/
theorem validateGraph_ok_iff_wellFormed (r : FlowGraphRequest) : ((∃ d, validateGraph order r = .ok d) ↔ WellFormed r) ∧
    (¬ WellFormed r → ∃ e, validateGraph order r = .error (.err e)) ∧
    ∀ (order' : IterationOrder (String × Nat)) (r' : FlowGraphRequest),
      r'.entryStepId = r.entryStepId → r'.steps.Perm r.steps → r'.transitions.Perm r.transitions →
      ((∃ d, validateGraph order' r' = .ok d) ↔ ∃ d, validateGraph order r = .ok d) := by
  have hdec := validateGraph_decides order r
  refine ⟨hdec.ok_iff, ?_, ?_⟩
  · intro hnot
    rcases hdec with ⟨d, -, hwf, -⟩ | ⟨e, he, -⟩
    · exact absurd hwf hnot
    · exact ⟨e, he⟩
  · intro order' r' hentry hsteps htrans
    rw [hdec.ok_iff, (validateGraph_decides order' r').ok_iff]
    exact ⟨WellFormed.of_perm hentry.symm hsteps.symm htrans.symm, WellFormed.of_perm hentry hsteps htrans⟩

/-- The three-step approval flow: start, approve, end. -/
def approvalGraph : FlowGraphRequest where
  entryStepId := "start"
  steps := [⟨"start"⟩, ⟨"approve"⟩, ⟨"end"⟩]
  transitions := [⟨"start", "approve", .success⟩, ⟨"approve", "end", .approvalGranted⟩]

/-- The same flow with both lists reversed. -/
def approvalGraphReversed : FlowGraphRequest :=
  { approvalGraph with
    steps := approvalGraph.steps.reverse
    transitions := approvalGraph.transitions.reverse }

/-- The order of a hash map that yields its entries by key. -/
def keyOrder : IterationOrder (String × Nat) := ⟨id, fun l => List.Perm.refl l⟩

/-- The opposite order. -/
def reverseKeyOrder : IterationOrder (String × Nat) := ⟨List.reverse, reverse_perm⟩

theorem validateGraph_ok_iff_wellFormed_approvalGraph :
    WellFormed approvalGraph ∧ ∃ d, validateGraph reverseKeyOrder approvalGraphReversed = .ok d := by
  have h := validateGraph_ok_iff_wellFormed keyOrder approvalGraph
  have hok : ∃ d, validateGraph keyOrder approvalGraph = .ok d := ⟨⟨true, 3, 2⟩, by decide⟩
  refine ⟨h.1.mp hok, (h.2.2 reverseKeyOrder approvalGraphReversed rfl ?_ ?_).mpr hok⟩
  · exact reverse_perm _
  · exact reverse_perm _

end MartyCore.Flow
