import Mathlib.Data.Fintype.Order
import Mathlib.Algebra.BigOperators.Group.Finset.Piecewise
import Mathlib.Algebra.Order.BigOperators.Group.Finset

/-!
# `Lib.Graph` — loop invariants for graph search and topological peeling

A directed multigraph is given by its successor lists `adj : α → List α`; parallel edges and self-loops
are allowed. Two classical loops run over such a graph, and this module owns what each of them keeps true,
independently of how a program stores the graph:

* **Search** (`SearchInv`): pop a node, skip it if it was visited, otherwise visit it and push its
  successors. When the frontier is empty the visited nodes are exactly the reachable ones
  (`SearchInv.mem_iff_reaches`). `searchCost` drops by exactly one per iteration, so it bounds the run.
* **Peeling** (`PeelInv`, Kahn's algorithm): pop a node of in-degree zero and release its successors. When
  no root is left, everything was popped exactly when the graph has no directed cycle
  (`PeelInv.popped_eq_iff_acyclic`).

A client proves that one iteration of its own loop is a `skip`/`visit` (resp. `pop`) step and reads the
final lemma off; no traversal is defined here.
-/

namespace MartyCore.Graph

open Relation List

variable {α : Type}

/-- There is an edge from `a` to `b`. -/
def Edge (adj : α → List α) (a b : α) : Prop := b ∈ adj a

/-- `b` is reachable from `a` along edges. -/
abbrev Reaches (adj : α → List α) : α → α → Prop := ReflTransGen (Edge adj)

/-- No node lies on a directed cycle. -/
def Acyclic (adj : α → List α) : Prop := ∀ a, ¬ TransGen (Edge adj) a a

/-! ## Search -/

/-- The invariant of a search from `s`: everything seen is reachable, and every successor of a visited
    node is visited or still queued. -/
structure SearchInv (adj : α → List α) (s : α) (frontier visited : List α) : Prop where
  nodup : visited.Nodup
  sound_frontier : ∀ x ∈ frontier, Reaches adj s x
  sound_visited : ∀ x ∈ visited, Reaches adj s x
  start : s ∈ visited ∨ s ∈ frontier
  closed : ∀ x ∈ visited, ∀ y ∈ adj x, y ∈ visited ∨ y ∈ frontier

namespace SearchInv

variable {adj : α → List α} {s x : α} {frontier visited : List α}

theorem init (adj : α → List α) (s : α) : SearchInv adj s [s] [] where
  nodup := nodup_nil
  sound_frontier := by
    intro x hx
    rw [mem_singleton.mp hx]
  sound_visited := by intro x hx; simp at hx
  start := .inr (by simp)
  closed := by intro x hx; simp at hx

/-- The next node leaves the frontier, for the visited ones. -/
theorem popped {y : α} (h : y ∈ visited ∨ y ∈ x :: frontier) : y ∈ x :: visited ∨ y ∈ frontier := by
  rw [mem_cons] at h ⊢
  tauto

theorem skip (h : SearchInv adj s (x :: frontier) visited) (hx : x ∈ visited) : SearchInv adj s frontier visited where
  nodup := h.nodup
  sound_frontier := fun y hy => h.sound_frontier y (mem_cons_of_mem x hy)
  sound_visited := h.sound_visited
  start := (popped h.start).imp_left (mem_of_mem_cons_of_mem · hx)
  closed := fun y hy z hz => (popped (h.closed y hy z hz)).imp_left (mem_of_mem_cons_of_mem · hx)

theorem visit (h : SearchInv adj s (x :: frontier) visited) (hx : x ∉ visited) :
    SearchInv adj s (frontier ++ adj x) (x :: visited) where
  nodup := nodup_cons.mpr ⟨hx, h.nodup⟩
  sound_frontier := by
    intro y hy
    rcases mem_append.mp hy with hf | ha
    · exact h.sound_frontier y (mem_cons_of_mem x hf)
    · exact (h.sound_frontier x mem_cons_self).tail ha
  sound_visited := by
    intro y hy
    rcases mem_cons.mp hy with rfl | hv
    · exact h.sound_frontier y mem_cons_self
    · exact h.sound_visited y hv
  start := (popped h.start).imp_right (mem_append_left _)
  closed := by
    intro y hy z hz
    rcases mem_cons.mp hy with rfl | hv
    · exact .inr (mem_append_right _ hz)
    · exact (popped (h.closed y hv z hz)).imp_right (mem_append_left _)

/-- **A finished search visited exactly the reachable nodes.** -/
theorem mem_iff_reaches (h : SearchInv adj s [] visited) (y : α) : y ∈ visited ↔ Reaches adj s y := by
  refine ⟨h.sound_visited y, fun hr => ?_⟩
  induction hr with
  | refl => exact h.start.elim id (fun hf => by simp at hf)
  | tail _ hedge ih => exact (h.closed _ ih _ hedge).elim id (fun hf => by simp at hf)

end SearchInv

/-- What a search still has to do: the queued nodes plus the out-edges of the unvisited ones. -/
def searchCost [DecidableEq α] (adj : α → List α) (U : Finset α) (frontier visited : List α) : Nat :=
  frontier.length + ∑ u ∈ U \ visited.toFinset, (adj u).length

section

variable [DecidableEq α] (adj : α → List α) {U : Finset α} {x : α} {visited : List α}

theorem searchCost_skip (U : Finset α) (x : α) (frontier visited : List α) :
    searchCost adj U frontier visited + 1 = searchCost adj U (x :: frontier) visited := by
  simp only [searchCost, length_cons]
  omega

/-- Visiting `x` trades its queue slot for its out-edges, which leave the sum. -/
theorem searchCost_visit (frontier : List α) (hU : x ∈ U) (hx : x ∉ visited) :
    searchCost adj U (frontier ++ adj x) (x :: visited) + 1
      = searchCost adj U (x :: frontier) visited := by
  have hmem : x ∈ U \ visited.toFinset := by simp [hU, hx]
  have hset : U \ (x :: visited).toFinset = (U \ visited.toFinset).erase x := by
    ext y
    simp only [toFinset_cons, Finset.mem_sdiff, Finset.mem_insert, Finset.mem_erase]
    tauto
  have hsum := Finset.add_sum_erase _ (fun u => (adj u).length) hmem
  simp only [searchCost, hset, length_append, length_cons]
  omega

end

/-! ## Peeling -/

/-- The invariant of peeling over the node set `U`: `deg` counts the in-edges from unpopped nodes, the
    queue holds exactly the unpopped nodes of degree zero, and the popped nodes are closed under
    predecessors and lie on no cycle. -/
structure PeelInv [DecidableEq α] (adj : α → List α) (U popped : Finset α) (roots : List α)
    (deg : α → Nat) : Prop where
  popped_sub : popped ⊆ U
  roots_nodup : roots.Nodup
  mem_roots : ∀ v, v ∈ roots ↔ v ∈ U ∧ v ∉ popped ∧ deg v = 0
  deg_eq : ∀ v ∈ U, deg v = ∑ u ∈ U \ popped, (adj u).count v
  pred_mem : ∀ v ∈ popped, ∀ u, v ∈ adj u → u ∈ popped
  no_cycle : ∀ v ∈ popped, ¬ TransGen (Edge adj) v v

namespace PeelInv

variable [DecidableEq α] {adj : α → List α} {U popped : Finset α} {x : α} {roots : List α}
  {deg : α → Nat}

theorem init (hdeg : ∀ v ∈ U, deg v = ∑ u ∈ U, (adj u).count v) (hnd : roots.Nodup)
    (hroots : ∀ v, v ∈ roots ↔ v ∈ U ∧ deg v = 0) : PeelInv adj U ∅ roots deg where
  popped_sub := Finset.empty_subset U
  roots_nodup := hnd
  mem_roots := by intro v; simp [hroots v]
  deg_eq := by intro v hv; simpa using hdeg v hv
  pred_mem := by intro v hv; simp at hv
  no_cycle := by intro v hv; simp at hv

theorem root_mem (h : PeelInv adj U popped (x :: roots) deg) : x ∈ U ∧ x ∉ popped ∧ deg x = 0 :=
  (h.mem_roots x).mp mem_cons_self

/-- The out-edges of the next root are all still counted: releasing them never underflows. -/
theorem count_le_deg (h : PeelInv adj U popped (x :: roots) deg) {v : α} (hv : v ∈ U) : (adj x).count v ≤ deg v := by
  obtain ⟨hxU, hxp, -⟩ := h.root_mem
  rw [h.deg_eq v hv]
  exact Finset.single_le_sum (f := fun u => (adj u).count v) (fun _ _ => Nat.zero_le _)
    (Finset.mem_sdiff.mpr ⟨hxU, hxp⟩)

/-- Every predecessor of a root has been popped. -/
theorem pred_popped (h : PeelInv adj U popped roots deg) (hU : ∀ u v, v ∈ adj u → u ∈ U ∧ v ∈ U)
    (hx : x ∈ roots) {u : α} (hu : x ∈ adj u) : u ∈ popped := by
  obtain ⟨hxU, -, hdeg⟩ := (h.mem_roots x).mp hx
  rw [h.deg_eq x hxU] at hdeg
  by_contra hup
  have hzero := (Finset.sum_eq_zero_iff.mp hdeg) u (Finset.mem_sdiff.mpr ⟨(hU u x hu).1, hup⟩)
  exact (count_pos_iff.mpr hu).ne' hzero

/-- **One peeling step.** Popping the root `x`, lowering the degree of its successors and queueing those
    that reach zero keeps the invariant. -/
theorem pop (h : PeelInv adj U popped (x :: roots) deg) (hU : ∀ u v, v ∈ adj u → u ∈ U ∧ v ∈ U)
    {roots' : List α} {deg' : α → Nat} (hdeg : ∀ v ∈ U, deg' v = deg v - (adj x).count v)
    (hnd : roots'.Nodup) (hroots : ∀ v, v ∈ roots' ↔ v ∈ roots ∨ (v ∈ adj x ∧ deg' v = 0)) :
    PeelInv adj U (insert x popped) roots' deg' := by
  obtain ⟨hxU, hxp, hx0⟩ := h.root_mem
  have hxroots : x ∉ roots := (nodup_cons.mp h.roots_nodup).1
  -- `x` has no self-loop: its degree is zero while it is unpopped
  have hself : (adj x).count x = 0 := Nat.le_zero.mp (hx0 ▸ h.count_le_deg hxU)
  have hpred : ∀ u, x ∈ adj u → u ∈ popped := fun u => h.pred_popped hU mem_cons_self
  refine ⟨Finset.insert_subset hxU h.popped_sub, hnd, ?_, ?_, ?_, ?_⟩
  · intro v
    rw [hroots v]
    constructor
    · rintro (hv | ⟨hv, hv0⟩)
      · obtain ⟨hvU, hvp, hv0⟩ := (h.mem_roots v).mp (mem_cons_of_mem x hv)
        have hvx : v ≠ x := fun he => hxroots (he ▸ hv)
        refine ⟨hvU, ?_, by rw [hdeg v hvU, hv0, Nat.zero_sub]⟩
        simp [hvx, hvp]
      · have hvU : v ∈ U := (hU x v hv).2
        have hvx : v ≠ x := by
          rintro rfl
          exact (count_pos_iff.mpr hv).ne' hself
        -- a popped node has all its predecessors popped, so `x` would be popped already
        have hvp : v ∉ popped := fun hvp => hxp (h.pred_mem v hvp x hv)
        exact ⟨hvU, by simp [hvx, hvp], hv0⟩
    · rintro ⟨hvU, hvp, hv0⟩
      rw [Finset.mem_insert, not_or] at hvp
      by_cases hv : v ∈ adj x
      · exact .inr ⟨hv, hv0⟩
      · left
        have h0 : deg v = 0 := by
          rw [hdeg v hvU, count_eq_zero_of_not_mem hv] at hv0
          simpa using hv0
        exact ((mem_cons.mp ((h.mem_roots v).mpr ⟨hvU, hvp.2, h0⟩)).resolve_left hvp.1)
  · intro v hv
    have hset : U \ insert x popped = (U \ popped).erase x := by
      ext y
      simp only [Finset.mem_sdiff, Finset.mem_insert, Finset.mem_erase]
      tauto
    have hsum := Finset.add_sum_erase _ (fun u => (adj u).count v)
      (Finset.mem_sdiff.mpr ⟨hxU, hxp⟩)
    rw [hdeg v hv, h.deg_eq v hv, hset]
    omega
  · intro v hv u hu
    rcases Finset.mem_insert.mp hv with rfl | hv
    · exact Finset.mem_insert_of_mem (hpred u hu)
    · exact Finset.mem_insert_of_mem (h.pred_mem v hv u hu)
  · intro v hv hcyc
    rcases Finset.mem_insert.mp hv with rfl | hv
    · -- a cycle through `v` enters it from a popped node, which would lie on the same cycle
      obtain ⟨u, hvu, huv⟩ := TransGen.tail'_iff.mp hcyc
      exact h.no_cycle u (hpred u huv) (TransGen.head' huv hvu)
    · exact h.no_cycle v hv hcyc

/-- While unpopped nodes remain and no root is left, every one of them has an unpopped predecessor. -/
theorem exists_pred (h : PeelInv adj U popped [] deg) {v : α} (hv : v ∈ U \ popped) : ∃ u ∈ U \ popped, v ∈ adj u := by
  obtain ⟨hvU, hvp⟩ := Finset.mem_sdiff.mp hv
  have hne : deg v ≠ 0 := by
    intro h0
    have := (h.mem_roots v).mpr ⟨hvU, hvp, h0⟩
    simp at this
  rw [h.deg_eq v hvU] at hne
  obtain ⟨u, hu, hcount⟩ := Finset.exists_ne_zero_of_sum_ne_zero hne
  exact ⟨u, hu, count_pos_iff.mp (Nat.pos_of_ne_zero hcount)⟩

/-- **A finished peeling popped everything exactly when the graph is acyclic.** -/
theorem popped_eq_iff_acyclic (h : PeelInv adj U popped [] deg)
    (hU : ∀ u v, v ∈ adj u → u ∈ U ∧ v ∈ U) : popped = U ↔ Acyclic adj := by
  constructor
  · rintro rfl a hcyc
    obtain ⟨b, hab, -⟩ := TransGen.head'_iff.mp hcyc
    exact h.no_cycle a (hU a b hab).1 hcyc
  · intro hac
    by_contra hne
    obtain ⟨v, hvU, hvp⟩ := Finset.exists_of_ssubset (lt_of_le_of_ne h.popped_sub hne)
    -- on the finite set of leftovers the cycle-free order has a minimal element, yet each has a predecessor
    let S := {w : α // w ∈ U \ popped}
    let r : S → S → Prop := fun a b => TransGen (Edge adj) a.1 b.1
    have : Std.Irrefl r := ⟨fun a haa => hac a.1 haa⟩
    have hwf : WellFounded r := Finite.wellFounded_of_trans_of_irrefl r
    obtain ⟨m, -, hmin⟩ := hwf.has_min Set.univ ⟨⟨v, Finset.mem_sdiff.mpr ⟨hvU, hvp⟩⟩, trivial⟩
    obtain ⟨u, hu, hum⟩ := h.exists_pred m.2
    exact hmin ⟨u, hu⟩ trivial (TransGen.single hum)

end PeelInv
end MartyCore.Graph
