import MartyCore.Lib.Method

/-!
# `Lib.Cells` — mutable cells that may refuse a write

A state shows a value in each cell. An operation writes one cell, or is refused with an error and leaves the state
alone; how many cells there are and what is refused does not change from write to write. `runAll_spec` says what any
run of such operations comes to: the outcome of each operation, and in each cell the last value that was written there.
-/

namespace MartyCore.Cells

variable {σ ε V Op : Type}

/-- Operations on states with cells. -/
structure Machine (σ ε V Op : Type) where
  apply : Op → Method σ ε Unit
  /-- The number of cells, and what they show. -/
  size : σ → Nat
  view : σ → Nat → V
  /-- The cell an operation writes, and the value. -/
  index : Op → Nat
  value : Op → V
  /-- The error an operation is refused with, if it is. -/
  refusal : σ → Op → Option ε

/-- **One step**: a refused operation returns its error and changes nothing; any other returns and writes its cell. -/
structure Machine.Lawful (machine : Machine σ ε V Op) : Prop where
  refused : ∀ s op e, machine.refusal s op = some e → Method.run (machine.apply op) s = (.error (.err e), s)
  accepted : ∀ s op, machine.refusal s op = none → ∃ s', Method.run (machine.apply op) s = (.ok (), s') ∧
    machine.view s' = Function.update (machine.view s) (machine.index op) (machine.value op) ∧
    machine.size s' = machine.size s ∧ machine.refusal s' = machine.refusal s

namespace Machine

variable (machine : Machine σ ε V Op)

/-- The operations one after the other, with the outcome of each. -/
def runAll : List Op → σ → List (Exec ε Unit) × σ
  | [], s => ([], s)
  | op :: ops, s =>
    let (outcome, s') := Method.run (machine.apply op) s
    let (outcomes, final) := runAll ops s'
    (outcome :: outcomes, final)

/-- The outcome of one operation. -/
def outcome (s : σ) (op : Op) : Exec ε Unit :=
  match machine.refusal s op with
  | some e => .error (.err e)
  | none => .ok ()

/-- The last value written to a cell. -/
def lastValue (s : σ) (ops : List Op) (i : Nat) : Option V :=
  ((ops.filter (fun op => (machine.refusal s op).isNone && decide (machine.index op = i))).getLast?).map machine.value

variable {machine}

/-- An operation either writes the last value of the shorter run or is forgotten. -/
theorem lastValue_cons (s : σ) (op : Op) (ops : List Op) (i : Nat) :
    machine.lastValue s (op :: ops) i =
      (machine.lastValue s ops i).or
        (if (machine.refusal s op).isNone && decide (machine.index op = i) then some (machine.value op) else none) := by
  unfold lastValue
  rw [List.filter_cons]
  split
  · rw [List.getLast?_cons]
    cases (List.filter _ ops).getLast? <;> rfl
  · rw [Option.or_none]

/-- What every operation keeps, a run keeps. -/
theorem runAll_keeps {P : σ → Prop} (hstep : ∀ s op, P s → P (Method.run (machine.apply op) s).2) (ops : List Op)
    {s : σ} (hs : P s) : P (machine.runAll ops s).2 := by
  induction ops generalizing s with
  | nil => exact hs
  | cons op ops ih => exact ih (hstep s op hs)

/-- **Any run**: the size and what is refused stay the same, every operation has the outcome the first state gives
    it, and each cell shows the last value written there. -/
theorem Lawful.runAll_spec (h : machine.Lawful) (ops : List Op) (s : σ) :
    machine.size (machine.runAll ops s).2 = machine.size s ∧
    (machine.runAll ops s).1 = ops.map (machine.outcome s) ∧
    ∀ i, machine.view (machine.runAll ops s).2 i = (machine.lastValue s ops i).getD (machine.view s i) := by
  induction ops generalizing s with
  | nil => exact ⟨rfl, rfl, fun _ => rfl⟩
  | cons op ops ih =>
    cases hrefusal : machine.refusal s op with
    | some e =>
      have hrun : machine.runAll (op :: ops) s =
          (.error (.err e) :: (machine.runAll ops s).1, (machine.runAll ops s).2) := by
        rw [runAll, h.refused s op e hrefusal]
      obtain ⟨hsame, houtcomes, hview⟩ := ih s
      rw [hrun]
      refine ⟨hsame, ?_, fun i => ?_⟩
      · rw [houtcomes, List.map_cons, outcome, hrefusal]
      · rw [hview i, lastValue_cons, hrefusal]
        simp
    | none =>
      obtain ⟨s', hstep, hwrite, hsize, hkeep⟩ := h.accepted s op hrefusal
      have hrun : machine.runAll (op :: ops) s = (.ok () :: (machine.runAll ops s').1, (machine.runAll ops s').2) := by
        rw [runAll, hstep]
      obtain ⟨hsame, houtcomes, hview⟩ := ih s'
      have hlast : ∀ i, machine.lastValue s' ops i = machine.lastValue s ops i := by
        intro i
        rw [lastValue, hkeep]
        rfl
      rw [hrun]
      refine ⟨hsame.trans hsize, ?_, fun i => ?_⟩
      · have houtcome : machine.outcome s' = machine.outcome s := by
          funext op'
          rw [outcome, hkeep]
          rfl
        rw [houtcomes, List.map_cons, houtcome]
        rw [outcome, hrefusal]
      · rw [hview i, lastValue_cons, hlast, hwrite, hrefusal]
        -- the cell the operation writes shows its value until a later one writes it
        by_cases hi : machine.index op = i
        · cases machine.lastValue s ops i <;> simp [hi]
        · cases machine.lastValue s ops i <;> simp [hi, Ne.symm hi]

end Machine
end MartyCore.Cells
