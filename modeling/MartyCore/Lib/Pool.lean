import Mathlib.Algebra.Order.Ring.Nat
import Mathlib.Data.List.Perm.Basic
import Mathlib.Data.List.Range

/-!
# `Lib.Pool` — workers that take jobs from a shared counter

A caller tries to start some workers, each of which may fail to start, and then works itself. A worker takes the next
number from the counter, calls the job of that number and keeps what it returns, until no number is left. A job that
panics ends its worker, which drops its results and stops the counter. The caller ends when all workers have.

The counter is linearizable: taking a number is one step. A run is any interleaving of the steps of all workers and of
the starts (`Runs`). Every run ends (`Runs.length_le`, `exists_step`), and where no job panics it has called every job
once and the workers together hold every result once (`ended_spec`).
-/

namespace MartyCore.Pool

open List

variable {π ρ : Type}

/-! ## Runs -/

/-- Where a worker is, and its results so far. -/
inductive Worker (π ρ : Type) where
  | claiming (results : List ρ)
  | calling (results : List ρ) (job : Nat)
  | unwinding (payload : π)
  | finished (results : List ρ)

structure State (π ρ : Type) where
  next : Nat
  stopped : Bool
  firstPanic : Option π
  /-- The attempts to start a worker that are left. -/
  left : Nat
  /-- The caller is the first. -/
  workers : List (Worker π ρ)
  /-- The jobs that have been called. -/
  calls : List Nat

def start (left : Nat) : State π ρ := ⟨0, false, none, left, [.claiming []], []⟩

section

variable (call : Nat → Except π ρ) (jobs : Nat)

/-- A step of a worker, with what it does to the shared state. -/
inductive Acts (s : State π ρ) : Worker π ρ → State π ρ → Worker π ρ → Prop
  | claims {results : List ρ} (hstopped : s.stopped = false) (hnext : s.next < jobs) :
      Acts s (.claiming results) { s with next := s.next + 1 } (.calling results s.next)
  | ends {results : List ρ} (hover : s.stopped = true ∨ jobs ≤ s.next) : Acts s (.claiming results) s (.finished results)
  | returns {results : List ρ} {job : Nat} {r : ρ} (hcall : call job = .ok r) :
      Acts s (.calling results job) { s with calls := s.calls ++ [job] } (.claiming (results ++ [r]))
  | panics {results : List ρ} {job : Nat} {p : π} (hcall : call job = .error p) :
      Acts s (.calling results job) { s with calls := s.calls ++ [job] } (.unwinding p)
  | records {p : π} :
      Acts s (.unwinding p) { s with stopped := true, firstPanic := s.firstPanic.or (some p) } (.finished [])

/-- A step of the pool. The caller works when its starts are over. -/
inductive Step : State π ρ → State π ρ → Prop
  | spawns {s : State π ρ} {left : Nat} (hleft : s.left = left + 1) :
      Step s { s with left := left, workers := s.workers ++ [.claiming []] }
  | spawnFails {s : State π ρ} {left : Nat} (hleft : s.left = left + 1) : Step s { s with left := left }
  | acts {s s' : State π ρ} {i : Nat} {w w' : Worker π ρ} (hi : s.workers[i]? = some w) (hcaller : i = 0 → s.left = 0)
      (hacts : Acts call jobs s w s' w') : Step s { s' with workers := s.workers.set i w' }

/-- So many steps. -/
inductive Runs (s : State π ρ) : Nat → State π ρ → Prop
  | none : Runs s 0 s
  | step {n : Nat} {s' s'' : State π ρ} (hruns : Runs s n s') (hstep : Step call jobs s' s'') : Runs s (n + 1) s''

end

def Worker.isFinished : Worker π ρ → Bool
  | .finished _ => true
  | _ => false

/-- All workers have ended, and no start is left. -/
def Ended (s : State π ρ) : Prop := s.left = 0 ∧ ∀ w ∈ s.workers, w.isFinished = true

def Worker.results : Worker π ρ → List ρ
  | .claiming results => results
  | .calling results _ => results
  | .unwinding _ => []
  | .finished results => results

/-- The results of the workers, in the order they were started. -/
def State.results (s : State π ρ) : List ρ := s.workers.flatMap Worker.results

variable {call : Nat → Except π ρ} {jobs i : Nat} {s s' : State π ρ}

theorem exists_split {l : List (Worker π ρ)} {w : Worker π ρ} (h : l[i]? = some w) :
    ∃ before after, l = before ++ w :: after ∧ ∀ w', l.set i w' = before ++ w' :: after := by
  obtain ⟨hi, rfl⟩ := List.getElem?_eq_some_iff.mp h
  refine ⟨l.take i, l.drop (i + 1), ?_, ?_⟩
  · rw [getElem_cons_drop, take_append_drop]
  · intro w'
    exact set_eq_take_append_cons_drop.trans (if_pos hi)

/-! ## Every run ends -/

def Worker.weight : Worker π ρ → Nat
  | .claiming _ => 1
  | .calling _ _ => 2
  | .unwinding _ => 1
  | .finished _ => 0

/-- A bound on the steps that are left. -/
def State.measure (jobs : Nat) (s : State π ρ) : Nat :=
  2 * s.left + 2 * (jobs - s.next) + (s.workers.map Worker.weight).sum

theorem Acts.measure_lt {w w' : Worker π ρ} (h : Acts call jobs s w s' w') :
    2 * (jobs - s'.next) + w'.weight < 2 * (jobs - s.next) + w.weight := by
  cases h with
  | claims _ hnext =>
    simp only [Worker.weight]
    omega
  | _ => simp [Worker.weight]

theorem Acts.left_eq {w w' : Worker π ρ} (h : Acts call jobs s w s' w') : s'.left = s.left := by
  cases h <;> rfl

theorem Step.measure_lt (h : Step call jobs s s') : s'.measure jobs < s.measure jobs := by
  cases h with
  | spawns hleft =>
    simp only [State.measure, hleft, map_append, sum_append, map_cons, map_nil, Worker.weight]
    simp
    omega
  | spawnFails hleft =>
    simp only [State.measure, hleft]
    omega
  | acts hi _ hacts =>
    obtain ⟨before, after, hworkers, hset⟩ := exists_split hi
    have hlt := hacts.measure_lt
    simp only [State.measure, hacts.left_eq, hset]
    simp only [hworkers, map_append, map_cons, sum_append, sum_cons]
    omega

/-- **No run is longer than the measure of its start.** -/
theorem Runs.length_le {n : Nat} (h : Runs call jobs s n s') : n + s'.measure jobs ≤ s.measure jobs := by
  induction h with
  | none => omega
  | step _ hstep ih =>
    have hlt := hstep.measure_lt
    omega

theorem measure_start (jobs left : Nat) : (start left : State π ρ).measure jobs = 2 * left + 2 * jobs + 1 := by
  simp [start, State.measure, Worker.weight]

/-- **A pool that has not ended can go on.** -/
theorem exists_step (h : ¬ Ended s) : ∃ s', Step call jobs s s' := by
  by_cases hleft : s.left = 0
  · have hworking : ¬ ∀ w ∈ s.workers, w.isFinished = true := fun hall => h ⟨hleft, hall⟩
    push Not at hworking
    obtain ⟨w, hw, hunfinished⟩ := hworking
    obtain ⟨i, hi⟩ := mem_iff_getElem?.mp hw
    cases w with
    | claiming results =>
      by_cases hover : s.stopped = true ∨ jobs ≤ s.next
      · exact ⟨_, .acts hi (fun _ => hleft) (.ends hover)⟩
      · rw [not_or, Bool.not_eq_true, not_le] at hover
        exact ⟨_, .acts hi (fun _ => hleft) (.claims hover.1 hover.2)⟩
    | calling results job =>
      cases hcall : call job with
      | ok r => exact ⟨_, .acts hi (fun _ => hleft) (.returns hcall)⟩
      | error p => exact ⟨_, .acts hi (fun _ => hleft) (.panics hcall)⟩
    | unwinding p => exact ⟨_, .acts hi (fun _ => hleft) .records⟩
    | finished results => exact absurd rfl hunfinished
  · obtain ⟨left, hsucc⟩ := Nat.exists_eq_succ_of_ne_zero hleft
    exact ⟨_, .spawnFails hsucc⟩

/-! ## Every job is called once -/

def Worker.inFlight : Worker π ρ → List Nat
  | .calling _ job => [job]
  | _ => []

/-- The counter is at the number of jobs that were taken; a job that was taken is being called or was. -/
structure Fair (call : Nat → Except π ρ) (jobs : Nat) (s : State π ρ) : Prop where
  running : s.stopped = false ∧ s.firstPanic = none
  next_le : s.next ≤ jobs
  taken : (s.calls ++ s.workers.flatMap Worker.inFlight).Perm (List.range s.next)
  results : (s.results.map Except.ok).Perm (s.calls.map call)
  calm : ∀ w ∈ s.workers, ∀ p, w ≠ .unwinding p
  finished : ∀ w ∈ s.workers, w.isFinished = true → jobs ≤ s.next
  caller : s.workers ≠ []

theorem fair_start (call : Nat → Except π ρ) (jobs left : Nat) : Fair call jobs (start left) where
  running := ⟨rfl, rfl⟩
  next_le := Nat.zero_le _
  taken := .refl _
  results := .refl _
  calm := by simp [start]
  finished := by simp [start, Worker.isFinished]
  caller := by simp [start]

theorem perm_take_out {α : Type} (x : α) (a b c : List α) : (a ++ (b ++ x :: c)).Perm (x :: (a ++ (b ++ c))) := by
  rw [← append_assoc, ← append_assoc]
  exact perm_middle

section

variable (hcall : ∀ job < jobs, ∃ r, call job = .ok r)

include hcall

/-- One step of one worker. -/
theorem Fair.acts (h : Fair call jobs s) {w w' : Worker π ρ} (hi : s.workers[i]? = some w)
    (hacts : Acts call jobs s w s' w') : Fair call jobs { s' with workers := s.workers.set i w' } := by
  obtain ⟨before, after, hworkers, hset⟩ := exists_split hi
  have htaken := h.taken
  have hresults := h.results
  have hcalm := h.calm
  have hfinished := h.finished
  simp only [State.results, hworkers, flatMap_append, flatMap_cons] at htaken hresults
  simp only [hworkers, forall_mem_append, forall_mem_cons] at hcalm hfinished
  have hothers : (∀ p, w' ≠ .unwinding p) → ∀ v ∈ before ++ w' :: after, ∀ p, v ≠ .unwinding p := by
    simp only [forall_mem_append, forall_mem_cons]
    exact fun hw' => ⟨hcalm.1, hw', hcalm.2.2⟩
  rw [hset]
  cases hacts with
  | claims _ hnext =>
    refine ⟨h.running, hnext, ?_, ?_, hothers nofun, ?_, by simp⟩
    · simp only [flatMap_append, flatMap_cons, Worker.inFlight, nil_append, singleton_append,
        range_succ] at htaken ⊢
      exact ((perm_take_out s.next _ _ _).trans (htaken.cons _)).trans (perm_append_singleton _ _).symm
    · simpa [State.results, Worker.results] using hresults
    · simp only [forall_mem_append, forall_mem_cons]
      exact ⟨fun w hw hend => Nat.le_succ_of_le (hfinished.1 w hw hend), nofun,
        fun w hw hend => Nat.le_succ_of_le (hfinished.2.2 w hw hend)⟩
  | ends hover =>
    have hjobs : jobs ≤ s.next := by
      rcases hover with hstopped | hjobs
      · rw [h.running.1] at hstopped
        cases hstopped
      · exact hjobs
    refine ⟨h.running, h.next_le, ?_, ?_, hothers nofun, fun _ _ _ => hjobs, by simp⟩
    · simpa [Worker.inFlight] using htaken
    · simpa [State.results, Worker.results] using hresults
  | returns hr =>
    refine ⟨h.running, h.next_le, ?_, ?_, hothers nofun, ?_, by simp⟩
    · simp only [flatMap_append, flatMap_cons, Worker.inFlight, nil_append, singleton_append,
        append_assoc] at htaken ⊢
      exact (perm_middle.symm.append_left s.calls).trans htaken
    · simp only [State.results, flatMap_append, flatMap_cons, Worker.results, map_append, map_cons,
        map_nil, append_assoc, singleton_append, hr] at hresults ⊢
      exact ((perm_take_out _ _ _ _).trans (hresults.cons _)).trans (perm_append_singleton _ _).symm
    · simp only [forall_mem_append, forall_mem_cons]
      exact ⟨hfinished.1, nofun, hfinished.2.2⟩
  | @panics results job p hpanic =>
    have htaken' : job ∈ List.range s.next := by
      rw [← htaken.mem_iff]
      simp [Worker.inFlight]
    obtain ⟨r, hr⟩ := hcall job ((mem_range.mp htaken').trans_le h.next_le)
    rw [hr] at hpanic
    cases hpanic
  | records => exact absurd rfl (hcalm.2.1 _)

theorem Fair.step (h : Fair call jobs s) (hstep : Step call jobs s s') : Fair call jobs s' := by
  cases hstep with
  | spawns _ =>
    refine ⟨h.running, h.next_le, ?_, ?_, ?_, ?_, by simp⟩
    · simpa [Worker.inFlight] using h.taken
    · simpa [State.results, Worker.results] using h.results
    · simp only [forall_mem_append, forall_mem_cons]
      exact ⟨h.calm, nofun, nofun⟩
    · simp only [forall_mem_append, forall_mem_cons]
      exact ⟨h.finished, nofun, nofun⟩
  | spawnFails _ => exact ⟨h.running, h.next_le, h.taken, h.results, h.calm, h.finished, h.caller⟩
  | acts hi _ hacts => exact Fair.acts hcall h hi hacts

theorem Fair.runs (h : Fair call jobs s) {n : Nat} (hruns : Runs call jobs s n s') : Fair call jobs s' := by
  induction hruns with
  | none => exact h
  | step _ hstep ih => exact Fair.step hcall ih hstep

/-- **A run without panics that has ended has called every job once, and holds every result once.** -/
theorem ended_spec {left n : Nat} (hruns : Runs call jobs (start left) n s) (hended : Ended s) :
    s.firstPanic = none ∧ s.calls.Perm (List.range jobs) ∧
      (s.results.map Except.ok).Perm ((List.range jobs).map call) := by
  have h := Fair.runs hcall (fair_start call jobs left) hruns
  obtain ⟨w, hw⟩ := exists_mem_of_ne_nil _ h.caller
  have hnext : s.next = jobs := Nat.le_antisymm h.next_le (h.finished w hw (hended.2 w hw))
  have hidle : s.workers.flatMap Worker.inFlight = [] := by
    rw [flatMap_eq_nil_iff]
    intro w hw
    have hfinished := hended.2 w hw
    cases w with
    | finished results => rfl
    | _ => cases hfinished
  have hcalls : s.calls.Perm (List.range jobs) := by
    have htaken := h.taken
    rw [hidle, append_nil, hnext] at htaken
    exact htaken
  exact ⟨h.running.2, hcalls, h.results.trans (hcalls.map call)⟩

end

end MartyCore.Pool
