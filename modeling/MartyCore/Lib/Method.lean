import MartyCore.Lib.Exec

/-!
# `Lib.Method` — methods on mutable state that may fail

A Rust method with `&mut self` that returns `Result` keeps whatever it has written when it fails. `Method`
models exactly that: the state comes back with the error too, so "a failed call changes nothing" is a theorem
about a method and not a property of the monad.

`Commits` is that theorem together with what a successful call establishes. Its rules follow a method's body:
read the state, make fallible calls that do not touch it, write once and return.
-/

namespace MartyCore

/-- A method on the state `σ` with result `α` and error `ε`. -/
abbrev Method (σ ε α : Type) := ExceptT (Fault ε) (StateM σ) α

namespace Method

variable {σ ε α β : Type}

/-- The outcome of a method and the state it leaves. -/
def run (x : Method σ ε α) (s : σ) : Exec ε α × σ := StateT.run (ExceptT.run x) s

/-- A fallible call that does not touch the state, followed by `?`. -/
def call (x : Exec ε α) : Method σ ε α := ExceptT.mk (pure x)

@[simp] theorem run_get_bind (f : σ → Method σ ε β) (s : σ) : run (get >>= f) s = run (f s) s := rfl

/-- A call that succeeds hands its result on. -/
theorem run_call_bind {x : Exec ε α} {a : α} (h : x = .ok a) (f : α → Method σ ε β) (s : σ) :
    run (call x >>= f) s = run (f a) s := by
  rw [h]
  rfl

variable {e : Fault ε}

/-- A call that fails ends the method in the state it was made in. -/
theorem run_call_error_bind {x : Exec ε α} (h : x = .error e) (f : α → Method σ ε β) (s : σ) :
    run (call x >>= f) s = (.error e, s) := by
  rw [h]
  rfl

variable {f : α → Method σ ε β} {s' s : σ} {b : β}

/-- A method that has succeeded made a call that did. -/
theorem run_call_bind_ok_iff {x : Exec ε α} :
    run (call x >>= f) s = (.ok b, s') ↔ ∃ a, x = .ok a ∧ run (f a) s = (.ok b, s') := by
  cases x with
  | error e =>
    rw [run_call_error_bind rfl]
    simp
  | ok a =>
    rw [run_call_bind rfl]
    simp

/-- A method that has failed made a call that did, or failed later. -/
theorem of_run_call_bind_error {x : Exec ε α} (h : run (call x >>= f) s = (.error e, s')) :
    x = .error e ∨ ∃ a, run (f a) s = (.error e, s') := by
  cases x with
  | error e' => exact .inl (congrArg Except.error (Except.error.inj (Prod.mk.inj h).1))
  | ok a => exact .inr ⟨a, h⟩

@[simp] theorem run_set_bind (f : PUnit → Method σ ε β) (s s' : σ) : run (set s' >>= f) s = run (f ()) s' := rfl

@[simp] theorem run_set (s s' : σ) : run (set s' : Method σ ε PUnit) s = (.ok (), s') := rfl

@[simp] theorem run_set_pure (s s' : σ) (a : α) :
    run (set s' >>= fun _ => (pure a : Method σ ε α)) s = (.ok a, s') := rfl

variable {x : Method σ ε α}

theorem run_bind {r : Exec ε α} (h : run x s = (r, s')) :
    run (x >>= f) s = run (ExceptT.mk (ExceptT.bindCont f r)) s' := by
  show (match run x s with | (r, s'') => ExceptT.bindCont f r s'') = _
  rw [h]
  rfl

/-- The rest runs on what a method returns, in the state it leaves. -/
theorem run_bind_ok {a : α} (h : run x s = (.ok a, s')) : run (x >>= f) s = run (f a) s' := run_bind h

theorem run_bind_error (h : run x s = (.error e, s')) : run (x >>= f) s = (.error e, s') := run_bind h

/-- A transaction: when the body fails, what it has written is taken back. -/
def atomically (x : Method σ ε α) : Method σ ε α :=
  ExceptT.mk (fun s =>
    match run x s with
    | (.ok a, s') => (.ok a, s')
    | (.error e, _) => (.error e, s))

theorem run_atomically (s : σ) : run (atomically x) s =
    match run x s with
    | (.ok a, s') => (.ok a, s')
    | (.error e, _) => (.error e, s) := rfl

theorem run_atomically_ok {a : α} (h : run x s = (.ok a, s')) : run (atomically x) s = (.ok a, s') := by
  rw [run_atomically, h]

theorem run_atomically_error (h : run x s = (.error e, s')) : run (atomically x) s = (.error e, s) := by
  rw [run_atomically, h]

/-- **Called in `s`, the method either fails and leaves `s`, or succeeds with a result and a new state
    satisfying `Q`.** -/
def Commits (x : Method σ ε α) (s : σ) (Q : α → σ → Prop) : Prop :=
  (∃ e, run x s = (.error e, s)) ∨ ∃ a s', run x s = (.ok a, s') ∧ Q a s'

variable {s : σ} {Q : β → σ → Prop}

theorem Commits.get_bind {f : σ → Method σ ε β} (h : Commits (f s) s Q) : Commits (get >>= f) s Q := h

theorem Commits.call_bind {x : Exec ε α} (h : ∀ a, x = .ok a → Commits (f a) s Q) : Commits (call x >>= f) s Q := by
  cases x with
  | error e => exact .inl ⟨e, rfl⟩
  | ok a => exact h a rfl

theorem Commits.set_pure (h : Q b s') : Commits (set s' >>= fun _ => (pure b : Method σ ε β)) s Q :=
  .inr ⟨b, s', rfl, h⟩

/-- What follows without touching the state. -/
theorem Commits.bind_pure (h : Commits x s (fun _ => Q b)) :
    Commits (x >>= fun _ => (pure b : Method σ ε β)) s Q := by
  rcases h with ⟨e, h⟩ | ⟨a, s', h, hQ⟩
  · exact .inl ⟨e, run_bind_error h⟩
  · exact .inr ⟨b, s', run_bind_ok h, hQ⟩

variable {x : Method σ ε β}

/-- A transaction commits whatever its body does. -/
theorem commits_atomically (h : ∀ b s', run x s = (.ok b, s') → Q b s') :
    Commits (atomically x) s Q := by
  rcases hrun : run x s with ⟨outcome, s'⟩
  cases outcome with
  | error e => exact .inl ⟨e, run_atomically_error hrun⟩
  | ok b => exact .inr ⟨b, s', run_atomically_ok hrun, h b s' hrun⟩

/-- What a failed call leaves. -/
theorem Commits.of_error (h : Commits x s Q) (hrun : run x s = (.error e, s')) :
    s' = s := by
  rcases h with ⟨e', h⟩ | ⟨b, s'', h, -⟩
  · rw [h] at hrun
    exact ((Prod.mk.injEq ..).mp hrun).2.symm
  · rw [h] at hrun
    cases hrun

/-- What a successful call establishes. -/
theorem Commits.of_ok (h : Commits x s Q)
    (hrun : run x s = (.ok b, s')) : Q b s' := by
  rcases h with ⟨e, h⟩ | ⟨b', s'', h, hQ⟩
  · rw [h] at hrun
    cases hrun
  · rw [h] at hrun
    injection hrun with hb hs
    cases hb
    subst hs
    exact hQ

end Method
end MartyCore
