import Mathlib.Logic.Function.Basic

/-!
# Programs of atomic calls

`Program Call Ans α` is code whose only effects are atomic calls: `call c k`
makes the call `c` and goes on with `k r` once the call has been answered by
`r : Ans c`. What a call does to a shared state is not part of the program, it
is given by an interpretation `exec`, so one program can be run to completion,
run call by call among other programs, and run under a second interpretation.
Every program is finite, hence `run` is total.
-/

universe u v w

/-- Code that makes atomic calls `c : Call`, answered in `Ans c`, and returns
an `α`. -/
inductive Program (Call : Type u) (Ans : Call → Type v) (α : Type w) :
    Type (max u v w) where
  | ret (a : α)
  | call (c : Call) (k : Ans c → Program Call Ans α)

namespace Program

variable {Call : Type u} {Ans : Call → Type v} {α β : Type w} {σ : Type*}

/-- Sequential composition: the calls of the first program come first. -/
protected def bind : Program Call Ans α → (α → Program Call Ans β) →
    Program Call Ans β
  | ret a, f => f a
  | call c k, f => call c fun r => (k r).bind f

instance : Monad (Program Call Ans) where
  pure := ret
  bind := Program.bind

@[simp] theorem call_bind (c : Call) (k : Ans c → Program Call Ans α)
    (f : α → Program Call Ans β) :
    call c k >>= f = call c fun r => k r >>= f := rfl

theorem bind_bind {γ : Type w} (p : Program Call Ans α) (f : α → Program Call Ans β)
    (g : β → Program Call Ans γ) : p >>= f >>= g = p >>= fun a => f a >>= g := by
  induction p with
  | ret a => rfl
  | call c k ih =>
      rw [call_bind, call_bind, call_bind]
      exact congrArg _ (funext ih)

/-- The program that makes one call and returns its answer. -/
def perform (c : Call) : Program Call Ans (Ans c) := call c ret

section Run

variable (exec : (c : Call) → σ → Ans c × σ)

/-- Runs a program to completion, with nothing in between its calls. -/
def run : Program Call Ans α → σ → α × σ
  | ret a, s => (a, s)
  | call c k, s => run (k (exec c s).1) (exec c s).2

@[simp] theorem run_ret (a : α) (s : σ) :
    run exec (ret a : Program Call Ans α) s = (a, s) := rfl

@[simp] theorem run_call (c : Call) (k : Ans c → Program Call Ans α) (s : σ) :
    run exec (call c k) s = run exec (k (exec c s).1) (exec c s).2 := rfl

theorem run_bind (p : Program Call Ans α) (f : α → Program Call Ans β)
    (s : σ) :
    run exec (p >>= f) s = run exec (f (run exec p s).1) (run exec p s).2 := by
  induction p generalizing s with
  | ret a => rfl
  | call c k ih =>
      rw [call_bind, run_call, run_call]
      exact ih (exec c s).1 (exec c s).2

/-- What every call keeps, a run keeps. -/
theorem run_invariant (inv : σ → Prop) (hexec : ∀ c s, inv s → inv (exec c s).2)
    (p : Program Call Ans α) {s : σ} (hs : inv s) : inv (run exec p s).2 := by
  induction p generalizing s with
  | ret a => exact hs
  | call c k ih => exact ih (exec c s).1 (hexec c s hs)

end Run

end Program
