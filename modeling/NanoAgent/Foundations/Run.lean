import Mathlib.Logic.Relation

/-!
# Runs of a system

A system is given by its initial states and by a step function that takes an
input: the operation that is invoked together with what its environment answers.
`Reachable init step ok` are the states reached by runs all of whose steps meet
the condition `ok`, which sees the state before the step and the input. The
unconditional runs are those with the condition `fun _ _ => True`.
-/

/-- The states reached from an initial state by steps that meet `ok`. -/
inductive Reachable {σ ι : Type*} (init : σ → Prop) (step : σ → ι → σ)
    (ok : σ → ι → Prop) : σ → Prop
  | start {s : σ} : init s → Reachable init step ok s
  | next {s : σ} (i : ι) : Reachable init step ok s → ok s i → Reachable init step ok (step s i)

namespace Reachable

variable {σ ι : Type*} {init : σ → Prop} {step : σ → ι → σ} {ok : σ → ι → Prop}

/-- What holds initially and is kept by every step that meets the condition
holds in every state reached. -/
theorem invariant {I : σ → Prop} (h₀ : ∀ s, init s → I s)
    (hstep : ∀ s i, I s → ok s i → I (step s i)) {s : σ}
    (hs : Reachable init step ok s) : I s := by
  induction hs with
  | start h => exact h₀ _ h
  | next i _ hok ih => exact hstep _ i ih hok

/-- A weaker condition on the steps reaches more states. -/
theorem mono {ok' : σ → ι → Prop} (h : ∀ s i, ok s i → ok' s i) {s : σ}
    (hs : Reachable init step ok s) : Reachable init step ok' s := by
  induction hs with
  | start h₀ => exact .start h₀
  | next i _ hok ih => exact .next i ih (h _ i hok)

theorem foldl (run : List ι) {s : σ} (hs : Reachable init step (fun _ _ => True) s) :
    Reachable init step (fun _ _ => True) (run.foldl step s) := by
  induction run generalizing s with
  | nil => exact hs
  | cons i run ih => exact ih (.next i hs trivial)

end Reachable
