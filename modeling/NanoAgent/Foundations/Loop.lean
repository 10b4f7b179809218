import Mathlib.Data.Nat.Notation
import Mathlib.Logic.Relation

/-!
# Loops that need not end

A loop is given by its body `pass : σ → ρ ⊕ σ`, which leaves with a result or goes
on from a new state. `runLoop pass n` makes at most `n` passes, and `Ends pass s`
says that the loop entered in the state `s` leaves after finitely many of them. The
states in which a pass begins are related by `GoesOn`.
-/

namespace Loop

variable {σ ρ : Type*} (pass : σ → ρ ⊕ σ)

/-- The result of a loop that leaves within `n` passes. -/
def runLoop : ℕ → σ → Option ρ
  | 0, _ => none
  | n + 1, s =>
      match pass s with
      | .inl r => some r
      | .inr s' => runLoop n s'

/-- The loop leaves after finitely many passes. -/
def Ends (s : σ) : Prop := ∃ n r, runLoop pass n s = some r

/-- A pass that begins in the first state goes on from the second. -/
def GoesOn (s s' : σ) : Prop := pass s = .inr s'

variable {pass}

theorem runLoop_succ_of_leaves {n : ℕ} {s : σ} {r : ρ} (h : pass s = .inl r) :
    runLoop pass (n + 1) s = some r := by
  simp [runLoop, h]

theorem runLoop_succ_of_goesOn {n : ℕ} {s s' : σ} (h : GoesOn pass s s') :
    runLoop pass (n + 1) s = runLoop pass n s' := by
  unfold GoesOn at h
  simp [runLoop, h]

/-- More passes do not change a result. -/
theorem runLoop_add {n : ℕ} {s : σ} {r : ρ} (h : runLoop pass n s = some r) (m : ℕ) :
    runLoop pass (n + m) s = some r := by
  induction n generalizing s with
  | zero => simp [runLoop] at h
  | succ n ih =>
      rw [Nat.succ_add]
      cases hp : pass s with
      | inl r' =>
          rw [runLoop_succ_of_leaves hp] at h ⊢
          exact h
      | inr s' =>
          rw [runLoop_succ_of_goesOn hp] at h ⊢
          exact ih h

/-- The result of a loop does not depend on the number of passes allowed. -/
theorem runLoop_unique {n m : ℕ} {s : σ} {r r' : ρ} (h : runLoop pass n s = some r)
    (h' : runLoop pass m s = some r') : r = r' := by
  have hn := runLoop_add h m
  have hm := runLoop_add h' n
  rw [Nat.add_comm m n, hn] at hm
  exact Option.some.inj hm

/-- A loop with an invariant under which it always goes on does not end. -/
theorem not_ends {I : σ → Prop} (hstep : ∀ s, I s → ∃ s', GoesOn pass s s' ∧ I s') {s : σ}
    (hs : I s) : ¬ Ends pass s := by
  rintro ⟨n, r, h⟩
  induction n generalizing s with
  | zero => simp [runLoop] at h
  | succ n ih =>
      obtain ⟨s', hgo, hs'⟩ := hstep s hs
      rw [runLoop_succ_of_goesOn hgo] at h
      exact ih hs' h

end Loop
