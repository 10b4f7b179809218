import Mathlib.Data.Nat.Notation
import Mathlib.Logic.Relation
import NanoAgent.Foundations.Program

/-!
# Loops that go on until they are left

`rounds round n b` repeats a round that hands a variable to the next one, until a round
leaves the loop with a result; at most `n` rounds are made. `Leads round` relates a
state in which a round begins to that of the next one, and `Begins round p` are the
states in which a round of the loop entered in `p` begins.

A loop whose rounds make a measure smaller gets to a last round, and what holds in
all states in which a round begins is decided there, when it holds of every round
that goes on.
-/

universe u

namespace Prog

variable {σ α β : Type u}

/-- A loop with a variable, which a round may leave with a result. -/
def rounds (round : β → Prog σ (α ⊕ β)) : ℕ → β → Prog σ α
  | 0, _ => fail
  | n + 1, b => do
      let next ← round b
      match next with
      | .inl r => pure r
      | .inr b' => rounds round n b'

/-- A round that begins in the first state is followed by one that begins in the second. -/
def Leads (round : β → Prog σ (α ⊕ β)) (p q : β × σ) : Prop :=
  round p.1 p.2 = (some (.inr q.1), q.2)

/-- The states in which the rounds of a loop begin. -/
def Begins (round : β → Prog σ (α ⊕ β)) : β × σ → β × σ → Prop :=
  Relation.ReflTransGen (Leads round)

variable {round : β → Prog σ (α ⊕ β)}

theorem Leads.unique {p q t : β × σ} (h : Leads round p q) (h' : Leads round p t) : q = t := by
  have heq := h.symm.trans h'
  rw [Prod.mk.injEq, Option.some.injEq, Sum.inr.injEq] at heq
  exact Prod.ext heq.1 heq.2

/-- What a loop does when its first round is the last one. -/
def leave (x : Option (α ⊕ β) × σ) : Option α × σ :=
  match x with
  | (some (.inl r), s) => (some r, s)
  | (_, s) => (none, s)

/-- A loop whose rounds make a measure smaller gets to a last round, which decides what the
loop does. -/
theorem rounds_last (round : β → Prog σ (α ⊕ β)) {I : β × σ → Prop} (m : β × σ → ℕ)
    (hround : ∀ p q, I p → Leads round p q → I q ∧ m q < m p) {n : ℕ} {p : β × σ} (hp : I p)
    (hn : m p < n) : ∃ q, Begins round p q ∧ I q ∧ (∀ t, ¬ Leads round q t) ∧
      rounds round n p.1 p.2 = leave (round q.1 q.2) := by
  induction n generalizing p with
  | zero => exact absurd hn (Nat.not_lt_zero _)
  | succ n ih =>
      rcases hx : round p.1 p.2 with ⟨_ | r | b, s⟩
      · use p, .refl, hp
        constructor
        · intro t ht
          rw [Leads, hx] at ht
          cases ht
        · rw [rounds, bind_apply, hx]
          rfl
      · use p, .refl, hp
        constructor
        · intro t ht
          rw [Leads, hx] at ht
          cases ht
        · rw [rounds, bind_apply, hx]
          rfl
      · have hleads : Leads round p (b, s) := hx
        obtain ⟨hI, hm⟩ := hround p (b, s) hp hleads
        obtain ⟨q, hq, hIq, hlast, hrun⟩ := ih hI (Nat.lt_of_lt_of_le hm (Nat.le_of_lt_succ hn))
        use q, .head hleads hq, hIq, hlast
        rw [rounds, bind_apply, hx]
        exact hrun

/-- Every round before the last one goes on. -/
theorem Begins.eq_or_leads {p q t : β × σ} (hq : Begins round p q) (hlast : ∀ t, ¬ Leads round q t)
    (ht : Begins round p t) : t = q ∨ ∃ t', Leads round t t' := by
  induction hq using Relation.ReflTransGen.head_induction_on with
  | refl =>
      rcases ht.cases_head with rfl | ⟨t', hleads, -⟩
      · exact .inl rfl
      · exact absurd hleads (hlast t')
  | head hleads _ ih =>
      rcases ht.cases_head with rfl | ⟨t', hleads', ht'⟩
      · exact .inr ⟨_, hleads⟩
      · rw [hleads'.unique hleads] at ht'
        exact ih ht'

/-- What holds of every round that goes on holds of all rounds when it holds of the last one. -/
theorem forall_begins_iff {Q : β × σ → Prop} {p q : β × σ}
    (hQ : ∀ t t', Begins round p t → Leads round t t' → Q t) (hq : Begins round p q)
    (hlast : ∀ t, ¬ Leads round q t) : (∀ t, Begins round p t → Q t) ↔ Q q := by
  constructor
  · intro h
    exact h q hq
  · intro h t ht
    rcases hq.eq_or_leads hlast ht with rfl | ⟨t', hleads⟩
    · exact h
    · exact hQ t t' ht hleads

end Prog
