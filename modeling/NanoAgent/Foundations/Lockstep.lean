import NanoAgent.Foundations.Program

/-!
# Programs in lockstep

Two programs run over different states, which a relation connects. `Lockstep R together x y s t`
says that `x` from `s` and `y` from `t` end in related states, whether they succeed or not and,
when `together` holds, that they succeed together. The rules follow the two programs step by
step: a check of one is the same check of the other, a change keeps the states related, and
what follows a call is compared only when the calls have succeeded.
-/

universe u v

namespace Prog

variable {σ α γ : Type u} {τ β δ : Type v}

/-- From `s` and `t` the programs end in related states, and succeed together if asked to. -/
structure Lockstep (R : σ → τ → Prop) (together : Bool) (x : Prog σ α) (y : Prog τ β) (s : σ)
    (t : τ) : Prop where
  isSome : together = true → (x s).1.isSome = (y t).1.isSome
  states : R (x s).2 (y t).2

namespace Lockstep

variable {R : σ → τ → Prop} {together : Bool} {x : Prog σ α} {y : Prog τ β} {s : σ} {t : τ}

theorem congr_left {x' : Prog σ α} (hx : x s = x' s) (h : Lockstep R together x' y s t) :
    Lockstep R together x y s t where
  isSome := hx ▸ h.isSome
  states := hx ▸ h.states

/-- The first program makes a call that returns. -/
theorem returnsThen_left {z : Prog σ α} {f : α → Prog σ γ} {w : Prog τ δ} {v : α} {s' : σ}
    (hz : z s = (some v, s')) (h : Lockstep R together (f v) w s' t) :
    Lockstep R together (z >>= f) w s t := by
  have hfirst : (z >>= f) s = f v s' := by rw [bind_apply, hz]
  exact ⟨hfirst ▸ h.isSome, hfirst ▸ h.states⟩

/-- What follows two programs that succeed together matters when both have succeeded. -/
theorem bind {f : α → Prog σ γ} {g : β → Prog τ δ} (h : Lockstep R true x y s t)
    (hnext : ∀ v s' w t', x s = (some v, s') → y t = (some w, t') → R s' t' →
      Lockstep R together (f v) (g w) s' t') : Lockstep R together (x >>= f) (y >>= g) s t := by
  obtain ⟨hsome, hstates⟩ := h
  have hsome := hsome rfl
  constructor
  · intro htogether
    rw [bind_apply, bind_apply]
    rcases hx : x s with ⟨_ | v, s'⟩ <;> rcases hy : y t with ⟨_ | w, t'⟩ <;>
      rw [hx, hy] at hsome hstates
    · rfl
    · cases hsome
    · cases hsome
    · exact (hnext v s' w t' hx hy hstates).isSome htogether
  · rw [bind_apply, bind_apply]
    rcases hx : x s with ⟨_ | v, s'⟩ <;> rcases hy : y t with ⟨_ | w, t'⟩ <;>
      rw [hx, hy] at hsome hstates
    · exact hstates
    · cases hsome
    · cases hsome
    · exact (hnext v s' w t' hx hy hstates).states

/-- The same check. -/
theorem ensure {b c : Bool} (h : R s t) (hb : b = c) :
    Lockstep R together (ensure b : Prog σ PUnit) (ensure c : Prog τ PUnit) s t := by
  subst hb
  cases b
  · exact ⟨fun _ => rfl, h⟩
  · exact ⟨fun _ => rfl, h⟩

theorem ensureThen {b c : Bool} {f : PUnit → Prog σ γ} {g : PUnit → Prog τ δ} (h : R s t)
    (hb : b = c) (hnext : b = true → Lockstep R together (f ⟨⟩) (g ⟨⟩) s t) :
    Lockstep R together (Prog.ensure b >>= f) (Prog.ensure c >>= g) s t := by
  refine (ensure h hb).bind fun _ s' _ t' hx hy _ => ?_
  obtain ⟨hb', rfl⟩ := ensure_eq_some.1 hx
  obtain ⟨-, rfl⟩ := ensure_eq_some.1 hy
  exact hnext hb'

theorem modifyThen {f : σ → σ} {g : τ → τ} {x : PUnit → Prog σ γ} {y : PUnit → Prog τ δ}
    (h : Lockstep R together (x ⟨⟩) (y ⟨⟩) (f s) (g t)) :
    Lockstep R together (modify f >>= x) (modify g >>= y) s t :=
  ⟨h.isSome, h.states⟩

theorem readThen {x : σ → Prog σ γ} {y : τ → Prog τ δ}
    (h : Lockstep R together (x s) (y t) s t) :
    Lockstep R together (read >>= x) (read >>= y) s t :=
  ⟨h.isSome, h.states⟩

/-- The second program reads its state. -/
theorem readThen_right {x : Prog σ γ} {y : τ → Prog τ δ} (h : Lockstep R together x (y t) s t) :
    Lockstep R together x (read >>= y) s t :=
  ⟨h.isSome, h.states⟩

/-- The second program takes a value that is there. -/
theorem requireThen_right {o : Option β} {w : β} {x : Prog σ γ} {y : β → Prog τ δ}
    (ho : o = some w) (h : Lockstep R together x (y w) s t) :
    Lockstep R together x (require o >>= y) s t := by
  subst ho
  exact ⟨h.isSome, h.states⟩

/-- The second program makes a check that succeeds. -/
theorem ensureThen_right {c : Bool} {x : Prog σ γ} {y : PUnit → Prog τ δ} (hc : c = true)
    (h : Lockstep R together x (y ⟨⟩) s t) :
    Lockstep R together x (Prog.ensure c >>= y) s t := by
  subst hc
  exact ⟨h.isSome, h.states⟩

/-- Two values that are there together. -/
theorem requireThen {o : Option α} {o' : Option β} {f : α → Prog σ γ} {g : β → Prog τ δ}
    (h : R s t) (ho : o.isSome = o'.isSome)
    (hnext : ∀ v w, o = some v → o' = some w → Lockstep R together (f v) (g w) s t) :
    Lockstep R together (require o >>= f) (require o' >>= g) s t := by
  cases o with
  | none =>
      cases o' with
      | none => exact ⟨fun _ => rfl, h⟩
      | some w => cases ho
  | some v =>
      cases o' with
      | none => cases ho
      | some w => exact hnext v w rfl rfl

/-- The second program makes a call whose outcome it does not look at. -/
theorem ignoreThen_right {z : Prog τ β} {x : Prog σ γ} {y : PUnit → Prog τ δ}
    (h : Lockstep R together x (y ⟨⟩) s (z t).2) :
    Lockstep R together x (ignore z >>= y) s t :=
  ⟨h.isSome, h.states⟩

/-- The second program ends with a check of its own. -/
theorem thenEnsure_right {c : Bool} (h : Lockstep R together x y s t) :
    Lockstep R false x (y >>= fun _ => Prog.ensure c) s t := by
  refine ⟨fun htogether => (by cases htogether), ?_⟩
  have hsame : ((y >>= fun _ => Prog.ensure c) t).2 = (y t).2 := by
    rw [bind_apply]
    rcases y t with ⟨_ | v, t'⟩
    · rfl
    · cases c <;> rfl
  rw [hsame]
  exact h.states

theorem onlyIf {b c : Bool} {x : Prog σ PUnit} {y : Prog τ PUnit} (h : R s t) (hb : b = c)
    (hxy : b = true → Lockstep R together x y s t) :
    Lockstep R together (onlyIf b x) (onlyIf c y) s t := by
  subst hb
  cases b
  · exact ⟨fun _ => rfl, h⟩
  · exact hxy rfl

/-- The error exits of two programs that succeed together. -/
theorem onFailure {x' : Prog σ PUnit} {y' : Prog τ PUnit} (h : Lockstep R true x y s t)
    (hexit : R (x s).2 (y t).2 → Lockstep R false x' y' (x s).2 (y t).2) :
    Lockstep R true (Prog.onFailure x x') (Prog.onFailure y y') s t := by
  obtain ⟨hsome, hstates⟩ := h
  have hsome := hsome rfl
  have hexit' := (hexit hstates).states
  unfold Prog.onFailure
  constructor
  · intro _
    rcases hx : x s with ⟨_ | v, s'⟩ <;> rcases hy : y t with ⟨_ | w, t'⟩ <;>
      rw [hx, hy] at hsome
    · rfl
    · cases hsome
    · cases hsome
    · rfl
  · rcases hx : x s with ⟨_ | v, s'⟩ <;> rcases hy : y t with ⟨_ | w, t'⟩ <;>
      rw [hx, hy] at hsome hstates hexit'
    · exact hexit'
    · cases hsome
    · cases hsome
    · exact hstates

end Lockstep

end Prog
