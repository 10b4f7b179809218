import Mathlib.Logic.Function.Basic
import Mathlib.Order.Defs.Unbundled

/-!
# Programs with an error exit

`Prog σ α` is a function of a program written in the style of C: it runs on a
state of type `σ` and either returns a value or leaves through its error exit.
The state reached is kept in both cases, so what a function has already done
when it fails is visible to its caller. Sequencing is the monad structure;
`ensure` leaves through the error exit when a check fails, `attempt` runs a
function and hands its result to the caller instead of leaving, and `forEach`
is a loop that stops at the first failing round.

`Within R x` says that the state moves along the relation `R` whatever the result.
It is used for frame conditions and, as `Preserves I x`, for invariants. What a
program has done when it returns a value is read off by inversion, with
`bind_eq_some` and its companions. `Returns x` says that it does return one, and
`Completes I x` that it does so from the states of an invariant. `Commutes g x` says
that the part of the state which `g` changes plays no role.
-/

universe u

/-- A function that runs on a state and returns a value, or `none` when it
leaves through its error exit. -/
def Prog (σ : Type u) (α : Type u) : Type u := σ → Option α × σ

namespace Prog

variable {σ α β : Type u}

instance : Monad (Prog σ) where
  pure a := fun s => (some a, s)
  bind x f := fun s =>
    match x s with
    | (some a, s') => f a s'
    | (none, s') => (none, s')

/-- Leave through the error exit. -/
def fail : Prog σ α := fun s => (none, s)

/-- Read the state. -/
def read : Prog σ σ := fun s => (some s, s)

/-- Change the state. -/
def modify (f : σ → σ) : Prog σ PUnit := fun s => (some ⟨⟩, f s)

/-- Go on when the check holds, and leave through the error exit otherwise. -/
def ensure (b : Bool) : Prog σ PUnit := fun s => (if b then some ⟨⟩ else none, s)

/-- Go on with the value of a look-up, and leave when there is none. -/
def require (o : Option α) : Prog σ α := fun s => (o, s)

/-- Run a function and return its result to the caller, who decides what a
failure means. -/
def attempt (x : Prog σ α) : Prog σ (Option α) := fun s => (some (x s).1, (x s).2)

/-- Run a function and ignore its result. -/
def ignore (x : Prog σ α) : Prog σ PUnit := fun s => (some ⟨⟩, (x s).2)

/-- Run a function and, when it fails, some clean-up before failing as well. -/
def onFailure (x : Prog σ α) (cleanup : Prog σ PUnit) : Prog σ α := fun s =>
  match x s with
  | (some a, s') => (some a, s')
  | (none, s') => (none, (cleanup s').2)

/-- Run a function only when the condition holds. -/
def onlyIf (b : Bool) (x : Prog σ PUnit) : Prog σ PUnit := if b then x else pure ⟨⟩

/-- A loop over a list that stops at the first failing round. -/
def forEach {ι : Type*} : List ι → (ι → Prog σ PUnit) → Prog σ PUnit
  | [], _ => pure ⟨⟩
  | i :: l, f => do
      f i
      forEach l f

/-- The state only moves along `R`, on every exit. -/
def Within (R : σ → σ → Prop) (x : Prog σ α) : Prop :=
  ∀ s, R s (x s).2

/-- The invariant `I` is kept on every exit. -/
abbrev Preserves (I : σ → Prop) (x : Prog σ α) : Prop :=
  Within (fun s s' => I s → I s') x

@[simp] theorem pure_apply (a : α) (s : σ) : (pure a : Prog σ α) s = (some a, s) := rfl

@[simp] theorem read_apply (s : σ) : (read : Prog σ σ) s = (some s, s) := rfl

@[simp] theorem fail_apply (s : σ) : (fail : Prog σ α) s = (none, s) := rfl

@[simp] theorem modify_apply (f : σ → σ) (s : σ) : modify f s = (some ⟨⟩, f s) := rfl

@[simp] theorem require_apply (o : Option α) (s : σ) : require o s = (o, s) := rfl

theorem bind_apply (x : Prog σ α) (f : α → Prog σ β) (s : σ) :
    (x >>= f) s = match x s with
      | (some a, s') => f a s'
      | (none, s') => (none, s') := rfl

theorem bind_bind {γ : Type u} (x : Prog σ α) (f : α → Prog σ β) (g : β → Prog σ γ) :
    x >>= f >>= g = x >>= fun a => f a >>= g := by
  funext s
  simp only [bind_apply]
  rcases x s with ⟨_ | a, s'⟩ <;> rfl

theorem pure_then (a : α) (f : α → Prog σ β) : pure a >>= f = f a := rfl

@[simp] theorem read_bind_apply (f : σ → Prog σ β) (s : σ) :
    (read >>= f) s = f s s := rfl

@[simp] theorem modify_bind_apply (f : σ → σ) (g : PUnit → Prog σ β) (s : σ) :
    (modify f >>= g) s = g ⟨⟩ (f s) := rfl

@[simp] theorem ensure_true_bind_apply (g : PUnit → Prog σ β) (s : σ) :
    (ensure true >>= g) s = g ⟨⟩ s := rfl

@[simp] theorem ensure_false_bind_apply (g : PUnit → Prog σ β) (s : σ) :
    (ensure false >>= g) s = (none, s) := rfl

@[simp] theorem onlyIf_true (x : Prog σ PUnit) : onlyIf true x = x := rfl

@[simp] theorem onlyIf_false (x : Prog σ PUnit) : onlyIf false x = pure ⟨⟩ := rfl

theorem attempt_bind_apply (x : Prog σ α) (f : Option α → Prog σ β) (s : σ) :
    (attempt x >>= f) s = f (x s).1 (x s).2 := rfl

theorem onlyIf_ensure (c b : Bool) : onlyIf c (ensure b : Prog σ PUnit) = ensure (!c || b) := by
  cases c <;> cases b <;> rfl

/-- A clean-up that is run again changes nothing more. -/
theorem onFailure_twice (x : Prog σ α) {y : Prog σ PUnit} (hy : ∀ s, (y (y s).2).2 = (y s).2)
    (s : σ) : onFailure (onFailure x y) y s = onFailure x y s := by
  unfold onFailure
  rcases x s with ⟨_ | a, s'⟩
  · simp only [hy]
  · rfl

section Returns

/-! Inversion of programs that return a value. -/

variable {s s' : σ}

theorem eq_of_fst_eq_some {x : Prog σ α} {v : α} (h : (x s).1 = some v) :
    x s = (some v, (x s).2) :=
  Prod.ext h rfl

theorem bind_eq_some {x : Prog σ α} {f : α → Prog σ β} {w : β} :
    (x >>= f) s = (some w, s') ↔ ∃ v s₁, x s = (some v, s₁) ∧ f v s₁ = (some w, s') := by
  rw [bind_apply]
  rcases x s with ⟨_ | v, s₁⟩
  · simp
  · constructor
    · intro h
      exact ⟨v, s₁, rfl, h⟩
    · rintro ⟨_, _, hv, h⟩
      cases hv
      exact h

theorem pure_eq_some {v w : α} : (pure v : Prog σ α) s = (some w, s') ↔ v = w ∧ s = s' := by
  simp

theorem ensure_eq_some {b : Bool} {w : PUnit} :
    ensure b s = (some w, s') ↔ b = true ∧ s = s' := by
  cases b <;> simp [ensure]

theorem require_eq_some {o : Option α} {w : α} :
    require o s = (some w, s') ↔ o = some w ∧ s = s' := by
  simp

theorem modify_eq_some {f : σ → σ} {w : PUnit} : modify f s = (some w, s') ↔ f s = s' := by
  simp

theorem read_eq_some {w : σ} : (read : Prog σ σ) s = (some w, s') ↔ s = w ∧ s = s' := by
  simp

/-- An error exit that is taken when the condition holds. -/
theorem onlyIf_fail_eq_some {c : Bool} {f : σ → σ} {w : PUnit} :
    onlyIf c (modify f >>= fun _ => fail) s = (some w, s') ↔ c = false ∧ s = s' := by
  cases c <;> simp

theorem onFailure_eq_some {x : Prog σ α} {y : Prog σ PUnit} {w : α} :
    onFailure x y s = (some w, s') ↔ x s = (some w, s') := by
  unfold onFailure
  rcases x s with ⟨_ | v, s₁⟩ <;> simp

end Returns

/-- The program returns a value, in every state. -/
def Returns (x : Prog σ α) : Prop := ∀ s, ∃ v s', x s = (some v, s')

namespace Returns

variable {x : Prog σ α}

theorem pure (a : α) : Returns (pure a : Prog σ α) := fun s => ⟨a, s, rfl⟩

theorem modify (f : σ → σ) : Returns (modify f) := fun s => ⟨⟨⟩, f s, rfl⟩

theorem bind {f : α → Prog σ β} (hx : Returns x) (hf : ∀ a, Returns (f a)) :
    Returns (x >>= f) := by
  intro s
  obtain ⟨a, s₁, hs₁⟩ := hx s
  obtain ⟨b, s₂, hs₂⟩ := hf a s₁
  exact ⟨b, s₂, bind_eq_some.2 ⟨a, s₁, hs₁, hs₂⟩⟩

theorem read {f : σ → Prog σ β} (hf : ∀ s, Returns (f s)) : Returns (read >>= f) :=
  fun s => hf s s

theorem ensure {b : Bool} (hb : b = true) : Returns (ensure b : Prog σ PUnit) := by
  subst hb
  exact fun s => ⟨⟨⟩, s, rfl⟩

theorem onlyIf {b : Bool} {y : Prog σ PUnit} (hy : b = true → Returns y) :
    Returns (onlyIf b y) := by
  cases b with
  | false => exact .pure _
  | true => exact hy rfl

theorem onFailure {y : Prog σ PUnit} (hx : Returns x) : Returns (onFailure x y) := by
  intro s
  obtain ⟨a, s₁, hs₁⟩ := hx s
  exact ⟨a, s₁, onFailure_eq_some.2 hs₁⟩

end Returns

/-- From every state that meets `I` the program returns, in a state that meets `I`. -/
def Completes (I : σ → Prop) (x : Prog σ α) : Prop :=
  ∀ s, I s → ∃ v s', x s = (some v, s') ∧ I s'

namespace Completes

variable {I : σ → Prop} {x : Prog σ α}

theorem pure (a : α) : Completes I (pure a : Prog σ α) := fun s hs => ⟨a, s, rfl, hs⟩

theorem modify {f : σ → σ} (hf : ∀ s, I s → I (f s)) : Completes I (modify f) :=
  fun s hs => ⟨⟨⟩, f s, rfl, hf s hs⟩

theorem ensure {b : Bool} (hb : b = true) : Completes I (ensure b : Prog σ PUnit) := by
  subst hb
  exact fun s hs => ⟨⟨⟩, s, rfl, hs⟩

theorem bind {f : α → Prog σ β} (hx : Completes I x) (hf : ∀ a, Completes I (f a)) :
    Completes I (x >>= f) := by
  intro s hs
  obtain ⟨a, s₁, hs₁, hI₁⟩ := hx s hs
  obtain ⟨b, s₂, hs₂, hI₂⟩ := hf a s₁ hI₁
  exact ⟨b, s₂, bind_eq_some.2 ⟨a, s₁, hs₁, hs₂⟩, hI₂⟩

theorem read {f : σ → Prog σ β} (hf : ∀ s, I s → Completes I (f s)) : Completes I (read >>= f) :=
  fun s hs => hf s hs s hs

theorem onlyIf {b : Bool} {y : Prog σ PUnit} (hy : b = true → Completes I y) :
    Completes I (onlyIf b y) := by
  cases b with
  | false => exact .pure _
  | true => exact hy rfl

theorem forEach {ι : Type*} {l : List ι} {f : ι → Prog σ PUnit}
    (hf : ∀ i ∈ l, Completes I (f i)) : Completes I (forEach l f) := by
  induction l with
  | nil => exact .pure _
  | cons i l ih =>
      exact .bind (hf i List.mem_cons_self) fun _ => ih fun j hj => hf j (List.mem_cons_of_mem _ hj)

end Completes

section Loop

variable {ι : Type*} {f : ι → Prog σ PUnit} {I : List ι → σ → Prop}

/-- A loop whose rounds all return, with an invariant that sees the rounds left. -/
theorem forEach_returns
    (h : ∀ i l s, I (i :: l) s → ∃ s', f i s = (some ⟨⟩, s') ∧ I l s') (l : List ι) {s : σ}
    (hs : I l s) : ∃ s', forEach l f s = (some ⟨⟩, s') ∧ I [] s' := by
  induction l generalizing s with
  | nil => exact ⟨s, rfl, hs⟩
  | cons i l ih =>
      obtain ⟨s₁, hres, hI⟩ := h i l s hs
      obtain ⟨s', hrest, hend⟩ := ih hI
      exact ⟨s', bind_eq_some.2 ⟨_, s₁, hres, hrest⟩, hend⟩

/-- A property of every state in which a loop may be left, from an invariant that
sees the rounds left. -/
theorem forEach_keeps {J : σ → Prop} (hJ : ∀ l s, I l s → J s)
    (h : ∀ i l s, I (i :: l) s → I l (f i s).2) (l : List ι) {s : σ} (hs : I l s) :
    J (forEach l f s).2 := by
  induction l generalizing s with
  | nil => exact hJ _ _ hs
  | cons i l ih =>
      have hround := h i l s hs
      rw [forEach, bind_apply]
      rcases hx : f i s with ⟨_ | _, s'⟩
      · rw [hx] at hround
        exact hJ _ _ hround
      · rw [hx] at hround
        exact ih hround

/-- A loop that returns, with an invariant that sees the rounds left. -/
theorem forEach_yields
    (h : ∀ i l s s', I (i :: l) s → f i s = (some ⟨⟩, s') → I l s') (l : List ι) {s s' : σ}
    (hs : I l s) (hret : forEach l f s = (some ⟨⟩, s')) : I [] s' := by
  induction l generalizing s with
  | nil =>
      obtain ⟨-, rfl⟩ := pure_eq_some.1 hret
      exact hs
  | cons i l ih =>
      obtain ⟨_, s₁, hround, hrest⟩ := bind_eq_some.1 hret
      exact ih (h i l s s₁ hs hround) hrest

/-- What a program does agrees with `o`, seen through `abs`: it returns in a state that shows
the value of `o`, and fails when there is none. -/
def Computes {γ : Type*} (abs : σ → γ) (J : σ → Prop) (o : Option γ) (x : Option PUnit × σ) :
    Prop :=
  match o with
  | some g => x.1 = some ⟨⟩ ∧ J x.2 ∧ abs x.2 = g
  | none => x.1 = none

/-- A loop computes the fold of what its rounds compute. -/
theorem forEach_computes {γ : Type*} {abs : σ → γ} {J : σ → Prop} {step : γ → ι → Option γ}
    (h : ∀ i s, J s → Computes abs J (step (abs s) i) (f i s)) (l : List ι) {s : σ} (hs : J s) :
    Computes abs J (l.foldlM step (abs s)) (forEach l f s) := by
  induction l generalizing s with
  | nil => exact ⟨rfl, hs, rfl⟩
  | cons i l ih =>
      have hround := h i s hs
      rw [List.foldlM_cons, forEach, bind_apply]
      rcases hx : f i s with ⟨_ | _, s'⟩
      · rw [hx] at hround
        cases hstep : step (abs s) i with
        | none => rfl
        | some g =>
            rw [hstep] at hround
            cases hround.1
      · rw [hx] at hround
        cases hstep : step (abs s) i with
        | none =>
            rw [hstep] at hround
            cases hround
        | some g =>
            rw [hstep] at hround
            obtain ⟨-, hs', rfl⟩ := hround
            exact ih hs'

/-- Two programs agree when their first parts do, and what follows agrees in the state reached. -/
theorem bind_congr_apply {x y : Prog σ α} {g h : α → Prog σ β} {s : σ} (hxy : x s = y s)
    (hgh : ∀ v s', x s = (some v, s') → g v s' = h v s') : (x >>= g) s = (y >>= h) s := by
  rw [bind_apply, bind_apply, ← hxy]
  rcases hx : x s with ⟨_ | v, s'⟩
  · rfl
  · exact hgh v s' hx

/-- Two loops agree when their rounds do in all states that meet an invariant of the rounds. -/
theorem forEach_congr_apply {g : ι → Prog σ PUnit} {J : σ → Prop} {l : List ι}
    (hfg : ∀ i ∈ l, ∀ s, J s → f i s = g i s) (hf : ∀ i ∈ l, ∀ s, J s → J (f i s).2) {s : σ}
    (hs : J s) : forEach l f s = forEach l g s := by
  induction l generalizing s with
  | nil => rfl
  | cons i l ih =>
      refine bind_congr_apply (hfg i List.mem_cons_self s hs) fun v s' hret => ?_
      have hs' := hf i List.mem_cons_self s hs
      rw [hret] at hs'
      exact ih (fun j hj => hfg j (List.mem_cons_of_mem _ hj))
        (fun j hj => hf j (List.mem_cons_of_mem _ hj)) hs'

/-- A loop none of whose rounds does anything. -/
theorem forEach_idle {l : List ι} {s : σ} (h : ∀ i ∈ l, f i s = (some ⟨⟩, s)) :
    forEach l f s = (some ⟨⟩, s) := by
  induction l with
  | nil => rfl
  | cons i l ih =>
      rw [forEach, bind_apply, h i List.mem_cons_self]
      exact ih fun j hj => h j (List.mem_cons_of_mem _ hj)

/-- A loop whose rounds change the state in a known way. -/
theorem forEach_foldl {step : σ → ι → σ} {l : List ι}
    (h : ∀ i ∈ l, ∀ s, f i s = (some ⟨⟩, step s i)) (s : σ) :
    forEach l f s = (some ⟨⟩, l.foldl step s) := by
  induction l generalizing s with
  | nil => rfl
  | cons i l ih =>
      rw [forEach, bind_apply, h i List.mem_cons_self, List.foldl_cons]
      exact ih (fun j hj => h j (List.mem_cons_of_mem _ hj)) _

theorem forEach_append (l l' : List ι) (f : ι → Prog σ PUnit) :
    forEach (l ++ l') f = forEach l f >>= fun _ => forEach l' f := by
  induction l with
  | nil => rfl
  | cons i l ih =>
      rw [List.cons_append, forEach, forEach, bind_bind]
      exact congrArg (f i >>= ·) (funext fun _ => ih)

theorem forEach_map {κ : Type*} (l : List κ) (g : κ → ι) (f : ι → Prog σ PUnit) :
    forEach (l.map g) f = forEach l fun k => f (g k) := by
  induction l with
  | nil => rfl
  | cons k l ih =>
      rw [List.map_cons, forEach, forEach]
      exact congrArg (f (g k) >>= ·) (funext fun _ => ih)

/-- A loop in each round of a loop is one loop. -/
theorem forEach_flatMap {κ : Type*} (l : List κ) (g : κ → List ι) (f : ι → Prog σ PUnit) :
    forEach (l.flatMap g) f = forEach l fun k => forEach (g k) f := by
  induction l with
  | nil => rfl
  | cons k l ih =>
      rw [List.flatMap_cons, forEach_append, forEach]
      exact congrArg (forEach (g k) f >>= ·) (funext fun _ => ih)

/-- A loop that fails has failed in the first round that does. -/
theorem forEach_eq_none {l : List ι} {s s' : σ} (h : forEach l f s = (none, s')) :
    ∃ before i after s₁, l = before ++ i :: after ∧ forEach before f s = (some ⟨⟩, s₁) ∧
      f i s₁ = (none, s') := by
  induction l generalizing s with
  | nil => cases h
  | cons j l ih =>
      rw [forEach, bind_apply] at h
      rcases hj : f j s with ⟨_ | _, s₁⟩
      · rw [hj] at h
        exact ⟨[], j, l, s, rfl, rfl, hj.trans h⟩
      · rw [hj] at h
        obtain ⟨before, i, after, s₂, rfl, hbefore, hi⟩ := ih h
        refine ⟨j :: before, i, after, s₂, rfl, ?_, hi⟩
        rw [forEach, bind_apply, hj]
        exact hbefore

end Loop

section Exits

/-! The rules at a given state, for a property of the exits of a program: of its
result together with the state reached. -/

variable {K : Option β → σ → Prop} {s : σ}

theorem exits_bind {x : Prog σ α} {f : α → Prog σ β} (hfail : (x s).1 = none → K none (x s).2)
    (hok : ∀ v, (x s).1 = some v → K (f v (x s).2).1 (f v (x s).2).2) :
    K ((x >>= f) s).1 ((x >>= f) s).2 := by
  rw [bind_apply]
  rcases hx : x s with ⟨_ | v, s'⟩
  · have h := hfail (by rw [hx])
    rw [hx] at h
    exact h
  · have h := hok v (by rw [hx])
    rw [hx] at h
    exact h

theorem exits_ensure {b : Bool} {f : PUnit → Prog σ β} (hs : K none s)
    (h : b = true → K (f ⟨⟩ s).1 (f ⟨⟩ s).2) :
    K ((ensure b >>= f) s).1 ((ensure b >>= f) s).2 := by
  cases b with
  | false => exact hs
  | true => exact h rfl

theorem exits_require {o : Option α} {f : α → Prog σ β} (hs : K none s)
    (h : ∀ v, o = some v → K (f v s).1 (f v s).2) :
    K ((require o >>= f) s).1 ((require o >>= f) s).2 := by
  cases o with
  | none => exact hs
  | some v => exact h v rfl

theorem exits_onFailure {x : Prog σ β} {y : Prog σ PUnit}
    (hok : ∀ v, (x s).1 = some v → K (some v) (x s).2)
    (hfail : (x s).1 = none → K none (y (x s).2).2) :
    K (onFailure x y s).1 (onFailure x y s).2 := by
  unfold onFailure
  rcases hx : x s with ⟨_ | v, s'⟩
  · have h := hfail (by rw [hx])
    rw [hx] at h
    exact h
  · have h := hok v (by rw [hx])
    rw [hx] at h
    exact h

end Exits

section Keeps

/-! The same rules for a property of the state reached, whatever the result. -/

variable {I : σ → Prop} {s : σ}

theorem keeps_bind {x : Prog σ α} {f : α → Prog σ β} (hfail : (x s).1 = none → I (x s).2)
    (hok : ∀ v, (x s).1 = some v → I (f v (x s).2).2) : I ((x >>= f) s).2 :=
  exits_bind (K := fun _ s => I s) hfail hok

theorem keeps_ensure {b : Bool} {f : PUnit → Prog σ β} (hs : I s)
    (h : b = true → I (f ⟨⟩ s).2) : I ((ensure b >>= f) s).2 :=
  exits_ensure (K := fun _ s => I s) hs h

theorem keeps_require {o : Option α} {f : α → Prog σ β} (hs : I s)
    (h : ∀ v, o = some v → I (f v s).2) : I ((require o >>= f) s).2 :=
  exits_require (K := fun _ s => I s) hs h

theorem keeps_onlyIf {b : Bool} {x : Prog σ PUnit} (hs : I s) (h : b = true → I (x s).2) :
    I (onlyIf b x s).2 := by
  cases b with
  | false => exact hs
  | true => exact h rfl

theorem keeps_onFailure {x : Prog σ α} {y : Prog σ PUnit} (hx : I (x s).2)
    (hy : (x s).1 = none → I (y (x s).2).2) : I (onFailure x y s).2 := by
  unfold onFailure
  rcases h : x s with ⟨_ | v, s'⟩
  · have hfail := hy (by rw [h])
    rw [h] at hfail
    exact hfail
  · rw [h] at hx
    exact hx

end Keeps

section Within

variable {R : σ → σ → Prop}

theorem Within.modify {f : σ → σ} (h : ∀ s, R s (f s)) : Within R (modify f) := h

theorem Within.ite {c : Prop} {_ : Decidable c} {x y : Prog σ α} (hx : c → Within R x)
    (hy : ¬c → Within R y) : Within R (if c then x else y) := by
  split
  · exact hx ‹_›
  · exact hy ‹_›

theorem Within.attempt {x : Prog σ α} (hx : Within R x) : Within R (attempt x) := hx

theorem Within.ignore {x : Prog σ α} (hx : Within R x) : Within R (ignore x) := hx

variable [IsPreorder σ R]

theorem Within.pure (a : α) : Within R (pure a : Prog σ α) := fun s => refl s

theorem Within.fail : Within R (fail : Prog σ α) := fun s => refl s

theorem Within.bind {x : Prog σ α} {f : α → Prog σ β} (hx : Within R x)
    (hf : ∀ a, Within R (f a)) : Within R (x >>= f) := by
  intro s
  have h := hx s
  rw [bind_apply]
  rcases hxs : x s with ⟨_ | a, s'⟩
  · rw [hxs] at h
    exact h
  · rw [hxs] at h
    exact IsTrans.trans _ _ _ h (hf a s')

/-- The rest of a program that reads the state may use what it read. -/
theorem Within.read {f : σ → Prog σ β} (hf : ∀ a, Within R (f a)) : Within R (read >>= f) :=
  Within.bind (fun s => refl s) hf

theorem Within.ensure (b : Bool) : Within R (ensure b : Prog σ PUnit) := fun s => refl s

theorem Within.require (o : Option α) : Within R (require o : Prog σ α) := fun s => refl s

/-- The rest of a program runs only when the check holds. -/
theorem Within.ensureThen {b : Bool} {f : PUnit → Prog σ β} (hf : b = true → Within R (f ⟨⟩)) :
    Within R (Prog.ensure b >>= f) := by
  cases b with
  | false => exact fun s => refl s
  | true => exact hf rfl

theorem Within.requireThen {o : Option α} {f : α → Prog σ β}
    (hf : ∀ v, o = some v → Within R (f v)) : Within R (Prog.require o >>= f) := by
  cases o with
  | none => exact fun s => refl s
  | some v => exact hf v rfl

theorem Within.onlyIf {b : Bool} {x : Prog σ PUnit} (hx : b = true → Within R x) :
    Within R (onlyIf b x) :=
  .ite hx fun _ => .pure _

theorem Within.onFailure {x : Prog σ α} {y : Prog σ PUnit} (hx : Within R x)
    (hy : Within R y) : Within R (onFailure x y) := by
  intro s
  have h := hx s
  unfold Prog.onFailure
  rcases hxs : x s with ⟨_ | a, s'⟩
  · rw [hxs] at h
    exact IsTrans.trans _ _ _ h (hy s')
  · rw [hxs] at h
    exact h

theorem Within.forEach {ι : Type*} {l : List ι} {f : ι → Prog σ PUnit}
    (hf : ∀ i ∈ l, Within R (f i)) : Within R (forEach l f) := by
  induction l with
  | nil => exact Within.pure _
  | cons i l ih =>
      refine Within.bind (hf i (by simp)) fun _ => ?_
      exact ih fun j hj => hf j (by simp [hj])

end Within

section Turn

/-! Where what holds of a round depends on the state in which it begins. -/

variable {ι : Type*} {l : List ι} {f : ι → Prog σ PUnit} {i j : ι} {s s' t : σ}

/-- The loop over `l`, started in `s`, begins its round `i` in `t`. -/
def Turn (l : List ι) (f : ι → Prog σ PUnit) (s : σ) (i : ι) (t : σ) : Prop :=
  ∃ before after, l = before ++ i :: after ∧ forEach before f s = (some ⟨⟩, t)

theorem Turn.head : Turn (i :: l) f s i s := ⟨[], l, rfl, rfl⟩

theorem Turn.tail (hi : f i s = (some ⟨⟩, s')) (h : Turn l f s' j t) : Turn (i :: l) f s j t := by
  obtain ⟨before, after, rfl, hbefore⟩ := h
  exact ⟨i :: before, after, rfl, bind_eq_some.2 ⟨_, s', hi, hbefore⟩⟩

theorem Turn.before {R : σ → σ → Prop} [IsPreorder σ R] (h : Turn l f s i t)
    (hf : ∀ i ∈ l, Within R (f i)) : R s t := by
  obtain ⟨before, after, rfl, hbefore⟩ := h
  have hprefix := Within.forEach (fun j hj => hf j (List.mem_append_left _ hj)) s
  rwa [hbefore] at hprefix

theorem Turn.after {R : σ → σ → Prop} [IsPreorder σ R] (h : Turn l f s i t)
    (hf : ∀ i ∈ l, Within R (f i)) : R (f i t).2 (forEach l f s).2 := by
  obtain ⟨before, after, rfl, hbefore⟩ := h
  rw [forEach_append, bind_apply, hbefore]
  refine exits_bind (K := fun _ u => R (f i t).2 u) (fun _ => refl _) fun _ _ => ?_
  exact Within.forEach (fun j hj => hf j (by simp [hj])) _

/-- A loop keeps what each of its rounds keeps in the state in which it begins. -/
theorem forEach_keeps_turns {I : σ → Prop} (hs : I s)
    (h : ∀ i t, Turn l f s i t → I t → I (f i t).2) : I (forEach l f s).2 := by
  induction l generalizing s with
  | nil => exact hs
  | cons i l ih =>
      have hi := h i s .head hs
      rw [forEach, bind_apply]
      rcases hround : f i s with ⟨_ | _, s₁⟩
      · rwa [hround] at hi
      · rw [hround] at hi
        exact ih hi fun j t ht => h j t (ht.tail hround)

/-- A loop that fails in the round of the first item that meets `p`, and keeps `I` up to
this round. -/
theorem forEach_until {I J : σ → Prop} {p : ι → Bool} (hI : ∀ t, I t → J t) (hs : I s)
    (hskip : ∀ i t, Turn l f s i t → p i = false → I t → I (f i t).2)
    (hstop : ∀ i t, Turn l f s i t → l.find? p = some i → I t → J (f i t).2 ∧ (f i t).1 = none) :
    J (forEach l f s).2 ∧
      ((forEach l f s).1.isSome = true → I (forEach l f s).2 ∧ l.find? p = none) := by
  induction l generalizing s with
  | nil => exact ⟨hI s hs, fun _ => ⟨hs, rfl⟩⟩
  | cons i l ih =>
      rw [forEach, bind_apply, List.find?_cons]
      rw [List.find?_cons] at hstop
      cases hp : p i with
      | false =>
          rw [hp] at hstop
          have hround := hskip i s .head hp hs
          rcases hx : f i s with ⟨_ | _, s₁⟩
          · rw [hx] at hround
            exact ⟨hI _ hround, fun h => by cases h⟩
          · rw [hx] at hround
            exact ih hround (fun j t ht => hskip j t (ht.tail hx))
              fun j t ht => hstop j t (ht.tail hx)
      | true =>
          rw [hp] at hstop
          have hround := hstop i s .head rfl hs
          rcases hx : f i s with ⟨_ | _, s₁⟩
          · rw [hx] at hround
            exact ⟨hround.1, fun h => by cases h⟩
          · rw [hx] at hround
            cases hround.2

end Turn

/-- An invariant is kept along a relation that is a preorder, so that the rules
of `Within` apply to it. -/
instance {I : σ → Prop} : IsPreorder σ (fun s s' => I s → I s') where
  refl _ h := h
  trans _ _ _ h₁ h₂ h := h₂ (h₁ h)

/-- The rest of a program that reads the state may use the invariant of what it
read. -/
theorem Preserves.readThen {I : σ → Prop} {f : σ → Prog σ β}
    (hf : ∀ s, I s → Preserves I (f s)) : Preserves I (read >>= f) := by
  intro s hs
  exact hf s hs s hs

/-- The program does not see the change `g` of the state: it returns the same result, and
the change can be made before or after it. -/
def Commutes (g : σ → σ) (x : Prog σ α) : Prop :=
  ∀ s, x (g s) = ((x s).1, g (x s).2)

namespace Commutes

variable {g : σ → σ}

theorem pure (a : α) : Commutes g (pure a : Prog σ α) := fun _ => rfl

theorem ensure (b : Bool) : Commutes g (ensure b) := by
  intro s
  cases b <;> rfl

theorem require (o : Option α) : Commutes g (require o) := fun _ => rfl

theorem modify {f : σ → σ} (h : ∀ s, f (g s) = g (f s)) : Commutes g (modify f) := by
  intro s
  rw [modify_apply, modify_apply, h]

theorem bind {x : Prog σ α} {f : α → Prog σ β} (hx : Commutes g x)
    (hf : ∀ a, Commutes g (f a)) : Commutes g (x >>= f) := by
  intro s
  rw [bind_apply, bind_apply, hx s]
  rcases x s with ⟨_ | a, s'⟩
  · rfl
  · exact hf a s'

/-- The rest of a program may use what it reads as far as the change does not touch it. -/
theorem read {f : σ → Prog σ β} (hsame : ∀ s, f (g s) = f s) (hf : ∀ a, Commutes g (f a)) :
    Commutes g (read >>= f) := by
  intro s
  rw [read_bind_apply, read_bind_apply, hsame]
  exact hf s s

theorem onlyIf {b : Bool} {x : Prog σ PUnit} (hx : Commutes g x) : Commutes g (onlyIf b x) := by
  cases b with
  | false => exact .pure _
  | true => exact hx

theorem forEach {ι : Type*} {l : List ι} {f : ι → Prog σ PUnit} (hf : ∀ i, Commutes g (f i)) :
    Commutes g (forEach l f) := by
  induction l with
  | nil => exact .pure _
  | cons i l ih => exact .bind (hf i) fun _ => ih

end Commutes

end Prog
