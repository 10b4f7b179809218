import Mathlib.Data.List.Count
import Mathlib.Data.List.Nodup
import NanoAgent.Foundations.Loop
import NanoAgent.Foundations.Program

/-!
# Starting and stopping in order

The components of a list are started one after the other until one refuses, and stopped
one after the other. A `Call` is a call to a component together with its answer, and
`Components` keeps the calls made. `AllOrNothing` says of the calls of a start that
failed that they come to nothing: what was started was stopped once, and nothing
else was stopped.

`stopPass` is the round of a loop that stays at a component until it stops. Whether
such a loop ends depends on the answers of the components.
-/

namespace StartStop

open Prog

variable {ι : Type}

/-- A call to a component, with its answer. -/
inductive Call (ι : Type)
  | start (i : ι) (ok : Bool)
  | stop (i : ι) (ok : Bool)
  deriving DecidableEq, Repr

/-- The components in their order, whether they are marked as started, and the calls made
to them. -/
structure Components (ι : Type) where
  members : List ι
  distinct : members.Nodup
  started : Bool
  calls : List (Call ι)

/-- Start a component. -/
def startOne (accepts : ι → Bool) (i : ι) : Prog (Components ι) PUnit := do
  modify fun a => { a with calls := a.calls ++ [.start i (accepts i)] }
  ensure (accepts i)

/-- Stop a component, whatever it answers. -/
def stopOne (answers : ι → Bool) (i : ι) : Prog (Components ι) PUnit :=
  modify fun a => { a with calls := a.calls ++ [.stop i (answers i)] }

/-- The calls that start the components of a list, up to the first one that refuses. -/
def startCalls (accepts : ι → Bool) : List ι → List (Call ι)
  | [] => []
  | i :: l => if accepts i then .start i true :: startCalls accepts l else [.start i false]

theorem forEach_startOne (accepts : ι → Bool) (l : List ι) (a : Components ι) :
    forEach l (startOne accepts) a =
      (if l.all accepts then some ⟨⟩ else none,
        { a with calls := a.calls ++ startCalls accepts l }) := by
  induction l generalizing a with
  | nil => simp [forEach, startCalls]
  | cons i l ih =>
      rw [forEach, bind_apply, startOne, modify_bind_apply]
      cases hi : accepts i with
      | false => simp [ensure, startCalls, hi]
      | true => simp [ensure, startCalls, hi, ih]

theorem forEach_stopOne (answers : ι → Bool) (l : List ι) (a : Components ι) :
    forEach l (stopOne answers) a =
      (some ⟨⟩, { a with calls := a.calls ++ l.map fun i => .stop i (answers i) }) := by
  induction l generalizing a with
  | nil => simp [forEach]
  | cons i l ih =>
      rw [forEach, stopOne, modify_bind_apply, ih]
      simp

theorem accepts_of_start_mem {accepts : ι → Bool} {i : ι} {l : List ι}
    (h : .start i true ∈ startCalls accepts l) : accepts i = true := by
  induction l with
  | nil => simp [startCalls] at h
  | cons j l ih =>
      unfold startCalls at h
      split at h
      · rename_i hj
        rcases List.mem_cons.1 h with heq | hmem
        · cases heq
          exact hj
        · exact ih hmem
      · simp at h

section Stops

variable [DecidableEq ι]

/-- The call stops the component `i`. -/
def Call.Stops (i : ι) : Call ι → Bool
  | .start _ _ => false
  | .stop j _ => j = i

/-- How often a component is stopped. -/
def stops (i : ι) (calls : List (Call ι)) : ℕ := calls.countP (Call.Stops i)

/-- What was started was stopped once, and nothing else was stopped. -/
structure AllOrNothing (calls : List (Call ι)) : Prop where
  undone : ∀ i, .start i true ∈ calls → stops i calls = 1
  others : ∀ i, 0 < stops i calls → .start i true ∈ calls

/-- No calls come to nothing. -/
theorem AllOrNothing.nil : AllOrNothing ([] : List (Call ι)) where
  undone i h := by cases h
  others i h := absurd h (Nat.lt_irrefl 0)

theorem stops_append (i : ι) (calls calls' : List (Call ι)) :
    stops i (calls ++ calls') = stops i calls + stops i calls' :=
  List.countP_append

theorem stops_stop (i j : ι) (ok : Bool) :
    stops i [.stop j ok] = if j = i then 1 else 0 := by
  simp [stops, Call.Stops, List.countP_cons]

theorem stops_startCalls (accepts : ι → Bool) (i : ι) (l : List ι) :
    stops i (startCalls accepts l) = 0 := by
  induction l with
  | nil => rfl
  | cons j l ih =>
      unfold startCalls
      split
      · rw [stops, List.countP_cons, ← stops, ih]
        rfl
      · rfl

theorem stops_map_stop (answers : ι → Bool) (i : ι) (l : List ι) :
    stops i (l.map fun j => .stop j (answers j)) = l.count i := by
  induction l with
  | nil => rfl
  | cons j l ih =>
      rw [List.map_cons, stops, List.countP_cons, ← stops, ih, List.count_cons]
      simp [Call.Stops]

/-- Components that are only started come to nothing when the first of them refuses. -/
theorem allOrNothing_startCalls_iff (accepts : ι → Bool) (l : List ι) :
    AllOrNothing (startCalls accepts l) ↔ ∀ i ∈ l.head?, accepts i = false := by
  constructor
  · intro h i hi
    cases l with
    | nil => simp at hi
    | cons j l =>
        obtain rfl : j = i := by simpa using hi
        by_contra hj
        rw [Bool.not_eq_false] at hj
        have hmem : .start j true ∈ startCalls accepts (j :: l) := by simp [startCalls, hj]
        have hundone := h.undone j hmem
        rw [stops_startCalls] at hundone
        cases hundone
  · intro h
    have hnone : ∀ i, .start i true ∉ startCalls accepts l := by
      intro i hmem
      cases l with
      | nil => simp [startCalls] at hmem
      | cons j l =>
          have hj := h j (by simp)
          simp [startCalls, hj] at hmem
    constructor
    · intro i hmem
      exact absurd hmem (hnone i)
    · intro i hpos
      rw [stops_startCalls] at hpos
      cases hpos

theorem stops_map_pos (answers : ι → Bool) {i : ι} {l : List ι} (hi : i ∈ l) :
    0 < stops i (l.map fun j => .stop j (answers j)) := by
  rw [stops_map_stop]
  exact List.count_pos_iff.2 hi

/-- When all components of a list are stopped after one of them refused, one is stopped that
was not started. -/
theorem not_allOrNothing_of_refused {accepts : ι → Bool} (answers : ι → Bool) {l : List ι} {i : ι}
    (hi : i ∈ l) (hrefused : accepts i = false) :
    ¬ AllOrNothing (startCalls accepts l ++ l.map fun j => .stop j (answers j)) := by
  intro h
  have hpos : 0 < stops i (startCalls accepts l ++ l.map fun j => .stop j (answers j)) := by
    rw [stops_append]
    have hstops := stops_map_pos answers hi
    omega
  rcases List.mem_append.1 (h.others i hpos) with hmem | hmem
  · rw [accepts_of_start_mem hmem] at hrefused
    cases hrefused
  · simp at hmem

/-- A pass over a list that stays at a component until it stops. The answers of a component
are numbered. -/
def stopPass (answers : ι → ℕ → Bool) (s : List ι × List (Call ι)) :
    List (Call ι) ⊕ (List ι × List (Call ι)) :=
  match s.1 with
  | [] => .inl s.2
  | i :: l =>
      let ok := answers i (stops i s.2)
      .inr (if ok then l else i :: l, s.2 ++ [.stop i ok])

section Passes

variable {answers : ι → ℕ → Bool}

theorem goesOn_of_stopped {i : ι} {l : List ι} {calls : List (Call ι)}
    (h : answers i (stops i calls) = true) :
    Loop.GoesOn (stopPass answers) (i :: l, calls) (l, calls ++ [.stop i true]) := by
  simp [Loop.GoesOn, stopPass, h]

theorem goesOn_of_refused {i : ι} {l : List ι} {calls : List (Call ι)}
    (h : answers i (stops i calls) = false) :
    Loop.GoesOn (stopPass answers) (i :: l, calls) (i :: l, calls ++ [.stop i false]) := by
  simp [Loop.GoesOn, stopPass, h]

/-- Components that stop at once are stopped in their order. -/
theorem runLoop_of_stopped {l : List ι} (hl : l.Nodup) {calls : List (Call ι)}
    (h : ∀ i ∈ l, answers i (stops i calls) = true) :
    Loop.runLoop (stopPass answers) (l.length + 1) (l, calls) =
      some (calls ++ l.map fun i => .stop i true) := by
  induction l generalizing calls with
  | nil => simp [Loop.runLoop, stopPass]
  | cons i l ih =>
      rw [List.length_cons,
        Loop.runLoop_succ_of_goesOn (goesOn_of_stopped (h i List.mem_cons_self))]
      obtain ⟨hnew, hl⟩ := List.nodup_cons.1 hl
      rw [ih hl]
      · simp
      · intro j hj
        have hne : i ≠ j := fun heq => hnew (heq ▸ hj)
        rw [stops_append, stops_stop, if_neg hne]
        exact h j (List.mem_cons_of_mem _ hj)

/-- A loop that ends has stopped every component of its list once more, and once again
when the component refused at first. -/
theorem stops_of_runLoop {n : ℕ} {l : List ι} {calls calls' : List (Call ι)}
    (h : Loop.runLoop (stopPass answers) n (l, calls) = some calls') (i : ι) :
    stops i calls + (if i ∈ l then (if answers i (stops i calls) then 1 else 2) else 0) ≤
      stops i calls' := by
  induction n generalizing l calls with
  | zero => simp [Loop.runLoop] at h
  | succ n ih =>
      cases l with
      | nil =>
          obtain rfl : calls = calls' := by simpa [Loop.runLoop, stopPass] using h
          simp
      | cons j l =>
          cases hj : answers j (stops j calls) with
          | true =>
              rw [Loop.runLoop_succ_of_goesOn (goesOn_of_stopped hj)] at h
              have hrest := ih h
              rw [stops_append, stops_stop] at hrest
              by_cases heq : j = i
              · subst heq
                rw [if_pos rfl] at hrest
                rw [if_pos List.mem_cons_self, hj, if_pos rfl]
                omega
              · rw [if_neg heq, Nat.add_zero] at hrest
                have hmem : i ∈ j :: l ↔ i ∈ l := by simp [Ne.symm heq]
                simp only [hmem]
                exact hrest
          | false =>
              rw [Loop.runLoop_succ_of_goesOn (goesOn_of_refused hj)] at h
              have hrest := ih h
              rw [stops_append, stops_stop] at hrest
              by_cases heq : j = i
              · subst heq
                rw [if_pos rfl, if_pos List.mem_cons_self] at hrest
                rw [if_pos List.mem_cons_self, hj, if_neg Bool.false_ne_true]
                split at hrest <;> omega
              · rw [if_neg heq, Nat.add_zero] at hrest
                exact hrest

/-- A component that never stops is never left. -/
theorem not_ends_of_refusing {i : ι} {l : List ι} (h : ∀ k, answers i k = false)
    (calls : List (Call ι)) : ¬ Loop.Ends (stopPass answers) (i :: l, calls) := by
  refine Loop.not_ends (I := fun s => s.1 = i :: l) (fun s hs => ?_) rfl
  obtain ⟨m, calls⟩ := s
  dsimp only at hs
  rw [hs]
  exact ⟨_, goesOn_of_refused (h _), rfl⟩

end Passes

end Stops

end StartStop
