import Mathlib.Data.List.Basic

/-!
# Splitting a list at a separator

`findSep sep s` is the position of the leftmost occurrence of the list `sep` in `s`,
and `splitSep sep s` are the pieces of `s` between the separators found from left to
right. Joining the pieces gives the list back, and splitting a join gives its
pieces back when the first element of the separator does not occur in them.
-/

namespace Separator

variable {α : Type*} [DecidableEq α]

/-- The position of the leftmost occurrence of `sep`. -/
def findSep (sep : List α) : List α → Option ℕ
  | [] => if sep = [] then some 0 else none
  | x :: s => if sep.isPrefixOf (x :: s) then some 0 else (findSep sep s).map (· + 1)

/-- A separator is found where it occurs. -/
theorem prefix_drop_of_findSep {sep s : List α} {k : ℕ} (h : findSep sep s = some k) :
    sep <+: s.drop k := by
  induction s generalizing k with
  | nil =>
      by_cases hsep : sep = []
      · simp [hsep]
      · simp [findSep, hsep] at h
  | cons x s ih =>
      by_cases hp : sep.isPrefixOf (x :: s)
      · simp only [findSep, hp, if_true, Option.some.injEq] at h
        subst h
        exact List.isPrefixOf_iff_prefix.1 hp
      · simp only [findSep, hp, Bool.false_eq_true, if_false, Option.map_eq_some_iff] at h
        obtain ⟨j, hj, rfl⟩ := h
        exact ih hj

theorem length_of_findSep {sep s : List α} {k : ℕ} (hsep : sep ≠ [])
    (h : findSep sep s = some k) : k + sep.length ≤ s.length := by
  have hle := (prefix_drop_of_findSep h).length_le
  have hpos : 0 < sep.length := List.length_pos_iff.2 hsep
  rw [List.length_drop] at hle
  omega

theorem findSep_eq_zero_iff {sep s : List α} : findSep sep s = some 0 ↔ sep <+: s := by
  constructor
  · intro h
    exact prefix_drop_of_findSep h
  · intro h
    cases s with
    | nil => simp [findSep, List.prefix_nil.1 h]
    | cons x s => simp [findSep, List.isPrefixOf_iff_prefix.2 h]

/-- The pieces of a list between the separators found from left to right. -/
def splitSep (sep : List α) (s : List α) : List (List α) :=
  if _hsep : sep = [] then [s]
  else
    match _h : findSep sep s with
    | none => [s]
    | some k => s.take k :: splitSep sep (s.drop (k + sep.length))
  termination_by s.length
  decreasing_by
    have hle := length_of_findSep _hsep _h
    have hpos : 0 < sep.length := List.length_pos_iff.2 _hsep
    rw [List.length_drop]
    omega

theorem splitSep_of_none {sep s : List α} (h : findSep sep s = none) :
    splitSep sep s = [s] := by
  rw [splitSep]
  by_cases hsep : sep = []
  · simp [hsep]
  · simp only [hsep, dite_false]
    split
    · rfl
    · next k hk => simp [hk] at h

theorem splitSep_of_some {sep s : List α} {k : ℕ} (hsep : sep ≠ [])
    (h : findSep sep s = some k) :
    splitSep sep s = s.take k :: splitSep sep (s.drop (k + sep.length)) := by
  rw [splitSep]
  simp only [hsep, dite_false]
  split
  · next hk => simp [hk] at h
  · next j hj =>
      obtain rfl : j = k := Option.some.inj (hj.symm.trans h)
      rfl

theorem splitSep_ne_nil (sep s : List α) : splitSep sep s ≠ [] := by
  rw [splitSep]
  by_cases hsep : sep = []
  · simp [hsep]
  · simp only [hsep, dite_false]
    split <;> simp

/-- The separator is found behind a piece that its first element does not occur in. -/
theorem findSep_append {x : α} {sep p : List α} (hp : x ∉ p) (t : List α) :
    findSep (x :: sep) (p ++ (x :: sep) ++ t) = some p.length := by
  induction p with
  | nil => exact findSep_eq_zero_iff.2 (List.prefix_append _ _)
  | cons y p ih =>
      have hxy : x ≠ y := fun h => hp (h ▸ List.mem_cons_self)
      have hpref : (x :: sep).isPrefixOf (y :: (p ++ (x :: sep) ++ t)) = false := by
        simp [List.isPrefixOf, hxy]
      have ih := ih fun h => hp (List.mem_cons_of_mem _ h)
      calc findSep (x :: sep) (y :: (p ++ (x :: sep) ++ t))
          = (findSep (x :: sep) (p ++ (x :: sep) ++ t)).map (· + 1) := by
            simp only [findSep, hpref, Bool.false_eq_true, if_false]
        _ = some (y :: p).length := by rw [ih]; simp

theorem findSep_eq_none {x : α} {sep p : List α} (hp : x ∉ p) : findSep (x :: sep) p = none := by
  induction p with
  | nil => rfl
  | cons y p ih =>
      have hxy : x ≠ y := fun h => hp (h ▸ List.mem_cons_self)
      have ih := ih fun h => hp (List.mem_cons_of_mem _ h)
      simp [findSep, List.isPrefixOf, hxy, ih]

/-- Splitting a join gives its pieces back. -/
theorem splitSep_intercalate {x : α} {sep : List α} {l : List (List α)} (hl : l ≠ [])
    (hpieces : ∀ p ∈ l, x ∉ p) : splitSep (x :: sep) ((x :: sep).intercalate l) = l := by
  induction l with
  | nil => exact absurd rfl hl
  | cons p l ih =>
      have hp := hpieces p List.mem_cons_self
      cases l with
      | nil =>
          have hjoin : (x :: sep).intercalate [p] = p := by simp [List.intercalate]
          rw [hjoin, splitSep_of_none (findSep_eq_none hp)]
      | cons q l =>
          have ih := ih (by simp) fun r hr => hpieces r (List.mem_cons_of_mem _ hr)
          have hjoin : (x :: sep).intercalate (p :: q :: l) =
              p ++ (x :: sep) ++ (x :: sep).intercalate (q :: l) := by
            simp [List.intercalate]
          rw [hjoin, splitSep_of_some (by simp) (findSep_append hp _)]
          have hdrop : (p ++ (x :: sep) ++ (x :: sep).intercalate (q :: l)).drop
              (p.length + (x :: sep).length) = (x :: sep).intercalate (q :: l) := by
            rw [← List.length_append, List.drop_left]
          rw [hdrop, ih]
          simp

end Separator
