import Mathlib.Data.List.Basic

/-!
# Searching in a string

A pointer into a string is the part of the string from there on, so it is a suffix of
the string, and a pointer further on is a shorter suffix. `find s pat` is the pointer
to the first place in `s` where `pat` occurs.
-/

namespace Substring

variable {α : Type*} {s t u pat : List α}

/-- Two pointers into a string with as much of it ahead are the same. -/
theorem eq_of_length_eq (ht : t <:+ s) (hu : u <:+ s) (h : t.length = u.length) : t = u :=
  (List.suffix_of_suffix_length_le ht hu (Nat.le_of_eq h)).eq_of_length h

variable [DecidableEq α]

/-- The first place in a string where another one occurs. -/
def find (pat : List α) : List α → Option (List α)
  | [] => if pat = [] then some [] else none
  | x :: s => if pat.isPrefixOf (x :: s) then some (x :: s) else find pat s

theorem find_eq_none_iff : find pat s = none ↔ ∀ u, u <:+ s → ¬ pat <+: u := by
  induction s with
  | nil => simp [find, List.suffix_nil]
  | cons x s ih =>
      unfold find
      by_cases hpre : pat.isPrefixOf (x :: s) = true
      · rw [if_pos hpre]
        refine iff_of_false (by simp) fun hall => ?_
        exact hall _ (List.suffix_refl _) (List.isPrefixOf_iff_prefix.1 hpre)
      · rw [if_neg hpre, ih]
        rw [List.isPrefixOf_iff_prefix] at hpre
        constructor
        · intro hall u hu
          rcases List.suffix_cons_iff.1 hu with rfl | hu
          · exact hpre
          · exact hall u hu
        · intro hall u hu
          exact hall u (List.suffix_cons_iff.2 (.inr hu))

theorem find_suffix (h : find pat s = some t) : t <:+ s := by
  induction s with
  | nil =>
      unfold find at h
      split at h
      · cases h
        exact List.suffix_refl _
      · cases h
  | cons x s ih =>
      unfold find at h
      split at h
      · cases h
        exact List.suffix_refl _
      · exact (ih h).trans (List.suffix_cons x s)

theorem occurs_of_find (h : find pat s = some t) : pat <+: t := by
  induction s with
  | nil =>
      unfold find at h
      split at h
      case isTrue hpat =>
        rw [hpat]
        exact List.nil_prefix
      case isFalse => cases h
  | cons x s ih =>
      unfold find at h
      split at h
      case isTrue hpre =>
        cases h
        exact List.isPrefixOf_iff_prefix.1 hpre
      case isFalse => exact ih h

/-- No occurrence is before the one found. -/
theorem length_le_of_find (h : find pat s = some t) (hu : u <:+ s) (hpre : pat <+: u) :
    u.length ≤ t.length := by
  induction s with
  | nil =>
      rw [List.suffix_nil.1 hu]
      exact Nat.zero_le _
  | cons x s ih =>
      unfold find at h
      split at h
      case isTrue =>
        cases h
        exact hu.length_le
      case isFalse hno =>
        rcases List.suffix_cons_iff.1 hu with rfl | hu
        · exact absurd (List.isPrefixOf_iff_prefix.2 hpre) hno
        · exact ih h hu

theorem find_isSome_of_occurs (hu : u <:+ s) (hpre : pat <+: u) : ∃ t, find pat s = some t := by
  cases hfind : find pat s with
  | none => exact absurd hpre (find_eq_none_iff.1 hfind u hu)
  | some t => exact ⟨t, rfl⟩

/-- A string that occurs after a pointer occurs in the whole. -/
theorem find_isSome_of_suffix (hu : u <:+ s) (h : find pat u = some t) :
    ∃ t', find pat s = some t' :=
  find_isSome_of_occurs ((find_suffix h).trans hu) (occurs_of_find h)

theorem find_eq_self (h : pat <+: s) : find pat s = some s := by
  obtain ⟨t, ht⟩ := find_isSome_of_occurs (List.suffix_refl s) h
  have hle := length_le_of_find ht (List.suffix_refl s) h
  rw [ht, eq_of_length_eq (find_suffix ht) (List.suffix_refl s)
    (Nat.le_antisymm (find_suffix ht).length_le hle)]

/-- The first place of a character. -/
theorem find_singleton (c : α) (s : List α) :
    find [c] s = if c ∈ s then some (s.dropWhile (· != c)) else none := by
  induction s with
  | nil => rfl
  | cons x s ih =>
      unfold find
      by_cases hx : x = c
      · simp [hx]
      · have hx' : c ≠ x := fun h => hx h.symm
        simp [hx, hx', ih]

/-- What is before the first place of a character. -/
theorem take_dropWhile (c : α) (s : List α) :
    s.take (s.length - (s.dropWhile (· != c)).length) = s.takeWhile (· != c) := by
  have hlength : s.length - (s.dropWhile (· != c)).length = (s.takeWhile (· != c)).length := by
    have hsum := congrArg List.length (List.takeWhile_append_dropWhile (p := (· != c)) (l := s))
    rw [List.length_append] at hsum
    omega
  rw [hlength]
  exact (List.prefix_iff_eq_take.1 (List.takeWhile_prefix _)).symm

/-- What is before the first place of a character is a string without it that is followed
by it. -/
theorem takeWhile_eq_iff (c : α) (s v : List α) :
    c ∈ s ∧ s.takeWhile (· != c) = v ↔ v ++ [c] <+: s ∧ c ∉ v := by
  induction s generalizing v with
  | nil => simp
  | cons x s ih =>
      by_cases hx : x = c
      · subst hx
        cases v with
        | nil => simp
        | cons y v =>
            simp only [List.mem_cons, true_or, List.takeWhile_cons, bne_self_eq_false]
            grind
      · have hne : x ≠ c := hx
        cases v with
        | nil => simp [hne, Ne.symm hne]
        | cons y v =>
            rw [List.takeWhile_cons_of_pos (by simpa using hne), List.cons_append,
              List.cons_prefix_cons]
            have hih := ih v
            grind

end Substring
