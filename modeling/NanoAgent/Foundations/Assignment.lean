import Mathlib.Data.List.Nodup
import Mathlib.Logic.Basic

/-!
# Handing out names

Items are entered one by one under a name that each item has, or lacks. `assignOne`
fails for an item without a name, passes over an item whose name has been taken, and
otherwise enters the item when it is ready, and fails when it is not.

An item is `Sole` in the entries when it has one entry, under a name that no other entry
has. `assign_sole_iff` says when a whole list of items can be entered such that each of
them ends as a sole one: the condition on an item sees the entries from before and the
items that come before it.
-/

namespace Assignment

variable {α κ : Type*}

/-- A property of the items of a list together with those before them. -/
theorem forall_split_cons {P : List α → α → Prop} {x : α} {items : List α} :
    (∀ earlier y later, x :: items = earlier ++ y :: later → P earlier y) ↔
      P [] x ∧ ∀ earlier y later, items = earlier ++ y :: later → P (x :: earlier) y := by
  constructor
  · intro h
    refine ⟨h [] x items rfl, fun earlier y later heq => ?_⟩
    exact h (x :: earlier) y later (by rw [heq]; rfl)
  · rintro ⟨hx, h⟩ earlier y later heq
    cases earlier with
    | nil =>
        obtain ⟨rfl, -⟩ := List.cons.inj heq
        exact hx
    | cons z earlier =>
        obtain ⟨rfl, hrest⟩ := List.cons.inj heq
        exact h earlier y later hrest

/-- The names that have been taken. -/
def taken (es : List (κ × α)) : List κ := es.map Prod.fst

@[simp] theorem taken_append (es es' : List (κ × α)) : taken (es ++ es') = taken es ++ taken es' :=
  List.map_append

theorem nodup_map_iff_forall_split {name : α → Option κ} {items : List α} : (items.map name).Nodup ↔
    ∀ earlier x later, items = earlier ++ x :: later → name x ∉ earlier.map name := by
  induction items with
  | nil => simp
  | cons y items ih =>
      rw [List.map_cons, List.nodup_cons, ih, forall_split_cons]
      constructor
      · rintro ⟨hy, h⟩
        refine ⟨List.not_mem_nil, fun earlier x later heq => ?_⟩
        rw [List.map_cons, List.mem_cons, not_or]
        refine ⟨fun hxy => hy ?_, h earlier x later heq⟩
        rw [← hxy]
        exact List.mem_map_of_mem (by simp [heq])
      · rintro ⟨-, h⟩
        refine ⟨fun hmem => ?_, fun earlier x later heq hx => ?_⟩
        · obtain ⟨x, hx, hxy⟩ := List.mem_map.1 hmem
          obtain ⟨earlier, later, heq⟩ := List.append_of_mem hx
          exact h earlier x later heq (by simp [hxy])
        · exact h earlier x later heq (List.mem_cons_of_mem _ hx)

section Assign

variable [DecidableEq κ] (name : α → Option κ) (ready : α → Bool)

/-- Enter an item. -/
def assignOne (es : List (κ × α)) (x : α) : Option (List (κ × α)) :=
  match name x with
  | none => none
  | some k => if k ∈ taken es then some es else if ready x then some (es ++ [(k, x)]) else none

/-- Enter a list of items. -/
def assign (items : List α) (es : List (κ × α)) : Option (List (κ × α)) :=
  items.foldlM (assignOne name ready) es

variable {name ready} {es es' : List (κ × α)} {x y : α} {k : κ}

/-- What entering an item does when it succeeds. -/
theorem assignOne_eq_some (h : assignOne name ready es x = some es') :
    ∃ k, name x = some k ∧ ((k ∈ taken es ∧ es' = es) ∨
      (k ∉ taken es ∧ ready x = true ∧ es' = es ++ [(k, x)])) := by
  unfold assignOne at h
  cases hname : name x with
  | none => simp [hname] at h
  | some k =>
      refine ⟨k, rfl, ?_⟩
      rw [hname] at h
      by_cases hk : k ∈ taken es
      · simp only [hk, if_true, Option.some.injEq] at h
        exact .inl ⟨hk, h.symm⟩
      · simp only [hk, if_false] at h
        by_cases hready : ready x = true
        · simp only [hready, if_true, Option.some.injEq] at h
          exact .inr ⟨hk, hready, h.symm⟩
        · simp [hready] at h

theorem mem_taken_assignOne_iff (h : assignOne name ready es x = some es') :
    k ∈ taken es' ↔ k ∈ taken es ∨ name x = some k := by
  obtain ⟨k', hname, ⟨hk, rfl⟩ | ⟨-, -, rfl⟩⟩ := assignOne_eq_some h
  · rw [hname, Option.some.injEq]
    constructor
    · exact Or.inl
    · rintro (hmem | rfl)
      · exact hmem
      · exact hk
  · rw [hname, taken_append, List.mem_append]
    simp [taken, eq_comm]

theorem mem_items_assignOne_iff (h : assignOne name ready es x = some es') (hne : y ≠ x) :
    y ∈ es'.map Prod.snd ↔ y ∈ es.map Prod.snd := by
  obtain ⟨k, -, ⟨-, rfl⟩ | ⟨-, -, rfl⟩⟩ := assignOne_eq_some h
  · exact Iff.rfl
  · simp [hne]

@[simp] theorem assign_nil (es : List (κ × α)) : assign name ready [] es = some es := rfl

theorem assign_cons (x : α) (items : List α) (es : List (κ × α)) :
    assign name ready (x :: items) es =
      (assignOne name ready es x).bind (assign name ready items) :=
  List.foldlM_cons

theorem taken_subset_of_assign {items : List α} (h : assign name ready items es = some es') :
    taken es ⊆ taken es' := by
  induction items generalizing es with
  | nil =>
      obtain rfl : es = es' := Option.some.inj h
      exact List.Subset.refl _
  | cons x items ih =>
      rw [assign_cons] at h
      obtain ⟨es₁, hone, hrest⟩ := Option.bind_eq_some_iff.1 h
      intro k hk
      exact ih hrest ((mem_taken_assignOne_iff hone).2 (.inl hk))

/-- When all items have been entered, their names are taken. -/
theorem taken_of_assign {items : List α} (h : assign name ready items es = some es') :
    ∀ x ∈ items, ∃ k, name x = some k ∧ k ∈ taken es' := by
  induction items generalizing es with
  | nil => simp
  | cons x items ih =>
      rw [assign_cons] at h
      obtain ⟨es₁, hone, hrest⟩ := Option.bind_eq_some_iff.1 h
      intro y hy
      rcases List.mem_cons.1 hy with rfl | hy
      · obtain ⟨k, hname, -⟩ := assignOne_eq_some hone
        have hk := (mem_taken_assignOne_iff hone).2 (.inr hname)
        exact ⟨k, hname, taken_subset_of_assign hrest hk⟩
      · exact ih hrest y hy

end Assign

variable [DecidableEq α] [DecidableEq κ]

/-- The entries of an item together with those under a name. -/
def related (es : List (κ × α)) (k : κ) (x : α) : List (κ × α) :=
  es.filter fun e => e.1 = k ∨ e.2 = x

/-- The item has one entry, under a name that no other entry has. -/
def Sole (es : List (κ × α)) (x : α) : Prop := ∃ k, related es k x = [(k, x)]

/-- What an item needs, when the items `earlier` come before it: it has a name, and if that
is taken it is a sole item already, and otherwise it is ready and has no entry. -/
def Assignable (name : α → Option κ) (ready : α → Bool) (es : List (κ × α)) (earlier : List α)
    (x : α) : Prop :=
  ∃ k, name x = some k ∧
    if k ∈ taken es ∨ some k ∈ earlier.map name then Sole es x
    else ready x = true ∧ x ∉ es.map Prod.snd

variable {name : α → Option κ} {ready : α → Bool} {es es' : List (κ × α)} {x y : α} {k : κ}

@[simp] theorem related_append (es es' : List (κ × α)) (k : κ) (x : α) :
    related (es ++ es') k x = related es k x ++ related es' k x :=
  List.filter_append _ _

theorem related_eq_nil_iff : related es k x = [] ↔ k ∉ taken es ∧ x ∉ es.map Prod.snd := by
  unfold related taken
  rw [List.filter_eq_nil_iff]
  constructor
  · intro h
    constructor
    · intro hk
      obtain ⟨e, he, rfl⟩ := List.mem_map.1 hk
      exact h e he (by simp)
    · intro hx
      obtain ⟨e, he, rfl⟩ := List.mem_map.1 hx
      exact h e he (by simp)
  · rintro ⟨hk, hx⟩ e he hrel
    rcases of_decide_eq_true hrel with rfl | rfl
    · exact hk (List.mem_map_of_mem he)
    · exact hx (List.mem_map_of_mem he)

/-- Entering an item does not change whether another item is a sole one. -/
theorem sole_assignOne_iff (h : assignOne name ready es x = some es') (hne : y ≠ x) :
    Sole es' y ↔ Sole es y := by
  obtain ⟨k, -, ⟨-, rfl⟩ | ⟨hk, -, rfl⟩⟩ := assignOne_eq_some h
  · exact Iff.rfl
  · have hrelated : ∀ k', related [(k, x)] k' y = if k = k' then [(k, x)] else [] := by
      intro k'
      by_cases hkk : k = k' <;> simp [related, hkk, hne.symm]
    constructor
    · rintro ⟨k', hsole⟩
      rw [related_append, hrelated] at hsole
      by_cases hkk : k = k'
      · -- the new entry would be the one of `y`
        have hlast : (k, x) ∈ [(k', y)] := by
          rw [← hsole]
          simp [hkk]
        simp only [List.mem_singleton, Prod.mk.injEq] at hlast
        exact absurd hlast.2.symm hne
      · rw [if_neg hkk, List.append_nil] at hsole
        exact ⟨k', hsole⟩
    · rintro ⟨k', hsole⟩
      have htaken : k' ∈ taken es := by
        have hmem : (k', y) ∈ related es k' y := by simp [hsole]
        exact List.mem_map_of_mem (List.mem_filter.1 hmem).1
      have hkk : k ≠ k' := by
        rintro rfl
        exact hk htaken
      refine ⟨k', ?_⟩
      rw [related_append, hrelated, if_neg hkk, List.append_nil]
      exact hsole

/-- After an item was entered, it counts among the earlier items. -/
theorem assignable_cons_iff (h : assignOne name ready es x = some es') (hne : y ≠ x)
    (earlier : List α) :
    Assignable name ready es (x :: earlier) y ↔ Assignable name ready es' earlier y := by
  unfold Assignable
  refine exists_congr fun k => and_congr_right fun _ => ?_
  have hcond : (k ∈ taken es ∨ some k ∈ (x :: earlier).map name) ↔
      (k ∈ taken es' ∨ some k ∈ earlier.map name) := by
    rw [mem_taken_assignOne_iff h, List.map_cons, List.mem_cons, or_assoc, eq_comm]
  simp only [hcond, sole_assignOne_iff h hne, mem_items_assignOne_iff h hne]

theorem assignable_iff (hname : name x = some k) (earlier : List α) :
    Assignable name ready es earlier x ↔
      if k ∈ taken es ∨ some k ∈ earlier.map name then Sole es x
      else ready x = true ∧ x ∉ es.map Prod.snd := by
  unfold Assignable
  rw [hname]
  constructor
  · rintro ⟨k', heq, h⟩
    obtain rfl := Option.some.inj heq
    exact h
  · intro h
    exact ⟨k, rfl, h⟩

/-- Whether an item comes out as a sole one when it is the next to be entered. -/
theorem assignable_nil_iff : Assignable name ready es [] x ↔
    ∃ es', assignOne name ready es x = some es' ∧ Sole es' x := by
  constructor
  · rintro ⟨k, hname, h⟩
    by_cases hk : k ∈ taken es
    · rw [if_pos (.inl hk)] at h
      exact ⟨es, by simp [assignOne, hname, hk], h⟩
    · rw [if_neg (by simp [hk])] at h
      refine ⟨es ++ [(k, x)], by simp [assignOne, hname, hk, h.1], k, ?_⟩
      rw [related_append, related_eq_nil_iff.2 ⟨hk, h.2⟩]
      simp [related]
  · rintro ⟨es', hone, k', hsole⟩
    obtain ⟨k, hname, ⟨hk, rfl⟩ | ⟨hk, hready, rfl⟩⟩ := assignOne_eq_some hone
    · refine ⟨k, hname, ?_⟩
      rw [if_pos (.inl hk)]
      exact ⟨k', hsole⟩
    · refine ⟨k, hname, ?_⟩
      rw [if_neg (by simp [hk])]
      refine ⟨hready, ?_⟩
      rw [related_append] at hsole
      have hnew : related [(k, x)] k' x = [(k, x)] := by simp [related]
      rw [hnew] at hsole
      have hnil : related es k' x = [] := by
        have hlength := congrArg List.length hsole
        rw [List.length_append] at hlength
        simpa using hlength
      exact (related_eq_nil_iff.1 hnil).2

theorem sole_assign_iff {items : List α} (h : assign name ready items es = some es')
    (hx : x ∉ items) : Sole es' x ↔ Sole es x := by
  induction items generalizing es with
  | nil =>
      obtain rfl : es = es' := Option.some.inj h
      exact Iff.rfl
  | cons y items ih =>
      rw [List.mem_cons, not_or] at hx
      rw [assign_cons] at h
      obtain ⟨es₁, hone, hrest⟩ := Option.bind_eq_some_iff.1 h
      rw [ih hrest hx.2]
      exact sole_assignOne_iff hone hx.1

/-- The items can be entered and all of them come out as sole ones exactly when each of them
has what it needs. -/
theorem assign_sole_iff {items : List α} (hnodup : items.Nodup) (es : List (κ × α)) :
    (∃ es', assign name ready items es = some es' ∧ ∀ x ∈ items, Sole es' x) ↔
      ∀ earlier x later, items = earlier ++ x :: later → Assignable name ready es earlier x := by
  induction items generalizing es with
  | nil => simp
  | cons y items ih =>
      rw [List.nodup_cons] at hnodup
      rw [forall_split_cons, assignable_nil_iff]
      -- the condition on the other items, once `y` was entered
      have hothers : ∀ {es₁}, assignOne name ready es y = some es₁ →
          ((∀ earlier x later, items = earlier ++ x :: later →
            Assignable name ready es (y :: earlier) x) ↔
          ∃ es', assign name ready items es₁ = some es' ∧ ∀ x ∈ items, Sole es' x) := by
        intro es₁ hone
        rw [ih hnodup.2]
        refine forall_congr' fun earlier => forall_congr' fun x => forall_congr' fun later =>
          forall_congr' fun heq => assignable_cons_iff hone ?_ earlier
        rintro rfl
        exact hnodup.1 (by simp [heq])
      constructor
      · rintro ⟨es', hassign, hsole⟩
        rw [assign_cons] at hassign
        obtain ⟨es₁, hone, hrest⟩ := Option.bind_eq_some_iff.1 hassign
        have hy := (sole_assign_iff hrest hnodup.1).1 (hsole y List.mem_cons_self)
        refine ⟨⟨es₁, hone, hy⟩, (hothers hone).2 ⟨es', hrest, fun x hx => ?_⟩⟩
        exact hsole x (List.mem_cons_of_mem _ hx)
      · rintro ⟨⟨es₁, hone, hy⟩, h⟩
        obtain ⟨es', hrest, hsole⟩ := (hothers hone).1 h
        refine ⟨es', ?_, fun x hx => ?_⟩
        · rw [assign_cons, hone]
          exact hrest
        · rcases List.mem_cons.1 hx with rfl | hx
          · exact (sole_assign_iff hrest hnodup.1).2 hy
          · exact hsole x hx

/-- What an item needs when there are no entries. -/
theorem assignable_nil_entries_iff (earlier : List α) : Assignable name ready [] earlier x ↔
    ((name x).isSome ∧ ready x = true) ∧ name x ∉ earlier.map name := by
  have hnot : ¬ Sole ([] : List (κ × α)) x := by
    rintro ⟨k, h⟩
    cases h
  have htaken : ∀ k : κ, k ∉ taken ([] : List (κ × α)) := fun _ => List.not_mem_nil
  cases hname : name x with
  | none => simp [Assignable, hname]
  | some k =>
      rw [assignable_iff hname]
      by_cases hk : some k ∈ earlier.map name
      · rw [if_pos (.inr hk)]
        constructor
        · intro h
          exact absurd h hnot
        · intro h
          exact absurd hk h.2
      · rw [if_neg (not_or.2 ⟨htaken k, hk⟩)]
        constructor
        · intro h
          exact ⟨⟨rfl, h.1⟩, hk⟩
        · intro h
          exact ⟨h.1.2, List.not_mem_nil⟩

/-- Without entries from before, the items need names that are pairwise different. -/
theorem assign_sole_iff_of_nil {items : List α} (hnodup : items.Nodup) :
    (∃ es', assign name ready items [] = some es' ∧ ∀ x ∈ items, Sole es' x) ↔
      (∀ x ∈ items, (name x).isSome ∧ ready x = true) ∧ (items.map name).Nodup := by
  rw [assign_sole_iff hnodup, nodup_map_iff_forall_split]
  simp only [assignable_nil_entries_iff]
  constructor
  · intro h
    refine ⟨fun x hx => ?_, fun earlier x later heq => (h earlier x later heq).2⟩
    obtain ⟨earlier, later, heq⟩ := List.append_of_mem hx
    exact (h earlier x later heq).1
  · rintro ⟨hall, hdistinct⟩ earlier x later heq
    exact ⟨hall x (by simp [heq]), hdistinct earlier x later heq⟩

end Assignment
