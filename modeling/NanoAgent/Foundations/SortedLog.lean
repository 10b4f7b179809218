import Mathlib.Data.List.Basic
import Mathlib.Order.Lattice

/-!
# Reading a sorted log

The entries of a log are sorted by their keys. A reader of the log wants some of the entries
and stands at the key of the last one it has read. `beyond` are the entries it wants after a
key, and `between` those up to another key.

Reading on adds the wanted entries up to the new position to those that were read
(`between_append_between`), and what was read and what is left to be read make up what was to
be read from the start (`between_append_beyond`). A new entry of the log was not read
(`between_append`).
-/

namespace SortedLog

/-- A list is cut at a place: what belongs before it comes first. -/
theorem filter_cut {α : Type*} {l : List α} {d : α → Bool}
    (h : l.Pairwise fun x y => d y = true → d x = true) (p : α → Bool) :
    l.filter p = l.filter (fun x => p x && d x) ++ l.filter (fun x => p x && !d x) := by
  induction l with
  | nil => rfl
  | cons x l ih =>
      obtain ⟨hx, hl⟩ := List.pairwise_cons.1 h
      cases hd : d x with
      | true =>
          cases hp : p x with
          | true => simp [hp, hd, ih hl]
          | false => simp [hp, ih hl]
      | false =>
          have hnone : ∀ y ∈ l, d y = false := by
            intro y hy
            rw [← Bool.not_eq_true]
            intro hdy
            rw [hx y hy hdy] at hd
            cases hd
          have hbefore : (x :: l).filter (fun x => p x && d x) = [] := by
            rw [List.filter_eq_nil_iff]
            intro y hy
            rcases List.mem_cons.1 hy with rfl | hy
            · simp [hd]
            · simp [hnone y hy]
          rw [hbefore, List.nil_append]
          refine List.filter_congr fun y hy => ?_
          rcases List.mem_cons.1 hy with rfl | hy
          · simp [hd]
          · simp [hnone y hy]

variable {α κ : Type*} [LinearOrder κ] (key : α → κ) (want : α → Bool)

/-- The keys of the log increase. -/
def Sorted (l : List α) : Prop := l.Pairwise fun x y => key x < key y

/-- The wanted entries after a key. -/
def beyond (start : κ) (l : List α) : List α :=
  l.filter fun x => want x && decide (start < key x)

/-- The wanted entries after a key and up to another. -/
def between (start pos : κ) (l : List α) : List α :=
  l.filter fun x => want x && decide (start < key x) && decide (key x ≤ pos)

variable {key want} {start pos : κ} {l : List α} {x : α}

theorem mem_between_iff :
    x ∈ between key want start pos l ↔ x ∈ l ∧ want x = true ∧ start < key x ∧ key x ≤ pos := by
  simp [between, and_assoc]

theorem mem_beyond_iff : x ∈ beyond key want start l ↔ x ∈ l ∧ want x = true ∧ start < key x := by
  simp [beyond]

theorem Sorted.between (h : Sorted key l) : Sorted key (between key want start pos l) :=
  h.filter _

theorem Sorted.beyond (h : Sorted key l) : Sorted key (beyond key want start l) :=
  h.filter _

/-- A sorted list is known by its members. -/
theorem Sorted.ext {l' : List α} (h : Sorted key l) (h' : Sorted key l')
    (hmem : ∀ x, x ∈ l ↔ x ∈ l') : l = l' := by
  have hnodup : ∀ {m : List α}, Sorted key m → m.Nodup := fun hm =>
    List.Pairwise.imp (fun hlt heq => hlt.ne (congrArg key heq)) hm
  refine List.Perm.eq_of_pairwise (fun x y _ _ hxy hyx => ?_) h h' ?_
  · exact absurd hxy hyx.asymm
  · exact (List.perm_ext_iff_of_nodup (hnodup h) (hnodup h')).2 hmem

/-- Nothing was read at the start. -/
theorem between_self : between key want start start l = [] := by
  rw [between, List.filter_eq_nil_iff]
  intro y _
  simp only [Bool.and_eq_true, decide_eq_true_eq]
  rintro ⟨⟨-, hlt⟩, hle⟩
  exact absurd hlt (not_lt_of_ge hle)

/-- New entries are not among those that were read. -/
theorem between_append {new : List α} (hnew : ∀ y ∈ new, start < key y → pos < key y) :
    between key want start pos (l ++ new) = between key want start pos l := by
  have hnone : new.filter (fun x => want x && decide (start < key x) && decide (key x ≤ pos)) =
      [] := by
    rw [List.filter_eq_nil_iff]
    intro y hy
    simp only [Bool.and_eq_true, decide_eq_true_eq]
    rintro ⟨⟨-, hlt⟩, hle⟩
    exact absurd (hnew y hy hlt) (not_lt_of_ge hle)
  rw [between, List.filter_append, hnone, List.append_nil, between]

theorem Sorted.cut (h : Sorted key l) (pos : κ) :
    l.Pairwise fun x y => decide (key y ≤ pos) = true → decide (key x ≤ pos) = true := by
  refine h.imp fun hlt hle => ?_
  rw [decide_eq_true_eq] at hle ⊢
  exact hlt.le.trans hle

/-- What was read and what is left make up what was to be read. -/
theorem between_append_beyond (h : Sorted key l) (hle : start ≤ pos) :
    between key want start pos l ++ beyond key want pos l = beyond key want start l := by
  have hcut := filter_cut (h.cut pos) fun x => want x && decide (start < key x)
  rw [beyond, beyond, hcut, between]
  congr 1
  refine List.filter_congr fun y _ => ?_
  rw [Bool.and_assoc, ← decide_not]
  simp only [not_le]
  congr 1
  rw [← Bool.decide_and, decide_eq_decide]
  exact ⟨fun hlt => ⟨hle.trans_lt hlt, hlt⟩, And.right⟩

theorem between_append_between (h : Sorted key l) {next : κ} (hle : start ≤ pos)
    (hle' : pos ≤ next) :
    between key want start pos l ++ between key want pos next l =
      between key want start next l := by
  rw [between, between, between, filter_cut (h.cut pos)
    (fun x => want x && decide (start < key x) && decide (key x ≤ next))]
  congr 1
  · refine List.filter_congr fun y _ => ?_
    rw [Bool.and_assoc (_ && _), ← Bool.decide_and]
    congr 1
    rw [decide_eq_decide]
    exact ⟨fun hy => ⟨hy.trans hle', hy⟩, And.right⟩
  · refine List.filter_congr fun y _ => ?_
    rw [← decide_not, Bool.and_assoc, Bool.and_assoc, Bool.and_assoc, ← Bool.decide_and,
      ← Bool.decide_and, ← Bool.decide_and]
    congr 1
    rw [decide_eq_decide, not_le]
    exact ⟨fun hy => ⟨hle.trans_lt hy.1, hy.2, hy.1⟩, fun hy => ⟨hy.2.2, hy.2.1⟩⟩

end SortedLog
