import Mathlib.Data.List.AList
import Mathlib.Data.List.Perm.Subperm
import Mathlib.Data.List.Sort

/-!
# Tables

Association lists used as tables of records. `modify k f s` changes the record
of a key, if there is one. `keysBy cmp s` are the keys in the order in which a
sorted table is walked. `collect f s` concatenates a list taken from each
record, such as the entries that the records link, and the lemmas say how it
changes when a record is changed, added or removed.
-/

namespace AList

variable {κ ρ γ : Type*} [DecidableEq κ]

/-- Change the record of a key. -/
def modify (k : κ) (f : ρ → ρ) (s : AList (fun _ : κ => ρ)) : AList (fun _ : κ => ρ) :=
  match s.lookup k with
  | some v => s.insert k (f v)
  | none => s

theorem lookup_modify (k k' : κ) (f : ρ → ρ) (s : AList (fun _ : κ => ρ)) :
    (s.modify k f).lookup k' = if k' = k then (s.lookup k').map f else s.lookup k' := by
  unfold modify
  by_cases hk : k' = k
  · subst hk
    cases h : s.lookup k' with
    | none => simp [h]
    | some v => simp
  · cases h : s.lookup k with
    | none => simp [hk]
    | some v => simp [hk, lookup_insert_ne hk]

@[simp] theorem lookup_modify_self (k : κ) (f : ρ → ρ) (s : AList (fun _ : κ => ρ)) :
    (s.modify k f).lookup k = (s.lookup k).map f := by
  simp [lookup_modify]

theorem lookup_modify_of_ne {k k' : κ} (f : ρ → ρ) (s : AList (fun _ : κ => ρ)) (h : k' ≠ k) :
    (s.modify k f).lookup k' = s.lookup k' := by
  simp [lookup_modify, h]

/-- A record left after an erasure was there before. -/
theorem lookup_of_lookup_erase {k k' : κ} {v : ρ} {s : AList (fun _ : κ => ρ)}
    (h : (s.erase k).lookup k' = some v) : s.lookup k' = some v := by
  by_cases hk : k' = k
  · subst hk
    rw [lookup_erase] at h
    cases h
  · rw [lookup_erase_ne hk] at h
    exact h

/-- The keys of a table, in the order of a comparison. -/
def keysBy (cmp : κ → κ → Ordering) (s : AList (fun _ : κ => ρ)) : List κ :=
  s.keys.insertionSort fun k k' => (cmp k k').isLE = true

section KeysBy

omit [DecidableEq κ]

variable {cmp : κ → κ → Ordering} {s : AList (fun _ : κ => ρ)}

theorem keysBy_perm : (s.keysBy cmp).Perm s.keys := List.perm_insertionSort _ _

@[simp] theorem mem_keysBy {k : κ} : k ∈ s.keysBy cmp ↔ k ∈ s.keys := keysBy_perm.mem_iff

theorem nodup_keysBy : (s.keysBy cmp).Nodup := keysBy_perm.nodup_iff.2 s.keys_nodup

@[simp] theorem length_keysBy : (s.keysBy cmp).length = s.keys.length := keysBy_perm.length_eq

@[simp] theorem keysBy_eq_nil_iff : s.keysBy cmp = [] ↔ s.keys = [] := by
  rw [← List.length_eq_zero_iff, length_keysBy, List.length_eq_zero_iff]

end KeysBy

/-- The first record of a table, in the order of some keys. -/
def first (keys : List κ) (s : AList (fun _ : κ => ρ)) : Option (κ × ρ) :=
  keys.findSome? fun k => (s.lookup k).map fun v => (k, v)

theorem first_eq_some {keys : List κ} {s : AList (fun _ : κ => ρ)} {k : κ} {v : ρ}
    (h : s.first keys = some (k, v)) : k ∈ keys ∧ s.lookup k = some v := by
  obtain ⟨k', hk', heq⟩ := List.exists_of_findSome?_eq_some h
  obtain ⟨v', hv', hpair⟩ := Option.map_eq_some_iff.1 heq
  cases hpair
  exact ⟨hk', hv'⟩

theorem first_eq_none {keys : List κ} {s : AList (fun _ : κ => ρ)} :
    s.first keys = none ↔ ∀ k ∈ keys, s.lookup k = none := by
  unfold first
  rw [List.findSome?_eq_none_iff]
  simp only [Option.map_eq_none_iff]

theorem keys_eq_nil_iff {s : AList (fun _ : κ => ρ)} : s.keys = [] ↔ ∀ k, s.lookup k = none := by
  rw [List.eq_nil_iff_forall_not_mem]
  apply forall_congr'
  intro k
  exact lookup_eq_none.symm

/-- A table without a record of another one, and with none that is not there, is shorter. -/
theorem length_keys_lt {s t : AList (fun _ : κ => ρ)}
    (hsub : ∀ k, s.lookup k = none → t.lookup k = none) {k : κ} (hs : s.lookup k ≠ none)
    (ht : t.lookup k = none) : t.keys.length < s.keys.length := by
  have hmem : k ∈ s.keys := by
    by_contra hk
    exact hs (lookup_eq_none.2 hk)
  have hsubset : t.keys ⊆ s.keys.erase k := by
    intro k' hk'
    have hne : k' ≠ k := by
      rintro rfl
      exact lookup_eq_none.1 ht hk'
    apply (List.mem_erase_of_ne hne).2
    by_contra hnot
    exact lookup_eq_none.1 (hsub k' (lookup_eq_none.2 hnot)) hk'
  have hlength := (List.Nodup.subperm t.keys_nodup hsubset).length_le
  rw [List.length_erase_of_mem hmem] at hlength
  exact Nat.lt_of_le_of_lt hlength (Nat.sub_lt (List.length_pos_of_mem hmem) Nat.one_pos)

/-- The concatenation of the lists that `f` takes from the records of a table. -/
def collect (f : ρ → List γ) (s : AList (fun _ : κ => ρ)) : List γ :=
  s.entries.flatMap fun e => f e.2

/-- A record of the table can be moved to the front. -/
theorem entries_perm_of_lookup {s : AList (fun _ : κ => ρ)} {k : κ} {v : ρ}
    (h : s.lookup k = some v) : s.entries.Perm (⟨k, v⟩ :: (s.erase k).entries) := by
  have hk : k ∈ s.entries.keys := by
    rw [← List.dlookup_isSome, show s.entries.dlookup k = some v from h]
    rfl
  obtain ⟨w, l₁, l₂, hl₁, hs, herase⟩ := List.exists_of_kerase hk
  have hmem : (⟨k, w⟩ : Sigma fun _ : κ => ρ) ∈ s.entries := by
    rw [hs]
    simp
  have hw : s.entries.dlookup k = some w := List.mem_dlookup s.nodupKeys hmem
  have hvw : v = w := by
    have hv : s.entries.dlookup k = some v := h
    rw [hw] at hv
    exact (Option.some.inj hv).symm
  subst hvw
  change s.entries.Perm (⟨k, v⟩ :: s.entries.kerase k)
  rw [herase, hs]
  exact List.perm_middle

theorem collect_perm_of_lookup {s : AList (fun _ : κ => ρ)} {k : κ} {v : ρ} (f : ρ → List γ)
    (h : s.lookup k = some v) : (s.collect f).Perm (f v ++ (s.erase k).collect f) := by
  have hperm := (entries_perm_of_lookup h).flatMap_right (fun e => f e.2)
  exact hperm

theorem collect_insert (s : AList (fun _ : κ => ρ)) (k : κ) (v : ρ) (f : ρ → List γ) :
    (s.insert k v).collect f = f v ++ (s.erase k).collect f := rfl

theorem erase_of_lookup_none {s : AList (fun _ : κ => ρ)} {k : κ} (h : s.lookup k = none) :
    s.erase k = s := by
  apply AList.ext
  change s.entries.kerase k = s.entries
  exact List.kerase_of_notMem_keys (List.dlookup_eq_none.1 h)

/-- A change of a record that leaves its list alone does not change the
collection, up to its order. -/
theorem collect_modify_perm {s : AList (fun _ : κ => ρ)} {k : κ} {g : ρ → ρ} (f : ρ → List γ)
    (hf : ∀ v, f (g v) = f v) : ((s.modify k g).collect f).Perm (s.collect f) := by
  unfold modify
  cases h : s.lookup k with
  | none => exact .refl _
  | some v =>
      change ((s.insert k (g v)).collect f).Perm (s.collect f)
      rw [collect_insert, hf]
      exact (collect_perm_of_lookup f h).symm

/-- A change that adds entries to the list of a record adds them to the
collection. -/
theorem collect_modify_append_perm {s : AList (fun _ : κ => ρ)} {k : κ} {g : ρ → ρ} {v : ρ}
    (f : ρ → List γ) (l : List γ) (h : s.lookup k = some v) (hf : f (g v) = f v ++ l) :
    ((s.modify k g).collect f).Perm (l ++ s.collect f) := by
  unfold modify
  rw [h]
  change ((s.insert k (g v)).collect f).Perm (l ++ s.collect f)
  rw [collect_insert, hf]
  refine List.Perm.trans ?_ (List.Perm.append_left l (collect_perm_of_lookup f h).symm)
  rw [← List.append_assoc]
  exact List.Perm.append_right _ List.perm_append_comm

theorem mem_collect_iff {s : AList (fun _ : κ => ρ)} {f : ρ → List γ} {x : γ} :
    x ∈ s.collect f ↔ ∃ k v, s.lookup k = some v ∧ x ∈ f v := by
  unfold collect
  rw [List.mem_flatMap]
  constructor
  · rintro ⟨e, he, hx⟩
    exact ⟨e.1, e.2, List.mem_dlookup s.nodupKeys he, hx⟩
  · rintro ⟨k, v, hv, hx⟩
    exact ⟨⟨k, v⟩, List.of_mem_dlookup hv, hx⟩

end AList
