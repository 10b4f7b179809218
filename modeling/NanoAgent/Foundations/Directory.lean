import Mathlib.Data.List.Nodup

/-!
# Directories

A directory is an array of entries that are found by a key, by searching from the
front. `position` and `find` are the search, and `put` stores an entry: in the
place of the first entry with its key, or at the end when there is none. A
directory in which no key occurs twice stays so.
-/

namespace Directory

variable {α κ : Type*} [DecidableEq κ] (key : α → κ)

/-- The position of the first entry with a key. -/
def position (l : List α) (k : κ) : Option ℕ := l.findIdx? fun e => decide (key e = k)

/-- The first entry with a key. -/
def find (l : List α) (k : κ) : Option α := l.find? fun e => decide (key e = k)

/-- Store an entry. -/
def put (l : List α) (e : α) : List α :=
  match position key l (key e) with
  | some i => l.modify i fun _ => e
  | none => l ++ [e]

theorem position_cons (x : α) (l : List α) (k : κ) :
    position key (x :: l) k = if key x = k then some 0 else (position key l k).map (· + 1) := by
  simp [position, List.findIdx?_cons]

theorem find_cons (x : α) (l : List α) (k : κ) :
    find key (x :: l) k = if key x = k then some x else find key l k := by
  by_cases h : key x = k <;> simp [find, h]

theorem put_cons (x : α) (l : List α) (e : α) :
    put key (x :: l) e = if key x = key e then e :: l else x :: put key l e := by
  unfold put
  rw [position_cons]
  by_cases h : key x = key e
  · simp [h]
  · cases hp : position key l (key e) with
    | none => simp [h]
    | some i => simp [h]

theorem getElem?_of_position {l : List α} {k : κ} {i : ℕ} (h : position key l k = some i) :
    l[i]? = find key l k := by
  induction l generalizing i with
  | nil => cases h
  | cons x l ih =>
      rw [position_cons] at h
      rw [find_cons]
      by_cases hx : key x = k
      · rw [if_pos hx] at h ⊢
        cases h
        rfl
      · rw [if_neg hx] at h ⊢
        obtain ⟨j, hj, rfl⟩ := Option.map_eq_some_iff.1 h
        exact ih hj

theorem find_eq_none_of_position {l : List α} {k : κ} (h : position key l k = none) :
    find key l k = none := by
  induction l with
  | nil => rfl
  | cons x l ih =>
      rw [position_cons] at h
      rw [find_cons]
      by_cases hx : key x = k
      · rw [if_pos hx] at h
        cases h
      · rw [if_neg hx] at h ⊢
        exact ih (Option.map_eq_none_iff.1 h)

/-- Filling in an entry that was appended. -/
theorem modify_append_length (l : List α) (x : α) (f : α → α) :
    (l ++ [x]).modify l.length f = l ++ [f x] := by
  induction l with
  | nil => rfl
  | cons y l ih => simp [ih]

/-- What was stored is found. -/
theorem find_put_self (l : List α) (e : α) : find key (put key l e) (key e) = some e := by
  induction l with
  | nil => simp [put, position, find]
  | cons x l ih =>
      rw [put_cons]
      by_cases h : key x = key e
      · rw [if_pos h, find_cons, if_pos rfl]
      · rw [if_neg h, find_cons, if_neg h]
        exact ih

/-- Nothing changes for other keys. -/
theorem find_put_of_ne (l : List α) {e : α} {k : κ} (hk : k ≠ key e) :
    find key (put key l e) k = find key l k := by
  induction l with
  | nil => simp [put, position, find, Ne.symm hk]
  | cons x l ih =>
      rw [put_cons]
      by_cases h : key x = key e
      · rw [if_pos h, find_cons, find_cons, if_neg (Ne.symm hk), if_neg]
        rw [h]
        exact Ne.symm hk
      · rw [if_neg h, find_cons, find_cons, ih]

/-- The entries after storing one, when no key occurs twice. -/
theorem mem_put {l : List α} (hl : (l.map key).Nodup) {e x : α} (hx : x ∈ put key l e) :
    x = e ∨ x ∈ l ∧ key x ≠ key e := by
  induction l with
  | nil => exact .inl (by simpa [put, position] using hx)
  | cons y l ih =>
      rw [List.map_cons, List.nodup_cons] at hl
      rw [put_cons] at hx
      by_cases h : key y = key e
      · rw [if_pos h] at hx
        rcases List.mem_cons.1 hx with rfl | hx
        · exact .inl rfl
        · refine .inr ⟨List.mem_cons_of_mem _ hx, fun hkey => hl.1 ?_⟩
          rw [h, ← hkey]
          exact List.mem_map_of_mem hx
      · rw [if_neg h] at hx
        rcases List.mem_cons.1 hx with rfl | hx
        · exact .inr ⟨List.mem_cons_self, h⟩
        · rcases ih hl.2 hx with hx | ⟨hx, hne⟩
          · exact .inl hx
          · exact .inr ⟨List.mem_cons_of_mem _ hx, hne⟩

theorem nodup_put {l : List α} (hl : (l.map key).Nodup) (e : α) :
    ((put key l e).map key).Nodup := by
  induction l with
  | nil => simp [put, position]
  | cons y l ih =>
      have hl' := hl
      rw [List.map_cons, List.nodup_cons] at hl'
      rw [put_cons]
      by_cases h : key y = key e
      · rw [if_pos h, List.map_cons, ← h, ← List.map_cons]
        exact hl
      · rw [if_neg h, List.map_cons, List.nodup_cons]
        refine ⟨fun hmem => ?_, ih hl'.2⟩
        obtain ⟨x, hx, hkey⟩ := List.mem_map.1 hmem
        rcases mem_put key hl'.2 hx with rfl | ⟨hx, -⟩
        · exact h hkey.symm
        · exact hl'.1 (hkey ▸ List.mem_map_of_mem hx)

end Directory
