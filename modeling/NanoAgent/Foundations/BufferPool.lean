import Mathlib.Logic.Function.Basic
import Mathlib.Data.List.Nodup

/-!
# Buffer pools

A `BufferPool α` hands out buffers of type `α` and takes them back. A buffer is
named by the number of its allocation, so a number is never handed out twice: a
reference kept beyond the return of its buffer is told apart from a reference to
a later buffer that happens to occupy the same memory. `returned` lists the
returns in the order in which they were made, a double return appears in it
twice, and the content of a returned buffer stays readable, as stale memory is.

`Live p a` is the property that a reference should have: the buffer `a` was
handed out and has not been returned. `Accounted p holds` is the property that a
pool should have: no buffer is lost, shared or returned twice.
-/

/-- A pool of buffers with the buffers handed out so far, the returns made to
the pool and the content of every buffer. -/
structure BufferPool (α : Type*) where
  next : ℕ
  returned : List ℕ
  content : ℕ → α

namespace BufferPool

variable {α : Type*}

/-- A pool that has not handed out any buffer. -/
def empty (a : α) : BufferPool α := ⟨0, [], fun _ => a⟩

/-- Take a buffer and initialise it. Its name is `p.next`. -/
def take (p : BufferPool α) (v : α) : BufferPool α :=
  { p with next := p.next + 1, content := Function.update p.content p.next v }

/-- Return a buffer to the pool. -/
def giveBack (p : BufferPool α) (a : ℕ) : BufferPool α :=
  { p with returned := p.returned ++ [a] }

/-- Change the content of a buffer. -/
def update (p : BufferPool α) (a : ℕ) (f : α → α) : BufferPool α :=
  { p with content := Function.update p.content a (f (p.content a)) }

/-- The buffer was handed out and has not been returned. -/
def Live (p : BufferPool α) (a : ℕ) : Prop := a < p.next ∧ a ∉ p.returned

instance (p : BufferPool α) (a : ℕ) : Decidable (p.Live a) :=
  inferInstanceAs (Decidable (a < p.next ∧ a ∉ p.returned))

@[simp] theorem next_take (p : BufferPool α) (v : α) : (p.take v).next = p.next + 1 := rfl

@[simp] theorem returned_take (p : BufferPool α) (v : α) :
    (p.take v).returned = p.returned := rfl

@[simp] theorem content_take_self (p : BufferPool α) (v : α) :
    (p.take v).content p.next = v := by
  simp [take]

theorem content_take_of_ne (p : BufferPool α) (v : α) {a : ℕ} (h : a ≠ p.next) :
    (p.take v).content a = p.content a := by
  simp [take, h]

@[simp] theorem next_giveBack (p : BufferPool α) (a : ℕ) : (p.giveBack a).next = p.next := rfl

@[simp] theorem returned_giveBack (p : BufferPool α) (a : ℕ) :
    (p.giveBack a).returned = p.returned ++ [a] := rfl

@[simp] theorem content_giveBack (p : BufferPool α) (a : ℕ) :
    (p.giveBack a).content = p.content := rfl

/-- Buffers are returned one after the other. -/
theorem foldl_giveBack (p : BufferPool α) (l : List ℕ) :
    l.foldl (fun p a => p.giveBack a) p = { p with returned := p.returned ++ l } := by
  induction l generalizing p with
  | nil => simp
  | cons a l ih =>
      rw [List.foldl_cons, ih]
      simp [giveBack]

@[simp] theorem next_update (p : BufferPool α) (a : ℕ) (f : α → α) :
    (p.update a f).next = p.next := rfl

@[simp] theorem returned_update (p : BufferPool α) (a : ℕ) (f : α → α) :
    (p.update a f).returned = p.returned := rfl

@[simp] theorem content_update_self (p : BufferPool α) (a : ℕ) (f : α → α) :
    (p.update a f).content a = f (p.content a) := by
  simp [update]

theorem content_update_of_ne (p : BufferPool α) {a b : ℕ} (f : α → α) (h : b ≠ a) :
    (p.update a f).content b = p.content b := by
  simp [update, h]

theorem content_update (p : BufferPool α) (a b : ℕ) (f : α → α) :
    (p.update a f).content b = if b = a then f (p.content b) else p.content b := by
  by_cases h : b = a
  · subst h
    simp
  · simp [content_update_of_ne p f h, h]

@[simp] theorem live_update_iff (p : BufferPool α) (a b : ℕ) (f : α → α) :
    (p.update a f).Live b ↔ p.Live b := Iff.rfl

/-- Returning `a` ends the life of `a` only. -/
theorem live_giveBack_iff (p : BufferPool α) (a b : ℕ) :
    (p.giveBack a).Live b ↔ p.Live b ∧ b ≠ a := by
  simp [Live, not_or, and_assoc]

theorem Live.giveBack {p : BufferPool α} {a b : ℕ} (hb : p.Live b) (h : b ≠ a) :
    (p.giveBack a).Live b :=
  (live_giveBack_iff p a b).2 ⟨hb, h⟩

theorem Live.take {p : BufferPool α} {b : ℕ} (hb : p.Live b) (v : α) : (p.take v).Live b :=
  ⟨Nat.lt_succ_of_lt hb.1, hb.2⟩

/-- Only buffers that were handed out have been returned. -/
def Sound (p : BufferPool α) : Prop := ∀ a ∈ p.returned, a < p.next

/-- A buffer taken from a sound pool is live. -/
theorem Sound.live_take {p : BufferPool α} (h : p.Sound) (v : α) : (p.take v).Live p.next := by
  refine ⟨Nat.lt_succ_self _, ?_⟩
  intro hmem
  exact Nat.lt_irrefl _ (h _ hmem)

theorem Sound.take {p : BufferPool α} (h : p.Sound) (v : α) : (p.take v).Sound := by
  intro a ha
  exact Nat.lt_succ_of_lt (h a ha)

theorem Sound.giveBack {p : BufferPool α} (h : p.Sound) {a : ℕ} (ha : a < p.next) :
    (p.giveBack a).Sound := by
  intro b hb
  rcases List.mem_append.1 hb with hb | hb
  · exact h b hb
  · rw [List.mem_singleton.1 hb]
    exact ha

/-- Every buffer that was handed out has one holder and has not been returned, or has no
holder and was returned once. -/
def Accounted {ι : Type*} (p : BufferPool α) (holds : ι → ℕ → Prop) : Prop :=
  ∀ a < p.next, (∃! i, holds i a) ∧ a ∉ p.returned ∨
    (∀ i, ¬ holds i a) ∧ p.returned.count a = 1

namespace Accounted

variable {ι : Type*} {p q : BufferPool α} {holds holds' : ι → ℕ → Prop} {a : ℕ} {i j : ι}

theorem empty (h : p.next = 0) : p.Accounted holds := by
  intro a ha
  rw [h] at ha
  exact absurd ha (Nat.not_lt_zero a)

/-- A buffer that is held is live. -/
theorem live (h : p.Accounted holds) (ha : a < p.next) (hi : holds i a) : p.Live a := by
  rcases h a ha with ⟨-, hmem⟩ | ⟨hnone, -⟩
  · exact ⟨ha, hmem⟩
  · exact absurd hi (hnone i)

/-- A buffer has one holder. -/
theorem eq_of_holds (h : p.Accounted holds) (ha : a < p.next) (hi : holds i a)
    (hj : holds j a) : i = j := by
  rcases h a ha with ⟨hone, -⟩ | ⟨hnone, -⟩
  · exact hone.unique hi hj
  · exact absurd hi (hnone i)

theorem congr (h : p.Accounted holds) (hnext : q.next = p.next)
    (hreturned : q.returned = p.returned)
    (hholds : ∀ i, ∀ a < p.next, holds' i a ↔ holds i a) : q.Accounted holds' := by
  intro a ha
  rw [hnext] at ha
  rw [hreturned]
  rcases h a ha with ⟨⟨i, hi, honly⟩, hmem⟩ | ⟨hnone, hcount⟩
  · refine .inl ⟨⟨i, (hholds i a ha).2 hi, fun j hj => ?_⟩, hmem⟩
    exact honly j ((hholds j a ha).1 hj)
  · exact .inr ⟨fun i hi => hnone i ((hholds i a ha).1 hi), hcount⟩

/-- A buffer is taken by a holder. -/
theorem take (h : p.Accounted holds) (hsound : p.Sound) (hnext : q.next = p.next + 1)
    (hreturned : q.returned = p.returned)
    (hholds : ∀ i, ∀ a < p.next, holds' i a ↔ holds i a)
    (hnew : ∀ j, holds' j p.next ↔ j = i) : q.Accounted holds' := by
  intro a ha
  rw [hnext] at ha
  rw [hreturned]
  by_cases hlt : a < p.next
  · rcases h a hlt with ⟨⟨k, hk, honly⟩, hmem⟩ | ⟨hnone, hcount⟩
    · refine .inl ⟨⟨k, (hholds k a hlt).2 hk, fun j hj => ?_⟩, hmem⟩
      exact honly j ((hholds j a hlt).1 hj)
    · exact .inr ⟨fun k hk => hnone k ((hholds k a hlt).1 hk), hcount⟩
  · obtain rfl : a = p.next := by omega
    refine .inl ⟨⟨i, (hnew i).2 rfl, fun j hj => (hnew j).1 hj⟩, fun hmem => ?_⟩
    exact Nat.lt_irrefl _ (hsound _ hmem)

/-- A buffer passes from one holder to another. -/
theorem move (h : p.Accounted holds) {b : ℕ} (hb : b < p.next) (hi : holds i b)
    (hnext : q.next = p.next) (hreturned : q.returned = p.returned)
    (hother : ∀ k, ∀ a < p.next, a ≠ b → (holds' k a ↔ holds k a))
    (hnew : ∀ k, holds' k b ↔ k = j) : q.Accounted holds' := by
  intro a ha
  rw [hnext] at ha
  rw [hreturned]
  by_cases hab : a = b
  · subst hab
    exact .inl ⟨⟨j, (hnew j).2 rfl, fun k hk => (hnew k).1 hk⟩, (h.live ha hi).2⟩
  · rcases h a ha with ⟨⟨k, hk, honly⟩, hmem⟩ | ⟨hnone, hcount⟩
    · refine .inl ⟨⟨k, (hother k a ha hab).2 hk, fun k' hk' => ?_⟩, hmem⟩
      exact honly k' ((hother k' a ha hab).1 hk')
    · exact .inr ⟨fun k hk => hnone k ((hother k a ha hab).1 hk), hcount⟩

/-- Buffers of one or more holders are returned together. -/
theorem giveBackAll (h : p.Accounted holds) {l : List ℕ} (hnodup : l.Nodup)
    (hl : ∀ b ∈ l, ∃ i, holds i b) (hnext : q.next = p.next)
    (hreturned : q.returned = p.returned ++ l)
    (hholds : ∀ j, ∀ a < p.next, holds' j a ↔ holds j a ∧ a ∉ l) : q.Accounted holds' := by
  intro a ha
  rw [hnext] at ha
  rw [hreturned, List.count_append, List.mem_append]
  by_cases hal : a ∈ l
  · obtain ⟨i, hi⟩ := hl a hal
    refine .inr ⟨fun j hj => ((hholds j a ha).1 hj).2 hal, ?_⟩
    rw [List.count_eq_zero.2 (h.live ha hi).2, List.count_eq_one_of_mem hnodup hal]
  · rcases h a ha with ⟨⟨k, hk, honly⟩, hmem⟩ | ⟨hnone, hcount⟩
    · refine .inl ⟨⟨k, (hholds k a ha).2 ⟨hk, hal⟩, fun j hj => ?_⟩, ?_⟩
      · exact honly j ((hholds j a ha).1 hj).1
      · rintro (h' | h')
        · exact hmem h'
        · exact hal h'
    · refine .inr ⟨fun k hk => hnone k ((hholds k a ha).1 hk).1, ?_⟩
      rw [hcount, List.count_eq_zero.2 hal]

/-- A holder returns a buffer. -/
theorem giveBack (h : p.Accounted holds) {b : ℕ} (hi : holds i b)
    (hnext : q.next = p.next) (hreturned : q.returned = p.returned ++ [b])
    (hholds : ∀ j, ∀ a < p.next, holds' j a ↔ holds j a ∧ a ≠ b) : q.Accounted holds' := by
  refine h.giveBackAll (List.nodup_singleton b) (fun b' hb' => ?_) hnext hreturned fun j a ha => ?_
  · rw [List.mem_singleton.1 hb']
    exact ⟨i, hi⟩
  · rw [hholds j a ha, List.mem_singleton]

end Accounted

end BufferPool
