import Mathlib.Algebra.Group.Nat.Defs
import Mathlib.Data.Int.Order.Basic
import Mathlib.Data.Set.Function

/-!
# Comparison functions

A comparison function in the style of C returns a number whose sign is the answer.
`TotalOn S cmp` says that on the values of `S` it is a total order: it is zero on equal
values only, opposite when the arguments are exchanged, and transitive.

A function that compares keys is one when the keys determine the values (`of_compare`,
`comap`), and so is one that compares ranks first (`of_rank`). Numbers are
ordered by their digits when these are written from the highest one, which is how memory
is compared (`compare_bigEndian`).
-/

variable {α β κ : Type*}

/-- On the values of `S` the function is a total order. -/
structure TotalOn (S : Set α) (cmp : α → α → ℤ) : Prop where
  zero_iff : ∀ a ∈ S, ∀ b ∈ S, cmp a b = 0 ↔ a = b
  opposite : ∀ a ∈ S, ∀ b ∈ S, (cmp a b).sign = -(cmp b a).sign
  trans : ∀ a ∈ S, ∀ b ∈ S, ∀ c ∈ S, cmp a b ≤ 0 → cmp b c ≤ 0 → cmp a c ≤ 0

/-- A number whose sign is the given ordering. -/
def Ordering.HasSign : Ordering → ℤ → Prop
  | .lt, z => z < 0
  | .eq, z => z = 0
  | .gt, z => 0 < z

namespace Ordering.HasSign

variable {o : Ordering} {z z' : ℤ}

theorem eq_zero_iff (h : o.HasSign z) : z = 0 ↔ o = .eq := by
  cases o with
  | lt =>
      have hneg : z < 0 := h
      simp [hneg.ne]
  | eq =>
      have hzero : z = 0 := h
      simp [hzero]
  | gt =>
      have hpos : 0 < z := h
      simp [hpos.ne']

theorem le_zero_iff (h : o.HasSign z) : z ≤ 0 ↔ o.isLE = true := by
  cases o with
  | lt =>
      have hneg : z < 0 := h
      simp [hneg.le]
  | eq =>
      have hzero : z = 0 := h
      simp [hzero]
  | gt =>
      have hpos : 0 < z := h
      simp [hpos]

theorem sign_eq_neg (h : o.HasSign z) (h' : o.swap.HasSign z') : z.sign = -z'.sign := by
  cases o with
  | lt => rw [Int.sign_eq_neg_one_of_neg h, Int.sign_eq_one_of_pos h']
  | eq =>
      have hzero : z = 0 := h
      have hzero' : z' = 0 := h'
      rw [hzero, hzero']
      rfl
  | gt => rw [Int.sign_eq_one_of_pos h, Int.sign_eq_neg_one_of_neg h', Int.neg_neg]

/-- Numbers with the sign of one ordering have the same sign. -/
theorem sign_eq (h : o.HasSign z) (h' : o.HasSign z') : z.sign = z'.sign := by
  cases o with
  | lt => rw [Int.sign_eq_neg_one_of_neg h, Int.sign_eq_neg_one_of_neg h']
  | eq =>
      have hzero : z = 0 := h
      have hzero' : z' = 0 := h'
      rw [hzero, hzero']
  | gt => rw [Int.sign_eq_one_of_pos h, Int.sign_eq_one_of_pos h']

end Ordering.HasSign

namespace TotalOn

variable {S T : Set α} {cmp : α → α → ℤ}

theorem mono (h : TotalOn T cmp) (hST : S ⊆ T) : TotalOn S cmp where
  zero_iff a ha b hb := h.zero_iff a (hST ha) b (hST hb)
  opposite a ha b hb := h.opposite a (hST ha) b (hST hb)
  trans a ha b hb c hc := h.trans a (hST ha) b (hST hb) c (hST hc)

/-- A comparison whose results have the same signs. -/
theorem of_sign_eq {cmp' : α → α → ℤ} (h : TotalOn S cmp)
    (hsign : ∀ a ∈ S, ∀ b ∈ S, (cmp' a b).sign = (cmp a b).sign) : TotalOn S cmp' where
  zero_iff a ha b hb := by
    rw [← h.zero_iff a ha b hb, ← Int.sign_eq_zero_iff_zero, hsign a ha b hb,
      Int.sign_eq_zero_iff_zero]
  opposite a ha b hb := by
    rw [hsign a ha b hb, hsign b hb a ha]
    exact h.opposite a ha b hb
  trans a ha b hb c hc hab hbc := by
    rw [← Int.sign_nonpos_iff, hsign a ha b hb, Int.sign_nonpos_iff] at hab
    rw [← Int.sign_nonpos_iff, hsign b hb c hc, Int.sign_nonpos_iff] at hbc
    rw [← Int.sign_nonpos_iff, hsign a ha c hc, Int.sign_nonpos_iff]
    exact h.trans a ha b hb c hc hab hbc

/-- The comparison of keys that determine the values. -/
theorem of_compare [Ord κ] [Std.TransOrd κ] [Std.LawfulEqOrd κ] {k : α → κ}
    (hk : Set.InjOn k S)
    (h : ∀ a ∈ S, ∀ b ∈ S, (compare (k a) (k b)).HasSign (cmp a b)) : TotalOn S cmp where
  zero_iff a ha b hb := by
    rw [(h a ha b hb).eq_zero_iff, Std.LawfulEqOrd.compare_eq_iff_eq]
    exact hk.eq_iff ha hb
  opposite a ha b hb := by
    apply (h a ha b hb).sign_eq_neg
    rw [← Std.OrientedOrd.eq_swap]
    exact h b hb a ha
  trans a ha b hb c hc hab hbc := by
    rw [(h a ha b hb).le_zero_iff] at hab
    rw [(h b hb c hc).le_zero_iff] at hbc
    rw [(h a ha c hc).le_zero_iff]
    exact Std.TransOrd.isLE_trans hab hbc

/-- A comparison made by another one. -/
theorem comap {T : Set β} {cmp' : β → β → ℤ} {f : α → β} (h : TotalOn T cmp')
    (hf : Set.MapsTo f S T) (hinj : Set.InjOn f S)
    (hcmp : ∀ a ∈ S, ∀ b ∈ S, cmp a b = cmp' (f a) (f b)) : TotalOn S cmp where
  zero_iff a ha b hb := by
    rw [hcmp a ha b hb, h.zero_iff _ (hf ha) _ (hf hb)]
    exact hinj.eq_iff ha hb
  opposite a ha b hb := by
    rw [hcmp a ha b hb, hcmp b hb a ha]
    exact h.opposite _ (hf ha) _ (hf hb)
  trans a ha b hb c hc := by
    rw [hcmp a ha b hb, hcmp b hb c hc, hcmp a ha c hc]
    exact h.trans _ (hf ha) _ (hf hb) _ (hf hc)

/-- A comparison that looks at the ranks first. -/
theorem of_rank (rank : α → ℕ)
    (hne : ∀ a ∈ S, ∀ b ∈ S, rank a < rank b → cmp a b < 0 ∧ 0 < cmp b a)
    (heq : ∀ r, TotalOn {a ∈ S | rank a = r} cmp) : TotalOn S cmp where
  zero_iff a ha b hb := by
    rcases Nat.lt_trichotomy (rank a) (rank b) with hlt | hrank | hlt
    · have hneg := (hne a ha b hb hlt).1
      refine iff_of_false hneg.ne fun hab => ?_
      rw [hab] at hlt
      exact Nat.lt_irrefl _ hlt
    · exact (heq (rank b)).zero_iff a ⟨ha, hrank⟩ b ⟨hb, rfl⟩
    · have hpos := (hne b hb a ha hlt).2
      refine iff_of_false hpos.ne' fun hab => ?_
      rw [hab] at hlt
      exact Nat.lt_irrefl _ hlt
  opposite a ha b hb := by
    rcases Nat.lt_trichotomy (rank a) (rank b) with hlt | hrank | hlt
    · obtain ⟨hneg, hpos⟩ := hne a ha b hb hlt
      rw [Int.sign_eq_neg_one_of_neg hneg, Int.sign_eq_one_of_pos hpos]
    · exact (heq (rank b)).opposite a ⟨ha, hrank⟩ b ⟨hb, rfl⟩
    · obtain ⟨hneg, hpos⟩ := hne b hb a ha hlt
      rw [Int.sign_eq_neg_one_of_neg hneg, Int.sign_eq_one_of_pos hpos, Int.neg_neg]
  trans a ha b hb c hc hab hbc := by
    have hle : ∀ x ∈ S, ∀ y ∈ S, cmp x y ≤ 0 → rank x ≤ rank y := by
      intro x hx y hy hxy
      by_contra hlt
      exact absurd (hne y hy x hx (Nat.lt_of_not_le hlt)).2 (not_lt.2 hxy)
    have hrank₁ := hle a ha b hb hab
    have hrank₂ := hle b hb c hc hbc
    rcases Nat.lt_or_eq_of_le (hrank₁.trans hrank₂) with hlt | hrank
    · exact (hne a ha c hc hlt).1.le
    · exact (heq (rank c)).trans a ⟨ha, hrank⟩ b ⟨hb, by omega⟩ c ⟨hc, rfl⟩ hab hbc

end TotalOn

/-- A number below `256 ^ k` as `k` octets, from the highest one. -/
def bigEndian : ℕ → ℕ → List UInt8
  | 0, _ => []
  | k + 1, n => UInt8.ofNat (n / 256 ^ k) :: bigEndian k (n % 256 ^ k)

@[simp] theorem length_bigEndian (k n : ℕ) : (bigEndian k n).length = k := by
  induction k generalizing n with
  | zero => rfl
  | succ k ih => rw [bigEndian, List.length_cons, ih]

theorem compare_ofNat {m n : ℕ} (hm : m < 256) (hn : n < 256) :
    compare (UInt8.ofNat m) (UInt8.ofNat n) = compare m n := by
  rw [UInt8.compare_eq_toNat_compare_toNat]
  simp [Nat.mod_eq_of_lt hm, Nat.mod_eq_of_lt hn]

/-- Numbers are ordered by their quotients, and by their remainders when these agree. -/
theorem compare_div_then_mod (m n : ℕ) {d : ℕ} (hd : 0 < d) :
    (compare (m / d) (n / d)).then (compare (m % d) (n % d)) = compare m n := by
  have hm := Nat.div_add_mod m d
  have hn := Nat.div_add_mod n d
  have hmlt := Nat.mod_lt m hd
  have hnlt := Nat.mod_lt n hd
  rcases Nat.lt_trichotomy (m / d) (n / d) with hlt | heq | hlt
  · have hmn : m < n := by
      have hmul : d * (m / d + 1) ≤ d * (n / d) := Nat.mul_le_mul_left d hlt
      rw [Nat.mul_add, Nat.mul_one] at hmul
      omega
    rw [Nat.compare_eq_lt.2 hlt, Nat.compare_eq_lt.2 hmn]
    rfl
  · rw [heq] at hm ⊢
    rw [Nat.compare_eq_eq.2 rfl, Ordering.then]
    rcases Nat.lt_trichotomy (m % d) (n % d) with hlt | hmod | hlt
    · rw [Nat.compare_eq_lt.2 hlt, Nat.compare_eq_lt.2 (by omega)]
    · rw [Nat.compare_eq_eq.2 hmod, Nat.compare_eq_eq.2 (by omega)]
    · rw [Nat.compare_eq_gt.2 hlt, Nat.compare_eq_gt.2 (by omega)]
  · have hmn : n < m := by
      have hmul : d * (n / d + 1) ≤ d * (m / d) := Nat.mul_le_mul_left d hlt
      rw [Nat.mul_add, Nat.mul_one] at hmul
      omega
    rw [Nat.compare_eq_gt.2 hlt, Nat.compare_eq_gt.2 hmn]
    rfl

/-- Numbers are ordered as their octets. -/
theorem compare_bigEndian {k m n : ℕ} (hm : m < 256 ^ k) (hn : n < 256 ^ k) :
    compare (bigEndian k m) (bigEndian k n) = compare m n := by
  induction k generalizing m n with
  | zero =>
      obtain rfl : m = 0 := by simpa using hm
      obtain rfl : n = 0 := by simpa using hn
      rfl
  | succ k ih =>
      have hpos : 0 < 256 ^ k := Nat.pow_pos (by decide)
      have hdigit : ∀ x, x < 256 ^ (k + 1) → x / 256 ^ k < 256 := by
        intro x hx
        rw [Nat.div_lt_iff_lt_mul hpos, Nat.mul_comm, ← Nat.pow_succ]
        exact hx
      rw [bigEndian, bigEndian, List.compare_cons_cons, compare_ofNat (hdigit m hm) (hdigit n hn),
        ih (Nat.mod_lt _ hpos) (Nat.mod_lt _ hpos)]
      exact compare_div_then_mod m n hpos
