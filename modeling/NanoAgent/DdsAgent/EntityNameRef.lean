import NanoAgent.DdsAgent.EntityName
import Mathlib.Data.List.GetD

/-!
# Counting, parsing and printing references

The pieces of a reference between its separators, without an empty piece at either
end, are its `components`. The loop that counts them ends unless the reference
starts with a separator; otherwise it counts `components`, or finds an empty one.
Parsing then writes exactly these into the array, and printing is its inverse.
-/

namespace NanoAgent

namespace EntityName

open Loop Separator

/-- The pieces without an empty last one. -/
def dropEmptyLast : List (List Char) → List (List Char)
  | [] => []
  | [p] => if p = [] then [] else [p]
  | p :: q :: l => p :: dropEmptyLast (q :: l)

/-- The pieces without an empty first one. -/
def dropEmptyFirst : List (List Char) → List (List Char)
  | [] :: l => l
  | l => l

/-- The components of a reference: its pieces, an empty first or last one dropped. -/
def components (ref : List Char) : List (List Char) :=
  dropEmptyFirst (dropEmptyLast (splitSep refSep ref))

/-- The components that are left from a position of the reference. -/
def componentsFrom (s : List Char) : List (List Char) := dropEmptyLast (splitSep refSep s)

theorem dropEmptyLast_cons {l : List (List Char)} (hl : l ≠ []) (p : List Char) :
    dropEmptyLast (p :: l) = p :: dropEmptyLast l := by
  cases l with
  | nil => exact absurd rfl hl
  | cons q l => rfl

theorem dropEmptyLast_of_nonempty {l : List (List Char)} (h : ∀ p ∈ l, p ≠ []) :
    dropEmptyLast l = l := by
  induction l with
  | nil => rfl
  | cons p l ih =>
      have ih := ih fun q hq => h q (List.mem_cons_of_mem _ hq)
      cases l with
      | nil => simp [dropEmptyLast, h p]
      | cons q l => rw [dropEmptyLast_cons (by simp), ih]

theorem componentsFrom_nil : componentsFrom [] = [] := by
  unfold componentsFrom
  rw [splitSep_of_none (by rfl)]
  rfl

theorem componentsFrom_of_none {s : List Char} (hs : s ≠ []) (h : findRefSep s = none) :
    componentsFrom s = [s] := by
  unfold componentsFrom
  rw [splitSep_of_none h]
  simp [dropEmptyLast, hs]

theorem componentsFrom_of_some {s : List Char} {k : ℕ} (h : findRefSep s = some k) :
    componentsFrom s = s.take k :: componentsFrom (s.drop (k + 2)) := by
  unfold componentsFrom
  rw [splitSep_of_some (by decide) h, dropEmptyLast_cons (splitSep_ne_nil _ _)]
  rfl

/-- An induction along the separators of a string, each found from left to right. -/
theorem refSep_induction {P : List Char → Prop} (nil : P [])
    (none : ∀ s, s ≠ [] → findRefSep s = none → P s)
    (some : ∀ s k, findRefSep s = some k → P (s.drop (k + 2)) → P s) (s : List Char) : P s := by
  induction hn : s.length using Nat.strongRecOn generalizing s with
  | _ n ih =>
      by_cases hs : s = []
      · rw [hs]
        exact nil
      · cases h : findRefSep s with
        | none => exact none s hs h
        | some k =>
            have hle : k + 2 ≤ s.length := length_of_findSep (by decide) h
            exact some s k h (ih (s.drop (k + 2)).length (by rw [List.length_drop]; omega) _ rfl)

/-- What the counting loop leaves with when it has passed the start of the
reference and `s` is left. -/
def countFrom (ref : List Char) (st : CountState) (s : List Char) : ComponentCount :=
  if ∀ p ∈ componentsFrom s, p ≠ [] then
    ⟨true, st.componentsCount + (componentsFrom s).length, ref.length, st.refStart⟩
  else .invalid

/-- The head of the loop stands inside the reference, and at its start only when no
separator is there. -/
structure HeadInside (ref : List Char) (st : CountState) : Prop where
  chI : st.chI = st.refHead
  inside : st.refHead < ref.length
  start : st.chI = 0 → ¬ refSep <+: ref

theorem HeadInside.countPass_of_none {ref : List Char} {st : CountState} (h : HeadInside ref st)
    (hsep : findRefSep (ref.drop st.refHead) = none) :
    countPass ref st = .inl (countFrom ref st (ref.drop st.refHead)) := by
  have hne : ref.drop st.refHead ≠ [] := by
    simpa using h.inside
  have hvalid : countFrom ref st (ref.drop st.refHead) =
      ⟨true, st.componentsCount + 1, ref.length, st.refStart⟩ := by
    unfold countFrom
    rw [componentsFrom_of_none hne hsep]
    simp only [List.mem_singleton, forall_eq, ne_eq, hne, not_false_eq_true, if_true,
      List.length_singleton]
  rw [hvalid]
  simp [countPass, hsep, CountState.result, CountState.advance]

/-- An empty component that is not at the start ends the loop. -/
theorem HeadInside.countPass_of_zero {ref : List Char} {st : CountState} (h : HeadInside ref st)
    (hsep : findRefSep (ref.drop st.refHead) = some 0) :
    countPass ref st = .inl (countFrom ref st (ref.drop st.refHead)) := by
  have hch : st.chI ≠ 0 := by
    intro hch
    refine h.start hch ?_
    have hhead : st.refHead = 0 := h.chI.symm.trans hch
    rw [hhead] at hsep
    exact findSep_eq_zero_iff.1 hsep
  have hinvalid : countFrom ref st (ref.drop st.refHead) = .invalid := by
    unfold countFrom
    rw [componentsFrom_of_some hsep]
    simp
  rw [hinvalid]
  simp [countPass, hsep, hch]

/-- A component that is not empty moves the head behind its separator. -/
theorem countPass_of_succ {ref : List Char} {st : CountState} {k : ℕ}
    (hsep : findRefSep (ref.drop st.refHead) = some (k + 1)) :
    countPass ref st =
      if st.refHead + (k + 3) < ref.length then .inr (st.advance (k + 3))
      else .inl (countFrom ref st (ref.drop st.refHead)) := by
  by_cases hlt : st.refHead + (k + 3) < ref.length
  · simp [countPass, hsep, CountState.advance, hlt]
  · have hle : k + 3 ≤ (ref.drop st.refHead).length :=
      length_of_findSep (show refSep ≠ [] by decide) hsep
    rw [List.length_drop] at hle
    have hrest : (ref.drop st.refHead).drop (k + 1 + 2) = [] := by
      rw [List.drop_drop, List.drop_eq_nil_iff]
      omega
    have hne : (ref.drop st.refHead).take (k + 1) ≠ [] := by
      rw [Ne, List.take_eq_nil_iff, List.drop_eq_nil_iff]
      omega
    have hvalid : countFrom ref st (ref.drop st.refHead) =
        ⟨true, st.componentsCount + 1, ref.length, st.refStart⟩ := by
      unfold countFrom
      rw [componentsFrom_of_some hsep, hrest, componentsFrom_nil]
      simp only [List.mem_singleton, forall_eq, ne_eq, hne, not_false_eq_true, if_true,
        List.length_singleton]
    rw [hvalid]
    simp [countPass, hsep, CountState.advance, hlt, CountState.result]

theorem HeadInside.advance {ref : List Char} {st : CountState} {k : ℕ}
    (hlt : st.refHead + (k + 3) < ref.length) : HeadInside ref (st.advance (k + 3)) where
  chI := rfl
  inside := hlt
  start h0 := by
    have : st.refHead + (k + 3) = 0 := h0
    omega

/-- What is counted from a component on, in terms of what is counted behind it. -/
theorem countFrom_advance {ref s : List Char} (st : CountState) {k : ℕ}
    (hsep : findRefSep s = some (k + 1)) (hne : s ≠ []) :
    countFrom ref st s = countFrom ref (st.advance (k + 3)) (s.drop (k + 3)) := by
  have hpiece : s.take (k + 1) ≠ [] := by
    rw [Ne, List.take_eq_nil_iff]
    simp [hne]
  have hsplit : componentsFrom s = s.take (k + 1) :: componentsFrom (s.drop (k + 3)) :=
    componentsFrom_of_some hsep
  unfold countFrom
  rw [hsplit]
  simp only [List.mem_cons, forall_eq_or_imp, ne_eq, hpiece, not_false_eq_true, true_and,
    List.length_cons, CountState.advance]
  congr 2
  omega

/-- The counting loop leaves with the count of the components that are left. -/
theorem HeadInside.runLoop_countPass {ref : List Char} {st : CountState} (h : HeadInside ref st) :
    ∃ n, runLoop (countPass ref) n st = some (countFrom ref st (ref.drop st.refHead)) := by
  induction hs : ref.drop st.refHead using refSep_induction generalizing st with
  | nil =>
      have := h.inside
      rw [List.drop_eq_nil_iff] at hs
      omega
  | none s _ hsep =>
      subst hs
      exact ⟨1, runLoop_succ_of_leaves (h.countPass_of_none hsep)⟩
  | some s k hsep ih =>
      subst hs
      cases k with
      | zero => exact ⟨1, runLoop_succ_of_leaves (h.countPass_of_zero hsep)⟩
      | succ k =>
          by_cases hlt : st.refHead + (k + 3) < ref.length
          · have hpass : GoesOn (countPass ref) st (st.advance (k + 3)) := by
              rw [GoesOn, countPass_of_succ hsep, if_pos hlt]
            obtain ⟨n, hn⟩ := ih (.advance hlt) (by rw [List.drop_drop]; rfl)
            refine ⟨n + 1, ?_⟩
            have hne : ref.drop st.refHead ≠ [] := by simpa using h.inside
            rw [runLoop_succ_of_goesOn hpass, hn, countFrom_advance st hsep hne]
          · refine ⟨1, runLoop_succ_of_leaves ?_⟩
            rw [countPass_of_succ hsep, if_neg hlt]

theorem headInside_initial {ref : List Char} (hne : ref ≠ []) (h : ¬ refSep <+: ref) :
    HeadInside ref .initial where
  chI := rfl
  inside := List.length_pos_iff.2 hne
  start _ := h

/-- Counting the components of a reference that does not start with a separator. -/
theorem countRefComponents_eq {ref : List Char} (h : ¬ refSep <+: ref) :
    ∃ passes, countRefComponents ref passes = some
      (if ref ≠ [] ∧ ∀ p ∈ componentsFrom ref, p ≠ [] then
        ⟨true, (componentsFrom ref).length, ref.length, 0⟩ else .invalid) := by
  by_cases hne : ref = []
  · refine ⟨0, ?_⟩
    simp [countRefComponents, hne]
  · obtain ⟨n, hn⟩ := (headInside_initial hne h).runLoop_countPass
    refine ⟨n, ?_⟩
    have hlen : ref.length ≠ 0 := by simpa using hne
    have hdrop : ref.drop CountState.initial.refHead = ref := rfl
    rw [countRefComponents, if_neg hlen, hn, hdrop]
    simp [countFrom, CountState.initial, hne]

/-- A pass in front of a leading separator goes on from the same head. -/
theorem goesOn_of_leading {ref : List Char} {st : CountState} (h : refSep <+: ref)
    (hch : st.chI = 0) (hhead : st.refHead = 0) :
    GoesOn (countPass ref) st { st with refStart := st.refStart + 2 } := by
  have hlen : 0 < ref.length := by
    have := h.length_le
    have : refSep.length = 2 := rfl
    omega
  have hsep : findRefSep ref = some 0 := findSep_eq_zero_iff.2 h
  simp [GoesOn, countPass, hhead, hsep, hch, hlen]

/-- The counting loop is left after finitely many passes. -/
def CountEnds (ref : List Char) : Prop := ∃ passes c, countRefComponents ref passes = some c

/-- Every pass of the counting loop moves the head forward or ends the loop. -/
def PassesAdvance (ref : List Char) : Prop :=
  ref ≠ [] → ∀ st st', Relation.ReflTransGen (GoesOn (countPass ref)) .initial st →
    GoesOn (countPass ref) st st' → st.refHead < st'.refHead

/-- A pass that goes on from inside the reference moves the head forward. -/
theorem HeadInside.goesOn {ref : List Char} {st st' : CountState} (h : HeadInside ref st)
    (hgo : GoesOn (countPass ref) st st') : HeadInside ref st' ∧ st.refHead < st'.refHead := by
  unfold GoesOn at hgo
  cases hsep : findRefSep (ref.drop st.refHead) with
  | none => simp [h.countPass_of_none hsep] at hgo
  | some k =>
      cases k with
      | zero => simp [h.countPass_of_zero hsep] at hgo
      | succ k =>
          rw [countPass_of_succ hsep] at hgo
          by_cases hlt : st.refHead + (k + 3) < ref.length
          · rw [if_pos hlt] at hgo
            obtain rfl : st.advance (k + 3) = st' := Sum.inr.inj hgo
            refine ⟨.advance hlt, ?_⟩
            have : (st.advance (k + 3)).refHead = st.refHead + (k + 3) := rfl
            omega
          · simp [if_neg hlt] at hgo

theorem passesAdvance_of_not_leading {ref : List Char} (h : ¬ refSep <+: ref) :
    PassesAdvance ref := by
  intro hne st st' hreach hgo
  have hinside : HeadInside ref st := by
    clear hgo
    induction hreach with
    | refl => exact headInside_initial hne h
    | tail _ hgo ih => exact (ih.goesOn hgo).1
  exact (hinside.goesOn hgo).2

theorem not_countEnds_of_leading {ref : List Char} (h : refSep <+: ref) : ¬ CountEnds ref := by
  have hlen : ref.length ≠ 0 := by
    have := h.length_le
    have : refSep.length = 2 := rfl
    omega
  rintro ⟨n, c, hc⟩
  rw [countRefComponents, if_neg hlen] at hc
  refine not_ends (I := fun st => st.chI = 0 ∧ st.refHead = 0) ?_ ⟨rfl, rfl⟩ ⟨n, c, hc⟩
  intro st hst
  exact ⟨_, goesOn_of_leading h hst.1 hst.2, hst⟩

/-- Counting the components of a reference ends, with a head that moves in every pass, if
and only if the reference does not start with a separator. -/
theorem countRefComponents_ends_iff (ref : List Char) :
    CountEnds ref ∧ PassesAdvance ref ↔ ¬ refSep <+: ref := by
  constructor
  · rintro ⟨hends, _⟩ hlead
    exact not_countEnds_of_leading hlead hends
  · intro h
    obtain ⟨n, hn⟩ := countRefComponents_eq h
    exact ⟨⟨n, _, hn⟩, passesAdvance_of_not_leading h⟩

/-- The reference `::a` is never counted. -/
theorem countRefComponents_stuck : ¬ ∀ ref, CountEnds ref ∧ PassesAdvance ref := by
  intro h
  have hlead : refSep <+: [':', ':', 'a'] := by decide
  exact not_countEnds_of_leading hlead (h _).1

/-- The array after the loop of parsing: it is filled with the components that are left,
unless an allocation fails. -/
theorem parseLoop_eq (heap : Heap) {s : List Char} (hs : ∀ p ∈ componentsFrom s, p ≠ [])
    (filled : List (Option (List Char))) :
    parseLoop heap (componentsFrom s).length filled.length s s.length
        (filled ++ List.replicate (componentsFrom s).length none) =
      some (filled ++ (componentsFrom s).map some) ∨
    (parseLoop heap (componentsFrom s).length filled.length s s.length
        (filled ++ List.replicate (componentsFrom s).length none) = none ∧
      ∃ i, heap.allocateString i = false) := by
  induction s using refSep_induction generalizing filled with
  | nil =>
      left
      simp [componentsFrom_nil, parseLoop]
  | none s hne hsep =>
      rw [componentsFrom_of_none hne hsep]
      cases hheap : heap.allocateString filled.length with
      | false =>
          right
          exact ⟨by simp [parseLoop, hne, hsep, hheap], _, hheap⟩
      | true =>
          left
          simp [parseLoop, hne, hsep, hheap]
  | some s k hsep ih =>
      have hsplit := componentsFrom_of_some hsep
      have hlen : k + 2 ≤ s.length := length_of_findSep (show refSep ≠ [] by decide) hsep
      have hne : s.length ≠ 0 := by omega
      rw [hsplit] at hs ⊢
      cases hheap : heap.allocateString filled.length with
      | false =>
          right
          exact ⟨by simp [parseLoop, hne, hsep, hheap], _, hheap⟩
      | true =>
          have ih := ih (fun p hp => hs p (List.mem_cons_of_mem _ hp))
            (filled ++ [some (s.take k)])
          have hstep : parseLoop heap (s.take k :: componentsFrom (s.drop (k + 2))).length
              filled.length s s.length
              (filled ++ List.replicate
                (s.take k :: componentsFrom (s.drop (k + 2))).length none) =
              parseLoop heap (componentsFrom (s.drop (k + 2))).length
                (filled ++ [some (s.take k)]).length (s.drop (k + 2)) (s.drop (k + 2)).length
                ((filled ++ [some (s.take k)]) ++
                  List.replicate (componentsFrom (s.drop (k + 2))).length none) := by
            simp [parseLoop, hne, hsep, hheap, List.replicate_succ]
          rw [hstep]
          simpa using ih

/-- The first piece of a reference that does not start with a separator is not
dropped. -/
theorem components_eq_componentsFrom {ref : List Char}
    (h : ∀ p ∈ componentsFrom ref, p ≠ []) : components ref = componentsFrom ref := by
  change dropEmptyFirst (componentsFrom ref) = componentsFrom ref
  cases hc : componentsFrom ref with
  | nil => rfl
  | cons p l =>
      rw [hc] at h
      cases p with
      | nil => exact absurd rfl (h [] List.mem_cons_self)
      | cons c p => rfl

/-- A reference that is parsed was counted, and its array holds its components. -/
theorem slots_of_parseRefComponents {heap : Heap} {ref : List Char} {passes : ℕ}
    {slots : List (Option (List Char))}
    (h : parseRefComponents heap ref passes = some (.components slots)) :
    slots = (components ref).map some ∧
      countRefComponents ref passes = some ⟨true, slots.length, ref.length, 0⟩ := by
  obtain ⟨c, hc, hparse⟩ := Option.map_eq_some_iff.1 h
  have hlead : ¬ refSep <+: ref := fun hlead => not_countEnds_of_leading hlead ⟨passes, c, hc⟩
  obtain ⟨n, hn⟩ := countRefComponents_eq hlead
  have hcount : c = if ref ≠ [] ∧ ∀ p ∈ componentsFrom ref, p ≠ [] then
      ⟨true, (componentsFrom ref).length, ref.length, 0⟩ else .invalid := by
    by_cases hne : ref.length = 0
    · have hnil : ref = [] := List.length_eq_zero_iff.1 hne
      simp only [countRefComponents, hne, if_true, Option.some.injEq] at hc
      simp [← hc, hnil]
    · simp only [countRefComponents, hne, if_false] at hc hn
      exact runLoop_unique hc hn
  by_cases hvalid : ref ≠ [] ∧ ∀ p ∈ componentsFrom ref, p ≠ []
  · rw [if_pos hvalid] at hcount
    subst hcount
    cases harray : heap.allocateArray with
    | false => simp [parseCounted, harray] at hparse
    | true =>
        have hloop := parseLoop_eq heap hvalid.2 []
        simp only [List.nil_append, List.length_nil] at hloop
        rcases hloop with hloop | ⟨hloop, -⟩
        · simp only [parseCounted, harray, Bool.and_self, if_true, Nat.sub_zero, hloop,
            Parsed.components.injEq] at hparse
          subst hparse
          refine ⟨by rw [components_eq_componentsFrom hvalid.2], ?_⟩
          rw [hc, List.length_map]
        · simp [parseCounted, harray, hloop] at hparse
  · rw [if_neg hvalid] at hcount
    subst hcount
    simp [parseCounted, ComponentCount.invalid] at hparse

/-- The join of components. -/
def joinRef (l : List (List Char)) : List Char := refSep.intercalate l

theorem joinRef_concat {l : List (List Char)} (hl : l ≠ []) (p : List Char) :
    joinRef (l ++ [p]) = joinRef l ++ refSep ++ p := by
  induction l with
  | nil => exact absurd rfl hl
  | cons q l ih =>
      cases l with
      | nil => simp [joinRef, List.intercalate]
      | cons r l =>
          have ih := ih (by simp)
          simp only [joinRef, List.intercalate] at ih ⊢
          simp only [List.cons_append, List.intersperse_cons_cons, List.flatten_cons] at ih ⊢
          rw [ih]
          simp

theorem componentsFrom_joinRef {l : List (List Char)} (hl : l ≠ [])
    (h : ∀ p ∈ l, p ≠ [] ∧ ':' ∉ p) : componentsFrom (joinRef l) = l := by
  have hsplit : splitSep refSep (joinRef l) = l := splitSep_intercalate hl fun p hp => (h p hp).2
  rw [componentsFrom, hsplit, dropEmptyLast_of_nonempty fun p hp => (h p hp).1]

theorem joinRef_not_leading {l : List (List Char)} (hl : l ≠ [])
    (h : ∀ p ∈ l, p ≠ [] ∧ ':' ∉ p) : ¬ refSep <+: joinRef l := by
  intro hlead
  have hcomp := componentsFrom_joinRef hl h
  rw [componentsFrom_of_some (findSep_eq_zero_iff.2 hlead)] at hcomp
  have hmem : (joinRef l).take 0 ∈ l := by
    rw [← hcomp]
    exact List.mem_cons_self
  exact (h _ hmem).1 rfl

/-- A join of components is parsed to these components. -/
theorem parseRefComponents_joinRef {l : List (List Char)} (hl : l ≠ [])
    (h : ∀ p ∈ l, p ≠ [] ∧ ':' ∉ p) {heap : Heap} (harray : heap.allocateArray = true)
    (hstring : ∀ i, heap.allocateString i = true) :
    ∃ passes, parseRefComponents heap (joinRef l) passes = some (.components (l.map some)) := by
  have hcomp := componentsFrom_joinRef hl h
  have hnonempty : ∀ p ∈ componentsFrom (joinRef l), p ≠ [] := by
    rw [hcomp]
    exact fun p hp => (h p hp).1
  have hne : joinRef l ≠ [] := by
    intro hnil
    rw [hnil, componentsFrom_nil] at hcomp
    exact hl hcomp.symm
  obtain ⟨n, hn⟩ := countRefComponents_eq (joinRef_not_leading hl h)
  rw [if_pos ⟨hne, hnonempty⟩] at hn
  refine ⟨n, ?_⟩
  have hloop := parseLoop_eq heap hnonempty []
  simp only [List.nil_append, List.length_nil] at hloop
  rcases hloop with hloop | ⟨-, i, hi⟩
  · rw [hcomp] at hn hloop
    simp [parseRefComponents, hn, parseCounted, harray, hloop]
  · simp [hstring] at hi

theorem take_succ_getD {l : List (List Char)} {i : ℕ} (hi : i < l.length) :
    l.take (i + 1) = l.take i ++ [l.getD i []] := by
  rw [List.take_succ_eq_append_getElem hi, List.getD_eq_getElem _ _ hi]

/-- Joining one more component. -/
theorem joinRef_take_succ {l : List (List Char)} {i : ℕ} (hi : i < l.length) :
    joinRef (l.take (i + 1)) =
      joinRef (l.take i) ++ (if 0 < i then refSep else []) ++ l.getD i [] := by
  rw [take_succ_getD hi]
  by_cases h0 : 0 < i
  · have hne : l.take i ≠ [] := by
      rw [Ne, List.take_eq_nil_iff]
      rintro (rfl | rfl)
      · omega
      · simp at hi
    rw [joinRef_concat hne, if_pos h0]
  · obtain rfl : i = 0 := by omega
    simp [joinRef, List.intercalate]

theorem refLength_eq {l : List (List Char)} {k : ℕ} (hk : k ≤ l.length) :
    refLength l k = (joinRef (l.take k)).length := by
  induction k with
  | zero => simp [refLength, joinRef, List.intercalate]
  | succ k ih =>
      rw [refLength, ih (by omega), joinRef_take_succ (by omega)]
      by_cases h0 : 0 < k
      · simp only [h0, if_true, refSep, List.length_append, List.length_cons, List.length_nil]
      · simp [h0]

theorem length_joinRef_take_succ {l : List (List Char)} (h : ∀ p ∈ l, p ≠ []) {i : ℕ}
    (hi : i < l.length) : (joinRef (l.take i)).length < (joinRef (l.take (i + 1))).length := by
  rw [joinRef_take_succ hi, List.getD_eq_getElem _ _ hi]
  have hpos := List.length_pos_iff.2 (h _ (List.getElem_mem hi))
  simp only [List.length_append]
  omega

theorem length_joinRef_take_lt {l : List (List Char)} (h : ∀ p ∈ l, p ≠ []) {i k : ℕ}
    (hk : i + (k + 1) ≤ l.length) :
    (joinRef (l.take i)).length < (joinRef (l.take (i + (k + 1)))).length := by
  induction k with
  | zero => exact length_joinRef_take_succ h hk
  | succ k ih =>
      have hlast := length_joinRef_take_succ h (i := i + (k + 1)) (by omega)
      exact Nat.lt_trans (ih (by omega)) hlast

theorem copyComponents_eq {l : List (List Char)} (h : ∀ p ∈ l, p ≠ []) {k i : ℕ}
    (hk : i + k ≤ l.length) :
    copyComponents l (joinRef (l.take (i + k))).length k i (joinRef (l.take i)) =
      joinRef (l.take (i + k)) := by
  induction k generalizing i with
  | zero => rfl
  | succ k ih =>
      rw [copyComponents, if_pos (length_joinRef_take_lt h hk), ← joinRef_take_succ (by omega)]
      have ih := ih (i := i + 1) (by omega)
      rw [show i + 1 + k = i + (k + 1) by omega] at ih
      exact ih

/-- The reference of a depth is the join of that many components. -/
theorem toRef_eq {l : List (List Char)} (h : ∀ p ∈ l, p ≠ []) {k : ℕ} (hk : k ≤ l.length) :
    toRef true l k = some (joinRef (l.take k)) := by
  have hcopy := copyComponents_eq h (i := 0) (k := k) (by omega)
  have hempty : joinRef (l.take 0) = [] := rfl
  rw [Nat.zero_add, hempty] at hcopy
  rw [toRef, if_neg (by omega), if_pos rfl, refLength_eq hk, hcopy]

/-- A reference joined from components is parsed to them and printed from them, and
what is parsed are the components of the reference, as many as were counted. -/
theorem parseRefComponents_roundtrip :
    (∀ l : List (List Char), l ≠ [] → (∀ p ∈ l, p ≠ [] ∧ ':' ∉ p) →
      ∀ heap : Heap, heap.allocateArray = true → (∀ i, heap.allocateString i = true) →
        (∃ passes, parseRefComponents heap (joinRef l) passes =
          some (.components (l.map some))) ∧
        ∀ k, 1 ≤ k → k ≤ l.length → toRef true l k = some (joinRef (l.take k))) ∧
    ∀ (heap : Heap) (ref : List Char) (passes : ℕ) (slots : List (Option (List Char))),
      parseRefComponents heap ref passes = some (.components slots) →
        slots = (components ref).map some ∧
          countRefComponents ref passes = some ⟨true, slots.length, ref.length, 0⟩ := by
  constructor
  · intro l hl h heap harray hstring
    refine ⟨parseRefComponents_joinRef hl h harray hstring, fun k _ hk => ?_⟩
    exact toRef_eq (fun p hp => (h p hp).1) hk
  · intro heap ref passes slots h
    exact slots_of_parseRefComponents h

/-- The name of a publisher is read and printed again. -/
theorem parseRefComponents_roundtrip_publisher :
    (∃ passes, parseRefComponents ⟨true, fun _ => true⟩ (joinRef [['l'], ['d', 'p'], ['p']])
      passes = some (.components [some ['l'], some ['d', 'p'], some ['p']])) ∧
    toRef true [['l'], ['d', 'p'], ['p']] 2 = some ['l', ':', ':', 'd', 'p'] := by
  have h := parseRefComponents_roundtrip.1 [['l'], ['d', 'p'], ['p']] (by decide) (by decide)
    ⟨true, fun _ => true⟩ rfl fun _ => rfl
  exact ⟨h.1, h.2 2 (by decide) (by decide)⟩

end EntityName

end NanoAgent
