import Mathlib.Data.Set.Insert
import NanoAgent.DdsAgent.NamedRecords
import NanoAgent.Foundations.Forest

/-!
# Native deletion and the containment of entities

The entities are a forest: a participant contains publishers, subscribers and topics, these
contain writers and readers. Deleting an entity natively visits the publishers,
subscribers, writers and readers below it, marks and finalizes their records, and deletes
them; a reader or a writer also takes its topic with it, if DDS deletes the topic.

`PartlyDeleted a M R` are the states in which the records of the entities `M` have been
marked and the entities `R` have been deleted, and every function adds what it visits to
the two sets. The records of topics are not looked for.
-/

namespace NanoAgent

open Prog AgentM Relation

namespace ResourceKind

/-- The height of an entity in the forest, counted by what deletion visits. -/
def level : ResourceKind → ℕ
  | .domainParticipant => 2
  | .publisher | .subscriber => 1
  | _ => 0

theorem level_lt_of_mem {k kind : ResourceKind} (h : k ∈ kind.containedKinds) :
    k.level < kind.level := by
  cases kind <;> simp [containedKinds] at h
  · rcases h with rfl | rfl <;> decide
  · subst h
    decide
  · subst h
    decide

theorem ne_topic_of_mem {k kind : ResourceKind} (h : k ∈ kind.containedKinds) : k ≠ .topic := by
  rintro rfl
  cases kind <;> simp [containedKinds] at h

theorem nodup_containedKinds (kind : ResourceKind) : kind.containedKinds.Nodup := by
  cases kind <;> decide

theorem level_le (kind : ResourceKind) : kind.level ≤ 2 := by
  cases kind <;> decide

/-- A reader or a writer, which has a topic. -/
def UsesTopic (kind : ResourceKind) : Prop := kind = .dataReader ∨ kind = .dataWriter

end ResourceKind

namespace Agent

variable (a : Agent)

/-- Deleting the entity `p` visits its child `x`. -/
def Visits (p x : Entity) : Prop :=
  p ∈ a.entities ∧ x ∈ a.entities ∧ x.kind ∈ p.kind.containedKinds ∧ x.parent = p.ptr

/-- The entities that the deletion of `e` visits, by their pointers. -/
def tree (e : Entity) : Set ℕ := {ptr | ∃ x, ReflTransGen a.Visits e x ∧ ptr = x.ptr}

/-- What the deletion of `e` visits below `e`, among its children of the kinds `ks`. -/
def branches (e : Entity) (ks : List ResourceKind) : Set ℕ :=
  {ptr | ∃ c, a.Visits e c ∧ c.kind ∈ ks ∧ ptr ∈ a.tree c}

/-- Deleting the entity `x` deletes the entity `ptr`: itself, or its topic. A topic is deleted
when DDS does so. -/
def Frees (env : Env) (x : Entity) (ptr : ℕ) : Prop :=
  (ptr = x.ptr ∧ (x.kind = .topic → env.ok (.ddsEntity .deleteEntity .topic ptr) = true)) ∨
    (x.kind.UsesTopic ∧ ptr = x.topic ∧ env.ok (.ddsEntity .deleteEntity .topic ptr) = true)

/-- The entities that are deleted together with `e`. -/
def freed (env : Env) (e : Entity) : Set ℕ :=
  {ptr | ∃ x, ReflTransGen a.Visits e x ∧ Frees env x ptr}

def freedBranches (env : Env) (e : Entity) (ks : List ResourceKind) : Set ℕ :=
  {ptr | ∃ c, a.Visits e c ∧ c.kind ∈ ks ∧ ptr ∈ a.freed env c}

end Agent

/-- The records and the entities agree: an entity is known by its pointer and by its kind and
name, and a record of an entity kind that was not natively deleted stands for the entity of
its name, to which it points. -/
structure Registered (a : Agent) : Prop where
  named : NamedRecords a
  nodup : a.entities.Nodup
  ptr : ∀ x ∈ a.entities, ∀ y ∈ a.entities, x.ptr = y.ptr → x = y
  name : ∀ x ∈ a.entities, ∀ y ∈ a.entities, x.kind = y.kind → x.name = y.name → x = y
  kind : ∀ x ∈ a.entities, x.kind.isEntity = true
  topic : ∀ x ∈ a.entities, x.kind.UsesTopic → ∀ t ∈ a.entities, t.ptr = x.topic → t.kind = .topic
  live : ∀ rid r, a.resources.lookup rid = some r → r.nativeDeleted = false →
    r.kind.isEntity = true → r.id = rid ∧
      ∃ x ∈ a.entities, x.kind = r.kind ∧ x.name = rid ∧ r.native = some x.ptr
  generic : ∀ rid r, a.resources.lookup rid = some r → r.nativeDeleted = false →
    r.kind.isEntity = false → r.native = none
  deleted : ∀ rid r ptr, a.resources.lookup rid = some r → r.nativeDeleted = true →
    r.native = some ptr → ∀ x ∈ a.entities, x.ptr ≠ ptr

namespace Registered

variable {a : Agent} (ha : Registered a)

include ha

theorem unique_parent (p q x : Entity) (hp : a.Visits p x) (hq : a.Visits q x) : p = q :=
  ha.ptr p hp.1 q hq.1 (hp.2.2.2.symm.trans hq.2.2.2)

/-- What is visited below one child is not visited below another. -/
theorem disjoint_trees {e c d x y : Entity} (hc : a.Visits e c) (hd : a.Visits e d) (hne : c ≠ d)
    (hx : ReflTransGen a.Visits c x) (hy : ReflTransGen a.Visits d y) : x ≠ y := by
  rintro rfl
  have hrank : ∀ p x, a.Visits p x → x.kind.level < p.kind.level :=
    fun p x h => ResourceKind.level_lt_of_mem h.2.2.1
  exact Forest.disjoint_of_children (fun x => x.kind.level) ha.unique_parent hrank hc hd hne hx hy

/-- A record that points to an entity has its name. -/
theorem name_of_native {e : Entity} (he : e ∈ a.entities) {rid : ResourceId} {r : Resource}
    (hr : a.resources.lookup rid = some r) (hdel : r.nativeDeleted = false)
    (hn : r.native = some e.ptr) : rid = e.name := by
  have hentity : r.kind.isEntity = true := by
    by_contra hno
    rw [ha.generic rid r hr hdel (by simpa using hno)] at hn
    cases hn
  obtain ⟨-, x, hx, -, hname, hxn⟩ := ha.live rid r hr hdel hentity
  obtain rfl := ha.ptr x hx e he (Option.some.inj (hxn.symm.trans hn))
  exact hname.symm

end Registered

/-- The record after its native deletion. -/
def Resource.gone (r : Resource) : Resource :=
  { r.finalize with nativeDeleted := true, userData := none }

/-- The record stands for one of the entities `M`, and was not natively deleted. -/
def Resource.StandsFor (r : Resource) (M : Set ℕ) : Prop :=
  r.nativeDeleted = false ∧ ∃ ptr ∈ M, r.native = some ptr

open Classical in
/-- The record after the native deletion of the entities `M`. -/
noncomputable def Resource.without (r : Resource) (M : Set ℕ) : Resource :=
  if r.StandsFor M then r.gone else r

theorem Resource.without_eq_gone {r : Resource} {M : Set ℕ} (h : r.StandsFor M) :
    r.without M = r.gone :=
  if_pos h

theorem Resource.without_eq_self {r : Resource} {M : Set ℕ} (h : ¬ r.StandsFor M) :
    r.without M = r :=
  if_neg h

theorem Resource.without_congr {r : Resource} {M M' : Set ℕ}
    (h : r.StandsFor M ↔ r.StandsFor M') : r.without M = r.without M' := by
  by_cases hM : r.StandsFor M
  · rw [without_eq_gone hM, without_eq_gone (h.1 hM)]
  · rw [without_eq_self hM, without_eq_self (fun hM' => hM (h.2 hM'))]

theorem Resource.standsFor_union_singleton {r : Resource} {M : Set ℕ} {ptr : ℕ}
    (h : r.nativeDeleted = false → r.native ≠ some ptr) :
    r.StandsFor (M ∪ {ptr}) ↔ r.StandsFor M := by
  unfold Resource.StandsFor
  refine and_congr_right fun hdel => ⟨?_, ?_⟩
  · rintro ⟨p, hp | hp, hn⟩
    · exact ⟨p, hp, hn⟩
    · rw [Set.mem_singleton_iff.1 hp] at hn
      exact absurd hn (h hdel)
  · rintro ⟨p, hp, hn⟩
    exact ⟨p, .inl hp, hn⟩

/-- From `a` to `b` the records of the entities `M` have been marked and finalized, and the
entities `R` have been deleted. -/
structure PartlyDeleted (a : Agent) (M R : Set ℕ) (b : Agent) : Prop where
  record : ∀ rid, b.resources.lookup rid = (a.resources.lookup rid).map (·.without M)
  sublist : b.entities.Sublist a.entities
  mem : ∀ x ∈ a.entities, x ∈ b.entities ↔ x.ptr ∉ R

/-- Nothing that the deletion of `e` visits has been marked or deleted. -/
def Untouched (a : Agent) (M R : Set ℕ) (e : Entity) : Prop :=
  ∀ x, ReflTransGen a.Visits e x → x.ptr ∉ M ∧ x.ptr ∉ R

namespace PartlyDeleted

variable {a b c : Agent} {M M' R R' : Set ℕ}

theorem start (a : Agent) : PartlyDeleted a ∅ ∅ a where
  record rid := by
    cases a.resources.lookup rid with
    | none => rfl
    | some r =>
        have hno : ¬ r.StandsFor ∅ := by simp [Resource.StandsFor]
        exact congrArg some (Resource.without_eq_self hno).symm
  sublist := List.Sublist.refl _
  mem := by simp

theorem congr (h : PartlyDeleted a M R b) (hM : ∀ ptr, ptr ∈ M ↔ ptr ∈ M')
    (hR : ∀ ptr, ptr ∈ R ↔ ptr ∈ R') : PartlyDeleted a M' R' b := by
  obtain rfl := Set.ext hM
  obtain rfl := Set.ext hR
  exact h

/-- An entity that was not deleted is found by its name. -/
theorem lookupEntity_eq (h : PartlyDeleted a M R b) (ha : Registered a) {e : Entity}
    (he : e ∈ a.entities) (hR : e.ptr ∉ R) : b.lookupEntity e.kind e.name = some e := by
  have hmem : e ∈ b.entities := (h.mem e he).2 hR
  unfold Agent.lookupEntity
  cases hfind : b.entities.find? fun x => x.kind = e.kind && x.name = e.name with
  | none =>
      have hno := List.find?_eq_none.1 hfind e hmem
      simp at hno
  | some x =>
      have hx := List.find?_some hfind
      obtain ⟨hkind, hname⟩ := Bool.and_eq_true_iff.1 hx
      have hxa : x ∈ a.entities := h.sublist.subset (List.mem_of_find?_eq_some hfind)
      rw [ha.name x hxa e he (of_decide_eq_true hkind) (of_decide_eq_true hname)]

/-- An entity that was not deleted is found by its pointer. -/
theorem find_ptr_eq (h : PartlyDeleted a M R b) (ha : Registered a) {e : Entity}
    (he : e ∈ a.entities) (hR : e.ptr ∉ R) :
    b.entities.find? (fun x => x.kind = e.kind && x.ptr = e.ptr) = some e := by
  have hmem : e ∈ b.entities := (h.mem e he).2 hR
  cases hfind : b.entities.find? fun x => x.kind = e.kind && x.ptr = e.ptr with
  | none =>
      have hno := List.find?_eq_none.1 hfind e hmem
      simp at hno
  | some x =>
      have hx := List.find?_some hfind
      obtain ⟨-, hptr⟩ := Bool.and_eq_true_iff.1 hx
      have hxa : x ∈ a.entities := h.sublist.subset (List.mem_of_find?_eq_some hfind)
      rw [ha.ptr x hxa e he (of_decide_eq_true hptr)]

/-- The record of an entity is found by the pointer of the entity. -/
theorem exists_of_findResourceByNative (h : PartlyDeleted a M R b) (ha : Registered a) {e : Entity}
    (he : e ∈ a.entities) {r : Resource} (hfind : b.findResourceByNative e.kind e.ptr = some r) :
    a.resources.lookup e.name = some r ∧ b.resources.lookup e.name = some r ∧ r.id = e.name ∧
      r.kind = e.kind ∧ r.nativeDeleted = false ∧ r.native = some e.ptr := by
  obtain ⟨rid, hb, hk, hn⟩ := Agent.record_of_findResourceByNative hfind
  have hentity : r.kind.isEntity = true := by
    rw [hk]
    exact ha.kind e he
  have hrecord := h.record rid
  rw [hb] at hrecord
  obtain ⟨r₀, hr, heq⟩ := Option.map_eq_some_iff.1 hrecord.symm
  by_cases hhit : r₀.StandsFor M
  · -- a finalized record has no kind
    rw [Resource.without_eq_gone hhit] at heq
    rw [← heq] at hentity
    cases hentity
  · rw [Resource.without_eq_self hhit] at heq
    rw [heq] at hr
    have hdel : r.nativeDeleted = false := by
      by_contra hdead
      exact ha.deleted rid _ e.ptr hr (by simpa using hdead) hn e he rfl
    obtain ⟨hid, x, hx, hxk, hxname, hxn⟩ := ha.live rid _ hr hdel hentity
    have hptr : x.ptr = e.ptr := Option.some.inj (hxn.symm.trans hn)
    obtain rfl := ha.ptr x hx e he hptr
    rw [hxname]
    exact ⟨hr, hb, hid, hk, hdel, hn⟩

/-- An entity whose record is not found by its pointer has no record that was not deleted. -/
theorem not_standsFor_of_find (h : PartlyDeleted a M R b) (ha : Registered a) {e : Entity}
    (he : e ∈ a.entities) (hM : e.ptr ∉ M) (hfind : b.findResourceByNative e.kind e.ptr = none)
    {rid : ResourceId} {r : Resource} (hr : a.resources.lookup rid = some r)
    (hdel : r.nativeDeleted = false) : r.native ≠ some e.ptr := by
  intro hn
  have hentity : r.kind.isEntity = true := by
    by_contra hno
    rw [ha.generic rid r hr hdel (by simpa using hno)] at hn
    cases hn
  obtain ⟨-, x, hx, hxk, -, hxn⟩ := ha.live rid r hr hdel hentity
  obtain rfl := ha.ptr x hx e he (Option.some.inj (hxn.symm.trans hn))
  have hhit : ¬ r.StandsFor M := by
    rintro ⟨-, ptr, hptr, hnative⟩
    obtain rfl := Option.some.inj (hn.symm.trans hnative)
    exact hM hptr
  have hb : b.resources.lookup rid = some r := by
    rw [h.record, hr, Option.map_some, Resource.without_eq_self hhit]
  exact Agent.not_native_of_findResourceByNative hfind hb ⟨hxk.symm, hn⟩

/-- An entity without a record can be counted among those whose records were marked. -/
theorem mark_nothing (h : PartlyDeleted a M R b) {ptr : ℕ}
    (hno : ∀ rid r, a.resources.lookup rid = some r → r.nativeDeleted = false →
      r.native ≠ some ptr) : PartlyDeleted a (M ∪ {ptr}) R b := by
  refine ⟨fun rid => ?_, h.sublist, h.mem⟩
  rw [h.record rid]
  cases hr : a.resources.lookup rid with
  | none => rfl
  | some r =>
      have hiff := Resource.standsFor_union_singleton (M := M) (hno rid r hr)
      exact congrArg some (Resource.without_congr hiff.symm)

/-- Marking and finalizing the record of an entity. -/
theorem mark (h : PartlyDeleted a M R b) (ha : Registered a) {e : Entity} (he : e ∈ a.entities)
    {r : Resource} (hr : a.resources.lookup e.name = some r) (hdel : r.nativeDeleted = false)
    (hn : r.native = some e.ptr)
    (hc : ∀ rid, c.resources.lookup rid =
      if rid = e.name then some r.gone else b.resources.lookup rid)
    (hentities : c.entities = b.entities) : PartlyDeleted a (M ∪ {e.ptr}) R c := by
  refine ⟨fun rid => ?_, by rw [hentities]; exact h.sublist, fun x hx => ?_⟩
  · rw [hc rid]
    by_cases hrid : rid = e.name
    · subst hrid
      have hhit : r.StandsFor (M ∪ {e.ptr}) := ⟨hdel, e.ptr, .inr rfl, hn⟩
      rw [if_pos rfl, hr, Option.map_some, Resource.without_eq_gone hhit]
    · rw [if_neg hrid, h.record rid]
      cases hr' : a.resources.lookup rid with
      | none => rfl
      | some r' =>
          -- no other record points to the entity
          have hother : r'.nativeDeleted = false → r'.native ≠ some e.ptr :=
            fun hdel' hn' => hrid (ha.name_of_native he hr' hdel' hn')
          have hiff := Resource.standsFor_union_singleton (M := M) hother
          exact congrArg some (Resource.without_congr hiff.symm)
  · rw [hentities]
    exact h.mem x hx

/-- Deleting an entity. -/
theorem removeEntity (h : PartlyDeleted a M R b) (ptr : ℕ) :
    PartlyDeleted a M (R ∪ {ptr}) (b.removeEntity ptr) := by
  refine ⟨h.record, List.filter_sublist.trans h.sublist, fun x hx => ?_⟩
  unfold Agent.removeEntity
  rw [List.mem_filter, h.mem x hx, Set.mem_union, not_or, Set.mem_singleton_iff, bne_iff_ne]

end PartlyDeleted

theorem Agent.mem_of_visits {a : Agent} {e x : Entity} (he : e ∈ a.entities)
    (h : ReflTransGen a.Visits e x) : x ∈ a.entities := by
  rcases ReflTransGen.cases_tail h with rfl | ⟨y, -, hyx⟩
  · exact he
  · exact hyx.2.1

theorem Agent.ne_topic_of_visits {a : Agent} {e c x : Entity} (hc : a.Visits e c)
    (h : ReflTransGen a.Visits c x) : x.kind ≠ .topic := by
  rcases ReflTransGen.cases_tail h with rfl | ⟨y, -, hyx⟩
  · exact ResourceKind.ne_topic_of_mem hc.2.2.1
  · exact ResourceKind.ne_topic_of_mem hyx.2.2.1

theorem Agent.mem_tree_iff {a : Agent} {e : Entity} (ptr : ℕ) : ptr ∈ a.tree e ↔
    ptr = e.ptr ∨ ptr ∈ a.branches e e.kind.containedKinds := by
  constructor
  · rintro ⟨x, hx, rfl⟩
    rcases ReflTransGen.cases_head hx with rfl | ⟨c, hc, hcx⟩
    · exact .inl rfl
    · exact .inr ⟨c, hc, hc.2.2.1, x, hcx, rfl⟩
  · rintro (rfl | ⟨c, hc, -, x, hcx, rfl⟩)
    · exact ⟨e, .refl, rfl⟩
    · exact ⟨x, .head hc hcx, rfl⟩

theorem Agent.mem_freed_iff {a : Agent} {env : Env} {e : Entity} (ptr : ℕ) :
    ptr ∈ a.freed env e ↔
      Agent.Frees env e ptr ∨ ptr ∈ a.freedBranches env e e.kind.containedKinds := by
  constructor
  · rintro ⟨x, hx, hfrees⟩
    rcases ReflTransGen.cases_head hx with rfl | ⟨c, hc, hcx⟩
    · exact .inl hfrees
    · exact .inr ⟨c, hc, hc.2.2.1, x, hcx, hfrees⟩
  · rintro (hfrees | ⟨c, hc, -, x, hcx, hfrees⟩)
    · exact ⟨e, .refl, hfrees⟩
    · exact ⟨x, .head hc hcx, hfrees⟩

/-- Deleting one child leaves the others untouched. -/
theorem Untouched.union {a : Agent} (ha : Registered a) {env : Env} {M R : Set ℕ} {e c d : Entity}
    (hd : Untouched a M R d) (hec : a.Visits e c) (hed : a.Visits e d) (hne : c ≠ d) :
    Untouched a (M ∪ a.tree c) (R ∪ a.freed env c) d := by
  intro x hx
  have hxa : x ∈ a.entities := Agent.mem_of_visits hed.2.1 hx
  have hptr : ∀ y, ReflTransGen a.Visits c y → x.ptr ≠ y.ptr := by
    intro y hy heq
    have hya : y ∈ a.entities := Agent.mem_of_visits hec.2.1 hy
    exact ha.disjoint_trees hec hed hne hy hx (ha.ptr x hxa y hya heq).symm
  constructor
  · rintro (hM | ⟨y, hy, heq⟩)
    · exact (hd x hx).1 hM
    · exact hptr y hy heq
  · rintro (hR | ⟨y, hy, ⟨heq, -⟩ | ⟨huses, heq, -⟩⟩)
    · exact (hd x hx).2 hR
    · exact hptr y hy heq
    · -- what is visited is no topic
      have hya : y ∈ a.entities := Agent.mem_of_visits hec.2.1 hy
      exact Agent.ne_topic_of_visits hed hx (ha.topic y hya huses x hxa heq)

theorem Untouched.union_list {a : Agent} (ha : Registered a) {env : Env} {M R : Set ℕ}
    {e d : Entity} {l : List Entity} (hd : Untouched a M R d) (hl : ∀ c ∈ l, a.Visits e c)
    (hed : a.Visits e d) (hnot : d ∉ l) :
    Untouched a (M ∪ {ptr | ∃ c ∈ l, ptr ∈ a.tree c})
      (R ∪ {ptr | ∃ c ∈ l, ptr ∈ a.freed env c}) d := by
  have hone : ∀ c ∈ l, Untouched a (M ∪ a.tree c) (R ∪ a.freed env c) d := by
    intro c hc
    refine hd.union ha (hl c hc) hed ?_
    rintro rfl
    exact hnot hc
  intro x hx
  constructor
  · rintro (hM | ⟨c, hc, hmem⟩)
    · exact (hd x hx).1 hM
    · exact (hone c hc x hx).1 (.inr hmem)
  · rintro (hR | ⟨c, hc, hmem⟩)
    · exact (hd x hx).2 hR
    · exact (hone c hc x hx).2 (.inr hmem)

namespace AgentM

variable {env : Env} {a : Agent}

theorem releaseUserDataEA_entities (env : Env) (rid : ResourceId) (r : Resource) (l : List Entity) :
    Preserves (fun a => a.entities = l) (releaseUserDataEA env rid r) := by
  have hreader : ∀ (n : ℕ) (x : Prog Reader Unit),
      Preserves (fun a => a.entities = l) (onReader n x) := fun _ _ _ h => h
  have haccess : ∀ valid, Preserves (fun a => a.entities = l) (access rid valid) := by
    intro valid b hb
    cases valid <;> exact hb
  refine .ite (fun _ => ?_) fun _ => .ite (fun _ => ?_) fun _ => .pure _
  · refine .bind (haccess _) fun _ => .bind (.require _) fun reader => ?_
    refine .read fun a => .bind (.forEach fun q _ => hreader _ _) fun _ => ?_
    exact .bind (hreader _ _) fun _ _ h => h
  · exact .bind (haccess _) fun _ => .bind (.require _) fun writer _ h => h

/-- What deletes the contained entities of a level below `n`: it adds the tree of the entity to
what has been marked, and what goes with it to what has been deleted. -/
def DeletesTrees (env : Env) (a : Agent) (contained : ResourceKind → ℕ → AgentM Unit) (n : ℕ) :
    Prop :=
  ∀ c ∈ a.entities, c.kind.level < n → ∀ M R b b', PartlyDeleted a M R b → Untouched a M R c →
    contained c.kind c.ptr b = (some (), b') →
    PartlyDeleted a (M ∪ a.tree c) (R ∪ a.freed env c) b'

section Entity

variable {contained : ResourceKind → ℕ → AgentM Unit} {n : ℕ} {e : Entity}

/-- The loop over the children of one kind. -/
theorem forEach_children_deletes (ha : Registered a) (hc : DeletesTrees env a contained n)
    (hlevel : e.kind.level ≤ n) {k : ResourceKind} {l : List Entity}
    (hl : ∀ c ∈ l, a.Visits e c ∧ c.kind = k) (hnodup : l.Nodup) {M R : Set ℕ} {b b' : Agent}
    (hb : PartlyDeleted a M R b) (hu : ∀ c ∈ l, Untouched a M R c)
    (hret : forEach l (fun c => contained k c.ptr) b = (some (), b')) :
    PartlyDeleted a (M ∪ {ptr | ∃ c ∈ l, ptr ∈ a.tree c})
      (R ∪ {ptr | ∃ c ∈ l, ptr ∈ a.freed env c}) b' := by
  induction l generalizing M R b with
  | nil =>
      obtain ⟨-, rfl⟩ := pure_eq_some.1 hret
      refine hb.congr (fun ptr => ?_) fun ptr => ?_
      · simp
      · simp
  | cons c l ih =>
      rw [List.nodup_cons] at hnodup
      obtain ⟨hvisits, rfl⟩ := hl c List.mem_cons_self
      obtain ⟨_, b₁, hfirst, hrest⟩ := bind_eq_some.1 hret
      have hlt : c.kind.level < n :=
        Nat.lt_of_lt_of_le (ResourceKind.level_lt_of_mem hvisits.2.2.1) hlevel
      have hb₁ := hc c hvisits.2.1 hlt M R b b₁ hb (hu c List.mem_cons_self) hfirst
      have hfinal := ih (fun d hd => hl d (List.mem_cons_of_mem _ hd)) hnodup.2 hb₁ (fun d hd => ?_)
        hrest
      · refine hfinal.congr (fun ptr => ?_) fun ptr => ?_
        · simp only [Set.mem_union, Set.mem_ofPred_eq, List.mem_cons, exists_eq_or_imp, or_assoc]
        · simp only [Set.mem_union, Set.mem_ofPred_eq, List.mem_cons, exists_eq_or_imp, or_assoc]
      · refine (hu d (List.mem_cons_of_mem _ hd)).union ha hvisits
          (hl d (List.mem_cons_of_mem _ hd)).1 ?_
        rintro rfl
        exact hnodup.1 hd

theorem visits_of_mem_filter {M R : Set ℕ} {b : Agent} (hb : PartlyDeleted a M R b)
    (he : e ∈ a.entities) {k : ResourceKind} (hk : k ∈ e.kind.containedKinds) {c : Entity}
    (hc : c ∈ b.entities.filter fun c => c.kind = k && c.parent = e.ptr) :
    a.Visits e c ∧ c.kind = k := by
  obtain ⟨hmem, hmatch⟩ := List.mem_filter.1 hc
  obtain ⟨hck, hparent⟩ := Bool.and_eq_true_iff.1 hmatch
  have hck : c.kind = k := of_decide_eq_true hck
  exact ⟨⟨he, hb.sublist.subset hmem, hck ▸ hk, of_decide_eq_true hparent⟩, hck⟩

/-- The loops over the children of all kinds. -/
theorem forEach_kinds_deletes (ha : Registered a) (hc : DeletesTrees env a contained n)
    (hlevel : e.kind.level ≤ n) (he : e ∈ a.entities) {ks : List ResourceKind}
    (hks : ∀ k ∈ ks, k ∈ e.kind.containedKinds) (hnodup : ks.Nodup) {M R : Set ℕ} {b b' : Agent}
    (hb : PartlyDeleted a M R b)
    (hu : ∀ c, a.Visits e c → c.kind ∈ ks → Untouched a M R c)
    (hret : forEach ks (fun k => do
      let a ← read
      ensure (env.ok (.ddsEntity .deleteContained k e.ptr))
      forEach (a.entities.filter fun c => c.kind = k && c.parent = e.ptr) fun c =>
        contained k c.ptr) b = (some (), b')) :
    PartlyDeleted a (M ∪ a.branches e ks) (R ∪ a.freedBranches env e ks) b' := by
  induction ks generalizing M R b with
  | nil =>
      obtain ⟨-, rfl⟩ := pure_eq_some.1 hret
      refine hb.congr (fun ptr => ?_) fun ptr => ?_
      · simp [Agent.branches]
      · simp [Agent.freedBranches]
  | cons k ks ih =>
      rw [List.nodup_cons] at hnodup
      obtain ⟨_, b₁, hfirst, hrest⟩ := bind_eq_some.1 hret
      dsimp only at hfirst
      rw [read_bind_apply] at hfirst
      obtain ⟨_, _, hok, hfirst⟩ := bind_eq_some.1 hfirst
      obtain ⟨-, rfl⟩ := ensure_eq_some.1 hok
      have hk := hks k List.mem_cons_self
      -- the children of this kind are still all there
      have hmem : ∀ c, c ∈ b.entities.filter (fun c => c.kind = k && c.parent = e.ptr) ↔
          a.Visits e c ∧ c.kind = k := by
        intro c
        refine ⟨visits_of_mem_filter hb he hk, fun ⟨hvisits, hck⟩ => ?_⟩
        have hR := (hu c hvisits (by simp [hck]) c .refl).2
        rw [List.mem_filter]
        exact ⟨(hb.mem c hvisits.2.1).2 hR, by simp [hck, hvisits.2.2.2]⟩
      have hb₁ := forEach_children_deletes ha hc hlevel (fun c hcmem => (hmem c).1 hcmem)
        ((hb.sublist.nodup ha.nodup).filter _) hb
        (fun c hcmem => hu c ((hmem c).1 hcmem).1 (by simp [((hmem c).1 hcmem).2])) hfirst
      have hb₂ := ih (fun k' hk' => hks k' (List.mem_cons_of_mem _ hk')) hnodup.2 hb₁
        (fun d hd hdk => ?_) hrest
      · refine hb₂.congr (fun ptr => ?_) fun ptr => ?_
        · simp only [Agent.branches, hmem, Set.mem_union, Set.mem_ofPred_eq, List.mem_cons,
            or_and_right, and_or_left, exists_or, and_assoc, or_assoc]
        · simp only [Agent.freedBranches, hmem, Set.mem_union, Set.mem_ofPred_eq, List.mem_cons,
            or_and_right, and_or_left, exists_or, and_assoc, or_assoc]
      · refine (hu d hd (List.mem_cons_of_mem _ hdk)).union_list ha
          (fun c hcmem => ((hmem c).1 hcmem).1) hd fun hdmem => ?_
        rw [((hmem d).1 hdmem).2] at hdk
        exact hnodup.1 hdk

/-- Deleting an entity adds what is below it to what has been marked. -/
theorem deleteNativeEntityEA_deletes (ha : Registered a) (hc : DeletesTrees env a contained n)
    (hlevel : e.kind.level ≤ n) (he : e ∈ a.entities) {M R : Set ℕ} {b b' : Agent}
    (hb : PartlyDeleted a M R b) (hu : ∀ c, a.Visits e c → Untouched a M R c)
    (hret : deleteNativeEntityEA env contained e.kind e b = (some (), b')) :
    PartlyDeleted a (M ∪ a.branches e e.kind.containedKinds) (R ∪ a.freed env e) b' := by
  obtain ⟨_, b₁, hloop, hret⟩ := bind_eq_some.1 hret
  have hb₁ := forEach_kinds_deletes ha hc hlevel he (fun _ hk => hk)
    (ResourceKind.nodup_containedKinds _) hb (fun c hvisits _ => hu c hvisits) hloop
  -- what is deleted besides the branches is left to the cases
  have hfinal : ∀ {S : Set ℕ}, (∀ ptr, ptr ∈ S ↔ Agent.Frees env e ptr) →
      PartlyDeleted a (M ∪ a.branches e e.kind.containedKinds)
        (R ∪ a.freedBranches env e e.kind.containedKinds ∪ S) b' →
      PartlyDeleted a (M ∪ a.branches e e.kind.containedKinds) (R ∪ a.freed env e) b' := by
    intro S hS h
    refine h.congr (fun _ => Iff.rfl) fun ptr => ?_
    rw [Set.mem_union, Set.mem_union, Set.mem_union, Agent.mem_freed_iff, hS, or_assoc,
      or_comm (a := Agent.Frees env e ptr)]
  by_cases htopic : e.kind = .topic
  · have huses : ¬ e.kind.UsesTopic := by
      rw [htopic]
      rintro (h | h) <;> cases h
    rw [if_pos htopic] at hret
    unfold deleteTopicEntity at hret
    cases hok : env.ok (.ddsEntity .deleteEntity .topic e.ptr) with
    | true =>
        rw [hok, onlyIf_true, modify_eq_some] at hret
        subst hret
        refine hfinal (S := {e.ptr}) (fun ptr => ?_) (hb₁.removeEntity e.ptr)
        rw [Set.mem_singleton_iff]
        constructor
        · rintro rfl
          exact .inl ⟨rfl, fun _ => hok⟩
        · rintro (⟨rfl, -⟩ | ⟨h, -⟩)
          · rfl
          · exact absurd h huses
    | false =>
        rw [hok, onlyIf_false, pure_eq_some] at hret
        obtain ⟨-, rfl⟩ := hret
        refine hfinal (S := ∅) (fun ptr => ?_) (hb₁.congr (fun _ => Iff.rfl) fun ptr => by simp)
        simp only [Set.mem_empty_iff_false, false_iff]
        rintro (⟨rfl, h⟩ | ⟨h, -⟩)
        · rw [hok] at h
          exact absurd (h htopic) Bool.false_ne_true
        · exact huses h
  · rw [if_neg htopic] at hret
    obtain ⟨_, _, hok, hret⟩ := bind_eq_some.1 hret
    obtain ⟨-, rfl⟩ := ensure_eq_some.1 hok
    rw [modify_bind_apply] at hret
    have hb₂ := hb₁.removeEntity e.ptr
    by_cases huses : e.kind.UsesTopic
    · have hflag : (decide (e.kind = .dataReader) || decide (e.kind = .dataWriter)) = true := by
        simpa [ResourceKind.UsesTopic] using huses
      rw [hflag, onlyIf_true] at hret
      unfold deleteTopicEntity at hret
      cases hok : env.ok (.ddsEntity .deleteEntity .topic e.topic) with
      | true =>
          rw [hok, onlyIf_true, modify_eq_some] at hret
          subst hret
          refine hfinal (S := {e.ptr} ∪ {e.topic}) (fun ptr => ?_) ?_
          · rw [Set.mem_union, Set.mem_singleton_iff, Set.mem_singleton_iff]
            constructor
            · rintro (rfl | rfl)
              · exact .inl ⟨rfl, fun h => absurd h htopic⟩
              · exact .inr ⟨huses, rfl, hok⟩
            · rintro (⟨rfl, -⟩ | ⟨-, rfl, -⟩)
              · exact .inl rfl
              · exact .inr rfl
          · refine (hb₂.removeEntity e.topic).congr (fun _ => Iff.rfl) fun ptr => ?_
            simp only [Set.mem_union, or_assoc]
      | false =>
          rw [hok, onlyIf_false, pure_eq_some] at hret
          obtain ⟨-, rfl⟩ := hret
          refine hfinal (S := {e.ptr}) (fun ptr => ?_) hb₂
          rw [Set.mem_singleton_iff]
          constructor
          · rintro rfl
            exact .inl ⟨rfl, fun h => absurd h htopic⟩
          · rintro (⟨rfl, -⟩ | ⟨-, rfl, h⟩)
            · rfl
            · rw [hok] at h
              cases h
    · have hflag : (decide (e.kind = .dataReader) || decide (e.kind = .dataWriter)) = false := by
        simpa [ResourceKind.UsesTopic] using huses
      rw [hflag, onlyIf_false, pure_eq_some] at hret
      obtain ⟨-, rfl⟩ := hret
      refine hfinal (S := {e.ptr}) (fun ptr => ?_) hb₂
      rw [Set.mem_singleton_iff]
      constructor
      · rintro rfl
        exact .inl ⟨rfl, fun h => absurd h htopic⟩
      · rintro (⟨rfl, -⟩ | ⟨h, -⟩)
        · rfl
        · exact absurd h huses

/-- The parts of a native deletion that looks for the entity of its record. -/
theorem entity_of_deleteNativeResourceWith {rid : ResourceId} {r : Resource} {b b' : Agent}
    (hr : b.resources.lookup rid = some r) (hdel : r.nativeDeleted = false)
    (hentity : r.kind.isEntity = true)
    (hret : deleteNativeResourceWith env contained rid b = (some (), b')) :
    ∃ c, (∀ rid', c.resources.lookup rid' =
        if rid' = rid then some r.gone else b.resources.lookup rid') ∧ c.entities = b.entities ∧
      (match b.lookupEntity r.kind r.id with
      | none => pure ()
      | some e => deleteNativeEntityEA env contained r.kind e : AgentM Unit) c = (some (), b') := by
  have hgeneric : r.kind.isGeneric = false := by
    revert hentity
    cases r.kind <;> decide
  unfold deleteNativeResourceWith at hret
  obtain ⟨found, _, hfound, hret⟩ := bind_eq_some.1 hret
  obtain ⟨-, rfl, rfl⟩ := lookupResource_eq_some.1 hfound
  rw [hr] at hret
  dsimp only at hret
  rw [if_neg (by simp [hdel]), modify_bind_apply, if_neg (by simp [hgeneric])] at hret
  generalize hmarked : b.updateResource rid (fun r => { r with nativeDeleted := true }) = d at hret
  have hd : ∀ rid', d.resources.lookup rid' = if rid' = rid then
      some { r with nativeDeleted := true } else b.resources.lookup rid' := by
    intro rid'
    rw [← hmarked, Agent.lookup_updateResource]
    split
    · rename_i heq
      rw [heq, hr]
      rfl
    · rfl
  have hlookup : d.lookupEntity r.kind r.id = b.lookupEntity r.kind r.id := by
    rw [← hmarked]
    rfl
  have hentities : d.entities = b.entities := by
    rw [← hmarked]
    rfl
  obtain ⟨_, _, hok, hret⟩ := bind_eq_some.1 hret
  obtain ⟨-, rfl⟩ := ensure_eq_some.1 hok
  obtain ⟨_, _, hok, hret⟩ := bind_eq_some.1 hret
  obtain ⟨-, rfl⟩ := ensure_eq_some.1 hok
  rw [read_bind_apply] at hret
  obtain ⟨_, f, hrelease, hret⟩ := bind_eq_some.1 hret
  have hrecords := releaseUserDataEA_sameRecords env rid r d
  have hfe := releaseUserDataEA_entities env rid r d.entities d rfl
  rw [hrelease] at hrecords hfe
  change f.entities = d.entities at hfe
  rw [modify_bind_apply] at hret
  obtain ⟨_, _, hok, hret⟩ := bind_eq_some.1 hret
  obtain ⟨-, rfl⟩ := ensure_eq_some.1 hok
  rw [hlookup] at hret
  refine ⟨f.updateResource rid fun r => { r.finalize with userData := none }, fun rid' => ?_,
    hfe.trans hentities, hret⟩
  rw [Agent.lookup_updateResource, hrecords.2.2, hd]
  split <;> rfl

/-- Deleting a resource natively adds the tree of its entity to what has been marked. -/
theorem deleteNativeResourceWith_deletes (ha : Registered a) (hc : DeletesTrees env a contained n)
    (hlevel : e.kind.level ≤ n) (he : e ∈ a.entities) {r : Resource}
    (hra : a.resources.lookup e.name = some r) (hkind : r.kind = e.kind)
    (hdel : r.nativeDeleted = false) (hnative : r.native = some e.ptr) {M R : Set ℕ}
    {b b' : Agent} (hb : PartlyDeleted a M R b) (hr : b.resources.lookup e.name = some r)
    (hu : Untouched a M R e)
    (hret : deleteNativeResourceWith env contained e.name b = (some (), b')) :
    PartlyDeleted a (M ∪ a.tree e) (R ∪ a.freed env e) b' := by
  have hentity : r.kind.isEntity = true := hkind ▸ ha.kind e he
  obtain ⟨hid, -⟩ := ha.live e.name r hra hdel hentity
  obtain ⟨c, hrecords, hentities, hret⟩ :=
    entity_of_deleteNativeResourceWith hr hdel hentity hret
  rw [hid, hkind, hb.lookupEntity_eq ha he (hu e .refl).2] at hret
  have hmarked := hb.mark ha he hra hdel hnative hrecords hentities
  have hbelow : ∀ d, a.Visits e d → Untouched a (M ∪ {e.ptr}) R d := by
    intro d hd x hx
    have hx' := hu x (.head hd hx)
    refine ⟨?_, hx'.2⟩
    rintro (hM | heq)
    · exact hx'.1 hM
    · -- the entity is not below itself
      have hrank : ∀ p x, a.Visits p x → x.kind.level < p.kind.level :=
        fun p x h => ResourceKind.level_lt_of_mem h.2.2.1
      obtain rfl := ha.ptr x (Agent.mem_of_visits hd.2.1 hx) e he (Set.mem_singleton_iff.1 heq)
      exact Nat.not_lt.2 (Forest.rank_le (fun x => x.kind.level) hrank hx) (hrank _ _ hd)
  have hfinal := deleteNativeEntityEA_deletes ha hc hlevel he hmarked hbelow hret
  refine hfinal.congr (fun ptr => ?_) fun _ => Iff.rfl
  simp only [Set.mem_union, Set.mem_singleton_iff, Agent.mem_tree_iff, or_assoc]

end Entity

/-- The recursion over the contained entities. -/
theorem findContainedResourceAndDeleteEA_deletes (ha : Registered a) (depth : ℕ) :
    DeletesTrees env a (findContainedResourceAndDeleteEA env depth) depth := by
  induction depth with
  | zero =>
      intro c _ hlevel
      exact absurd hlevel (Nat.not_lt_zero _)
  | succ depth ih =>
      intro e he hlevel M R b b' hb hu hret
      have hlevel : e.kind.level ≤ depth := Nat.le_of_lt_succ hlevel
      unfold findContainedResourceAndDeleteEA at hret
      rw [read_bind_apply] at hret
      obtain ⟨_, _, hok, hret⟩ := bind_eq_some.1 hret
      obtain ⟨-, rfl⟩ := ensure_eq_some.1 hok
      cases hfind : b.findResourceByNative e.kind e.ptr with
      | some r =>
          rw [hfind] at hret
          obtain ⟨hra, hr, hid, hkind, hdel, hnative⟩ :=
            hb.exists_of_findResourceByNative ha he hfind
          obtain ⟨_, _, hok, hret⟩ := bind_eq_some.1 hret
          obtain ⟨-, rfl⟩ := ensure_eq_some.1 hok
          obtain ⟨_, _, hok, hret⟩ := bind_eq_some.1 hret
          obtain ⟨-, rfl⟩ := ensure_eq_some.1 hok
          rw [hid] at hret
          exact deleteNativeResourceWith_deletes ha ih hlevel he hra hkind hdel hnative hb hr hu
            hret
      | none =>
          rw [hfind] at hret
          dsimp only at hret
          rw [hb.find_ptr_eq ha he (hu e .refl).2] at hret
          have hfinal := deleteNativeEntityEA_deletes ha ih hlevel he hb
            (fun c hc x hx => hu x (.head hc hx)) hret
          have hmarked := hfinal.mark_nothing fun rid r hr hdel =>
            hb.not_standsFor_of_find ha he (hu e .refl).1 hfind hr hdel
          refine hmarked.congr (fun ptr => ?_) fun _ => Iff.rfl
          simp only [Set.mem_union, Set.mem_singleton_iff, Agent.mem_tree_iff, or_assoc]
          rw [or_comm (a := ptr = e.ptr)]

end AgentM

end NanoAgent
