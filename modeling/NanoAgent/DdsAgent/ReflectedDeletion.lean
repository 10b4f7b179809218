import NanoAgent.DdsAgent.NativeDeletion

/-!
# How native deletion is reflected in the records

A successful native deletion marks the records of the entities it visits. These are all
entities within the deleted one but the topics (`within_iff`), which it deletes together
with their readers and writers, or not at all. So the records reflect what was deleted
exactly when no topic that is concerned has a record (`TopicsSpared`).

The recursion needs no more than the two levels of `deleteNativeResourceEA`: with any more
of them it does the same.
-/

namespace NanoAgent

open Prog AgentM Relation

theorem NamedRecords.of_nativelyDeletes {a b : Agent} (ha : NamedRecords a)
    (h : NativelyDeletes a b) : NamedRecords b := by
  refine ha.of_records fun rid r' hr' => ?_
  cases hr : a.resources.lookup rid with
  | none =>
      rw [h.new rid hr] at hr'
      cases hr'
  | some r =>
      obtain ⟨r'', hr'', hfrom⟩ := h.record rid r hr
      obtain rfl := Option.some.inj (hr''.symm.trans hr')
      exact ⟨r, rfl, hfrom.detachedFrom.id⟩

namespace AgentM

variable {env : Env} {contained contained' : ResourceKind → ℕ → AgentM Unit}

/-- Deleting an entity does the same with two ways to delete contained entities that agree on
the kinds it contains. -/
theorem deleteNativeEntityEA_congr {kind : ResourceKind} (e : Entity)
    (hc : ∀ k ∈ kind.containedKinds, ∀ ptr a, NamedRecords a →
      contained k ptr a = contained' k ptr a)
    (hp : ∀ k ptr, Preserves NamedRecords (contained k ptr)) {a : Agent} (ha : NamedRecords a) :
    deleteNativeEntityEA env contained kind e a = deleteNativeEntityEA env contained' kind e a := by
  refine bind_congr_apply ?_ fun _ _ _ => rfl
  refine forEach_congr_apply (J := NamedRecords) (fun k hk b hb => ?_) (fun k _ => ?_) ha
  · rw [read_bind_apply, read_bind_apply]
    refine bind_congr_apply rfl fun _ c hok => ?_
    obtain ⟨-, rfl⟩ := ensure_eq_some.1 hok
    refine forEach_congr_apply (J := NamedRecords) (fun c _ d hd => hc k hk c.ptr d hd) ?_ hb
    exact fun c _ => hp k c.ptr
  · exact Preserves.readThen fun _ _ => .bind (.ensure _) fun _ => .forEach fun c _ => hp k c.ptr

theorem deleteNativeResourceWith_congr {rid : ResourceId} {a : Agent} (ha : NamedRecords a)
    (hc : ∀ r, a.resources.lookup rid = some r → ∀ k ∈ r.kind.containedKinds, ∀ ptr b,
      NamedRecords b → contained k ptr b = contained' k ptr b)
    (hp : ∀ k ptr, Preserves NamedRecords (contained k ptr)) :
    deleteNativeResourceWith env contained rid a =
      deleteNativeResourceWith env contained' rid a := by
  refine bind_congr_apply rfl fun found b hfound => ?_
  obtain ⟨-, hr, rfl⟩ := lookupResource_eq_some.1 hfound
  cases found with
  | none => rfl
  | some r =>
      dsimp only
      split
      · rfl
      rw [modify_bind_apply, modify_bind_apply]
      have hmarked :
          NamedRecords (a.updateResource rid fun r => { r with nativeDeleted := true }) :=
        ha.updateResource fun _ => .inl rfl
      generalize a.updateResource rid _ = b at hmarked
      split
      · rfl
      refine bind_congr_apply rfl fun _ c hok => ?_
      obtain ⟨-, rfl⟩ := ensure_eq_some.1 hok
      refine bind_congr_apply rfl fun _ c hok => ?_
      obtain ⟨-, rfl⟩ := ensure_eq_some.1 hok
      rw [read_bind_apply, read_bind_apply]
      refine bind_congr_apply rfl fun _ c hrelease => ?_
      have hc' : NamedRecords c := by
        have hsame := releaseUserDataEA_sameRecords env rid r b
        rw [hrelease] at hsame
        exact hmarked.of_resources hsame.2.2
      rw [modify_bind_apply, modify_bind_apply]
      have hgone : NamedRecords (c.updateResource rid fun r =>
          { r.finalize with userData := none }) := hc'.updateResource fun _ => .inr (.inr rfl)
      refine bind_congr_apply rfl fun _ d hok => ?_
      obtain ⟨-, rfl⟩ := ensure_eq_some.1 hok
      cases b.lookupEntity r.kind r.id with
      | none => rfl
      | some e => exact deleteNativeEntityEA_congr e (hc r hr) hp hgone

/-- Deleting a contained entity takes as many levels as its kind has. -/
theorem findContainedResourceAndDeleteEA_succ {depth : ℕ} {kind : ResourceKind}
    (hlevel : kind.level < depth) (ptr : ℕ) {a : Agent} (ha : NamedRecords a) :
    findContainedResourceAndDeleteEA env (depth + 1) kind ptr a =
      findContainedResourceAndDeleteEA env depth kind ptr a := by
  induction depth generalizing kind ptr a with
  | zero => exact absurd hlevel (Nat.not_lt_zero _)
  | succ depth ih =>
      have hbelow : ∀ k ∈ kind.containedKinds, ∀ ptr b, NamedRecords b →
          findContainedResourceAndDeleteEA env (depth + 1) k ptr b =
            findContainedResourceAndDeleteEA env depth k ptr b := by
        intro k hk ptr b hb
        refine ih ?_ ptr hb
        exact Nat.lt_of_lt_of_le (ResourceKind.level_lt_of_mem hk) (Nat.le_of_lt_succ hlevel)
      have hp : ∀ k ptr, Preserves NamedRecords
          (findContainedResourceAndDeleteEA env (depth + 1) k ptr) := fun k ptr b hb =>
        hb.of_nativelyDeletes (findContainedResourceAndDeleteEA_nativelyDeletes _ k ptr b)
      unfold findContainedResourceAndDeleteEA
      rw [read_bind_apply, read_bind_apply]
      refine bind_congr_apply rfl fun _ b hok => ?_
      obtain ⟨-, rfl⟩ := ensure_eq_some.1 hok
      cases hfind : a.findResourceByNative kind ptr with
      | some c =>
          refine bind_congr_apply rfl fun _ b hok => ?_
          obtain ⟨hid, rfl⟩ := ensure_eq_some.1 hok
          refine bind_congr_apply rfl fun _ b hok => ?_
          obtain ⟨-, rfl⟩ := ensure_eq_some.1 hok
          refine deleteNativeResourceWith_congr ha (fun r hr => ?_) hp
          -- the record that is found has the name it is in the table under
          obtain ⟨rid, hlookup, hkind, -⟩ := Agent.record_of_findResourceByNative hfind
          have hne : c.id ≠ .none := by simpa using (Bool.and_eq_true_iff.1 hid).1
          rw [(ha.id rid c hlookup).resolve_right hne, hlookup] at hr
          obtain rfl := Option.some.inj hr
          rw [hkind]
          exact hbelow
      | none =>
          dsimp only
          cases a.entities.find? _ with
          | none => rfl
          | some x => exact deleteNativeEntityEA_congr x hbelow hp ha

/-- The recursion ends by itself: more levels change nothing. -/
theorem deleteNativeResourceEA_levels (env : Env) (rid : ResourceId) {a : Agent}
    (ha : NamedRecords a) (n : ℕ) :
    deleteNativeResourceWith env (findContainedResourceAndDeleteEA env (n + 2)) rid a =
      deleteNativeResourceEA env rid a := by
  have hlevels : ∀ k ptr b, k.level < 2 → NamedRecords b →
      findContainedResourceAndDeleteEA env (n + 2) k ptr b =
        findContainedResourceAndDeleteEA env 2 k ptr b := by
    intro k ptr b hk hb
    induction n with
    | zero => rw [Nat.zero_add]
    | succ n ih =>
        rw [Nat.succ_add, findContainedResourceAndDeleteEA_succ (by omega) ptr hb, ih]
  refine deleteNativeResourceWith_congr ha (fun r _ k hk ptr b hb => ?_) fun k ptr b hb => ?_
  · refine hlevels k ptr b ?_ hb
    exact Nat.lt_of_lt_of_le (ResourceKind.level_lt_of_mem hk) (ResourceKind.level_le _)
  · exact hb.of_nativelyDeletes (findContainedResourceAndDeleteEA_nativelyDeletes _ k ptr b)

end AgentM

namespace Agent

variable (a : Agent)

/-- The entity `p` contains the entity `x`. -/
def Contains (p x : Entity) : Prop :=
  p ∈ a.entities ∧ x ∈ a.entities ∧ x.kind.parentKind = some p.kind ∧ x.parent = p.ptr

/-- The entity `x` is the entity `e`, or contained in it at any depth. -/
def IsWithin (e x : Entity) : Prop := ReflTransGen a.Contains e x

/-- The resource `rid`, which was not natively deleted, is that of the entity `x`. -/
def Records (rid : ResourceId) (x : Entity) : Prop :=
  x ∈ a.entities ∧ ∃ r, a.resources.lookup rid = some r ∧ r.nativeDeleted = false ∧
    r.native = some x.ptr

end Agent

/-- The native deletion of `rid`, from `a` to `b`, is reflected in the records: those of entities
are marked exactly when the entity is gone, and those newly marked are that of the resource and
those of the entities contained in its entity. -/
structure Reflects (a : Agent) (rid : ResourceId) (b : Agent) : Prop where
  gone : ∀ rid' r ptr, b.resources.lookup rid' = some r → r.native = some ptr →
    (r.nativeDeleted = true ↔ ∀ x ∈ b.entities, x.ptr ≠ ptr)
  marked : ∀ rid' r r', a.resources.lookup rid' = some r → b.resources.lookup rid' = some r' →
    r.nativeDeleted = false →
    (r'.nativeDeleted = true ↔
      rid' = rid ∨ ∃ e x, a.Records rid e ∧ a.IsWithin e x ∧ a.Records rid' x)

/-- No topic with a record is concerned by the deletion of `rid`, other than the resource itself,
which DDS deletes when it is a topic: none is contained in its entity, and none is deleted
together with a reader or a writer. -/
def TopicsSpared (env : Env) (a : Agent) (rid : ResourceId) : Prop :=
  ∀ e, a.Records rid e →
    (e.kind = .topic → env.ok (.ddsEntity .deleteEntity .topic e.ptr) = true) ∧
    ∀ rid' t, a.Records rid' t → t.kind = .topic → t ≠ e → ¬ a.IsWithin e t ∧
      ∀ x, a.IsWithin e x → x.kind.UsesTopic → x.topic = t.ptr →
        env.ok (.ddsEntity .deleteEntity .topic t.ptr) = false

namespace Agent

variable {a : Agent} {p e x : Entity}

theorem visits_iff : a.Visits p x ↔ a.Contains p x ∧ x.kind ≠ .topic := by
  unfold Visits Contains
  have hkinds : x.kind ∈ p.kind.containedKinds ↔
      x.kind.parentKind = some p.kind ∧ x.kind ≠ .topic := by
    cases p.kind <;> cases x.kind <;> decide
  rw [hkinds]
  constructor
  · rintro ⟨hp, hx, ⟨hkind, htopic⟩, hparent⟩
    exact ⟨⟨hp, hx, hkind, hparent⟩, htopic⟩
  · rintro ⟨⟨hp, hx, hkind, hparent⟩, htopic⟩
    exact ⟨hp, hx, ⟨hkind, htopic⟩, hparent⟩

theorem Contains.ne_topic (h : a.Contains p x) : p.kind ≠ .topic := by
  intro htopic
  have hkind := h.2.2.1
  rw [htopic] at hkind
  revert hkind
  cases x.kind <;> decide

/-- What is contained in an entity is visited, unless it is a topic. -/
theorem isWithin_iff (htopic : x.kind ≠ .topic) :
    a.IsWithin e x ↔ ReflTransGen a.Visits e x := by
  constructor
  · intro h
    induction h with
    | refl => exact .refl
    | tail _ hchild ih => exact (ih hchild.ne_topic).tail (visits_iff.2 ⟨hchild, htopic⟩)
  · exact ReflTransGen.mono (fun _ _ h => (visits_iff.1 h).1) _ _

theorem eq_or_ne_topic_of_visits (h : ReflTransGen a.Visits e x) : x = e ∨ x.kind ≠ .topic := by
  rcases ReflTransGen.cases_tail h with rfl | ⟨y, -, hyx⟩
  · exact .inl rfl
  · exact .inr (visits_iff.1 hyx).2

end Agent

namespace Registered

variable {a : Agent} (ha : Registered a) {env : Env} {e x : Entity}

include ha

/-- A record that was not natively deleted and points to an entity is that of an entity. -/
theorem exists_records {rid : ResourceId} {r : Resource} {ptr : ℕ}
    (hr : a.resources.lookup rid = some r) (hdel : r.nativeDeleted = false)
    (hn : r.native = some ptr) : ∃ x, a.Records rid x ∧ x.ptr = ptr := by
  have hentity : r.kind.isEntity = true := by
    by_contra hno
    rw [ha.generic rid r hr hdel (by simpa using hno)] at hn
    cases hn
  obtain ⟨-, x, hx, -, -, hxn⟩ := ha.live rid r hr hdel hentity
  exact ⟨x, ⟨hx, r, hr, hdel, hxn⟩, Option.some.inj (hxn.symm.trans hn)⟩

theorem records_unique {rid : ResourceId} {x y : Entity} (hx : a.Records rid x)
    (hy : a.Records rid y) : x = y := by
  obtain ⟨hxa, r, hr, -, hn⟩ := hx
  obtain ⟨hya, r', hr', -, hn'⟩ := hy
  obtain rfl := Option.some.inj (hr.symm.trans hr')
  exact ha.ptr x hxa y hya (Option.some.inj (hn.symm.trans hn'))

theorem name_of_records {rid : ResourceId} (hx : a.Records rid x) : rid = x.name := by
  obtain ⟨hxa, r, hr, hdel, hn⟩ := hx
  exact ha.name_of_native hxa hr hdel hn

theorem ptr_mem_tree_iff (he : e ∈ a.entities) (hx : x ∈ a.entities) :
    x.ptr ∈ a.tree e ↔ ReflTransGen a.Visits e x := by
  constructor
  · rintro ⟨y, hy, heq⟩
    rw [ha.ptr x hx y (Agent.mem_of_visits he hy) heq]
    exact hy
  · intro h
    exact ⟨x, h, rfl⟩

/-- The entities that are deleted are those that are visited and the topics of readers and writers
among them, as far as DDS deletes the topics. -/
theorem ptr_mem_freed_iff (he : e ∈ a.entities) (hx : x ∈ a.entities) :
    x.ptr ∈ a.freed env e ↔
      (ReflTransGen a.Visits e x ∧
        (x.kind = .topic → env.ok (.ddsEntity .deleteEntity .topic x.ptr) = true)) ∨
      ∃ y, ReflTransGen a.Visits e y ∧ y.kind.UsesTopic ∧ y.topic = x.ptr ∧
        env.ok (.ddsEntity .deleteEntity .topic x.ptr) = true := by
  constructor
  · rintro ⟨y, hy, ⟨heq, hok⟩ | ⟨huses, heq, hok⟩⟩
    · obtain rfl := ha.ptr x hx y (Agent.mem_of_visits he hy) heq
      exact .inl ⟨hy, hok⟩
    · exact .inr ⟨y, hy, huses, heq.symm, hok⟩
  · rintro (⟨hvisits, hok⟩ | ⟨y, hy, huses, heq, hok⟩)
    · exact ⟨x, hvisits, .inl ⟨rfl, hok⟩⟩
    · exact ⟨y, hy, .inr ⟨huses, heq.symm, hok⟩⟩

/-- For an entity other than a topic, being marked, being deleted and being contained are the
same. -/
theorem agree_of_ne_topic (he : e ∈ a.entities) (hx : x ∈ a.entities) (htopic : x.kind ≠ .topic) :
    (x.ptr ∈ a.tree e ↔ x.ptr ∈ a.freed env e) ∧ (x.ptr ∈ a.tree e ↔ a.IsWithin e x) := by
  rw [ha.ptr_mem_tree_iff he hx, ha.ptr_mem_freed_iff he hx, Agent.isWithin_iff htopic]
  refine ⟨⟨fun h => .inl ⟨h, fun h => absurd h htopic⟩, ?_⟩, Iff.rfl⟩
  rintro (⟨h, -⟩ | ⟨y, hy, huses, heq, -⟩)
  · exact h
  · exact absurd (ha.topic y (Agent.mem_of_visits he hy) huses x hx heq.symm) htopic

/-- For another topic, they are when it is neither deleted nor contained. -/
theorem agree_of_topic (he : e ∈ a.entities) (hx : x ∈ a.entities) (htopic : x.kind = .topic)
    (hne : x ≠ e) :
    (x.ptr ∈ a.tree e ↔ x.ptr ∈ a.freed env e) ∧ (x.ptr ∈ a.tree e ↔ a.IsWithin e x) ↔
      ¬ a.IsWithin e x ∧ ∀ y, a.IsWithin e y → y.kind.UsesTopic → y.topic = x.ptr →
        env.ok (.ddsEntity .deleteEntity .topic x.ptr) = false := by
  have hnot : ¬ ReflTransGen a.Visits e x := by
    intro h
    rcases Agent.eq_or_ne_topic_of_visits h with h | h
    · exact hne h
    · exact h htopic
  have huses : ∀ {y : Entity}, y.kind.UsesTopic → y.kind ≠ .topic := by
    rintro y (h | h) <;> rw [h] <;> decide
  rw [ha.ptr_mem_tree_iff he hx, ha.ptr_mem_freed_iff he hx]
  simp only [hnot, false_and, false_or, false_iff]
  rw [and_comm]
  refine and_congr_right fun _ => ?_
  constructor
  · intro h y hy hyuses heq
    rw [Bool.eq_false_iff]
    intro hok
    exact h ⟨y, (Agent.isWithin_iff (huses hyuses)).1 hy, hyuses, heq, hok⟩
  · rintro h ⟨y, hy, hyuses, heq, hok⟩
    rw [h y ((Agent.isWithin_iff (huses hyuses)).2 hy) hyuses heq] at hok
    cases hok

/-- For the entity itself, they are unless it is a topic that DDS does not delete. -/
theorem agree_self (he : e ∈ a.entities) :
    (e.ptr ∈ a.tree e ↔ e.ptr ∈ a.freed env e) ∧ (e.ptr ∈ a.tree e ↔ a.IsWithin e e) ↔
      (e.kind = .topic → env.ok (.ddsEntity .deleteEntity .topic e.ptr) = true) := by
  have hself : e.ptr ∈ a.tree e := ⟨e, .refl, rfl⟩
  have hwithin : a.IsWithin e e := .refl
  simp only [hself, hwithin, true_iff, and_true]
  rw [ha.ptr_mem_freed_iff he he]
  constructor
  · rintro (⟨-, h⟩ | ⟨y, -, -, -, hok⟩)
    · exact h
    · exact fun _ => hok
  · intro h
    exact .inl ⟨.refl, h⟩

end Registered

namespace Resource

variable {r : Resource} {M : Set ℕ}

theorem native_without : (r.without M).native = r.native := by
  unfold Resource.without
  split <;> rfl

theorem nativeDeleted_without :
    (r.without M).nativeDeleted = true ↔ r.nativeDeleted = true ∨ r.StandsFor M := by
  by_cases h : r.StandsFor M
  · rw [without_eq_gone h]
    exact ⟨fun _ => .inr h, fun _ => rfl⟩
  · rw [without_eq_self h]
    simp [h]

theorem standsFor_iff {ptr : ℕ} (hdel : r.nativeDeleted = false) (hn : r.native = some ptr) :
    r.StandsFor M ↔ ptr ∈ M := by
  unfold StandsFor
  rw [hn]
  constructor
  · rintro ⟨-, p, hp, heq⟩
    rw [Option.some.inj heq]
    exact hp
  · intro h
    exact ⟨hdel, ptr, h, rfl⟩

end Resource

/-- The deletion is reflected when for every entity with a record, being marked, being deleted
and being contained are the same. -/
theorem PartlyDeleted.reflects_iff {env : Env} {a b : Agent} {rid : ResourceId} {e : Entity}
    (ha : Registered a) (he : a.Records rid e)
    (hb : PartlyDeleted a (a.tree e) (a.freed env e) b) :
    Reflects a rid b ↔ ∀ rid' x, a.Records rid' x →
      (x.ptr ∈ a.tree e ↔ x.ptr ∈ a.freed env e) ∧ (x.ptr ∈ a.tree e ↔ a.IsWithin e x) := by
  have hgone : ∀ {x : Entity}, x ∈ a.entities →
      ((∀ y ∈ b.entities, y.ptr ≠ x.ptr) ↔ x.ptr ∈ a.freed env e) := by
    intro x hx
    constructor
    · intro h
      by_contra hnot
      exact h x ((hb.mem x hx).2 hnot) rfl
    · intro h y hy heq
      have hya := hb.sublist.subset hy
      obtain rfl := ha.ptr y hya x hx heq
      exact (hb.mem y hx).1 hy h
  have hcontained : ∀ {rid' : ResourceId} {x : Entity}, a.Records rid' x →
      ((rid' = rid ∨ ∃ e x, a.Records rid e ∧ a.IsWithin e x ∧ a.Records rid' x) ↔
        a.IsWithin e x) := by
    intro rid' x hx
    constructor
    · rintro (rfl | ⟨e', x', he', hwithin, hx'⟩)
      · rw [ha.records_unique hx he]
        exact .refl
      · rw [ha.records_unique he he', ha.records_unique hx hx']
        exact hwithin
    · intro h
      exact .inr ⟨e, x, he, h, hx⟩
  constructor
  · rintro ⟨hgoneb, hmarked⟩ rid' x hx
    obtain ⟨hxa, r, hr, hdel, hn⟩ := id hx
    have hrb : b.resources.lookup rid' = some (r.without (a.tree e)) := by
      rw [hb.record, hr]
      rfl
    have hstands : (r.without (a.tree e)).nativeDeleted = true ↔ x.ptr ∈ a.tree e := by
      rw [Resource.nativeDeleted_without, Resource.standsFor_iff hdel hn]
      simp [hdel]
    constructor
    · rw [← hstands, hgoneb rid' _ x.ptr hrb (Resource.native_without.trans hn), hgone hxa]
    · rw [← hstands, hmarked rid' r _ hr hrb hdel, hcontained hx]
  · intro h
    constructor
    · intro rid' r' ptr hr' hn'
      rw [hb.record] at hr'
      obtain ⟨r, hr, rfl⟩ := Option.map_eq_some_iff.1 hr'
      rw [Resource.native_without] at hn'
      rw [Resource.nativeDeleted_without]
      cases hdel : r.nativeDeleted with
      | true =>
          have hdead := ha.deleted rid' r ptr hr hdel hn'
          simp only [true_or, true_iff]
          exact fun x hx => hdead x (hb.sublist.subset hx)
      | false =>
          obtain ⟨x, hx, rfl⟩ := ha.exists_records hr hdel hn'
          rw [Resource.standsFor_iff hdel hn', hgone hx.1]
          simp only [Bool.false_eq_true, false_or]
          exact (h rid' x hx).1
    · intro rid' r r' hr hr' hdel
      rw [hb.record, hr, Option.map_some, Option.some.injEq] at hr'
      rw [← hr', Resource.nativeDeleted_without]
      simp only [hdel, Bool.false_eq_true, false_or]
      cases hn : r.native with
      | none =>
          have hno : ∀ x, ¬ a.Records rid' x := by
            rintro x ⟨-, r', hlookup, -, hn'⟩
            rw [Option.some.inj (hr.symm.trans hlookup), hn'] at hn
            cases hn
          have hne : rid' ≠ rid := by
            rintro rfl
            exact hno e he
          have hstands : ¬ r.StandsFor (a.tree e) := by
            rintro ⟨-, ptr, -, hn'⟩
            rw [hn] at hn'
            cases hn'
          simp [hstands, hne, hno]
      | some ptr =>
          obtain ⟨x, hx, rfl⟩ := ha.exists_records hr hdel hn
          rw [Resource.standsFor_iff hdel hn, hcontained hx]
          exact (h rid' x hx).2

/-- How a successful deletion of a resource without an entity ends: its record is marked, if it
has one that was not. -/
structure MarksOwn (a : Agent) (rid : ResourceId) (b : Agent) : Prop where
  entities : b.entities = a.entities
  others : ∀ rid', rid' ≠ rid → b.resources.lookup rid' = a.resources.lookup rid'
  own : ∀ r', b.resources.lookup rid = some r' → ∃ r, a.resources.lookup rid = some r ∧
    ((r.nativeDeleted = true ∧ r' = r) ∨
      (r.nativeDeleted = false ∧ r'.nativeDeleted = true ∧ r'.native = none))

theorem MarksOwn.reflects {a b : Agent} {rid : ResourceId} (ha : Registered a)
    (h : MarksOwn a rid b) (hno : ∀ e, ¬ a.Records rid e) : Reflects a rid b := by
  constructor
  · intro rid' r' ptr hr' hn'
    rw [h.entities]
    -- the records of entities are those of the state before
    have hold : a.resources.lookup rid' = some r' := by
      by_cases hrid : rid' = rid
      · subst hrid
        obtain ⟨r, hr, ⟨-, rfl⟩ | ⟨-, -, hnone⟩⟩ := h.own r' hr'
        · exact hr
        · rw [hn'] at hnone
          cases hnone
      · exact (h.others rid' hrid).symm.trans hr'
    cases hdel : r'.nativeDeleted with
    | true =>
        simp only [true_iff]
        exact ha.deleted rid' r' ptr hold hdel hn'
    | false =>
        obtain ⟨x, hx, rfl⟩ := ha.exists_records hold hdel hn'
        simp only [Bool.false_eq_true, false_iff]
        intro hall
        exact hall x hx.1 rfl
  · intro rid' r r' hr hr' hdel
    by_cases hrid : rid' = rid
    · subst hrid
      obtain ⟨r₀, hr₀, ⟨hdead, -⟩ | ⟨-, hmarked, -⟩⟩ := h.own r' hr'
      · obtain rfl := Option.some.inj (hr.symm.trans hr₀)
        rw [hdel] at hdead
        cases hdead
      · simp [hmarked]
    · rw [h.others rid' hrid, hr, Option.some.injEq] at hr'
      subst hr'
      simp [hdel, hrid, hno]

namespace AgentM

variable {env : Env} {a b : Agent} {rid : ResourceId}

/-- What a successful native deletion does. -/
theorem deleteNativeResourceEA_returns (ha : Registered a)
    (hret : deleteNativeResourceEA env rid a = (some (), b)) :
    (∃ e, a.Records rid e ∧ PartlyDeleted a (a.tree e) (a.freed env e) b) ∨
      ((∀ e, ¬ a.Records rid e) ∧ MarksOwn a rid b) := by
  have hlive : ∀ {e : Entity}, a.Records rid e → ∃ r, a.resources.lookup rid = some r ∧
      r.nativeDeleted = false ∧ r.kind.isEntity = true := by
    rintro e ⟨-, r, hr, hdel, hn⟩
    refine ⟨r, hr, hdel, ?_⟩
    by_contra hkind
    rw [ha.generic rid r hr hdel (by simpa using hkind)] at hn
    cases hn
  by_cases hentity : ∃ r, a.resources.lookup rid = some r ∧ r.nativeDeleted = false ∧
      r.kind.isEntity = true
  · obtain ⟨r, hr, hdel, hkind⟩ := hentity
    obtain ⟨hid, e, he, hek, hname, hn⟩ := ha.live rid r hr hdel hkind
    subst hname
    refine .inl ⟨e, ⟨he, r, hr, hdel, hn⟩, ?_⟩
    have hdeleted := deleteNativeResourceWith_deletes ha
      (findContainedResourceAndDeleteEA_deletes ha 2) (ResourceKind.level_le _) he hr hek.symm
      hdel hn (.start a) hr (fun _ _ => ⟨Set.notMem_empty _, Set.notMem_empty _⟩) hret
    refine hdeleted.congr (fun ptr => ?_) fun ptr => ?_
    · simp
    · simp
  · refine .inr ⟨fun e he => hentity (hlive he), ?_⟩
    obtain ⟨found, _, hfound, hret⟩ := bind_eq_some.1 hret
    obtain ⟨-, hr, rfl⟩ := lookupResource_eq_some.1 hfound
    cases found with
    | none =>
        obtain ⟨-, rfl⟩ := pure_eq_some.1 hret
        refine ⟨rfl, fun _ _ => rfl, fun r' hr' => ?_⟩
        rw [hr] at hr'
        cases hr'
    | some r =>
        dsimp only at hret
        cases hdel : r.nativeDeleted with
        | true =>
            rw [hdel, if_pos rfl, pure_eq_some] at hret
            obtain ⟨-, rfl⟩ := hret
            refine ⟨rfl, fun _ _ => rfl, fun r' hr' => ⟨r, hr, .inl ⟨hdel, ?_⟩⟩⟩
            exact Option.some.inj (hr'.symm.trans hr)
        | false =>
            have hkind : r.kind.isEntity = false := by
              by_contra hkind
              exact hentity ⟨r, hr, hdel, by simpa using hkind⟩
            rw [hdel, if_neg Bool.false_ne_true, modify_bind_apply] at hret
            cases hgeneric : r.kind.isGeneric with
            | true =>
                rw [hgeneric, if_pos rfl, modify_eq_some] at hret
                refine ⟨?_, fun rid' hne => ?_, fun r' hr' => ⟨r, hr, .inr ⟨hdel, ?_⟩⟩⟩
                · rw [← hret]
                  rfl
                · rw [← hret, Agent.lookup_updateResource, if_neg hne, Agent.lookup_updateResource,
                    if_neg hne]
                · rw [← hret, Agent.lookup_updateResource, if_pos rfl, Agent.lookup_updateResource,
                    if_pos rfl, hr] at hr'
                  obtain rfl := Option.some.inj hr'
                  exact ⟨rfl, ha.generic rid r hr hdel hkind⟩
            | false => simp [hgeneric, hkind] at hret

/-- A native deletion that succeeds is reflected in the records, exactly when it spares the topics
that have records; and it needs no more levels of the recursion than the two that it takes. -/
theorem deleteNativeResourceEA_reflects_iff (ha : Registered a)
    (hret : deleteNativeResourceEA env rid a = (some (), b)) :
    (Reflects a rid b ∧ ∀ n, deleteNativeResourceWith env
      (findContainedResourceAndDeleteEA env (n + 2)) rid a = deleteNativeResourceEA env rid a) ↔
    TopicsSpared env a rid := by
  rw [and_iff_left (deleteNativeResourceEA_levels env rid ha.named)]
  rcases deleteNativeResourceEA_returns ha hret with ⟨e, he, hb⟩ | ⟨hno, hb⟩
  · rw [hb.reflects_iff ha he]
    constructor
    · intro h e' he'
      obtain rfl := ha.records_unique he he'
      refine ⟨(ha.agree_self he.1).1 (h rid e he), fun rid' t ht htopic hne => ?_⟩
      exact (ha.agree_of_topic he.1 ht.1 htopic hne).1 (h rid' t ht)
    · intro h rid' x hx
      obtain ⟨hself, htopics⟩ := h e he
      by_cases htopic : x.kind = .topic
      · by_cases heq : x = e
        · rw [heq]
          exact (ha.agree_self he.1).2 hself
        · exact (ha.agree_of_topic he.1 hx.1 htopic heq).2 (htopics rid' x hx htopic heq)
      · exact ha.agree_of_ne_topic he.1 hx.1 htopic
  · constructor
    · intro _ e he
      exact absurd he (hno e)
    · intro _
      exact hb.reflects ha hno

end AgentM

/-- Without records of topics every deletion spares them. -/
theorem TopicsSpared.of_no_topic {env : Env} {a : Agent} {rid : ResourceId} (ha : Registered a)
    (h : ∀ rid' r, a.resources.lookup rid' = some r → r.kind ≠ .topic) :
    TopicsSpared env a rid := by
  have hno : ∀ {rid' : ResourceId} {x : Entity}, a.Records rid' x → x.kind ≠ .topic := by
    intro rid' x hx htopic
    have hname := ha.name_of_records hx
    obtain ⟨hxa, r, hr, hdel, hn⟩ := hx
    have hentity : r.kind.isEntity = true := by
      by_contra hkind
      rw [ha.generic rid' r hr hdel (by simpa using hkind)] at hn
      cases hn
    obtain ⟨-, y, hy, hyk, -, hyn⟩ := ha.live rid' r hr hdel hentity
    obtain rfl := ha.ptr y hy x hxa (Option.some.inj (hyn.symm.trans hn))
    exact h rid' r hr (hyk.symm.trans htopic)
  intro e he
  refine ⟨fun htopic => absurd htopic (hno he), fun rid' t ht htopic => ?_⟩
  exact absurd htopic (hno ht)

instance (kind : ResourceKind) : Decidable kind.UsesTopic :=
  inferInstanceAs (Decidable (_ ∨ _))

/-- The records and the entities of a given state agree when they do one by one. -/
theorem Registered.of_entries {a : Agent} (hnodup : a.entities.Nodup)
    (hentities : ∀ x ∈ a.entities, x.kind.isEntity = true ∧ ∀ y ∈ a.entities,
      (x.ptr = y.ptr → x = y) ∧ (x.kind = y.kind → x.name = y.name → x = y) ∧
      (x.kind.UsesTopic → y.ptr = x.topic → y.kind = .topic))
    (hrecords : ∀ m ∈ a.resources.entries, m.1 ≠ .none ∧ (m.2.id = m.1 ∨ m.2.id = .none) ∧
      (m.2.nativeDeleted = false → m.2.kind.isEntity = true → m.2.id = m.1 ∧
        ∃ x ∈ a.entities, x.kind = m.2.kind ∧ x.name = m.1 ∧ m.2.native = some x.ptr) ∧
      (m.2.nativeDeleted = false → m.2.kind.isEntity = false → m.2.native = none) ∧
      (m.2.nativeDeleted = true → ∀ x ∈ a.entities, m.2.native ≠ some x.ptr)) :
    Registered a := by
  have hall : ∀ rid r, a.resources.lookup rid = some r → _ :=
    fun rid r hr => hrecords ⟨rid, r⟩ (AList.mem_lookup_iff.1 hr)
  refine ⟨⟨fun rid r hr => (hall rid r hr).1, fun rid r hr => (hall rid r hr).2.1⟩, hnodup,
    fun x hx y hy => ((hentities x hx).2 y hy).1, fun x hx y hy => ((hentities x hx).2 y hy).2.1,
    fun x hx => (hentities x hx).1, fun x hx huses t ht => ((hentities x hx).2 t ht).2.2 huses,
    fun rid r hr => (hall rid r hr).2.2.1, fun rid r hr => (hall rid r hr).2.2.2.1,
    fun rid r ptr hr hdel hn x hx heq => ?_⟩
  rw [← heq] at hn
  exact (hall rid r hr).2.2.2.2 hdel x hx hn

/-- A participant with a topic and a subscriber, and a reader of the topic. -/
def topicReaderRun : List (Operation × Env) :=
  [(.openSession 0 ⟨1, 1⟩ 0 none, .obliging ⟨true, [], []⟩),
    (.createResource ⟨1, 1⟩ ⟨1, .domainParticipant, .xml "", 0, false, false⟩,
      .obliging (.one ⟨1, .domainParticipant, .guid 1, 0, 0⟩)),
    (.createResource ⟨1, 1⟩ ⟨2, .topic, .xml "", 1, false, false⟩,
      .obliging (.one ⟨3, .topic, .guid 3, 1, 0⟩)),
    (.createResource ⟨1, 1⟩ ⟨3, .subscriber, .xml "", 1, false, false⟩,
      .obliging (.one ⟨2, .subscriber, .guid 2, 1, 0⟩)),
    (.createResource ⟨1, 1⟩ ⟨4, .dataReader, .xml "", 3, false, false⟩,
      .obliging (.one ⟨4, .dataReader, .guid 4, 2, 3⟩))]

theorem registered_topicReaderRun :
    Registered ((Agent.started false .firstCached).after topicReaderRun) :=
  .of_entries (by decide) (by decide) (by decide)

/-- A participant with a subscriber and a reader, whose topic is loaded together with it. -/
def loadedReaderRun : List (Operation × Env) :=
  [(.openSession 0 ⟨1, 1⟩ 0 none, .obliging ⟨true, [], []⟩),
    (.createResource ⟨1, 1⟩ ⟨1, .domainParticipant, .xml "", 0, false, false⟩,
      .obliging (.one ⟨1, .domainParticipant, .guid 1, 0, 0⟩)),
    (.createResource ⟨1, 1⟩ ⟨3, .subscriber, .xml "", 1, false, false⟩,
      .obliging (.one ⟨2, .subscriber, .guid 2, 1, 0⟩)),
    (.createResource ⟨1, 1⟩ ⟨4, .dataReader, .xml "", 3, false, false⟩,
      .obliging ⟨true, [⟨3, .topic, .guid 3, 1, 0⟩, ⟨4, .dataReader, .guid 4, 2, 3⟩],
        [(.dataReader, .guid 4)]⟩)]

theorem registered_loadedReaderRun :
    Registered ((Agent.started false .firstCached).after loadedReaderRun) :=
  .of_entries (by decide) (by decide) (by decide)

/-- Deleting the participant marks the records of the subscriber and the reader. -/
theorem reflects_loadedReaderRun :
    Reflects ((Agent.started false .firstCached).after loadedReaderRun) (.guid 1)
      (deleteNativeResourceEA (.obliging ⟨true, [], []⟩) (.guid 1)
        ((Agent.started false .firstCached).after loadedReaderRun)).2 := by
  refine ((deleteNativeResourceEA_reflects_iff registered_loadedReaderRun
    (eq_of_fst_eq_some (by decide))).2 (.of_no_topic registered_loadedReaderRun ?_)).1
  intro rid r hr
  have hkinds : ∀ m ∈ ((Agent.started false .firstCached).after loadedReaderRun).resources.entries,
      m.2.kind ≠ .topic := by decide
  exact hkinds ⟨rid, r⟩ (AList.mem_lookup_iff.1 hr)

/-- Deleting the reader deletes its topic, and leaves the record of the topic as it was. -/
theorem not_reflects_of_topic : ¬ ∀ (env : Env) (a b : Agent) (rid : ResourceId), Registered a →
    deleteNativeResourceEA env rid a = (some (), b) → Reflects a rid b := by
  intro h
  let a := (Agent.started false .firstCached).after topicReaderRun
  let env : Env := .obliging ⟨true, [], []⟩
  have hreflects := h env a (deleteNativeResourceEA env (.guid 4) a).2 (.guid 4)
    registered_topicReaderRun (eq_of_fst_eq_some (by decide))
  obtain ⟨r, hr, hn, hdel⟩ : ∃ r, (deleteNativeResourceEA env (.guid 4) a).2.resources.lookup
      (.guid 3) = some r ∧ r.native = some 3 ∧ r.nativeDeleted = false :=
    ⟨⟨.topic, .guid 3, some 3, .xml "", 1, none, false, false⟩, by decide, rfl, rfl⟩
  have hgone := (hreflects.gone (.guid 3) r 3 hr hn).2 (by decide)
  rw [hdel] at hgone
  cases hgone

end NanoAgent
