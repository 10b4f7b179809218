import NanoAgent.DdsAgent.AttachPass
import NanoAgent.DdsAgent.DeadEntities
import NanoAgent.DdsAgent.Detachment

/-!
# Dead entities along runs

Deletion and the clean-up handlers go through many records. They are safe when the
records they meet have their states (`Resource.Equipped`) and when no read is left
on a record that was natively deleted. The run condition `UsesLiveStates` says this
of each step, and `faults_of_reached` draws the conclusion.
-/

namespace NanoAgent

open Prog

namespace Resource

/-- The record of an entity that has been set up has its native entity. -/
def WellRecorded (r : Resource) : Prop :=
  r.kind.isEntity = true → r.id ≠ .none ∨ r.createRepr ≠ .unknown → r.native.isSome = true

/-- The record of a reader or writer has its state, unless it was natively deleted. -/
def Equipped (r : Resource) : Prop :=
  r.nativeDeleted = false → r.kind = .dataReader ∨ r.kind = .dataWriter →
    r.userData.isSome = true

theorem equipped_of_deleted {r : Resource} (h : r.nativeDeleted = true) : r.Equipped := by
  intro hno
  rw [h] at hno
  cases hno

theorem wellRecorded_finalize (r : Resource) (u : Option ℕ) :
    ({ r.finalize with userData := u } : Resource).WellRecorded := by
  intro hk
  cases hk

end Resource

/-- No fault so far, and every record meets `P`. -/
structure Clean (P : Resource → Prop) (a : Agent) : Prop where
  faults : a.faults = []
  records : ∀ rid r, a.resources.lookup rid = some r → P r
  keyed : a.resources.lookup .none = none

namespace Clean

variable {P Q : Resource → Prop} {a b : Agent}

theorem mono (h : Clean P a) (hPQ : ∀ r, P r → Q r) : Clean Q a :=
  ⟨h.faults, fun rid r hr => hPQ r (h.records rid r hr), h.keyed⟩

theorem of_same (h : Clean P a) (hf : b.faults = a.faults) (hr : b.resources = a.resources) :
    Clean P b :=
  ⟨hf.trans h.faults, fun rid r hrid => h.records rid r (hr ▸ hrid), hr ▸ h.keyed⟩

theorem of_calm (h : Clean P a) (hc : Calm a b) : Clean P b :=
  h.of_same (hc.faults.trans h.faults.symm) hc.frame.resources

theorem calm (h : Clean P a) : Calm a a := ⟨h.faults, .rfl' a⟩

theorem updateResource (h : Clean P a) (rid : ResourceId) {f : Resource → Resource}
    (hf : ∀ r, a.resources.lookup rid = some r → P (f r)) : Clean P (a.updateResource rid f) := by
  refine ⟨h.faults, fun rid' r' hr' => ?_, ?_⟩
  · rw [Agent.lookup_updateResource] at hr'
    split at hr'
    · rename_i heq
      subst heq
      obtain ⟨r, hr, rfl⟩ := Option.map_eq_some_iff.1 hr'
      exact hf r hr
    · exact h.records rid' r' hr'
  · rw [Agent.lookup_updateResource, h.keyed]
    split <;> rfl

theorem erase (h : Clean P a) (rid : ResourceId) :
    Clean P { a with resources := a.resources.erase rid } := by
  refine ⟨h.faults, fun rid' r' hr' => ?_, ?_⟩
  · by_cases heq : rid' = rid
    · subst heq
      rw [AList.lookup_erase] at hr'
      cases hr'
    · rw [AList.lookup_erase_ne heq] at hr'
      exact h.records rid' r' hr'
  · by_cases heq : ResourceId.none = rid
    · subst heq
      exact AList.lookup_erase _ _
    · rw [AList.lookup_erase_ne heq]
      exact h.keyed

end Clean

namespace AgentM

/-- Records whose entity and state are there as long as they should be. -/
def Whole (r : Resource) : Prop := r.WellRecorded ∧ r.Equipped

section NativeDeletion

theorem access_clean {P : Resource → Prop} (rid : ResourceId) {valid : Bool}
    (h : valid = true) : Preserves (Clean P) (access rid valid) := by
  intro a ha
  simpa [access, h] using ha

theorem deleteTopicEntity_clean {P : Resource → Prop} (env : Env) (ptr : ℕ) :
    Preserves (Clean P) (deleteTopicEntity env ptr) :=
  .onlyIf fun _ _ ha => ha.of_same rfl rfl

theorem deleteNativeEntityEA_clean {P : Resource → Prop} (env : Env)
    {contained : ResourceKind → ℕ → AgentM Unit}
    (hc : ∀ k ptr, Preserves (Clean P) (contained k ptr)) (kind : ResourceKind) (e : Entity) :
    Preserves (Clean P) (deleteNativeEntityEA env contained kind e) := by
  refine .bind (.forEach fun k _ => .read fun a => .bind (.ensure _) fun _ => ?_) fun _ => ?_
  · exact .forEach fun c _ => hc k c.ptr
  refine .ite (fun _ => deleteTopicEntity_clean env _) fun _ => .bind (.ensure _) fun _ => ?_
  refine .bind (fun _ ha => ha.of_same rfl rfl) fun _ => ?_
  exact .onlyIf fun _ => deleteTopicEntity_clean env _

theorem releaseUserDataEA_clean {P : Resource → Prop} (env : Env) (rid : ResourceId) {r : Resource}
    (h : r.kind = .dataReader ∨ r.kind = .dataWriter → r.userData.isSome = true) :
    Preserves (Clean P) (releaseUserDataEA env rid r) := by
  refine .ite (fun hk => ?_) fun _ => .ite (fun hk => ?_) fun _ => .pure _
  · refine .bind (access_clean rid (h (.inl hk))) fun _ => .bind (.require _) fun reader => ?_
    refine .read fun a => .bind (.forEach fun q _ _ ha => ha.of_same rfl rfl) fun _ => ?_
    exact .bind (fun _ ha => ha.of_same rfl rfl) fun _ _ ha => ha.of_same rfl rfl
  · refine .bind (access_clean rid (h (.inr hk))) fun _ => .bind (.require _) fun writer => ?_
    exact fun _ ha => ha.of_same rfl rfl

theorem deleteNativeResourceWith_clean (env : Env) {contained : ResourceKind → ℕ → AgentM Unit}
    (hc : ∀ k ptr, Preserves (Clean Whole) (contained k ptr)) (rid : ResourceId) :
    Preserves (Clean Whole) (deleteNativeResourceWith env contained rid) := by
  have hfinal : ∀ u, Preserves (Clean Whole) (modify fun a : Agent =>
      a.updateResource rid fun r => { r.finalize with userData := u }) := by
    intro u a ha
    refine ha.updateResource rid fun r hr => ⟨r.wellRecorded_finalize u, ?_⟩
    rintro - (hk | hk) <;> cases hk
  refine lookupThen fun a ha => ?_
  cases hr : a.resources.lookup rid with
  | none => exact .pure _
  | some r =>
      refine .ite (fun _ => .pure _) fun hdel => ?_
      have hdel : r.nativeDeleted = false := by simpa using hdel
      refine .bind (fun b hb => hb.updateResource rid fun r' hr' => ?_) fun _ => ?_
      · exact ⟨(hb.records rid r' hr').1, Resource.equipped_of_deleted rfl⟩
      refine .ite (fun _ => ?_) fun _ => .bind (.ensure _) fun _ => .bind (.ensure _) fun _ => ?_
      · intro b hb
        refine hb.updateResource rid fun r' hr' => ⟨r'.wellRecorded_finalize _, ?_⟩
        rintro - (hk | hk) <;> cases hk
      refine .read fun b => .bind (releaseUserDataEA_clean env rid fun hk => ?_) fun _ => ?_
      · exact (ha.records rid r hr).2 hdel hk
      refine .bind (hfinal _) fun _ => .bind (.ensure _) fun _ => ?_
      cases b.lookupEntity r.kind r.id with
      | none => exact .pure _
      | some e => exact deleteNativeEntityEA_clean env hc _ _

theorem findContainedResourceAndDeleteEA_clean (env : Env) (depth : ℕ) (kind : ResourceKind)
    (ptr : ℕ) :
    Preserves (Clean Whole) (findContainedResourceAndDeleteEA env depth kind ptr) := by
  induction depth generalizing kind ptr with
  | zero => exact .pure _
  | succ depth ih =>
      refine .read fun a => .bind (.ensure _) fun _ => ?_
      cases a.findResourceByNative kind ptr with
      | some c =>
          refine .bind (.ensure _) fun _ => .bind (.ensure _) fun _ => ?_
          exact deleteNativeResourceWith_clean env ih _
      | none =>
          dsimp only
          cases a.entities.find? _ with
          | some x => exact deleteNativeEntityEA_clean env ih _ _
          | none => exact .pure _

theorem deleteNativeResourceEA_clean (env : Env) (rid : ResourceId) :
    Preserves (Clean Whole) (deleteNativeResourceEA env rid) :=
  deleteNativeResourceWith_clean env (findContainedResourceAndDeleteEA_clean env 2) rid

end NativeDeletion

section Detach

/-- No attached resource has a read, or no read is left on a dead record and none is
about to be: only records that were natively deleted are waiting for their deletion. -/
def Cautious (a : Agent) : Prop :=
  (∀ n, (a.attached n).readReq = none) ∨
    (∀ n, ¬ Orphan a n) ∧
      ∀ rid r, a.resources.lookup rid = some r → r.pendingDelete = true → r.nativeDeleted = true

theorem usable_of_not_orphan {a : Agent} {n : ℕ} (h : ¬ Orphan a n)
    (hread : (a.attached n).readReq.isSome = true) {r : Resource}
    (hr : a.resources.lookup (a.attached n).resource = some r) : r.Usable := by
  by_contra hno
  exact h ⟨hread, r, hr, hno⟩

theorem Cautious.not_orphan {a : Agent} (h : Cautious a) (n : ℕ) : ¬ Orphan a n := by
  rcases h with hidle | hsettled
  · rintro ⟨hread, -⟩
    rw [hidle n] at hread
    cases hread
  · exact hsettled.1 n

theorem Cautious.of_endsReads {a b : Agent} (h : Cautious a) (hf : ReadFrame a b)
    (he : EndsReads a b) : Cautious b := by
  rcases h with hidle | ⟨horphan, hpending⟩
  · refine .inl fun n => ?_
    rcases he.readReq n with hn | hn
    · rw [hn]
      exact hidle n
    · exact hn
  · refine .inr ⟨fun n => ?_, fun rid r hr => hpending rid r (hf.resources ▸ hr)⟩
    rintro ⟨hread, r, hr, hno⟩
    rw [hf.resources, hf.resource_eq] at hr
    rcases he.readReq n with hn | hn
    · rw [hn] at hread
      exact horphan n ⟨hread, r, hr, hno⟩
    · rw [hn] at hread
      cases hread

/-- A change of the records that revives none and kills none. -/
theorem Cautious.of_records {a b : Agent} (h : Cautious a) (hp : b.poolResources = a.poolResources)
    (hr : ∀ rid r', b.resources.lookup rid = some r' → ∃ r, a.resources.lookup rid = some r ∧
      r'.nativeDeleted = r.nativeDeleted ∧ r'.userData = r.userData ∧
      (r'.pendingDelete = true → r.pendingDelete = true ∨ r.nativeDeleted = true)) :
        Cautious b := by
  have hatt : ∀ n, b.attached n = a.attached n := by
    intro n
    rw [Agent.attached, hp, Agent.attached]
  rcases h with hidle | ⟨horphan, hpending⟩
  · refine .inl fun n => ?_
    rw [hatt]
    exact hidle n
  · refine .inr ⟨fun n => ?_, fun rid r' hr' hpend => ?_⟩
    · rintro ⟨hread, r', hr', hno⟩
      rw [hatt] at hread hr'
      obtain ⟨r, hlookup, hdel, huser, -⟩ := hr _ _ hr'
      unfold Resource.Usable at hno
      rw [hdel, huser] at hno
      exact horphan n ⟨hread, r, hlookup, hno⟩
    · obtain ⟨r, hlookup, hdel, -, hpend'⟩ := hr _ _ hr'
      rw [hdel]
      rcases hpend' hpend with h | h
      · exact hpending rid r hlookup h
      · exact h

theorem Cautious.unlink {a : Agent} (h : Cautious a) (hk : a.resources.lookup .none = none)
    (n : ℕ) : Cautious (a.unlink n) := by
  have hread : ∀ m, ((a.unlink n).attached m).readReq = (a.attached m).readReq := by
    intro m
    rw [Agent.attached_unlink]
    split <;> rfl
  rcases h with hidle | ⟨horphan, hpending⟩
  · refine .inl fun m => ?_
    rw [hread]
    exact hidle m
  · refine .inr ⟨fun m => ?_, hpending⟩
    rintro ⟨hm, r, hr, hno⟩
    rw [hread] at hm
    change a.resources.lookup _ = some r at hr
    rw [Agent.attached_unlink] at hr
    by_cases hmn : m = n
    · rw [if_pos hmn, hk] at hr
      cases hr
    · rw [if_neg hmn] at hr
      exact horphan m ⟨hm, r, hr, hno⟩

theorem Clean.countOut {a : Agent} (ha : Clean Whole a) (rid : ResourceId) (del : Bool) :
    Clean Whole (a.countOut rid del) := by
  refine Clean.updateResource ha rid fun r hr => ?_
  have hwhole := ha.records rid r hr
  exact hwhole

theorem countOutEA_clean {env : Env} {key : ClientSessionKey} {n : ℕ} {del : Bool} {a : Agent}
    (ha : Clean Whole a) (h : (a.attached n).kind = .dataReader → ¬ Orphan a n) :
    Clean Whole (countOutEA env key n del a).2 := by
  unfold countOutEA
  rw [read_bind_apply]
  refine keeps_ensure ha fun _ => keeps_lookupResource ha fun _ => keeps_require ha fun r hr => ?_
  refine keeps_ensure ha fun _ => ?_
  have hcancel : Clean Whole (onlyIf (decide ((a.attached n).kind = .dataReader) &&
      (a.attached n).readReq.isSome) (cancelReadEA env n (a.attached n).resource) a).2 := by
    refine ha.of_calm (Within.onlyIf (R := fun b c => Calm a b → Calm a c)
      (fun hc => cancelReadEA_calm env n _ fun r' hr' => ?_) a ha.calm)
    obtain ⟨hk, hread⟩ := Bool.and_eq_true_iff.1 hc
    exact usable_of_not_orphan (h (by simpa using hk)) hread hr'
  refine keeps_bind (fun _ => hcancel) fun _ _ => ?_
  refine Within.bind (R := fun b c => Clean Whole b → Clean Whole c)
    (fun b hb => Clean.countOut hb _ _) (fun _ => ?_) _ hcancel
  refine .bind (.ensure _) fun _ => .bind (.onlyIf fun _ => ?_) fun _ => .pure _
  exact fun b hb => hb.of_same rfl rfl

theorem detachResourceEA_clean {env : Env} {key : ClientSessionKey} {n : ℕ} {del copyOut : Bool}
    {a : Agent} (ha : Clean Whole a) (h : (a.attached n).kind = .dataReader → ¬ Orphan a n) :
    Clean Whole (detachResourceEA env key n del copyOut a).2 := by
  unfold detachResourceEA
  rw [read_bind_apply]
  have hout : Clean Whole (countOutEA env key n del a).2 := countOutEA_clean ha h
  refine keeps_bind (fun _ => hout) fun flag _ => ?_
  refine Within.bind (R := fun b c => Clean Whole b → Clean Whole c) (.onlyIf fun _ => ?_)
    (fun _ => ?_) _ hout
  · refine .bind (deleteNativeResourceEA_clean env _) fun _ => .bind (.ensure _) fun _ => ?_
    exact fun b hb => hb.erase _
  · refine .bind (.onlyIf fun _ => .ensure _) fun _ => .bind ?_ fun _ => .ensure _
    exact fun b hb => hb.of_same rfl rfl

theorem Cautious.countOut {a : Agent} (h : Cautious a) (rid : ResourceId) {del : Bool}
    (hdel : del = true → (∀ m, (a.attached m).readReq = none) ∨
      ∀ r, a.resources.lookup rid = some r → r.nativeDeleted = true) :
    Cautious (a.countOut rid del) := by
  by_cases hidle : ∀ m, (a.attached m).readReq = none
  · exact .inl hidle
  refine h.of_records rfl fun rid' r' hr' => ?_
  change (a.updateResource rid _).resources.lookup rid' = some r' at hr'
  rw [Agent.lookup_updateResource] at hr'
  split at hr'
  · rename_i heq
    subst heq
    obtain ⟨r, hr, rfl⟩ := Option.map_eq_some_iff.1 hr'
    refine ⟨r, hr, rfl, rfl, fun hpend => ?_⟩
    rcases Bool.or_eq_true_iff.1 hpend with hp | hd
    · exact .inl hp
    · exact .inr ((hdel hd).resolve_left hidle r hr)
  · exact ⟨r', hr', rfl, rfl, .inl⟩

theorem Cautious.erase {a : Agent} (h : Cautious a) (rid : ResourceId) :
    Cautious { a with resources := a.resources.erase rid } := by
  refine h.of_records rfl fun rid' r' hr' => ?_
  by_cases heq : rid' = rid
  · subst heq
    rw [AList.lookup_erase] at hr'
    cases hr'
  · rw [AList.lookup_erase_ne heq] at hr'
    exact ⟨r', hr', rfl, rfl, .inl⟩

theorem deleteNativeResourceEA_cautious {env : Env} {rid : ResourceId} {a : Agent}
    (h : Cautious a) (hsafe : (∀ n, (a.attached n).readReq = none) ∨
      ∃ r, a.resources.lookup rid = some r ∧ r.nativeDeleted = true) :
    Cautious (deleteNativeResourceEA env rid a).2 := by
  rcases hsafe with hidle | ⟨r, hr, hdel⟩
  · refine .inl fun n => ?_
    rw [Agent.attached, (deleteNativeResourceEA_frame env rid a).poolResources]
    exact hidle n
  · rw [deleteNativeResourceEA_deleted hr hdel]
    exact h

/-- What detaching deletes has no read on it, or is dead already. -/
theorem countOutEA_safe {env : Env} {key : ClientSessionKey} {n : ℕ} {del : Bool} {a : Agent}
    (h : Cautious a)
    (hdel : del = true → (∀ m, (a.attached m).readReq = none) ∨
      ∀ r, a.resources.lookup (a.attached n).resource = some r → r.nativeDeleted = true)
    (hflag : (countOutEA env key n del a).1 = some true) :
    (∀ m, ((countOutEA env key n del a).2.attached m).readReq = none) ∨
      ∃ r, (countOutEA env key n del a).2.resources.lookup (a.attached n).resource = some r ∧
        r.nativeDeleted = true := by
  have hexit := countOutEA_exits env key n del a
  rw [hflag] at hexit
  generalize (countOutEA env key n del a).2 = b at hexit
  cases hexit with
  | @counted _ c r _ hr _ hc hb hres =>
      by_cases hidle : ∀ m, (a.attached m).readReq = none
      · refine .inl fun m => ?_
        have hcidle : (c.attached m).readReq = none := by
          rcases hc.2.readReq m with hm | hm
          · rw [hm]
            exact hidle m
          · exact hm
        rcases hb.2.readReq m with hm | hm
        · rw [hm]
          exact hcidle
        · exact hm
      · refine .inr ⟨{ r with attachedCount := r.attachedCount - 1,
                              pendingDelete := r.pendingDelete || del }, ?_, ?_⟩
        · rw [hb.1.resources]
          change (c.updateResource _ _).resources.lookup _ = _
          rw [Agent.lookup_updateResource, if_pos rfl, hc.1.resources, hr]
          rfl
        · have hwanted : (r.pendingDelete || del) = true := by
            have htrue := hres true rfl
            exact (Bool.and_eq_true_iff.1 htrue.symm).1
          rcases Bool.or_eq_true_iff.1 hwanted with hp | hd
          · exact (h.resolve_left hidle).2 _ r hr hp
          · exact (hdel hd).resolve_left hidle r hr

/-- Detaching deletes nothing that a read is still on. -/
theorem detachResourceEA_cautious {env : Env} {key : ClientSessionKey} {n : ℕ} {del copyOut : Bool}
    {a : Agent} (ha : Clean Whole a) (h : Cautious a)
    (hdel : del = true → (∀ m, (a.attached m).readReq = none) ∨
      ∀ r, a.resources.lookup (a.attached n).resource = some r → r.nativeDeleted = true) :
    Cautious (detachResourceEA env key n del copyOut a).2 := by
  have hclean : Clean Whole (countOutEA env key n del a).2 := 
    countOutEA_clean ha fun _ => h.not_orphan n
  have hexit := countOutEA_exits env key n del a
  have hkept : Cautious (countOutEA env key n del a).2 := by
    generalize (countOutEA env key n del a).2 = b, (countOutEA env key n del a).1 = res at hexit
    cases hexit with
    | failed hb => exact h.of_endsReads hb.1 hb.2
    | counted hr _ hc hb _ =>
        refine ((h.of_endsReads hc.1 hc.2).countOut _ fun hd => ?_).of_endsReads hb.1 hb.2
        rcases hdel hd with hidle | hdead
        · refine .inl fun m => ?_
          rcases hc.2.readReq m with hm | hm
          · rw [hm]
            exact hidle m
          · exact hm
        · exact .inr fun r' hr' => hdead r' (hc.1.resources ▸ hr')
  unfold detachResourceEA
  rw [read_bind_apply]
  refine keeps_bind (fun _ => hkept) fun flag hflag => ?_
  have hdeleted : (fun c => Clean Whole c ∧ Cautious c) (onlyIf flag (do
      deleteNativeResourceEA env (a.attached n).resource
      ensure (env.ok (.deleteResource (a.attached n).resource))
      modify fun b : Agent => { b with resources := b.resources.erase (a.attached n).resource })
      (countOutEA env key n del a).2).2 := by
    cases flag with
    | false => exact ⟨hclean, hkept⟩
    | true =>
        have hb := (deleteNativeResourceEA_cautious hkept (countOutEA_safe h hdel hflag) :
          Cautious (deleteNativeResourceEA env (a.attached n).resource _).2)
        have hbclean := deleteNativeResourceEA_clean env (a.attached n).resource _ hclean
        refine keeps_bind (I := fun c => Clean Whole c ∧ Cautious c) (fun _ => ⟨hbclean, hb⟩)
          fun _ _ => ?_
        refine keeps_ensure (I := fun c => Clean Whole c ∧ Cautious c) ⟨hbclean, hb⟩ fun _ => ?_
        exact ⟨hbclean.erase _, hb.erase _⟩
  refine keeps_bind (fun _ => hdeleted.2) fun _ _ => ?_
  rw [onlyIf_ensure]
  refine keeps_ensure hdeleted.2 fun _ => ?_
  exact hdeleted.2.unlink hdeleted.1.keyed n

end Detach

section Attach

theorem enableResourceEA_same {env : Env} {rid : ResourceId} {a : Agent}
    (h : ∀ r, a.resources.lookup rid = some r → r.kind.isEntity = true →
      r.nativeDeleted = false ∧ r.native.isSome = true) : (enableResourceEA env rid a).2 = a := by
  unfold enableResourceEA
  rw [read_bind_apply]
  refine keeps_require (I := fun b => b = a) rfl fun r hr => ?_
  cases hk : r.kind.isEntity with
  | false => rfl
  | true =>
      obtain ⟨hdel, hnative⟩ := h r hr hk
      rw [onlyIf_true, access, modify_bind_apply]
      simp only [hdel, hnative, Bool.not_false, Bool.and_self, if_true]
      exact keeps_require (I := fun b => b = a) rfl fun _ _ => rfl

theorem Clean.link {a : Agent} (ha : Clean Whole a) (key : ClientSessionKey) (id : ℕ)
    (rid : ResourceId) (r : Resource) : Clean Whole (a.link key id rid r) := by
  have h : Clean Whole (a.updateResource rid fun r =>
      { r with attachedCount := r.attachedCount + 1 }) := by
    refine Clean.updateResource ha rid fun r hr => ?_
    have hwhole := ha.records rid r hr
    exact hwhole
  exact h.of_same rfl rfl

theorem readReq_take {a : Agent} {x : AttachedResource} (hx : x.readReq = none) (n : ℕ) :
    ((a.poolResources.take x).content n).readReq = none ∨
      (a.poolResources.take x).content n = a.attached n := by
  by_cases hn : n = a.poolResources.next
  · subst hn
    rw [BufferPool.content_take_self]
    exact .inl hx
  · exact .inr (BufferPool.content_take_of_ne _ _ hn)

/-- A buffer taken from the pool has no read. -/
theorem Cautious.take {a b : Agent} (h : Cautious a) {x : AttachedResource} (hx : x.readReq = none)
    (hp : b.poolResources = a.poolResources.take x)
    (hr : ∀ rid r', b.resources.lookup rid = some r' → ∃ r, a.resources.lookup rid = some r ∧
      r'.nativeDeleted = r.nativeDeleted ∧ r'.userData = r.userData ∧
      r'.pendingDelete = r.pendingDelete) : Cautious b := by
  have hatt : ∀ n, (b.attached n).readReq = none ∨ b.attached n = a.attached n := by
    intro n
    rw [Agent.attached, hp]
    exact readReq_take hx n
  rcases h with hidle | ⟨horphan, hpending⟩
  · refine .inl fun n => ?_
    rcases hatt n with hn | hn
    · exact hn
    · rw [hn]
      exact hidle n
  · refine .inr ⟨fun n => ?_, fun rid r' hr' hpend => ?_⟩
    · rintro ⟨hread, r', hr', hno⟩
      rcases hatt n with hn | hn
      · rw [hn] at hread
        cases hread
      · rw [hn] at hread hr'
        obtain ⟨r, hlookup, hdel, huser, -⟩ := hr _ _ hr'
        unfold Resource.Usable at hno
        rw [hdel, huser] at hno
        exact horphan n ⟨hread, r, hlookup, hno⟩
    · obtain ⟨r, hlookup, hdel, -, hpend'⟩ := hr _ _ hr'
      rw [hdel]
      exact hpending rid r hlookup (hpend' ▸ hpend)

/-- A record that was not natively deleted can be enabled. -/
theorem enableResourceEA_link {env : Env} {key : ClientSessionKey} {id : ℕ} {rid : ResourceId}
    {r : Resource} {a : Agent} (ha : Clean Whole a) (hr : a.resources.lookup rid = some r)
    (hid : r.id ≠ .none) (hdel : r.nativeDeleted = false) :
    (enableResourceEA env rid (a.link key id rid r)).2 = a.link key id rid r := by
  refine enableResourceEA_same fun r' hr' hk => ?_
  obtain ⟨r₀, hr₀, rfl⟩ := Agent.exists_of_lookup_link hr'
  rw [hr] at hr₀
  obtain rfl := Option.some.inj hr₀
  exact ⟨hdel, (ha.records rid r hr).1 hk (.inl hid)⟩

theorem attachClosed_clean (env : Env) : AttachClosed env (Clean Whole) where
  leak _ h := h.of_same rfl rfl
  link key id rid r h := Clean.link h key id rid r
  enable key id rid r h hr hid hdel := by
    rw [enableResourceEA_link h hr hid hdel]
    exact Clean.link h key id rid r
  accept _ _ _ h := h.of_same rfl rfl
  refuse key n _ _ h hread := by
    refine detachResourceEA_clean h fun _ => ?_
    rintro ⟨hsome, -⟩
    rw [hread] at hsome
    cases hsome

theorem Cautious.link {a : Agent} (h : Cautious a) (key : ClientSessionKey) (id : ℕ)
    (rid : ResourceId) (r : Resource) : Cautious (a.link key id rid r) := by
  refine h.take rfl rfl fun rid' r' hr' => ?_
  obtain ⟨r₀, hr₀, rfl⟩ := Agent.exists_of_lookup_link hr'
  exact ⟨r₀, hr₀, rfl, rfl, rfl⟩

theorem attachClosed_cautious (env : Env) :
    AttachClosed env fun a => Clean Whole a ∧ Cautious a where
  leak hx h := ⟨h.1.of_same rfl rfl, h.2.take hx rfl fun _ r hr => ⟨r, hr, rfl, rfl, rfl⟩⟩
  link key id rid r h := ⟨Clean.link h.1 key id rid r, h.2.link key id rid r⟩
  enable key id rid r h hr hid hdel := by
    rw [enableResourceEA_link h.1 hr hid hdel]
    exact ⟨Clean.link h.1 key id rid r, h.2.link key id rid r⟩
  accept n u c h := by
    refine ⟨h.1.of_same rfl rfl, h.2.of_endsReads ?_ ⟨fun m => .inl ?_, fun _ => rfl⟩⟩
    · apply ReadFrame.notify
      apply ReadFrame.updateAttached (.rfl' _)
      intro x
      rfl
    · rw [Agent.attached_notify, Agent.attached_updateAttached]
      split <;> rfl
  refuse key n _ _ h _ :=
    ⟨detachResourceEA_clean h.1 fun _ => h.2.not_orphan n,
      detachResourceEA_cautious h.1 h.2 (by simp)⟩

end Attach

section Create

/-- No fault so far, and the records are set up except possibly that of `rid`. -/
structure CleanBut (rid : ResourceId) (a : Agent) : Prop extends Clean Resource.WellRecorded a where
  others : ∀ rid' r, rid' ≠ rid → a.resources.lookup rid' = some r → r.Equipped

namespace CleanBut

variable {rid : ResourceId} {a : Agent}

theorem whole (h : CleanBut rid a)
    (hrid : ∀ r, a.resources.lookup rid = some r → r.Equipped) : Clean Whole a := by
  refine ⟨h.faults, fun rid' r hr => ⟨h.records rid' r hr, ?_⟩, h.keyed⟩
  by_cases heq : rid' = rid
  · subst heq
    exact hrid r hr
  · exact h.others rid' r heq hr

theorem updateResource (h : CleanBut rid a) {f : Resource → Resource}
    (hf : ∀ r, a.resources.lookup rid = some r → (f r).WellRecorded) :
    CleanBut rid (a.updateResource rid f) := by
  refine ⟨h.toClean.updateResource rid hf, fun rid' r hne hr => ?_⟩
  rw [Agent.lookup_updateResource, if_neg hne] at hr
  exact h.others rid' r hne hr

theorem of_same (h : CleanBut rid a) {b : Agent} (hf : b.faults = a.faults)
    (hr : b.resources = a.resources) : CleanBut rid b :=
  ⟨h.toClean.of_same hf hr, fun rid' r hne hlookup => h.others rid' r hne (hr ▸ hlookup)⟩

end CleanBut

theorem Clean.but {a : Agent} (h : Clean Whole a) (rid : ResourceId) : CleanBut rid a :=
  ⟨h.mono fun _ hr => hr.1, fun rid' r _ hr => (h.records rid' r hr).2⟩

/-- How setting up the record of `rid` ends: only a failure leaves it incomplete. -/
def SetUpExit (rid : ResourceId) (res : Option Unit) (b : Agent) : Prop :=
  CleanBut rid b ∧ (res = some () → Clean Whole b)

/-- Once the state of a reader or writer has been created, its record has it. -/
theorem initializeUserDataEA_exits (env : Env) {rid : ResourceId} {kind : ResourceKind} {a : Agent}
    (ha : CleanBut rid a) (hkind : ∀ r, a.resources.lookup rid = some r → r.kind = kind) :
    SetUpExit rid (initializeUserDataEA env rid kind a).1
      (initializeUserDataEA env rid kind a).2 := by
  have hrecord : ∀ {b : Agent} (n : ℕ), CleanBut rid b →
      CleanBut rid (b.updateResource rid fun r => { r with userData := some n }) := by
    intro b n hb
    refine hb.updateResource fun r hr => ?_
    have hwell := hb.records rid r hr
    exact hwell
  have hequipped : ∀ {b : Agent} (n : ℕ), ∀ r, (b.updateResource rid fun r =>
      { r with userData := some n }).resources.lookup rid = some r → r.Equipped := by
    intro b n r hr
    rw [Agent.lookup_updateResource, if_pos rfl] at hr
    obtain ⟨r₀, -, rfl⟩ := Option.map_eq_some_iff.1 hr
    intro _ _
    rfl
  unfold initializeUserDataEA
  rw [read_bind_apply]
  by_cases hreader : kind = .dataReader
  · rw [if_pos hreader]
    refine exits_ensure (K := SetUpExit rid)
      ⟨ha, (by simp)⟩ fun _ => ?_
    rw [modify_bind_apply]
    cases env.ok (.initState kind rid) with
    | false => exact ⟨ha.of_same rfl rfl, (fun h => by cases h)⟩
    | true =>
        have hset := hrecord (b := a.takeReader env.initialCache) a.poolReaders.next
          (ha.of_same rfl rfl)
        cases hqos : env.ok (.dds .getQos a.poolReaders.next) with
        | false =>
            simp only [Bool.not_true, onlyIf_false, bind_apply, pure_apply, modify_apply,
              Bool.not_false, onlyIf_true]
            exact ⟨hset.of_same rfl rfl, (by simp)⟩
        | true =>
            simp only [Bool.not_true, onlyIf_false, bind_apply, pure_apply, modify_apply]
            exact ⟨hset, fun _ => hset.whole (hequipped _)⟩
  · rw [if_neg hreader]
    by_cases hwriter : kind = .dataWriter
    · rw [if_pos hwriter]
      refine exits_ensure (K := SetUpExit rid)
        ⟨ha, (by simp)⟩ fun _ => ?_
      rw [modify_bind_apply]
      cases env.ok (.initState kind rid) with
      | false => exact ⟨ha.of_same rfl rfl, (fun h => by cases h)⟩
      | true =>
          have hset := hrecord (b := a.takeWriter) a.poolWriters.next (ha.of_same rfl rfl)
          simp only [Bool.not_true, onlyIf_false, bind_apply, pure_apply, modify_apply]
          exact ⟨hset, fun _ => hset.whole (hequipped _)⟩
    · rw [if_neg hwriter]
      refine ⟨ha, fun _ => ha.whole fun r hr _ hk => ?_⟩
      rw [hkind r hr] at hk
      rcases hk with hk | hk
      · exact absurd hk hreader
      · exact absurd hk hwriter

theorem initializeRecordEA_exits (env : Env) (rid : ResourceId) (q : CreateRequest) {a : Agent}
    (ha : Clean Whole a) :
    SetUpExit rid (initializeRecordEA env rid q a).1 (initializeRecordEA env rid q a).2 := by
  have hbut : CleanBut rid a := Clean.but ha rid
  have hinit : CleanBut rid (a.updateResource rid fun _ =>
      { Resource.initial with kind := q.kind }) := by
    refine hbut.updateResource fun r _ _ hset => ?_
    rcases hset with h | h <;> exact absurd rfl h
  simp only [initializeRecordEA, onlyIf_ensure]
  refine exits_ensure (K := SetUpExit rid)
    ⟨hbut, (by simp)⟩ fun _ => ?_
  rw [read_bind_apply]
  refine exits_ensure (K := SetUpExit rid)
    ⟨hbut, (by simp)⟩ fun hnative => ?_
  refine exits_ensure (K := SetUpExit rid)
    ⟨hbut, (by simp)⟩ fun _ => ?_
  rw [modify_bind_apply]
  refine exits_ensure (K := SetUpExit rid)
    ⟨hinit, (by simp)⟩ fun _ => ?_
  rw [modify_bind_apply]
  have hkind : ∀ r, (a.updateResource rid fun _ =>
      { Resource.initial with kind := q.kind }).resources.lookup rid = some r →
      r.kind = q.kind := by
    intro r hr
    rw [Agent.lookup_updateResource, if_pos rfl] at hr
    obtain ⟨r₀, -, rfl⟩ := Option.map_eq_some_iff.1 hr
    rfl
  refine initializeUserDataEA_exits env (hinit.updateResource fun r hr hk _ => ?_) fun r hr => ?_
  · change r.kind.isEntity = true at hk
    rw [hkind r hr] at hk
    rw [hk] at hnative
    exact (Bool.and_eq_true_iff.1 hnative).2
  · rw [Agent.lookup_updateResource, if_pos rfl] at hr
    obtain ⟨r₀, hr₀, rfl⟩ := Option.map_eq_some_iff.1 hr
    exact hkind r₀ hr₀

/-- A new record is set up completely, or the creation fails. -/
theorem obtainRecordEA_exits (env : Env) {rid : ResourceId} (q : CreateRequest) {a : Agent}
    (ha : Clean Whole a) (hrid : rid ≠ .none) :
    SetUpExit rid (obtainRecordEA env rid q a).1 (obtainRecordEA env rid q a).2 := by
  unfold obtainRecordEA
  rw [read_bind_apply]
  cases hr : a.resources.lookup rid with
  | some r => exact ⟨Clean.but ha rid, fun _ => ha⟩
  | none =>
      have hins : Clean Whole (a.insertResource rid) := by
        refine ⟨ha.faults, fun rid' r hr' => ?_, ?_⟩
        · by_cases heq : rid' = rid
          · subst heq
            have hlookup : (a.insertResource rid').resources.lookup rid' = some .initial :=
              AList.lookup_insert _
            rw [hlookup] at hr'
            obtain rfl := Option.some.inj hr'
            refine ⟨(fun h => by cases h), fun _ hk => ?_⟩
            rcases hk with hk | hk <;> cases hk
          · have hlookup : (a.insertResource rid).resources.lookup rid' = a.resources.lookup rid' :=
              AList.lookup_insert_ne heq
            rw [hlookup] at hr'
            exact ha.records rid' r hr'
        · exact (AList.lookup_insert_ne hrid.symm).trans ha.keyed
      exact initializeRecordEA_exits env rid q hins

/-- How the insertion of a record ends: the record it returns is set up and alive. -/
structure InsertExit (res : Option (Option ResourceId)) (b : Agent) : Prop where
  well : Clean Resource.WellRecorded b
  whole : ∀ rid, res = some (some rid) → Clean Whole b
  alive : ∀ rid, res = some (some rid) → ∀ r, b.resources.lookup rid = some r →
    r.nativeDeleted = false

theorem Clean.well {a : Agent} (h : Clean Whole a) : Clean Resource.WellRecorded a :=
  h.mono fun _ hr => hr.1

theorem insertResourceRecordEA_exits (env : Env) (q : CreateRequest) {a : Agent}
    (ha : Clean Whole a) :
    InsertExit (insertResourceRecordEA env q a).1 (insertResourceRecordEA env q a).2 := by
  have hfail : ∀ {c : Agent}, Clean Resource.WellRecorded c → InsertExit none c :=
    fun hc => ⟨hc, (by simp), (by simp)⟩
  unfold insertResourceRecordEA
  rw [modify_bind_apply]
  have hb : Clean Whole { a with entities := a.entities ++ env.factory.entities } :=
    ha.of_same rfl rfl
  refine exits_ensure (hfail (Clean.well hb)) fun _ => ?_
  refine exits_require (hfail (Clean.well hb)) fun first _ => ?_
  refine exits_ensure (hfail (Clean.well hb)) fun _ => ?_
  refine exits_ensure (hfail (Clean.well hb)) fun hrid => ?_
  refine exits_ensure (hfail (Clean.well hb)) fun _ => ?_
  have hrid : first.2 ≠ .none := by simpa using hrid
  obtain ⟨hbut, hdone⟩ := obtainRecordEA_exits env q hb hrid
  refine exits_bind (fun _ => hfail hbut.toClean) fun _ hres => ?_
  have hc := hdone hres
  refine exits_ensure (hfail (Clean.well hc)) fun _ => ?_
  rw [modify_bind_apply, read_bind_apply]
  generalize (obtainRecordEA env first.2 q _).2 = c at hc
  have hd : Clean Whole { c with condCleanupResources := true } := hc.of_same rfl rfl
  refine exits_require (hfail (Clean.well hd)) fun r hr => ⟨Clean.well hd, fun _ _ => hd, ?_⟩
  intro rid heq r' hr'
  have heq : (if r.pendingDelete || r.nativeDeleted then none else some first.2) = some rid :=
    Option.some.inj heq
  split at heq
  · cases heq
  · rename_i hflags
    obtain rfl := Option.some.inj heq
    have hsame : some r = some r' := hr.symm.trans hr'
    rw [← Option.some.inj hsame]
    simp only [Bool.or_eq_true, not_or, Bool.not_eq_true] at hflags
    exact hflags.2

/-- A resource that is created again can be enabled again, and its read can be ended. -/
def Reusable (a : Agent) (q : CreateRequest) (n : ℕ) : Prop :=
  ∀ r, a.resources.lookup (a.attached n).resource = some r →
    (q.repr.convertTo r.createRepr).isSome = true →
    r.nativeDeleted = false ∧ ((a.attached n).readReq.isSome = true → r.userData.isSome = true)

theorem createRepr_of_convertTo {fmt repr : ResourceRepresentation}
    (h : (fmt.convertTo repr).isSome = true) : repr ≠ .unknown := by
  rintro rfl
  cases h

/-- How obtaining an attached resource ends: what it returns has no read, and its
record can be enabled. -/
structure ObtainExit (res : Option (ℕ × ResourceId × Bool)) (b : Agent) : Prop where
  well : Clean Resource.WellRecorded b
  whole : ∀ v, res = some v → Clean Whole b
  quiet : ∀ v, res = some v → (b.attached v.1).readReq = none
  enable : ∀ v, res = some v → ∀ r, b.resources.lookup v.2.1 = some r →
    r.kind.isEntity = true → r.nativeDeleted = false ∧ r.native.isSome = true

theorem ObtainExit.failed {b : Agent} (h : Clean Resource.WellRecorded b) : ObtainExit none b :=
  ⟨h, (by simp), (by simp), (by simp)⟩

theorem reuseAttachedEA_calm (env : Env) {q : CreateRequest} {n : ℕ} {a : Agent} (ha : Calm a a)
    (hreuse : Reusable a q n) : Calm a (reuseAttachedEA env n q a).2 := by
  unfold reuseAttachedEA
  rw [read_bind_apply]
  refine keeps_lookupResource ha fun _ => keeps_require ha fun r hr => keeps_ensure ha fun _ => ?_
  refine keeps_require ha fun existing hex => keeps_ensure ha fun _ => keeps_ensure ha fun _ => ?_
  refine Within.bind (R := fun b c => Calm a b → Calm a c) (.onlyIf fun hread => ?_)
    (fun _ => .pure _) a ha
  refine cancelReadEA_calm env n _ fun r' hr' => ?_
  obtain ⟨hdel, huser⟩ := hreuse r hr (by rw [hex]; rfl)
  rw [hr] at hr'
  rw [← Option.some.inj hr']
  exact ⟨hdel, huser hread⟩

/-- A resource that is reused has no read any more. -/
theorem exists_of_reuseAttachedEA {env : Env} {q : CreateRequest} {n : ℕ}
    {v : ResourceId × Bool} {a b : Agent} (h : reuseAttachedEA env n q a = (some v, b)) :
    v.1 = (a.attached n).resource ∧ (b.attached n).readReq = none ∧
      ∃ r, a.resources.lookup (a.attached n).resource = some r ∧
        (q.repr.convertTo r.createRepr).isSome = true := by
  unfold reuseAttachedEA at h
  rw [read_bind_apply] at h
  simp only [bind_eq_some, lookupResource_eq_some, require_eq_some, ensure_eq_some,
    pure_eq_some] at h
  obtain ⟨_, _, ⟨-, rfl, rfl⟩, r, _, ⟨hr, rfl⟩, _, _, ⟨-, rfl⟩, existing, _, ⟨hex, rfl⟩,
    _, _, ⟨-, rfl⟩, _, _, ⟨-, rfl⟩, _, c, hcancel, rfl, rfl⟩ := h
  refine ⟨rfl, ?_, r, hr, by rw [hex]; rfl⟩
  cases hread : (a.attached n).readReq with
  | none =>
      rw [hread] at hcancel
      obtain ⟨-, rfl⟩ := pure_eq_some.1 hcancel
      exact hread
  | some rd =>
      rw [hread] at hcancel
      exact readReq_of_cancelReadEA hcancel

theorem obtainAttachedEA_reused (env : Env) (key : ClientSessionKey) {q : CreateRequest} {n : ℕ}
    {a : Agent} (ha : Clean Whole a) (hreuse : Reusable a q n) :
    ObtainExit (obtainAttachedEA env key q (some n) a).1
      (obtainAttachedEA env key q (some n) a).2 := by
  have hcalm := reuseAttachedEA_calm env ha.calm hreuse
  have hb := ha.of_calm hcalm
  unfold obtainAttachedEA
  refine exits_bind (fun _ => .failed (Clean.well hb)) fun v hv => ?_
  obtain ⟨hrid, hquiet, r, hr, hconv⟩ := exists_of_reuseAttachedEA (eq_of_fst_eq_some hv)
  refine ⟨Clean.well hb, fun _ _ => hb, fun w hw => ?_, fun w hw r' hr' hk => ?_⟩
  · obtain rfl := Option.some.inj hw
    exact hquiet
  · obtain rfl := Option.some.inj hw
    have hr' : a.resources.lookup (a.attached n).resource = some r' := by
      rw [← hcalm.frame.resources, ← hrid]
      exact hr'
    rw [hr] at hr'
    obtain rfl := Option.some.inj hr'
    exact ⟨(hreuse r hr hconv).1,
      (ha.records _ r hr).1 hk (.inr (createRepr_of_convertTo hconv))⟩

theorem obtainAttachedEA_new (env : Env) (key : ClientSessionKey) (q : CreateRequest) {a : Agent}
    (ha : Clean Whole a) :
    ObtainExit (obtainAttachedEA env key q none a).1 (obtainAttachedEA env key q none a).2 := by
  unfold obtainAttachedEA
  have hins := insertResourceRecordEA_exits env q ha
  refine exits_bind (fun _ => .failed hins.well) fun inserted hres => ?_
  generalize (insertResourceRecordEA env q a).2 = b at hins
  rw [hres] at hins
  refine exits_require (.failed hins.well) fun rid hrid => ?_
  subst hrid
  have hb := hins.whole rid rfl
  refine exits_bind (fun _ => .failed (Clean.well
    (attachResourceToSessionEA_closed (attachClosed_clean env) key q.id rid b hb))) fun n hn => ?_
  obtain ⟨r, hr, hid, rfl, heq⟩ := exists_of_attachResourceToSessionEA (eq_of_fst_eq_some hn)
  rw [heq]
  have hlink := Clean.link hb key q.id rid r
  refine ⟨Clean.well hlink, fun _ _ => hlink, fun v hv => ?_, fun v hv r' hr' hk => ?_⟩
  · obtain rfl := Option.some.inj hv
    rw [pure_apply, Agent.attached_link_self]
    rfl
  · obtain rfl := Option.some.inj hv
    obtain ⟨r₀, hr₀, rfl⟩ := Agent.exists_of_lookup_link hr'
    exact ⟨hins.alive rid rfl r₀ hr₀, (hb.records rid r₀ hr₀).1 hk (.inl (by
      rw [hr] at hr₀
      rw [← Option.some.inj hr₀]
      exact hid))⟩

/-- How a creation ends: what it returns has no read. -/
structure CreateExit (res : Option ℕ) (b : Agent) : Prop where
  well : Clean Resource.WellRecorded b
  whole : ∀ n, res = some n → Clean Whole b
  quiet : ∀ n, res = some n → (b.attached n).readReq = none

theorem createResourceEA_exits (env : Env) {key : ClientSessionKey} {q : CreateRequest} {a : Agent}
    (ha : Clean Whole a) (hreuse : ∀ s n, a.sessions.lookup key = some s →
      a.findAttachedResource s q.id = some n → Reusable a q n) :
    CreateExit (createResourceEA env key q a).1 (createResourceEA env key q a).2 := by
  have hfail : ∀ {b : Agent}, Clean Resource.WellRecorded b → CreateExit none b :=
    fun hb => ⟨hb, (by simp), (by simp)⟩
  unfold createResourceEA
  rw [read_bind_apply]
  refine exits_require (hfail (Clean.well ha)) fun s hs => ?_
  have hsame : (checkCreate s q a).2 = a := (checkCreate_frame (R := Eq) s q a).symm
  refine exits_bind (fun _ => hfail (by rw [hsame]; exact Clean.well ha)) fun found hcheck => ?_
  obtain ⟨-, hfind⟩ := find_of_checkCreate (eq_of_fst_eq_some hcheck)
  rw [hsame]
  refine exits_ensure (hfail (Clean.well ha)) fun _ => ?_
  have hobtain : ObtainExit (obtainAttachedEA env key q found a).1
      (obtainAttachedEA env key q found a).2 := by
    cases found with
    | some n => exact obtainAttachedEA_reused env key ha (hreuse s n hs (hfind n rfl))
    | none => exact obtainAttachedEA_new env key q ha
  refine exits_bind (fun _ => hfail hobtain.well) fun v hv => ?_
  generalize (obtainAttachedEA env key q found a).2 = b at hobtain
  rw [hv] at hobtain
  have hb := hobtain.whole v rfl
  have henable : (enableResourceEA env v.2.1 b).2 = b :=
    enableResourceEA_same (hobtain.enable v rfl)
  have hfinish : Clean Whole (finishCreateEA env key v.1 v.2.1 v.2.2 b).2 ∧
      (((finishCreateEA env key v.1 v.2.1 v.2.2 b).2).attached v.1).readReq = none := by
    refine keeps_bind (I := fun c => Clean Whole c ∧ (c.attached v.1).readReq = none)
      (fun _ => ?_) fun _ _ => ?_
    · rw [henable]
      exact ⟨hb, hobtain.quiet v rfl⟩
    · rw [henable]
      refine Within.bind (R := fun c d => (Clean Whole c ∧ (c.attached v.1).readReq = none) →
        Clean Whole d ∧ (d.attached v.1).readReq = none) (.ensure _) (fun _ => ?_) b
        ⟨hb, hobtain.quiet v rfl⟩
      refine .bind (.ensure _) fun _ => .onlyIf fun _ => ?_
      exact fun c hc => ⟨hc.1.of_same rfl rfl, hc.2⟩
  refine exits_bind (fun _ => hfail (Clean.well hfinish.1)) fun _ _ => ?_
  refine ⟨Clean.well hfinish.1, fun _ _ => hfinish.1, fun n hn => ?_⟩
  obtain rfl := Option.some.inj hn
  exact hfinish.2

theorem createResource_well (env : Env) {key : ClientSessionKey} {q : CreateRequest} {a : Agent}
    (ha : Clean Whole a) (hreuse : ∀ n, Addressed a key q.id n → Reusable a q n) :
    Clean Resource.WellRecorded (createResource env key q a).2 := by
  unfold createResource
  rw [read_bind_apply]
  refine keeps_require (Clean.well ha) fun s hs => keeps_ensure (Clean.well ha) fun hactive => ?_
  have hexit : CreateExit (createResourceEA env key q a).1 (createResourceEA env key q a).2 := by
    refine createResourceEA_exits env ha fun s' n hs' hn => ?_
    rw [hs] at hs'
    obtain rfl := Option.some.inj hs'
    exact hreuse n ⟨s, hs, hactive, hn⟩
  refine keeps_bind (fun _ => hexit.well) fun n hn => ?_
  generalize (createResourceEA env key q a).2 = b at hexit
  rw [hn] at hexit
  rw [read_bind_apply]
  have hb := hexit.whole n rfl
  split
  · exact Clean.well ((attachClosed_clean env).accept n _ _ hb)
  · rename_i hrefused
    exact Clean.well ((attachClosed_clean env).refuse key n _ (by simpa using hrefused) hb
      (hexit.quiet n rfl))

end Create

section Sessions

/-- The clean-up of the state, outside resource records and attached resources. -/
theorem Cautious.of_same {a b : Agent} (h : Cautious a) (hr : b.resources = a.resources)
    (hp : b.poolResources = a.poolResources) : Cautious b :=
  h.of_records hp fun _ r hlookup => ⟨r, hr ▸ hlookup, rfl, rfl, .inl⟩

/-- The session `key`, if it is there, links the attached resources `l`, and their reads can
be ended. -/
structure Ready (key : ClientSessionKey) (l : List ℕ) (a : Agent) : Prop extends
    Clean Resource.WellRecorded a where
  linked : ∀ s, a.sessions.lookup key = some s → s.resources = l
  states : ∀ n ∈ l, (a.attached n).readReq.isSome = true → HasState a n

theorem Ready.of_calm {key : ClientSessionKey} {l : List ℕ} {a b : Agent} (h : Ready key l a)
    (hc : Calm a b) (he : ∀ n, (b.attached n).readReq = (a.attached n).readReq ∨
      (b.attached n).readReq = none) : Ready key l b := by
  refine ⟨h.toClean.of_calm hc, fun s hs => ?_, fun n hn hread r hr => ?_⟩
  · have heq := hc.frame.session key
    rw [hs] at heq
    obtain ⟨s₀, hs₀, hout⟩ := Option.map_eq_some_iff.1 heq.symm
    rw [← h.linked s₀ hs₀]
    exact (congrArg ClientSession.resources hout).symm
  · rw [hc.lookup_eq] at hr
    refine h.states n hn ?_ r hr
    rcases he n with heq | heq
    · rw [← heq]
      exact hread
    · rw [heq] at hread
      cases hread

/-- The readers whose samples the interface returns are among the attached resources of
the session. -/
theorem returnLoans_ready (env : Env) (src : ℕ) (key : ClientSessionKey) (l : List ℕ)
    (c : LoanCallback) : Preserves (Ready key l) (returnLoans env src key c) := by
  refine within_returnLoans fun d _ a ha => ?_
  have hback := returnLoan_loansBack (P := fun _ => True) (env.forLoan d) src key (d := d) trivial a
  refine ha.of_calm (returnLoan_calm ha.toClean.calm fun n rd hlent => ?_) hback.readReq
  obtain ⟨s, hs, -, hn⟩ := hlent.session
  refine ha.states n ?_ (by rw [hlent.readReq]; rfl)
  rw [← ha.linked s hs]
  exact List.mem_of_find?_eq_some hn

/-- Resetting a session ends its reads. -/
theorem resetSession_ready (env : Env) (src : ℕ) (key : ClientSessionKey) (s : ClientSession) :
    Preserves (Ready key s.resources) (resetSession env src key s) := by
  have hflag : ∀ f : ClientSession → ClientSession, (∀ s, (f s).resources = s.resources) →
      Preserves (Ready key s.resources) (modify fun a : Agent => a.updateSession key f) := by
    refine fun f hf a ha => ⟨ha.toClean.of_same rfl rfl, fun s' hs' => ?_, ha.states⟩
    rw [modify_apply, Agent.lookup_updateSession, if_pos rfl] at hs'
    obtain ⟨s₀, hs₀, rfl⟩ := Option.map_eq_some_iff.1 hs'
    rw [hf, ha.linked s₀ hs₀]
  refine .bind (.ensure _) fun _ => .bind (hflag _ fun _ => rfl) fun _ => ?_
  refine .bind (.ensure _) fun _ => .bind ?_ fun _ => ?_
  · exact .bind (returnLoans_ready env src key _ _) fun _ => .ensure _
  refine .bind (.onlyIf fun _ => hflag _ fun _ => rfl) fun _ => .bind ?_ fun _ => ?_
  · refine .forEach fun n hn a ha => ?_
    rw [read_bind_apply]
    cases hread : (a.attached n).readReq.isSome with
    | false => exact ha
    | true =>
        exact ha.of_calm (cancelReadI_calm env n (ha.states n hn hread) a ha.toClean.calm)
          (cancelReadI_endsReads env n a).readReq
  · exact hflag _ fun _ => rfl

theorem openSession_well (env : Env) (src : ℕ) {key : ClientSessionKey} (timeout : ℕ)
    (data : Option ℕ) {a : Agent} (ha : Clean Resource.WellRecorded a)
    (hreset : ∀ s, a.sessions.lookup key = some s → ∀ n ∈ s.resources,
      (a.attached n).readReq.isSome = true → HasState a n)
    (hnew : a.sessions.lookup key = none → Clean Whole a) :
    Clean Resource.WellRecorded (openSession env src key timeout data a).2 := by
  have hopened : Clean Resource.WellRecorded
      (resetOrOpenSession env src key timeout data a).2 := by
    unfold resetOrOpenSession
    rw [read_bind_apply]
    cases hs : a.sessions.lookup key with
    | some s =>
        have hready : Ready key s.resources a := by
          refine ⟨ha, fun s' hs' => ?_, hreset s hs⟩
          rw [hs] at hs'
          rw [← Option.some.inj hs']
        exact (resetSession_ready env src key s a hready).toClean
    | none =>
        have hwhole : Clean Whole (a.insertSession key (.initial src timeout data)) :=
          (hnew hs).of_same rfl rfl
        have hpopulate : Preserves (Clean Whole) (populateSession env key) :=
          .bind (.ensure _) fun _ => .bind (.ensure _) fun _ =>
            .bind (attachAllResourcesToSessionEA_closed (attachClosed_clean env) key) fun _ =>
              .ensure _
        have herase : Preserves (Clean Whole) (onlyIf (env.ok (.deleteSession key))
            (modify fun a : Agent => a.eraseSession key)) :=
          .onlyIf fun _ _ hb => hb.of_same rfl rfl
        exact Clean.well (Within.onFailure hpopulate herase _ hwhole)
  unfold openSession
  refine keeps_ensure ha fun _ => keeps_bind (fun _ => hopened) fun _ _ => ?_
  rw [read_bind_apply]
  exact keeps_require hopened fun s _ => keeps_ensure hopened fun _ => hopened

/-- The interface of a session that timed out may return loans before the session is
marked. -/
theorem onSessionTimeout_well (env : Env) {key : ClientSessionKey} {a : Agent}
    (ha : Clean Resource.WellRecorded a) (h : LoansLive env (.sessionTimedOut key) a) :
    Clean Resource.WellRecorded (onSessionTimeout env key a).2 := by
  unfold onSessionTimeout
  refine keeps_ensure ha fun _ => ?_
  rw [read_bind_apply]
  refine keeps_require ha fun s _ => keeps_ensure ha fun _ => ?_
  rw [modify_bind_apply]
  have hmark : Clean Resource.WellRecorded
      (a.updateSession key fun s => { s with timedout := true }) := ha.of_same rfl rfl
  have hlive : LoansLive env (.sessionTimedOut key)
      (a.updateSession key fun s => { s with timedout := true }) := h
  have hloans := returnLoans_calm (P := fun _ => True) env s.intf key hlive (fun _ _ => trivial) _
    ⟨hmark.calm, refl _⟩
  have hreturned := hmark.of_calm hloans.1
  refine keeps_bind (fun _ => hreturned) fun _ _ => ?_
  refine Within.ite (R := fun b c => Clean Resource.WellRecorded b → Clean Resource.WellRecorded c)
    (fun _ => .pure _) (fun _ => ?_) _ hreturned
  refine .bind (fun b hb => hb.of_same rfl rfl) fun _ => .bind (.ensure _) fun _ => ?_
  exact fun b hb => hb.of_same rfl rfl

theorem deleteResource_well (env : Env) {key : ClientSessionKey} {id : ℕ} {a : Agent}
    (ha : Clean Whole a) (h : ∀ n, Addressed a key id n → HasState a n) :
    Clean Resource.WellRecorded (deleteResource env key id a).2 := by
  refine keeps_findAttached (Clean.well ha) fun s hs hactive => ?_
  cases hfind : a.findAttachedResource s id with
  | none => exact Clean.well ha
  | some n =>
      have hst := h n ⟨s, hs, hactive, hfind⟩
      have hended := ha.of_calm (endReadI_calm env key n id hst a ha.calm)
      refine keeps_bind (fun _ => Clean.well hended) fun _ hret => ?_
      have hquiet := quiet_of_endReadI (eq_of_fst_eq_some hret)
      generalize (endReadI env key n id a).2 = b at hended hquiet
      have hdetach : Clean Whole (detachResourceEA env key n true true b).2 := by
        refine detachResourceEA_clean hended fun hk => ?_
        rintro ⟨hread, -⟩
        rw [hquiet hk] at hread
        cases hread
      refine keeps_bind (fun _ => Clean.well hdetach) fun _ _ => ?_
      exact Clean.well (hdetach.of_same rfl rfl)

end Sessions

section Cleanup

/-- The invariant of the clean-up handlers. -/
def Careful (a : Agent) : Prop := Clean Whole a ∧ Cautious a

theorem Careful.of_same {a b : Agent} (h : Careful a) (hf : b.faults = a.faults)
    (hr : b.resources = a.resources) (hp : b.poolResources = a.poolResources) : Careful b :=
  ⟨h.1.of_same hf hr, h.2.of_same hr hp⟩

theorem notify_careful (c : Callback) : Preserves Careful (modify fun a => a.notify c) :=
  fun _ ha => ha.of_same rfl rfl rfl

theorem cancelReadEA_careful {env : Env} {n : ℕ} {a : Agent} (ha : Careful a)
    (hread : (a.attached n).readReq.isSome = true) :
    Careful (cancelReadEA env n (a.attached n).resource a).2 := by
  refine ⟨ha.1.of_calm (cancelReadEA_calm env n _ (fun r hr => ?_) a ha.1.calm), ?_⟩
  · exact usable_of_not_orphan (ha.2.not_orphan n) hread hr
  · obtain ⟨hf, he⟩ := cancelReadEA_readsEnded env n (a.attached n).resource a
    exact ha.2.of_endsReads hf he

theorem endReadEA_careful (env : Env) (key : ClientSessionKey) (n : ℕ) :
    Preserves Careful (endReadEA env key n) := by
  intro a ha
  unfold endReadEA
  rw [read_bind_apply]
  cases hc : decide ((a.attached n).kind = .dataReader) && (a.attached n).readReq.isSome with
  | false => exact ha
  | true =>
      rw [onlyIf_true]
      refine keeps_lookupResource ha fun _ => ?_
      cases a.resources.lookup (a.attached n).resource with
      | none => exact ha
      | some r =>
          dsimp only
          split
          · exact ha
          · have hcancel : Careful (cancelReadEA env n (a.attached n).resource a).2 :=
              cancelReadEA_careful ha (Bool.and_eq_true_iff.1 hc).2
            refine keeps_bind (fun _ => hcancel) fun _ _ => keeps_ensure hcancel fun _ => ?_
            exact hcancel.of_same rfl rfl rfl

theorem detachOnCloseEA_careful (env : Env) (key : ClientSessionKey) (n : ℕ) :
    Preserves Careful (detachOnCloseEA env key n) := by
  refine .read fun a => .bind (fun b hb => ?_) fun _ => notify_careful _
  exact ⟨detachResourceEA_clean hb.1 fun _ => hb.2.not_orphan n,
    detachResourceEA_cautious hb.1 hb.2 (by simp)⟩

theorem finalizeSessionEA_careful (env : Env) (key : ClientSessionKey) :
    Preserves Careful (finalizeSessionEA env key) := by
  refine .read fun a => .bind (.require _) fun s => .bind (.ensure _) fun _ => ?_
  refine .bind (.forEach fun n _ => endReadEA_careful env key n) fun _ => ?_
  refine .bind (.forEach fun n _ => detachOnCloseEA_careful env key n) fun _ => ?_
  refine .bind (fun b hb => ?_) fun _ => .onlyIf fun _ => .ensure _
  unfold Agent.drainSamples
  dsimp only [modify_apply]
  cases b.sessions.lookup key with
  | none => exact hb
  | some s => exact hb.of_same rfl rfl rfl

theorem onCleanupSessions_careful (env : Env) : Preserves Careful (onCleanupSessions env) := by
  refine .bind (.ensure _) fun _ => .bind (.ensure _) fun _ =>
    .bind (fun _ hb => hb.of_same rfl rfl rfl) fun _ => .read fun a => ?_
  refine .forEach fun key _ => .bind (.ensure _) fun _ => .read fun b => ?_
  cases b.sessions.lookup key with
  | none => exact .pure _
  | some s =>
      refine .onlyIf fun _ => .bind (finalizeSessionEA_careful env key) fun _ => ?_
      refine .ite (fun _ => .bind (.ensure _) fun _ => .bind (.ensure _) fun _ => ?_) fun _ => ?_
      · exact .bind (fun _ hb => hb.of_same rfl rfl rfl) fun _ => notify_careful _
      · exact .bind (fun _ hb => hb.of_same rfl rfl rfl) fun _ => .ensure _

theorem cleanupResourceEA_careful (env : Env) (key : ClientSessionKey) (n : ℕ) :
    Preserves Careful (cleanupResourceEA env key n) := by
  intro a ha
  unfold cleanupResourceEA
  rw [read_bind_apply]
  refine keeps_lookupResource ha fun _ => keeps_require ha fun r hr => keeps_ensure ha fun _ => ?_
  cases hc : r.nativeDeleted || (r.pendingDelete && decide (r.attachedCount = 0)) with
  | false => exact ha
  | true =>
      have hdead : true = true → (∀ m, (a.attached m).readReq = none) ∨
          ∀ r, a.resources.lookup (a.attached n).resource = some r → r.nativeDeleted = true := by
        intro _
        rcases ha.2 with hidle | ⟨-, hpending⟩
        · exact .inl hidle
        · refine .inr fun r' hr' => ?_
          rw [hr] at hr'
          rw [← Option.some.inj hr']
          rcases Bool.or_eq_true_iff.1 hc with h | h
          · exact h
          · exact hpending _ r hr (Bool.and_eq_true_iff.1 h).1
      have hdetach : Careful (detachResourceEA env key n true true a).2 :=
        ⟨detachResourceEA_clean ha.1 fun _ => ha.2.not_orphan n,
          detachResourceEA_cautious ha.1 ha.2 hdead⟩
      exact keeps_bind (fun _ => hdetach) fun _ _ => hdetach.of_same rfl rfl rfl

theorem onCleanupResources_careful (env : Env) : Preserves Careful (onCleanupResources env) := by
  refine .bind (.ensure _) fun _ => .bind (fun _ hb => hb.of_same rfl rfl rfl) fun _ => ?_
  refine .bind (.ensure _) fun _ => .read fun a => .forEach fun key _ => ?_
  refine .bind (.ensure _) fun _ => .read fun b => ?_
  cases b.sessions.lookup key with
  | none => exact .pure _
  | some s =>
      refine .bind (.forEach fun n _ => cleanupResourceEA_careful env key n) fun _ => ?_
      exact attachAllResourcesToSessionEA_closed (attachClosed_cautious env) key

end Cleanup

end AgentM

open AgentM

/-- The condition under which a step uses no dead entity: the records it goes through
have their states, and no read is left on a record whose entity is gone where the
step ends reads. -/
def UsesLiveStates (a : Agent) (i : Operation × Env) : Prop :=
  match i.1 with
  | .openSession _ key _ _ =>
      (∀ s, a.sessions.lookup key = some s → ∀ n ∈ s.resources,
        (a.attached n).readReq.isSome = true → HasState a n) ∧
      (a.sessions.lookup key = none → ∀ rid r, a.resources.lookup rid = some r → r.Equipped)
  | .createResource key q =>
      (∀ n, Addressed a key q.id n → Reusable a q n) ∧
      ∀ rid r, a.resources.lookup rid = some r → r.Equipped
  | .deleteResource key id =>
      (∀ n, Addressed a key id n → HasState a n) ∧
      ∀ rid r, a.resources.lookup rid = some r → r.Equipped
  | .readData key id _ => ∀ n, Addressed a key id n → HasState a n
  | .cancelRead key id => ∀ n, Addressed a key id n → HasState a n
  | .writeData key id => ∀ n, Addressed a key id n → HasState a n
  | .dataEvent rd =>
      ∀ n, Addressed a (a.readAt rd).sessionKey (a.readAt rd).readerId n → HasState a n
  | .returnLoan src key d => ∀ n rd, Lent a src key d n rd → HasState a n
  | .sessionTimeout key => LoansLive i.2 (.sessionTimedOut key) a
  | .cleanupReads => (∀ n, Orphan a n → LeftAlone i.2 a n) ∧ ∀ c, LoansLive i.2 c a
  | .cleanupSessions =>
      Cautious a ∧ ∀ rid r, a.resources.lookup rid = some r → r.Equipped
  | .cleanupResources =>
      Cautious a ∧ ∀ rid r, a.resources.lookup rid = some r → r.Equipped
  | _ => True

theorem Clean.of_initial {a : Agent} (h : a.Initial) : Clean Resource.WellRecorded a := by
  have hr := h.resources
  refine ⟨h.faults, fun rid r hlookup => ?_, ?_⟩
  · rw [hr] at hlookup
    cases hlookup
  · rw [hr]
    rfl

theorem Clean.whole {a : Agent} (h : Clean Resource.WellRecorded a)
    (he : ∀ rid r, a.resources.lookup rid = some r → r.Equipped) : Clean Whole a :=
  ⟨h.faults, fun rid r hr => ⟨h.records rid r hr, he rid r hr⟩, h.keyed⟩

/-- One step under the condition. -/
theorem Clean.step {a : Agent} (ha : Clean Resource.WellRecorded a) {i : Operation × Env}
    (h : UsesLiveStates a i) : Clean Resource.WellRecorded (a.step i) := by
  obtain ⟨op, env⟩ := i
  have hsession : ∀ {b}, SessionFrame a b → Clean Resource.WellRecorded b :=
    fun hb => ha.of_same hb.faults hb.resources
  cases op with
  | openSession src key timeout data =>
      exact openSession_well env src timeout data ha h.1 fun hnone => ha.whole (h.2 hnone)
  | closeSession src key => exact hsession (closeSession_frame env src key a)
  | finishCloseSession key => exact hsession (finishCloseSession_frame env key a)
  | sessionTimeout key => exact onSessionTimeout_well env ha h
  | createResource key q => exact createResource_well env (ha.whole h.2) h.1
  | deleteResource key id => exact deleteResource_well env (ha.whole h.2) h.1
  | readData key id spec => exact ha.of_calm (readData_calm ha.calm h)
  | cancelRead key id => exact ha.of_calm (cancelRead_calm ha.calm h)
  | returnLoan src key d => exact ha.of_calm (returnLoan_calm ha.calm h)
  | writeData key id => exact ha.of_calm (writeData_calm ha.calm h)
  | dataEvent rd => exact ha.of_calm (onDataOnReader_calm ha.calm h)
  | changeCache reader cache => exact ha.of_same rfl rfl
  | cleanupSessions =>
      change Clean Resource.WellRecorded ((Prog.read >>= _) a).2
      rw [read_bind_apply]
      exact keeps_ensure ha fun _ =>
        Clean.well (onCleanupSessions_careful env a ⟨ha.whole h.2, h.1⟩).1
  | cleanupReads =>
      change Clean Resource.WellRecorded ((Prog.read >>= _) a).2
      rw [read_bind_apply]
      exact keeps_ensure ha fun _ => ha.of_calm (onCleanupReads_calm ha.calm h.1 h.2)
  | cleanupResources =>
      change Clean Resource.WellRecorded ((Prog.read >>= _) a).2
      rw [read_bind_apply]
      exact keeps_ensure ha fun _ =>
        Clean.well (onCleanupResources_careful env a ⟨ha.whole h.2, h.1⟩).1

end NanoAgent
