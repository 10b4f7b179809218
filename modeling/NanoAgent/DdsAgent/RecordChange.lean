import NanoAgent.DdsAgent.Detachment
import NanoAgent.DdsAgent.TableChange

/-!
# What happens to a record

The changes that `TableChange` leaves whole, seen from a record. Deleting a resource
natively leaves a record alone or marks it as deleted (`NativelyDeletes`); detaching also
counts the record out, may request its deletion and may remove it (`Detaches`).
Inserting a record leaves the records that are there alone.
-/

namespace NanoAgent

open Prog AgentM

namespace Resource

/-- The record `r'` is `r`, or it was marked as natively deleted. -/
def DeletedFrom (r r' : Resource) : Prop :=
  r' = r ∨ (r'.nativeDeleted = true ∧ r'.attachedCount = r.attachedCount ∧
    r'.pendingDelete = r.pendingDelete ∧ (r'.id = r.id ∨ r'.id = .none))

theorem DeletedFrom.trans {r r' r'' : Resource} (h : DeletedFrom r r') (h' : DeletedFrom r' r'') :
    DeletedFrom r r'' := by
  rcases h' with rfl | ⟨hdel, hcount, hpend, hid⟩
  · exact h
  · right
    rcases h with rfl | ⟨-, hcount', hpend', hid'⟩
    · exact ⟨hdel, hcount, hpend, hid⟩
    · refine ⟨hdel, hcount.trans hcount', hpend.trans hpend', ?_⟩
      rcases hid with hid | hid
      · rw [hid]
        exact hid'
      · exact .inr hid

/-- The record `r'` is `r` after some detachments. -/
structure DetachedFrom (r r' : Resource) : Prop where
  count : r'.attachedCount ≤ r.attachedCount
  pending : r.pendingDelete = true → r'.pendingDelete = true
  id : r'.id = r.id ∨ r'.id = .none
  kept : r'.nativeDeleted = false → r.nativeDeleted = false ∧ r'.id = r.id ∧ r'.kind = r.kind

theorem DetachedFrom.rfl' (r : Resource) : DetachedFrom r r :=
  ⟨Nat.le_refl _, fun h => h, .inl rfl, fun h => ⟨h, rfl, rfl⟩⟩

theorem DetachedFrom.trans {r r' r'' : Resource} (h : DetachedFrom r r')
    (h' : DetachedFrom r' r'') : DetachedFrom r r'' where
  count := Nat.le_trans h'.count h.count
  pending hp := h'.pending (h.pending hp)
  id := by
    rcases h'.id with hid | hid
    · rw [hid]
      exact h.id
    · exact .inr hid
  kept hdel := by
    obtain ⟨hdel', hid', hkind'⟩ := h'.kept hdel
    obtain ⟨hdel, hid, hkind⟩ := h.kept hdel'
    exact ⟨hdel, hid'.trans hid, hkind'.trans hkind⟩

theorem DeletedFrom.detachedFrom {r r' : Resource} (h : DeletedFrom r r') : DetachedFrom r r' := by
  rcases h with rfl | ⟨hdel, hcount, hpend, hid⟩
  · exact .rfl' _
  · constructor
    · exact Nat.le_of_eq hcount
    · intro hp
      exact hpend.trans hp
    · exact hid
    · intro hdel'
      rw [hdel] at hdel'
      cases hdel'

end Resource

/-- From `a` to `b` resources have been deleted natively. -/
structure NativelyDeletes (a b : Agent) : Prop where
  autoAttach : b.autoAttachResources = a.autoAttachResources
  autoId : b.autoId = a.autoId
  record : ∀ rid r, a.resources.lookup rid = some r →
    ∃ r', b.resources.lookup rid = some r' ∧ r.DeletedFrom r'
  new : ∀ rid, a.resources.lookup rid = none → b.resources.lookup rid = none

namespace NativelyDeletes

theorem of_same {a b : Agent} (hat : b.autoAttachResources = a.autoAttachResources)
    (hid : b.autoId = a.autoId) (hr : b.resources = a.resources) : NativelyDeletes a b :=
  ⟨hat, hid, fun _ r h => ⟨r, hr ▸ h, .inl rfl⟩, fun _ h => hr ▸ h⟩

instance : IsPreorder Agent NativelyDeletes where
  refl _ := .of_same rfl rfl rfl
  trans _ _ _ h h' := by
    refine ⟨h'.1.trans h.1, h'.2.trans h.2, fun rid r hr => ?_, fun rid hr => h'.4 rid (h.4 rid hr)⟩
    obtain ⟨r', hr', hdel⟩ := h.record rid r hr
    obtain ⟨r'', hr'', hdel'⟩ := h'.record rid r' hr'
    exact ⟨r'', hr'', hdel.trans hdel'⟩

/-- A change of a record that marks it, or that was marked before. -/
theorem updateResource {a : Agent} {rid : ResourceId} {f : Resource → Resource}
    (hf : ∀ r, a.resources.lookup rid = some r → r.DeletedFrom (f r)) :
    NativelyDeletes a (a.updateResource rid f) := by
  refine ⟨rfl, rfl, fun rid' r hr => ?_, fun rid' hr => ?_⟩
  · rw [Agent.lookup_updateResource, hr]
    split
    · rename_i heq
      subst heq
      exact ⟨f r, rfl, hf r hr⟩
    · exact ⟨r, rfl, .inl rfl⟩
  · rw [Agent.lookup_updateResource, hr]
    split <;> rfl

end NativelyDeletes

namespace AgentM

/-- From `a` to `b` the records have not changed. -/
def SameRecords (a b : Agent) : Prop :=
  b.autoAttachResources = a.autoAttachResources ∧ b.autoId = a.autoId ∧ b.resources = a.resources

instance : IsPreorder Agent SameRecords where
  refl _ := ⟨rfl, rfl, rfl⟩
  trans _ _ _ h h' := ⟨h'.1.trans h.1, h'.2.1.trans h.2.1, h'.2.2.trans h.2.2⟩

theorem access_sameRecords (id : ResourceId) (valid : Bool) :
    Within SameRecords (access id valid) := by
  refine .modify fun a => ?_
  cases valid
  · exact ⟨rfl, rfl, rfl⟩
  · exact refl a

theorem releaseUserDataEA_sameRecords (env : Env) (rid : ResourceId) (r : Resource) :
    Within SameRecords (releaseUserDataEA env rid r) := by
  have hreader : ∀ (n : ℕ) (x : Prog Reader Unit), Within SameRecords (onReader n x) :=
    fun _ _ _ => ⟨rfl, rfl, rfl⟩
  refine .ite (fun _ => ?_) fun _ => .ite (fun _ => ?_) fun _ => .pure _
  · refine .bind (access_sameRecords _ _) fun _ => .bind (.require _) fun reader => ?_
    refine .read fun a => .bind (.forEach fun q _ => hreader _ _) fun _ => ?_
    exact .bind (hreader _ _) fun _ => .modify fun _ => ⟨rfl, rfl, rfl⟩
  · refine .bind (access_sameRecords _ _) fun _ => .bind (.require _) fun writer => ?_
    exact .modify fun _ => ⟨rfl, rfl, rfl⟩

variable {env : Env}

theorem deleteTopicEntity_nativelyDeletes (ptr : ℕ) :
    Within NativelyDeletes (deleteTopicEntity env ptr) :=
  .onlyIf fun _ => .modify fun _ => .of_same rfl rfl rfl

theorem deleteNativeEntityEA_nativelyDeletes {contained : ResourceKind → ℕ → AgentM Unit}
    (hc : ∀ k ptr, Within NativelyDeletes (contained k ptr)) (kind : ResourceKind) (e : Entity) :
    Within NativelyDeletes (deleteNativeEntityEA env contained kind e) := by
  refine .bind (.forEach fun k _ => .read fun a => .bind (.ensure _) fun _ => ?_) fun _ => ?_
  · exact .forEach fun c _ => hc k c.ptr
  refine .ite (fun _ => deleteTopicEntity_nativelyDeletes _) fun _ => .bind (.ensure _) fun _ => ?_
  refine .bind (.modify fun _ => .of_same rfl rfl rfl) fun _ => ?_
  exact .onlyIf fun _ => deleteTopicEntity_nativelyDeletes _

theorem deleteNativeResourceWith_nativelyDeletes {contained : ResourceKind → ℕ → AgentM Unit}
    (hc : ∀ k ptr, Within NativelyDeletes (contained k ptr)) (rid : ResourceId) :
    Within NativelyDeletes (deleteNativeResourceWith env contained rid) := by
  intro a
  refine keeps_lookupResource (refl a) fun _ => ?_
  cases hr : a.resources.lookup rid with
  | none => exact refl a
  | some r =>
      dsimp only
      split
      · exact refl a
      rw [modify_bind_apply]
      have hmark : NativelyDeletes a
          (a.updateResource rid fun r => { r with nativeDeleted := true }) :=
        .updateResource fun _ _ => .inr ⟨rfl, rfl, rfl, .inl rfl⟩
      have hlookup : (a.updateResource rid fun r =>
        { r with nativeDeleted := true }).resources.lookup
          rid = some { r with nativeDeleted := true } := by
        rw [Agent.lookup_updateResource, if_pos rfl, hr]
        rfl
      generalize a.updateResource rid _ = b at hmark hlookup
      -- the mark is what makes finalizing the record a deletion
      have hfinal : ∀ (c : Agent) (f : Resource → Resource), c.resources = b.resources →
          (∀ r, (f r).nativeDeleted = r.nativeDeleted) →
          (∀ r, (f r).attachedCount = r.attachedCount) →
          (∀ r, (f r).pendingDelete = r.pendingDelete) → (∀ r, (f r).id = .none) →
          NativelyDeletes c (c.updateResource rid f) := by
        intro c f hsame hdel hcount hpend hid
        refine .updateResource fun r' hr' => .inr ⟨?_, hcount r', hpend r', .inr (hid r')⟩
        rw [hsame, hlookup, Option.some.injEq] at hr'
        rw [hdel, ← hr']
      refine IsTrans.trans _ _ _ hmark ?_
      split
      · exact hfinal b _ rfl (fun _ => rfl) (fun _ => rfl) (fun _ => rfl) fun _ => rfl
      refine keeps_ensure (refl b) fun _ => keeps_ensure (refl b) fun _ => ?_
      rw [read_bind_apply]
      have hsame := releaseUserDataEA_sameRecords env rid r b
      have hrelease : NativelyDeletes b (releaseUserDataEA env rid r b).2 :=
        .of_same hsame.1 hsame.2.1 hsame.2.2
      refine keeps_bind (fun _ => hrelease) fun _ _ => IsTrans.trans _ _ _ hrelease ?_
      rw [modify_bind_apply]
      have hgone : NativelyDeletes (releaseUserDataEA env rid r b).2
          ((releaseUserDataEA env rid r b).2.updateResource rid fun r =>
            { r.finalize with userData := none }) :=
        hfinal _ _ hsame.2.2 (fun _ => rfl) (fun _ => rfl) (fun _ => rfl) fun _ => rfl
      refine IsTrans.trans _ _ _ hgone ?_
      refine Within.bind (R := NativelyDeletes) (.ensure _) (fun _ => ?_) _
      cases b.lookupEntity r.kind r.id with
      | none => exact .pure _
      | some e => exact deleteNativeEntityEA_nativelyDeletes hc _ _

theorem findContainedResourceAndDeleteEA_nativelyDeletes (depth : ℕ) (kind : ResourceKind)
    (ptr : ℕ) :
    Within NativelyDeletes (findContainedResourceAndDeleteEA env depth kind ptr) := by
  induction depth generalizing kind ptr with
  | zero => exact .pure _
  | succ depth ih =>
      refine .read fun a => .bind (.ensure _) fun _ => ?_
      cases a.findResourceByNative kind ptr with
      | some c =>
          refine .bind (.ensure _) fun _ => .bind (.ensure _) fun _ => ?_
          exact deleteNativeResourceWith_nativelyDeletes ih _
      | none =>
          dsimp only
          cases a.entities.find? _ with
          | some x => exact deleteNativeEntityEA_nativelyDeletes ih _ _
          | none => exact .pure _

theorem deleteNativeResourceEA_nativelyDeletes (env : Env) (rid : ResourceId) :
    Within NativelyDeletes (deleteNativeResourceEA env rid) :=
  deleteNativeResourceWith_nativelyDeletes (findContainedResourceAndDeleteEA_nativelyDeletes 2) rid

end AgentM

/-- From `a` to `b` attached resources have been detached: the sessions link the same
attached resources, these have kept their identifiers, and no record is new. -/
structure Detaches (a b : Agent) : Prop where
  autoAttach : b.autoAttachResources = a.autoAttachResources
  autoId : b.autoId = a.autoId
  linked : ∀ key, (b.sessions.lookup key).map (·.resources) =
    (a.sessions.lookup key).map (·.resources)
  next : b.poolResources.next = a.poolResources.next
  id : ∀ n, (b.attached n).id = (a.attached n).id
  record : ∀ rid r', b.resources.lookup rid = some r' →
    ∃ r, a.resources.lookup rid = some r ∧ r.DetachedFrom r'

namespace Detaches

instance : IsPreorder Agent Detaches where
  refl _ := ⟨rfl, rfl, fun _ => rfl, rfl, fun _ => rfl, fun _ r hr => ⟨r, hr, .rfl' r⟩⟩
  trans _ _ _ h h' := by
    refine ⟨h'.1.trans h.1, h'.2.trans h.2, fun key => (h'.linked key).trans (h.linked key),
      h'.next.trans h.next, fun n => (h'.id n).trans (h.id n), fun rid r'' hr'' => ?_⟩
    obtain ⟨r', hr', hdet'⟩ := h'.record rid r'' hr''
    obtain ⟨r, hr, hdet⟩ := h.record rid r' hr'
    exact ⟨r, hr, hdet.trans hdet'⟩

theorem of_readFrame {a b : Agent} (h : ReadFrame a b) : Detaches a b where
  autoAttach := h.autoAttach
  autoId := h.autoId
  linked key := by
    have hmap := congrArg (Option.map ClientSession.resources) (h.session key)
    rw [Option.map_map, Option.map_map] at hmap
    exact hmap
  next := h.next
  id := h.id_eq
  record rid r' hr' := ⟨r', h.resources ▸ hr', .rfl' r'⟩

theorem exists_session {a b : Agent} (h : Detaches a b) {key : ClientSessionKey} {s : ClientSession}
    (hs : b.sessions.lookup key = some s) :
    ∃ s₀, a.sessions.lookup key = some s₀ ∧ s₀.resources = s.resources := by
  have hlinked := h.linked key
  rw [hs] at hlinked
  exact Option.map_eq_some_iff.1 hlinked.symm

theorem updateSession (a : Agent) (key : ClientSessionKey) {f : ClientSession → ClientSession}
    (hf : ∀ s, (f s).resources = s.resources) : Detaches a (a.updateSession key f) := by
  refine ⟨rfl, rfl, fun key' => ?_, rfl, fun _ => rfl, fun _ r hr => ⟨r, hr, .rfl' r⟩⟩
  rw [Agent.lookup_updateSession]
  split
  · cases a.sessions.lookup key' with
    | none => rfl
    | some s => exact congrArg some (hf s)
  · rfl

/-- A change of the records alone. -/
theorem of_records {a b : Agent} (hat : b.autoAttachResources = a.autoAttachResources)
    (hid : b.autoId = a.autoId) (hs : b.sessions = a.sessions)
    (hp : b.poolResources = a.poolResources)
    (hr : ∀ rid r', b.resources.lookup rid = some r' →
      ∃ r, a.resources.lookup rid = some r ∧ r.DetachedFrom r') : Detaches a b where
  autoAttach := hat
  autoId := hid
  linked key := by rw [hs]
  next := by rw [hp]
  id n := by rw [Agent.attached, hp]; rfl
  record := hr

theorem countOut (a : Agent) (rid : ResourceId) (del : Bool) : Detaches a (a.countOut rid del) := by
  refine of_records rfl rfl rfl rfl fun rid' r' hr' => ?_
  unfold Agent.countOut at hr'
  rw [Agent.lookup_updateResource] at hr'
  split at hr'
  · obtain ⟨r, hr, rfl⟩ := Option.map_eq_some_iff.1 hr'
    refine ⟨r, hr, Nat.sub_le _ _, fun hp => ?_, .inl rfl, fun hdel => ⟨hdel, rfl, rfl⟩⟩
    simp [hp]
  · exact ⟨r', hr', .rfl' r'⟩

theorem erase (a : Agent) (rid : ResourceId) :
    Detaches a { a with resources := a.resources.erase rid } :=
  of_records rfl rfl rfl rfl fun _ r' hr' => ⟨r', AList.lookup_of_lookup_erase hr', .rfl' r'⟩

theorem unlink (a : Agent) (n : ℕ) : Detaches a (a.unlink n) := by
  refine ⟨rfl, rfl, fun _ => rfl, rfl, fun m => ?_, fun _ r' hr' => ⟨r', hr', .rfl' r'⟩⟩
  rw [Agent.attached_unlink]
  split <;> rfl

end Detaches

namespace AgentM

variable {env : Env}

theorem deleteNativeResourceEA_detaches (rid : ResourceId) :
    Within Detaches (deleteNativeResourceEA env rid) := by
  intro a
  have hframe := deleteNativeResourceEA_frame env rid a
  have hdel := deleteNativeResourceEA_nativelyDeletes env rid a
  refine .of_records hdel.autoAttach hdel.autoId hframe.sessions hframe.poolResources ?_
  intro rid' r' hr'
  cases hr : a.resources.lookup rid' with
  | none =>
      rw [hdel.new rid' hr] at hr'
      cases hr'
  | some r =>
      obtain ⟨r'', hr'', hfrom⟩ := hdel.record rid' r hr
      obtain rfl : r'' = r' := Option.some.inj (hr''.symm.trans hr')
      exact ⟨r, rfl, hfrom.detachedFrom⟩

theorem countOutEA_detaches (key : ClientSessionKey) (n : ℕ) (del : Bool) :
    Within Detaches (countOutEA env key n del) := by
  have hframe : ∀ {x : AgentM Unit}, Within ReadFrame x → Within Detaches x :=
    fun hx a => .of_readFrame (hx a)
  refine .read fun a => .bind (.ensure _) fun _ => .bind (lookupResource_frame _ _ _) fun _ => ?_
  refine .bind (.require _) fun r => .bind (.ensure _) fun _ => ?_
  refine .bind (.onlyIf fun _ => hframe (cancelReadEA_frame env n _)) fun _ => ?_
  refine .bind (.modify fun b => .countOut b _ del) fun _ => .bind (.ensure _) fun _ => ?_
  exact .bind (.onlyIf fun _ => hframe (notify_frame _)) fun _ => .pure _

theorem detachResourceEA_detaches (key : ClientSessionKey) (n : ℕ) (del copyOut : Bool) :
    Within Detaches (detachResourceEA env key n del copyOut) := by
  refine .read fun a => .bind (countOutEA_detaches key n del) fun delete => ?_
  refine .bind (.onlyIf fun _ => ?_) fun _ => .bind (.onlyIf fun _ => .ensure _) fun _ => ?_
  · exact .bind (deleteNativeResourceEA_detaches _) fun _ => .bind (.ensure _) fun _ =>
      .modify fun b => .erase b _
  · exact .bind (.modify fun b => .unlink b n) fun _ => .ensure _

/-- Detaching for the last time removes a resource whose deletion was requested. -/
theorem lookup_of_detachResourceEA {key : ClientSessionKey} {n : ℕ} {del copyOut : Bool}
    {a b : Agent} {r : Resource} (hr : a.resources.lookup (a.attached n).resource = some r)
    (hpend : r.pendingDelete = true) (hcount : r.attachedCount = 1)
    (h : detachResourceEA env key n del copyOut a = (some (), b)) :
    b.resources.lookup (a.attached n).resource = none := by
  unfold detachResourceEA at h
  rw [read_bind_apply] at h
  obtain ⟨delete, c, hout, h⟩ := bind_eq_some.1 h
  have hdelete : delete = true := by
    have hexit := countOutEA_exits env key n del a
    rw [hout] at hexit
    cases hexit with
    | counted hr' _ _ _ hflag =>
        rw [hr, Option.some.injEq] at hr'
        subst hr'
        rw [hflag delete rfl, hpend, hcount]
        rfl
  subst hdelete
  obtain ⟨_, d, hremove, h⟩ := bind_eq_some.1 h
  obtain ⟨_, _, -, hremove⟩ := bind_eq_some.1 hremove
  obtain ⟨_, _, -, hremove⟩ := bind_eq_some.1 hremove
  obtain rfl := modify_eq_some.1 hremove
  obtain ⟨_, _, hcopy, h⟩ := bind_eq_some.1 h
  rw [onlyIf_ensure, ensure_eq_some] at hcopy
  obtain ⟨-, rfl⟩ := hcopy
  obtain ⟨_, _, hunlink, h⟩ := bind_eq_some.1 h
  obtain rfl := modify_eq_some.1 hunlink
  obtain ⟨-, rfl⟩ := ensure_eq_some.1 h
  exact AList.lookup_erase _ _

section Insertion

variable {rid : ResourceId} {r : Resource}

theorem updateResource_keepsOthers {rid' : ResourceId} (hne : rid ≠ rid')
    (f : Resource → Resource) : Preserves (fun a : Agent => a.resources.lookup rid = some r)
      (modify fun a => a.updateResource rid' f) := by
  intro a ha
  rw [modify_apply, Agent.lookup_updateResource, if_neg hne]
  exact ha

theorem initializeUserDataEA_keepsOthers {rid' : ResourceId} (hne : rid ≠ rid')
    (kind : ResourceKind) : Preserves (fun a : Agent => a.resources.lookup rid = some r)
      (initializeUserDataEA env rid' kind) := by
  refine .read fun a => .ite (fun _ => ?_) fun _ => .ite (fun _ => ?_) fun _ => .pure _
  · refine .bind (.ensure _) fun _ => .bind (.modify fun _ h => h) fun _ => ?_
    refine .bind (.onlyIf fun _ => .bind (.modify fun _ h => h) fun _ => .fail) fun _ => ?_
    refine .bind (updateResource_keepsOthers hne _) fun _ => ?_
    exact .onlyIf fun _ => .bind (.modify fun _ h => h) fun _ => .fail
  · refine .bind (.ensure _) fun _ => .bind (.modify fun _ h => h) fun _ => ?_
    refine .bind (.onlyIf fun _ => .bind (.modify fun _ h => h) fun _ => .fail) fun _ => ?_
    exact updateResource_keepsOthers hne _

theorem initializeRecordEA_keepsOthers {rid' : ResourceId} (hne : rid ≠ rid')
    (q : CreateRequest) : Preserves (fun a : Agent => a.resources.lookup rid = some r)
      (initializeRecordEA env rid' q) := by
  refine .bind (.ensure _) fun _ => .read fun _ => .bind (.onlyIf fun _ => .ensure _) fun _ => ?_
  refine .bind (.ensure _) fun _ => .bind (updateResource_keepsOthers hne _) fun _ => ?_
  refine .bind (.ensure _) fun _ => .bind (updateResource_keepsOthers hne _) fun _ => ?_
  exact initializeUserDataEA_keepsOthers hne q.kind

theorem obtainRecordEA_keepsOthers (rid' : ResourceId) (q : CreateRequest) :
    Preserves (fun a : Agent => a.resources.lookup rid = some r) (obtainRecordEA env rid' q) := by
  intro a ha
  unfold obtainRecordEA
  rw [read_bind_apply]
  cases hnew : a.resources.lookup rid' with
  | some r' => exact ha
  | none =>
      have hne : rid ≠ rid' := by
        rintro rfl
        rw [ha] at hnew
        cases hnew
      dsimp only
      rw [modify_bind_apply]
      refine initializeRecordEA_keepsOthers hne q _ ?_
      exact (AList.lookup_insert_ne hne).trans ha

/-- Inserting a record leaves the records that are there alone. -/
theorem insertResourceRecordEA_keepsOthers (q : CreateRequest) :
    Preserves (fun a : Agent => a.resources.lookup rid = some r)
      (insertResourceRecordEA env q) := by
  refine .bind (.modify fun _ h => h) fun _ => .bind (.ensure _) fun _ => ?_
  refine .bind (.require _) fun first => .bind (.ensure _) fun _ => .bind (.ensure _) fun _ => ?_
  refine .bind (.ensure _) fun _ => .bind (obtainRecordEA_keepsOthers _ q) fun _ => ?_
  refine .bind (.ensure _) fun _ => .bind (.modify fun _ h => h) fun _ => ?_
  exact .read fun _ => .bind (.require _) fun _ => .pure _

end Insertion

end AgentM

/-- The attached resources of the sessions were handed out by the pool. -/
def LinksAllocated (a : Agent) : Prop :=
  ∀ key s, a.sessions.lookup key = some s → ∀ n ∈ s.resources, n < a.poolResources.next

theorem Detaches.linksAllocated {a b : Agent} (h : Detaches a b) (ha : LinksAllocated a) :
    LinksAllocated b := by
  intro key s hs n hn
  obtain ⟨s₀, hs₀, hlist⟩ := h.exists_session hs
  rw [h.next]
  exact ha key s₀ hs₀ n (hlist ▸ hn)

/-- A session after an attached resource was linked. -/
theorem Agent.exists_of_session_link {a : Agent} {key key' : ClientSessionKey} {id : ℕ}
    {rid : ResourceId} {r : Resource} {s : ClientSession}
    (hs : (a.link key id rid r).sessions.lookup key' = some s) :
    ∃ s₀, a.sessions.lookup key' = some s₀ ∧ s.resources =
      s₀.resources ++ if key' = key then [a.poolResources.next] else [] := by
  change (a.sessions.modify key _).lookup key' = some s at hs
  rw [AList.lookup_modify] at hs
  split at hs
  · obtain ⟨s₀, hs₀, rfl⟩ := Option.map_eq_some_iff.1 hs
    exact ⟨s₀, hs₀, by simp [*]⟩
  · exact ⟨s, hs, by simp [*]⟩

theorem LinksAllocated.link {a : Agent} (ha : LinksAllocated a) (key : ClientSessionKey) (id : ℕ)
    (rid : ResourceId) (r : Resource) : LinksAllocated (a.link key id rid r) := by
  intro key' s hs n hn
  obtain ⟨s₀, hs₀, hlist⟩ := Agent.exists_of_session_link hs
  change n < a.poolResources.next + 1
  rw [hlist, List.mem_append] at hn
  rcases hn with hn | hn
  · exact Nat.lt_succ_of_lt (ha key' s₀ hs₀ n hn)
  · split at hn
    · rw [List.mem_singleton.1 hn]
      exact Nat.lt_succ_self _
    · simp at hn

theorem LinksAllocated.change {env : Env} {k : ChangeKind} {a b : Agent}
    (h : TableChange env k a b) (ha : LinksAllocated a) : LinksAllocated b := by
  cases h with
  | reads hframe _ => exact (Detaches.of_readFrame hframe).linksAllocated ha
  | announce key n data =>
      exact (Detaches.of_readFrame (.announce a n data _)).linksAllocated ha
  | session key f hf => exact (Detaches.updateSession a key hf).linksAllocated ha
  | detach key n del copyOut =>
      exact (detachResourceEA_detaches key n del copyOut a).linksAllocated ha
  | openSession key s _ hempty =>
      intro key' s' hs' n hn
      by_cases heq : key' = key
      · subst heq
        obtain rfl := Option.some.inj ((AList.lookup_insert _).symm.trans hs')
        rw [hempty] at hn
        cases hn
      · exact ha key' s' ((AList.lookup_insert_ne heq).symm.trans hs') n hn
  | closeSession key =>
      intro key' s' hs' n hn
      exact ha key' s' (AList.lookup_of_lookup_erase hs') n hn
  | insert q =>
      have hframe := insertResourceRecordEA_recordFrame env q a
      intro key s hs n hn
      rw [hframe.sessions] at hs
      rw [hframe.poolResources]
      exact ha key s hs n hn
  | create key id rid => exact ha.link key id rid _
  | attachAll key id rid => exact ha.link key id rid _
  | leak x =>
      intro key s hs n hn
      exact Nat.lt_succ_of_lt (ha key s hs n hn)

theorem LinksAllocated.step {a : Agent} (ha : LinksAllocated a) (i : Operation × Env) :
    LinksAllocated (a.step i) :=
  (i.1.run_changes i.2 a).invariant (fun _ _ _ _ h ha => ha.change h) ha

theorem linksAllocated_of_reached {a : Agent} (h : a.ReachedWhen fun _ _ => True) :
    LinksAllocated a := by
  refine Reachable.invariant (I := LinksAllocated) (fun a h₀ => ?_) (fun a i ha _ => ha.step i) h
  intro key s hs
  rw [h₀.sessions] at hs
  cases hs

end NanoAgent
