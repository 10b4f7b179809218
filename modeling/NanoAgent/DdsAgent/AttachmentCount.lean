import NanoAgent.DdsAgent.ReadFrame

/-!
# Counting attachments

`AttachmentsCounted` is what the bookkeeping of attached resources is for: the
count of every resource record is the number of attached resources that name it,
over all sessions, and every attached resource that a session links is live.

Counting is kept by attaching and by detaching (`AttachCore`). What detaching
does not keep is the liveness of what is linked, because the buffer of a detached
resource is returned while the session goes on linking it.
-/

namespace NanoAgent

open Prog

namespace Agent

/-- The number of linked attached resources that name a resource. -/
def attachments (a : Agent) (rid : ResourceId) : ℕ :=
  a.linked.countP fun n => (a.attached n).resource = rid

end Agent

/-- Counts agree with the attached resources, and these are live. -/
structure AttachmentsCounted (a : Agent) : Prop where
  count : ∀ rid r, a.resources.lookup rid = some r → r.attachedCount = a.attachments rid
  live : ∀ n ∈ a.linked, a.poolResources.Live n

/-- The part of the invariant that detaching keeps: a detached resource stays
linked and names nothing. -/
structure AttachCore (a : Agent) : Prop where
  count : ∀ rid r, a.resources.lookup rid = some r → r.attachedCount = a.attachments rid
  live : ∀ n ∈ a.linked, (a.attached n).resource ≠ .none → a.poolResources.Live n
  nodup : a.linked.Nodup
  allocated : ∀ n ∈ a.linked, n < a.poolResources.next
  sound : a.poolResources.Sound
  named : ∀ n ∈ a.linked, (a.attached n).resource ≠ .none →
    ∃ r, a.resources.lookup (a.attached n).resource = some r
  ids : ∀ rid r, a.resources.lookup rid = some r → r.id ≠ .none → r.id = rid
  valid : ∀ rid r, a.resources.lookup rid = some r → rid ≠ .none
  kept : ∀ rid r, a.resources.lookup rid = some r →
    r.nativeDeleted = false ∧ r.pendingDelete = false

/-- The invariant of runs in which no linked resource has been detached. -/
structure AttachInv (a : Agent) : Prop extends AttachCore a where
  whole : ∀ n ∈ a.linked, (a.attached n).resource ≠ .none

theorem AttachInv.counted {a : Agent} (h : AttachInv a) : AttachmentsCounted a where
  count := h.count
  live n hn := h.live n hn (h.whole n hn)

namespace ReadFrame

variable {a b : Agent}

theorem resource_eq (h : ReadFrame a b) (n : ℕ) :
    (b.attached n).resource = (a.attached n).resource := by
  have hn := congrArg AttachedResource.resource (h.attached n)
  exact hn

theorem kind_eq (h : ReadFrame a b) (n : ℕ) : (b.attached n).kind = (a.attached n).kind := by
  have hn := congrArg AttachedResource.kind (h.attached n)
  exact hn

theorem id_eq (h : ReadFrame a b) (n : ℕ) : (b.attached n).id = (a.attached n).id := by
  have hn := congrArg AttachedResource.id (h.attached n)
  exact hn

theorem live_iff (h : ReadFrame a b) (n : ℕ) :
    b.poolResources.Live n ↔ a.poolResources.Live n := by
  unfold BufferPool.Live
  rw [h.next, h.returned]

theorem attachments_eq (h : ReadFrame a b) (rid : ResourceId) :
    b.attachments rid = a.attachments rid := by
  unfold Agent.attachments
  rw [h.linked.countP_eq]
  simp only [h.resource_eq]

theorem attachCore (h : ReadFrame a b) (ha : AttachCore a) : AttachCore b where
  count rid r hr := by
    rw [h.attachments_eq]
    exact ha.count rid r (h.resources ▸ hr)
  live n hn hne := by
    rw [h.live_iff]
    exact ha.live n (h.linked.mem_iff.1 hn) (h.resource_eq n ▸ hne)
  nodup := h.linked.nodup_iff.2 ha.nodup
  allocated n hn := h.next ▸ ha.allocated n (h.linked.mem_iff.1 hn)
  sound m hm := h.next ▸ ha.sound m (h.returned ▸ hm)
  named n hn hne := by
    rw [h.resources, h.resource_eq]
    exact ha.named n (h.linked.mem_iff.1 hn) (h.resource_eq n ▸ hne)
  ids rid r hr := ha.ids rid r (h.resources ▸ hr)
  valid rid r hr := ha.valid rid r (h.resources ▸ hr)
  kept rid r hr := ha.kept rid r (h.resources ▸ hr)

theorem attachInv (h : ReadFrame a b) (ha : AttachInv a) : AttachInv b where
  toAttachCore := h.attachCore ha.toAttachCore
  whole n hn := by
    rw [h.resource_eq]
    exact ha.whole n (h.linked.mem_iff.1 hn)

end ReadFrame

/-- A change of the records that leaves counts, identifiers and flags alone. -/
theorem AttachInv.of_records {a b : Agent} (ha : AttachInv a) (hs : b.sessions = a.sessions)
    (hp : b.poolResources = a.poolResources)
    (hold : ∀ n ∈ a.linked, ∀ r, a.resources.lookup (a.attached n).resource = some r →
      ∃ r', b.resources.lookup (a.attached n).resource = some r')
    (hnew : ∀ rid r', b.resources.lookup rid = some r' →
      r'.attachedCount = a.attachments rid ∧ (r'.id ≠ .none → r'.id = rid) ∧ rid ≠ .none ∧
        r'.nativeDeleted = false ∧ r'.pendingDelete = false) : AttachInv b := by
  have hlinked : b.linked = a.linked := by rw [Agent.linked, hs, Agent.linked]
  have hatt : ∀ n, b.attached n = a.attached n := by
    intro n
    rw [Agent.attached, hp, Agent.attached]
  have hcount : ∀ rid, b.attachments rid = a.attachments rid := by
    intro rid
    simp only [Agent.attachments, hlinked, hatt]
  refine ⟨⟨?_, ?_, ?_, ?_, ?_, ?_, ?_, ?_, ?_⟩, ?_⟩
  · intro rid r hr
    rw [hcount]
    exact (hnew rid r hr).1
  · intro n hn hne
    rw [hp]
    exact ha.live n (hlinked ▸ hn) (hatt n ▸ hne)
  · exact hlinked ▸ ha.nodup
  · intro n hn
    rw [hp]
    exact ha.allocated n (hlinked ▸ hn)
  · rw [hp]
    exact ha.sound
  · intro n hn hne
    rw [hatt] at hne ⊢
    obtain ⟨r, hr⟩ := ha.named n (hlinked ▸ hn) hne
    exact hold n (hlinked ▸ hn) r hr
  · intro rid r hr
    exact (hnew rid r hr).2.1
  · intro rid r hr
    exact (hnew rid r hr).2.2.1
  · intro rid r hr
    exact (hnew rid r hr).2.2.2
  · intro n hn
    rw [hatt]
    exact ha.whole n (hlinked ▸ hn)

namespace AttachInv

variable {a : Agent}

/-- No linked resource names a resource without a record. -/
theorem attachments_eq_zero (ha : AttachCore a) {rid : ResourceId} (hrid : rid ≠ .none)
    (h : a.resources.lookup rid = none) : a.attachments rid = 0 := by
  unfold Agent.attachments
  rw [List.countP_eq_zero]
  intro n hn hname
  have hname : (a.attached n).resource = rid := by simpa using hname
  obtain ⟨r, hr⟩ := ha.named n hn (by rw [hname]; exact hrid)
  rw [hname, h] at hr
  cases hr

theorem insertResource (ha : AttachInv a) {rid : ResourceId} (hrid : rid ≠ .none)
    (h : a.resources.lookup rid = none) : AttachInv (a.insertResource rid) := by
  refine ha.of_records rfl rfl ?_ ?_
  · intro n _ r hr
    by_cases hn : (a.attached n).resource = rid
    · rw [hn, h] at hr
      cases hr
    · exact ⟨r, by rw [← hr]; exact AList.lookup_insert_ne hn⟩
  · intro rid' r' hr'
    by_cases hne : rid' = rid
    · subst hne
      have hr : r' = .initial := by
        have hlookup : (a.insertResource rid').resources.lookup rid' = some .initial :=
          AList.lookup_insert _
        rw [hlookup] at hr'
        exact (Option.some.inj hr').symm
      subst hr
      refine ⟨?_, fun h => absurd rfl h, hrid, rfl, rfl⟩
      rw [attachments_eq_zero ha.toAttachCore hrid h]
      rfl
    · have hr : a.resources.lookup rid' = some r' := by
        rw [← hr']
        exact (AList.lookup_insert_ne hne).symm
      exact ⟨ha.count _ _ hr, ha.ids _ _ hr, ha.valid _ _ hr, ha.kept _ _ hr⟩

/-- A record may be changed as long as its count, its flags and, once set, its
identifier are left alone. -/
theorem updateResource (ha : AttachInv a) (rid : ResourceId) {f : Resource → Resource}
    (hf : ∀ r, a.resources.lookup rid = some r → (f r).attachedCount = r.attachedCount ∧
      ((f r).id ≠ .none → (f r).id = rid) ∧ (f r).nativeDeleted = false ∧
        (f r).pendingDelete = false) : AttachInv (a.updateResource rid f) := by
  have hlookup : ∀ rid', (a.updateResource rid f).resources.lookup rid' =
      if rid' = rid then (a.resources.lookup rid').map f else a.resources.lookup rid' :=
    fun rid' => AList.lookup_modify rid rid' f a.resources
  refine ha.of_records rfl rfl ?_ ?_
  · intro n _ r hr
    rw [hlookup, hr]
    split
    · exact ⟨f r, rfl⟩
    · exact ⟨r, rfl⟩
  · intro rid' r' hr'
    rw [hlookup] at hr'
    split at hr'
    · rename_i hrid
      subst hrid
      obtain ⟨r, hr, rfl⟩ := Option.map_eq_some_iff.1 hr'
      obtain ⟨hcount, hid, hdel, hpend⟩ := hf r hr
      exact ⟨hcount.trans (ha.count _ _ hr), hid, ha.valid _ _ hr, hdel, hpend⟩
    · exact ⟨ha.count _ _ hr', ha.ids _ _ hr', ha.valid _ _ hr', ha.kept _ _ hr'⟩

/-- A buffer that is taken and not linked changes nothing. -/
theorem takeBuffer (ha : AttachInv a) (x : AttachedResource) :
    AttachInv { a with poolResources := a.poolResources.take x } := by
  have hatt : ∀ n ∈ a.linked, (a.poolResources.take x).content n = a.attached n := by
    intro n hn
    exact BufferPool.content_take_of_ne _ _ (Nat.ne_of_lt (ha.allocated n hn))
  have hcount : ∀ rid, Agent.attachments { a with poolResources := a.poolResources.take x } rid =
      a.attachments rid := by
    intro rid
    refine List.countP_congr fun n hn => ?_
    change decide (((a.poolResources.take x).content n).resource = rid) = true ↔ _
    rw [hatt n hn]
  refine ⟨⟨?_, ?_, ha.nodup, ?_, ha.sound.take x, ?_, ha.ids, ha.valid, ha.kept⟩, ?_⟩
  · intro rid r hr
    rw [hcount]
    exact ha.count rid r hr
  · intro n hn hne
    exact (ha.live n hn (ha.whole n hn)).take x
  · intro n hn
    exact Nat.lt_succ_of_lt (ha.allocated n hn)
  · intro n hn hne
    change ∃ r, a.resources.lookup ((a.poolResources.take x).content n).resource = some r
    rw [hatt n hn]
    exact ha.named n hn (ha.whole n hn)
  · intro n hn
    change ((a.poolResources.take x).content n).resource ≠ .none
    rw [hatt n hn]
    exact ha.whole n hn

end AttachInv

section Link

variable {a : Agent} {key : ClientSessionKey} {id : ℕ} {rid : ResourceId} {r : Resource}

theorem Agent.linked_link_perm {s : ClientSession} (hs : a.sessions.lookup key = some s) :
    (a.link key id rid r).linked.Perm (a.poolResources.next :: a.linked) :=
  AList.collect_modify_append_perm _ [a.poolResources.next] hs rfl

theorem Agent.attached_link_self :
    (a.link key id rid r).attached a.poolResources.next = .initial r.kind r.id id key :=
  BufferPool.content_take_self _ _

theorem Agent.attached_link_of_lt {n : ℕ} (hn : n < a.poolResources.next) :
    (a.link key id rid r).attached n = a.attached n :=
  BufferPool.content_take_of_ne _ _ (Nat.ne_of_lt hn)

theorem Agent.lookup_link (rid' : ResourceId) :
    (a.link key id rid r).resources.lookup rid' =
      if rid' = rid then (a.resources.lookup rid').map
        fun r => { r with attachedCount := r.attachedCount + 1 }
      else a.resources.lookup rid' :=
  AList.lookup_modify _ _ _ _

/-- Linking adds one to the count of its own record, and changes nothing else in
the records. -/
theorem Agent.exists_of_lookup_link {rid' : ResourceId} {r' : Resource}
    (h : (a.link key id rid r).resources.lookup rid' = some r') :
    ∃ r₀, a.resources.lookup rid' = some r₀ ∧
      r' = { r₀ with attachedCount := r₀.attachedCount + if rid' = rid then 1 else 0 } := by
  rw [Agent.lookup_link] at h
  split at h
  · obtain ⟨r₀, hr₀, rfl⟩ := Option.map_eq_some_iff.1 h
    exact ⟨r₀, hr₀, by simp [*]⟩
  · exact ⟨r', h, by simp [*]⟩

theorem Agent.attachments_link {s : ClientSession} (ha : AttachCore a)
    (hs : a.sessions.lookup key = some s) (hid : r.id = rid) (rid' : ResourceId) :
    (a.link key id rid r).attachments rid' =
      a.attachments rid' + if rid' = rid then 1 else 0 := by
  have hrest : a.linked.countP (fun n => ((a.link key id rid r).attached n).resource = rid') =
      a.attachments rid' := by
    refine List.countP_congr fun n hn => ?_
    rw [Agent.attached_link_of_lt (ha.allocated n hn)]
  unfold Agent.attachments at hrest ⊢
  rw [(Agent.linked_link_perm hs).countP_eq, List.countP_cons, hrest, Agent.attached_link_self]
  simp [AttachedResource.initial, hid, eq_comm]

/-- Linking the buffer that was taken last, and counting it in its record. -/
theorem AttachInv.link (ha : AttachInv a) {s : ClientSession}
    (hs : a.sessions.lookup key = some s) (hr : a.resources.lookup rid = some r)
    (hid : r.id ≠ .none) : AttachInv (a.link key id rid r) := by
  have hrid : r.id = rid := ha.ids rid r hr hid
  have hperm : (a.link key id rid r).linked.Perm (a.poolResources.next :: a.linked) :=
    Agent.linked_link_perm hs
  have hmem : ∀ n, n ∈ (a.link key id rid r).linked ↔
      n = a.poolResources.next ∨ n ∈ a.linked := by
    intro n
    rw [hperm.mem_iff, List.mem_cons]
  refine ⟨⟨?_, ?_, ?_, ?_, ?_, ?_, ?_, ?_, ?_⟩, ?_⟩
  · intro rid' r' hr'
    obtain ⟨r₀, hr₀, rfl⟩ := Agent.exists_of_lookup_link hr'
    rw [Agent.attachments_link ha.toAttachCore hs hrid, ← ha.count _ _ hr₀]
  · intro n hn _
    rcases (hmem n).1 hn with rfl | hn
    · exact ha.sound.live_take _
    · exact (ha.live n hn (ha.whole n hn)).take _
  · rw [hperm.nodup_iff]
    refine List.nodup_cons.2 ⟨?_, ha.nodup⟩
    intro hn
    exact Nat.lt_irrefl _ (ha.allocated _ hn)
  · intro n hn
    rcases (hmem n).1 hn with rfl | hn
    · exact Nat.lt_succ_self _
    · exact Nat.lt_succ_of_lt (ha.allocated n hn)
  · exact ha.sound.take _
  · intro n hn _
    rw [Agent.lookup_link]
    rcases (hmem n).1 hn with rfl | hn
    · have hname : (AttachedResource.initial r.kind r.id id key).resource = rid := hrid
      rw [Agent.attached_link_self, hname, hr]
      simp
    · rw [Agent.attached_link_of_lt (ha.allocated n hn)]
      obtain ⟨r₀, hr₀⟩ := ha.named n hn (ha.whole n hn)
      rw [hr₀]
      split <;> simp
  · intro rid' r' hr' hne
    obtain ⟨r₀, hr₀, rfl⟩ := Agent.exists_of_lookup_link hr'
    have hid' : r₀.id = rid' := ha.ids _ r₀ hr₀ hne
    exact hid'
  · intro rid' r' hr'
    obtain ⟨r₀, hr₀, -⟩ := Agent.exists_of_lookup_link hr'
    exact ha.valid _ _ hr₀
  · intro rid' r' hr'
    obtain ⟨r₀, hr₀, rfl⟩ := Agent.exists_of_lookup_link hr'
    have hkept := ha.kept _ r₀ hr₀
    exact hkept
  · intro n hn
    rcases (hmem n).1 hn with rfl | hn
    · rw [Agent.attached_link_self]
      exact hid
    · rw [Agent.attached_link_of_lt (ha.allocated n hn)]
      exact ha.whole n hn

end Link

/-- The table of sessions may change as long as it links the same resources. -/
theorem AttachInv.of_linked {a b : Agent} (ha : AttachInv a) (hr : b.resources = a.resources)
    (hp : b.poolResources = a.poolResources) (hl : b.linked.Perm a.linked) : AttachInv b := by
  have hatt : ∀ n, b.attached n = a.attached n := by
    intro n
    rw [Agent.attached, hp, Agent.attached]
  have hcount : ∀ rid, b.attachments rid = a.attachments rid := by
    intro rid
    unfold Agent.attachments
    rw [hl.countP_eq]
    simp only [hatt]
  refine ⟨⟨?_, ?_, hl.nodup_iff.2 ha.nodup, ?_, ?_, ?_, ?_, ?_, ?_⟩, ?_⟩
  · intro rid r hlookup
    rw [hcount]
    exact ha.count rid r (hr ▸ hlookup)
  · intro n hn hne
    rw [hp]
    exact ha.live n (hl.mem_iff.1 hn) (hatt n ▸ hne)
  · intro n hn
    rw [hp]
    exact ha.allocated n (hl.mem_iff.1 hn)
  · rw [hp]
    exact ha.sound
  · intro n hn hne
    rw [hatt] at hne ⊢
    rw [hr]
    exact ha.named n (hl.mem_iff.1 hn) hne
  · intro rid r hlookup
    exact ha.ids rid r (hr ▸ hlookup)
  · intro rid r hlookup
    exact ha.valid rid r (hr ▸ hlookup)
  · intro rid r hlookup
    exact ha.kept rid r (hr ▸ hlookup)
  · intro n hn
    rw [hatt]
    exact ha.whole n (hl.mem_iff.1 hn)

namespace AttachInv

variable {a : Agent}

theorem insertSession (ha : AttachInv a) {key : ClientSessionKey} {s : ClientSession}
    (h : a.sessions.lookup key = none) (hs : s.resources = []) :
    AttachInv (a.insertSession key s) := by
  refine ha.of_linked rfl rfl ?_
  change ((a.sessions.insert key s).collect (·.resources)).Perm _
  rw [AList.collect_insert, AList.erase_of_lookup_none h, hs]
  exact .refl _

theorem updateSession (ha : AttachInv a) (key : ClientSessionKey)
    {f : ClientSession → ClientSession} (hf : ∀ s, (f s).resources = s.resources) :
    AttachInv (a.updateSession key f) :=
  ha.of_linked rfl rfl (AList.collect_modify_perm _ hf)

/-- A session that links nothing can be removed. -/
theorem eraseSession (ha : AttachInv a) {key : ClientSessionKey}
    (h : ∀ s, a.sessions.lookup key = some s → s.resources = []) :
    AttachInv (a.eraseSession key) := by
  refine ha.of_linked rfl rfl ?_
  change ((a.sessions.erase key).collect (·.resources)).Perm (a.sessions.collect (·.resources))
  cases hs : a.sessions.lookup key with
  | none =>
      rw [AList.erase_of_lookup_none hs]
  | some s =>
      have hperm := (AList.collect_perm_of_lookup (·.resources) hs).symm
      rw [h s hs] at hperm
      exact hperm

end AttachInv

namespace AgentM

/-- Linking needs the session in the table. -/
def Attaching (key : ClientSessionKey) (a : Agent) : Prop :=
  AttachInv a ∧ (a.sessions.lookup key).isSome

theorem Attaching.of_frame {key : ClientSessionKey} {a b : Agent} (ha : Attaching key a)
    (h : ReadFrame a b) : Attaching key b := by
  refine ⟨h.attachInv ha.1, ?_⟩
  have hs := congrArg Option.isSome (h.session key)
  simpa [ha.2] using hs

/-- What only changes reads keeps the invariant. -/
theorem preserves_of_frame {α : Type} {key : ClientSessionKey} {x : AgentM α}
    (hx : Within ReadFrame x) : Preserves (Attaching key) x :=
  fun a ha => ha.of_frame (hx a)

theorem Attaching.link {key : ClientSessionKey} {a : Agent} (ha : Attaching key a) (id : ℕ)
    {rid : ResourceId} {r : Resource} (hr : a.resources.lookup rid = some r)
    (hid : r.id ≠ .none) : Attaching key (a.link key id rid r) := by
  obtain ⟨s, hs⟩ := Option.isSome_iff_exists.1 ha.2
  refine ⟨ha.1.link hs hr hid, ?_⟩
  change ((a.sessions.modify key _).lookup key).isSome
  rw [AList.lookup_modify_self, hs]
  rfl

theorem attachResourceToSessionEA_preserves (env : Env) (key : ClientSessionKey) (id : ℕ)
    (rid : ResourceId) : Preserves (Attaching key) (attachResourceToSessionEA env key id rid) := by
  intro a ha
  simp only [attachResourceToSessionEA, onlyIf_ensure, read_bind_apply]
  refine keeps_require ha fun r hr => keeps_ensure ha fun _ => keeps_ensure ha fun _ => ?_
  split
  · rename_i hid
    simp only [Bool.and_eq_true, bne_iff_ne] at hid
    exact ha.link id hr hid.1
  · exact ⟨ha.1.takeBuffer _, ha.2⟩

/-- The database refuses the access that detaching starts with. -/
def DetachRefused (env : Env) : Prop := env.ok (.lockResources .detach) = false

theorem detachResourceEA_refused {env : Env} (h : DetachRefused env) (key : ClientSessionKey)
    (n : ℕ) (deleteRequest copyOut : Bool) (a : Agent) :
    detachResourceEA env key n deleteRequest copyOut a = (none, a) := by
  unfold DetachRefused at h
  simp [detachResourceEA, countOutEA, bind_apply, h, ensure]

/-- The interface accepts the resource `id`, or it cannot be detached again. -/
def Accepts (env : Env) (key : ClientSessionKey) (id : ℕ) : Prop :=
  env.ok (.onResourceCreated key id) = true ∨ DetachRefused env

/-- Attaching all resources keeps the invariant as long as the interface accepts
them: a refused resource is detached again. -/
theorem attachNewEA_preserves (env : Env) (key : ClientSessionKey) (rid : ResourceId) (id : ℕ)
    (hok : Accepts env key id) : Preserves (Attaching key) (attachNewEA env key rid id) := by
  refine .bind (attachResourceToSessionEA_preserves _ _ _ _) fun n => ?_
  refine .bind (preserves_of_frame (enableResourceEA_frame _ _)) fun _ => ?_
  refine .ite (fun _ => preserves_of_frame (.modify fun a => ?_)) fun hno => ?_
  · refine .notify (.updateAttached (.rfl' a) n ?_) _
    intro x
    rfl
  · refine .bind (.ignore fun a ha => ?_) fun _ => .fail
    rw [detachResourceEA_refused (hok.resolve_left hno)]
    exact ha

theorem attachOneEA_preserves (env : Env) (key : ClientSessionKey) (rid : ResourceId)
    (hok : ∀ id, Accepts env key id) : Preserves (Attaching key) (attachOneEA env key rid) := by
  refine .read fun a => .bind (.ensure _) fun _ => ?_
  cases a.resources.lookup rid with
  | none => exact .pure _
  | some r =>
      refine .bind (.onlyIf fun _ => .bind (.require _) fun id => ?_) fun _ => .ensure _
      exact .bind (.require _) fun s => .onlyIf fun _ => attachNewEA_preserves _ _ _ _ (hok id)

theorem attachAllResourcesToSessionEA_preserves (env : Env) (key : ClientSessionKey)
    (hok : ∀ id, Accepts env key id) :
    Preserves (Attaching key) (attachAllResourcesToSessionEA env key) :=
  .bind (.ensure _) fun _ => .read fun _ => .forEach fun rid _ =>
    attachOneEA_preserves env key rid hok

/-- The entities, the pools of readers and writers and the triggers are outside
the invariant. -/
theorem modify_preserves {key : ClientSessionKey} {f : Agent → Agent}
    (hr : ∀ a, (f a).resources = a.resources) (hs : ∀ a, (f a).sessions = a.sessions)
    (hp : ∀ a, (f a).poolResources = a.poolResources) : Preserves (Attaching key) (modify f) := by
  intro a ha
  refine ⟨ha.1.of_linked (hr a) (hp a) ?_, ?_⟩
  · rw [modify_apply, Agent.linked, hs a]
    exact .refl _
  · rw [modify_apply, hs a]
    exact ha.2

theorem initializeUserDataEA_preserves (env : Env) (key : ClientSessionKey) (rid : ResourceId)
    (kind : ResourceKind) : Preserves (Attaching key) (initializeUserDataEA env rid kind) := by
  have hrecord : ∀ n : ℕ, Preserves (Attaching key) (modify fun a : Agent =>
      a.updateResource rid fun r => { r with userData := some n }) := by
    intro n a ha
    refine ⟨ha.1.updateResource rid fun r hr => ?_, ha.2⟩
    exact ⟨rfl, ha.1.ids rid r hr, ha.1.kept rid r hr⟩
  have hpool : ∀ f : Agent → Agent, (∀ a, (f a).resources = a.resources ∧
      (f a).sessions = a.sessions ∧ (f a).poolResources = a.poolResources) →
      Preserves (Attaching key) (modify f) := fun f hf =>
    modify_preserves (fun a => (hf a).1) (fun a => (hf a).2.1) fun a => (hf a).2.2
  refine .read fun a => .ite (fun _ => ?_) fun _ => .ite (fun _ => ?_) fun _ => .pure _
  · refine .bind (.ensure _) fun _ => .bind (hpool _ fun _ => ⟨rfl, rfl, rfl⟩) fun _ => ?_
    refine .bind (.onlyIf fun _ => .bind (hpool _ fun _ => ⟨rfl, rfl, rfl⟩) fun _ => .fail)
      fun _ => ?_
    refine .bind (hrecord _) fun _ => .onlyIf fun _ => ?_
    exact .bind (hpool _ fun _ => ⟨rfl, rfl, rfl⟩) fun _ => .fail
  · refine .bind (.ensure _) fun _ => .bind (hpool _ fun _ => ⟨rfl, rfl, rfl⟩) fun _ => ?_
    refine .bind (.onlyIf fun _ => .bind (hpool _ fun _ => ⟨rfl, rfl, rfl⟩) fun _ => .fail)
      fun _ => ?_
    exact hrecord _

/-- Initialising a record keeps its count at zero, which it is for the record
that was just inserted. -/
theorem initializeRecordEA_keeps (env : Env) (key : ClientSessionKey) (rid : ResourceId)
    (q : CreateRequest) {a : Agent} (ha : Attaching key a)
    (hr : a.resources.lookup rid = some .initial) :
    Attaching key (initializeRecordEA env rid q a).2 := by
  have hrid : rid ≠ .none := ha.1.valid rid _ hr
  have hb : Attaching key (a.updateResource rid fun _ =>
    { Resource.initial with kind := q.kind }) := by
    refine ⟨ha.1.updateResource rid fun r h => ?_, ha.2⟩
    rw [hr] at h
    obtain rfl := Option.some.inj h
    exact ⟨rfl, fun h => absurd rfl h, rfl, rfl⟩
  simp only [initializeRecordEA, onlyIf_ensure]
  refine keeps_ensure ha fun _ => ?_
  rw [read_bind_apply]
  refine keeps_ensure ha fun _ => keeps_ensure ha fun _ => ?_
  rw [modify_bind_apply]
  refine keeps_ensure hb fun _ => ?_
  rw [modify_bind_apply]
  refine initializeUserDataEA_preserves env key rid q.kind _ ⟨?_, hb.2⟩
  refine hb.1.updateResource rid fun r h => ?_
  have hkept := hb.1.kept rid r h
  exact ⟨rfl, fun _ => rfl, hkept⟩

theorem insertResourceRecordEA_preserves (env : Env) (key : ClientSessionKey)
    (q : CreateRequest) : Preserves (Attaching key) (insertResourceRecordEA env q) := by
  refine .bind (modify_preserves (fun _ => rfl) (fun _ => rfl) fun _ => rfl) fun _ => ?_
  refine .bind (.ensure _) fun _ => .bind (.require _) fun first => .bind (.ensure _) fun _ => ?_
  intro a ha
  refine keeps_ensure ha fun hrid => keeps_ensure ha fun _ => ?_
  have hrid : first.2 ≠ .none := by simpa using hrid
  refine Within.bind (R := fun a b => Attaching key a → Attaching key b) ?_ ?_ a ha
  · intro b hb
    unfold obtainRecordEA
    rw [read_bind_apply]
    cases hlookup : b.resources.lookup first.2 with
    | some r => exact Within.ensure (R := fun a b => Attaching key a → Attaching key b) _ b hb
    | none =>
        have hins : Attaching key (b.insertResource first.2) := by
          refine ⟨hb.1.insertResource hrid hlookup, ?_⟩
          exact hb.2
        exact initializeRecordEA_keeps env key first.2 q hins (AList.lookup_insert _)
  · intro _
    refine .bind (.ensure _) fun _ => ?_
    refine .bind (modify_preserves (fun _ => rfl) (fun _ => rfl) fun _ => rfl) fun _ => ?_
    exact .read fun _ => .bind (.require _) fun _ => .pure _

theorem reuseAttachedEA_frame (env : Env) (n : ℕ) (q : CreateRequest) :
    Within ReadFrame (reuseAttachedEA env n q) :=
  .read fun _ => .bind (lookupResource_frame _ _ _) fun _ => .bind (.require _) fun _ =>
    .bind (.ensure _) fun _ => .bind (.require _) fun _ => .bind (.ensure _) fun _ =>
    .bind (.ensure _) fun _ => .bind (.onlyIf fun _ => cancelReadEA_frame _ _ _) fun _ => .pure _

theorem checkCreate_frame {R : Agent → Agent → Prop} [IsPreorder Agent R] (s : ClientSession)
    (q : CreateRequest) : Within R (checkCreate s q) := by
  refine .read fun a => .bind (.ensure _) fun _ => .bind (.ensure _) fun _ => ?_
  refine .bind (.onlyIf fun _ => .bind (.require _) fun _ => .ensure _) fun _ => ?_
  refine .ite (fun _ => .pure _) fun _ => ?_
  cases a.findAttachedResource s q.id with
  | none => exact .pure _
  | some n => exact .bind (.ensure _) fun _ => .bind (.ensure _) fun _ => .pure _

theorem finishCreateEA_frame (env : Env) (key : ClientSessionKey) (n : ℕ) (rid : ResourceId)
    (cancelled : Bool) : Within ReadFrame (finishCreateEA env key n rid cancelled) := by
  refine .bind (enableResourceEA_frame _ _) fun _ => .bind (.ensure _) fun _ => ?_
  exact .bind (.ensure _) fun _ => .onlyIf fun _ => .modify fun a => .notify (.rfl' a) _

theorem createResourceEA_preserves (env : Env) (key : ClientSessionKey) (q : CreateRequest) :
    Preserves (Attaching key) (createResourceEA env key q) := by
  refine .read fun a => .bind (.require _) fun s => .bind (checkCreate_frame _ _) fun found => ?_
  refine .bind (.ensure _) fun _ => .bind ?_ fun obtained => ?_
  · cases found with
    | some n => exact .bind (preserves_of_frame (reuseAttachedEA_frame _ _ _)) fun _ => .pure _
    | none =>
        refine .bind (insertResourceRecordEA_preserves _ _ _) fun inserted => ?_
        refine .bind (.require _) fun rid => ?_
        exact .bind (attachResourceToSessionEA_preserves _ _ _ _) fun _ => .pure _
  · exact .bind (preserves_of_frame (finishCreateEA_frame _ _ _ _ _)) fun _ => .pure _

end AgentM

end NanoAgent
