import NanoAgent.DdsAgent.RecordChange

/-!
# The identifiers of attached resources

The client names an attached resource by an identifier of 16 bits. It is given by the
client that creates the resource, or hashed from the name of the resource by
`hashedId` where all resources are attached automatically. An attached resource that is
created without an identifier is left with the invalid one, since the identifier that is
hashed for it is not stored.

Apart from that the identifiers of a session are distinct, none is invalid, and the
interface is told an identifier by which the attached resource is found again.
-/

namespace NanoAgent

open Prog AgentM

/-- The kind that `NDDSA_Agent_generate_attached_resource_id` encodes in an identifier. -/
def ResourceKind.idKind : ResourceKind → Option ℕ
  | .domainParticipant => some 1
  | .topic => some 2
  | .publisher => some 3
  | .subscriber => some 4
  | .dataWriter => some 5
  | .dataReader => some 6
  | _ => none

/-- The identifier made by `NDDSA_Agent_generate_attached_resource_id`: the first octet of
the hash, the high half of its second octet, and the kind. `digest` gives the first two
octets of the hash of the reference of a resource. -/
def hashedId (digest : ResourceId → ℕ × ℕ) (rid : ResourceId) (kind : ResourceKind) : Option ℕ :=
  kind.idKind.map fun k =>
    (digest rid).1 % 256 * 256 + ((digest rid).2 % 256 / 16 * 16 + k)

/-- The identifiers of the attached resources of a session. -/
def Agent.resourceIds (a : Agent) (s : ClientSession) : List ℕ :=
  s.resources.map fun n => (a.attached n).id

/-- The identifiers of every session are distinct and valid. -/
structure DistinctIds (a : Agent) : Prop where
  allocated : LinksAllocated a
  nodup : ∀ key s, a.sessions.lookup key = some s → (a.resourceIds s).Nodup
  valid : ∀ key s, a.sessions.lookup key = some s → attachedResourceIdInvalid ∉ a.resourceIds s
  generated : ∀ rid kind, a.generateAttachedResourceId rid kind ≠ some attachedResourceIdInvalid

theorem mem_resourceIds_iff {a : Agent} {s : ClientSession} {id : ℕ} :
    id ∈ a.resourceIds s ↔ ∃ n ∈ s.resources, (a.attached n).id = id :=
  List.mem_map

theorem notMem_resourceIds_of_find {a : Agent} {s : ClientSession} {id : ℕ}
    (h : a.findAttachedResource s id = none) : id ∉ a.resourceIds s := by
  rw [mem_resourceIds_iff]
  rintro ⟨n, hn, hid⟩
  have hnone := List.find?_eq_none.1 h n hn
  simp [hid] at hnone

/-- A change after which every session has the identifiers that it had. -/
theorem DistinctIds.of_ids {a b : Agent} (ha : DistinctIds a) (hb : LinksAllocated b)
    (hid : b.autoId = a.autoId)
    (h : ∀ key s, b.sessions.lookup key = some s →
      ∃ s₀, a.sessions.lookup key = some s₀ ∧ b.resourceIds s = a.resourceIds s₀) :
    DistinctIds b where
  allocated := hb
  nodup key s hs := by
    obtain ⟨s₀, hs₀, heq⟩ := h key s hs
    rw [heq]
    exact ha.nodup key s₀ hs₀
  valid key s hs := by
    obtain ⟨s₀, hs₀, heq⟩ := h key s hs
    rw [heq]
    exact ha.valid key s₀ hs₀
  generated rid kind := by
    unfold Agent.generateAttachedResourceId
    rw [hid]
    exact ha.generated rid kind

theorem Detaches.resourceIds_eq {a b : Agent} (h : Detaches a b) {s s₀ : ClientSession}
    (hs : s₀.resources = s.resources) : b.resourceIds s = a.resourceIds s₀ := by
  unfold Agent.resourceIds
  rw [hs]
  exact List.map_congr_left fun n _ => h.id n

theorem Detaches.distinctIds {a b : Agent} (h : Detaches a b) (ha : DistinctIds a) :
    DistinctIds b := by
  refine ha.of_ids (h.linksAllocated ha.allocated) h.autoId fun key s hs => ?_
  obtain ⟨s₀, hs₀, hlist⟩ := h.exists_session hs
  exact ⟨s₀, hs₀, h.resourceIds_eq hlist⟩

/-- Taking a buffer does not touch the attached resources that are linked. -/
theorem resourceIds_take {a b : Agent} {s : ClientSession} {x : AttachedResource}
    (hs : ∀ n ∈ s.resources, n < a.poolResources.next)
    (hp : b.poolResources = a.poolResources.take x) : b.resourceIds s = a.resourceIds s := by
  refine List.map_congr_left fun n hn => ?_
  unfold Agent.attached
  rw [hp, BufferPool.content_take_of_ne _ _ (Nat.ne_of_lt (hs n hn))]

/-- The identifiers of a session after linking. -/
theorem exists_of_resourceIds_link {a : Agent} (ha : LinksAllocated a)
    {key key' : ClientSessionKey} {id : ℕ} {rid : ResourceId} {r : Resource} {s : ClientSession}
    (hs : (a.link key id rid r).sessions.lookup key' = some s) :
    ∃ s₀, a.sessions.lookup key' = some s₀ ∧ (a.link key id rid r).resourceIds s =
      a.resourceIds s₀ ++ if key' = key then [id] else [] := by
  obtain ⟨s₀, hs₀, hlist⟩ := Agent.exists_of_session_link hs
  refine ⟨s₀, hs₀, ?_⟩
  have hold : (a.link key id rid r).resourceIds s₀ = a.resourceIds s₀ :=
    resourceIds_take (fun n hn => ha key' s₀ hs₀ n hn) rfl
  unfold Agent.resourceIds at hold ⊢
  rw [hlist, List.map_append, hold]
  split
  · rw [List.map_singleton, Agent.attached_link_self]
    rfl
  · rfl

theorem DistinctIds.link {a : Agent} (ha : DistinctIds a) {key : ClientSessionKey}
    {s : ClientSession} (hs : a.sessions.lookup key = some s) {id : ℕ}
    (hid : id ≠ attachedResourceIdInvalid) (hfree : a.findAttachedResource s id = none)
    (rid : ResourceId) (r : Resource) : DistinctIds (a.link key id rid r) where
  allocated := ha.allocated.link key id rid r
  nodup key' s' hs' := by
    obtain ⟨s₀, hs₀, heq⟩ := exists_of_resourceIds_link ha.allocated hs'
    rw [heq]
    split
    · rename_i hkey
      subst hkey
      obtain rfl := Option.some.inj (hs.symm.trans hs₀)
      rw [List.nodup_append]
      refine ⟨ha.nodup _ _ hs, List.nodup_singleton id, ?_⟩
      rintro x hx y hy rfl
      rw [List.mem_singleton] at hy
      subst hy
      exact notMem_resourceIds_of_find hfree hx
    · rw [List.append_nil]
      exact ha.nodup key' s₀ hs₀
  valid key' s' hs' := by
    obtain ⟨s₀, hs₀, heq⟩ := exists_of_resourceIds_link ha.allocated hs'
    rw [heq, List.mem_append]
    rintro (hmem | hmem)
    · exact ha.valid key' s₀ hs₀ hmem
    · split at hmem
      · exact hid (List.mem_singleton.1 hmem).symm
      · simp at hmem
  generated := ha.generated

/-- A change that does not attach a resource under the invalid identifier. -/
theorem DistinctIds.change {env : Env} {k : ChangeKind} {a b : Agent} (h : TableChange env k a b)
    (hk : k ≠ .create attachedResourceIdInvalid) (ha : DistinctIds a) : DistinctIds b := by
  have hb : LinksAllocated b := ha.allocated.change h
  cases h with
  | reads hframe _ => exact (Detaches.of_readFrame hframe).distinctIds ha
  | announce key n data => exact (Detaches.of_readFrame (.announce a n data _)).distinctIds ha
  | session key f hf => exact (Detaches.updateSession a key hf).distinctIds ha
  | detach key n del copyOut => exact (detachResourceEA_detaches key n del copyOut a).distinctIds ha
  | closeSession key =>
      exact ha.of_ids hb rfl fun key' s hs => ⟨s, AList.lookup_of_lookup_erase hs, rfl⟩
  | insert q =>
      have hframe := insertResourceRecordEA_recordFrame env q a
      refine ha.of_ids hb hframe.autoId fun key s hs => ⟨s, by rw [← hframe.sessions]; exact hs, ?_⟩
      unfold Agent.resourceIds Agent.attached
      rw [hframe.poolResources]
  | leak x =>
      exact ha.of_ids hb rfl fun key s hs =>
        ⟨s, hs, resourceIds_take (fun n hn => ha.allocated key s hs n hn) rfl⟩
  | attachAll key id rid hs _ _ _ hid hfree =>
      refine ha.link hs ?_ hfree rid _
      rintro rfl
      exact ha.generated _ _ hid
  | create key id rid hs _ _ _ hfree =>
      have hid : id ≠ attachedResourceIdInvalid := by
        rintro rfl
        exact hk rfl
      exact ha.link hs hid (hfree.resolve_left hid) rid _
  | openSession key s hnew hempty =>
      refine ⟨hb, fun key' s' hs' => ?_, fun key' s' hs' => ?_, ha.generated⟩
      all_goals
        by_cases hkey : key' = key
        · subst hkey
          obtain rfl := Option.some.inj ((AList.lookup_insert _).symm.trans hs')
          simp [Agent.resourceIds, hempty]
        · have hs₀ : a.sessions.lookup key' = some s' :=
            (AList.lookup_insert_ne hkey).symm.trans hs'
          first
          | exact ha.nodup key' s' hs₀
          | exact ha.valid key' s' hs₀

/-- Since `sent` notifications were sent, a resource was announced to a session only under the
identifier of an attached resource of the session. -/
structure AnnouncedIds (sent : ℕ) (a : Agent) : Prop where
  allocated : LinksAllocated a
  sent_le : sent ≤ a.callbacks.length
  named : ∀ key id s, .resourceCreated key id ∈ a.callbacks.drop sent →
    a.sessions.lookup key = some s → id ∈ a.resourceIds s

/-- A change that announces nothing and keeps the identifiers of the sessions. -/
theorem AnnouncedIds.of_aside {sent : ℕ} {a b : Agent} (ha : AnnouncedIds sent a)
    (hb : LinksAllocated b)
    (hc : Notifies Callback.Aside a b)
    (h : ∀ key s, b.sessions.lookup key = some s →
      ∃ s₀, a.sessions.lookup key = some s₀ ∧ a.resourceIds s₀ ⊆ b.resourceIds s) :
    AnnouncedIds sent b := by
  obtain ⟨new, hnew, hall⟩ := hc
  refine ⟨hb, ?_, fun key id s hmem hs => ?_⟩
  · rw [hnew, List.length_append]
    exact Nat.le_add_right_of_le ha.sent_le
  · rw [hnew, List.drop_append_of_le_length ha.sent_le, List.mem_append] at hmem
    rcases hmem with hmem | hmem
    · obtain ⟨s₀, hs₀, hsub⟩ := h key s hs
      exact hsub (ha.named key id s₀ hmem hs₀)
    · exact absurd rfl (hall _ hmem key id)

theorem AnnouncedIds.of_detaches {sent : ℕ} {a b : Agent} (ha : AnnouncedIds sent a)
    (h : Detaches a b)
    (hc : Notifies Callback.Aside a b) : AnnouncedIds sent b := by
  refine ha.of_aside (h.linksAllocated ha.allocated) hc fun key s hs => ?_
  obtain ⟨s₀, hs₀, hlist⟩ := h.exists_session hs
  refine ⟨s₀, hs₀, ?_⟩
  rw [h.resourceIds_eq hlist]
  exact fun _ hx => hx

theorem AnnouncedIds.link {sent : ℕ} {a : Agent} (ha : AnnouncedIds sent a) (key : ClientSessionKey)
    (id : ℕ) (rid : ResourceId) (r : Resource) : AnnouncedIds sent (a.link key id rid r) := by
  refine ha.of_aside (ha.allocated.link key id rid r) (.of_same rfl) fun key' s hs => ?_
  obtain ⟨s₀, hs₀, heq⟩ := exists_of_resourceIds_link ha.allocated hs
  refine ⟨s₀, hs₀, ?_⟩
  rw [heq]
  exact List.subset_append_left _ _

theorem AnnouncedIds.change {env : Env} {k : ChangeKind} {sent : ℕ} {a b : Agent}
    (h : TableChange env k a b) (hk : k ≠ .openSession) (ha : AnnouncedIds sent a) :
    AnnouncedIds sent b := by
  have hb : LinksAllocated b := ha.allocated.change h
  cases h with
  | reads hframe hc => exact ha.of_detaches (.of_readFrame hframe) hc
  | session key f hf => exact ha.of_detaches (.updateSession a key hf) (.of_same rfl)
  | detach key n del copyOut =>
      refine ha.of_detaches (detachResourceEA_detaches key n del copyOut a) ?_
      exact detachResourceEA_notifies env n del copyOut (by simp [Callback.Aside]) a
  | openSession => exact absurd rfl hk
  | closeSession key =>
      exact ha.of_aside hb (.of_same rfl) fun key' s hs =>
        ⟨s, AList.lookup_of_lookup_erase hs, fun _ hx => hx⟩
  | insert q =>
      have hframe := insertResourceRecordEA_recordFrame env q a
      refine ha.of_aside hb (.of_same hframe.callbacks) fun key s hs => ?_
      refine ⟨s, by rw [← hframe.sessions]; exact hs, ?_⟩
      unfold Agent.resourceIds Agent.attached
      rw [hframe.poolResources]
      exact fun _ hx => hx
  | leak x =>
      refine ha.of_aside hb (.of_same rfl) fun key s hs => ⟨s, hs, ?_⟩
      have htake : ({ a with poolResources := a.poolResources.take x } : Agent).resourceIds s =
          a.resourceIds s := resourceIds_take (fun n hn => ha.allocated key s hs n hn) rfl
      rw [htake]
      exact fun _ hx => hx
  | attachAll key id rid => exact ha.link key id rid _
  | create key id rid => exact ha.link key id rid _
  | announce key n data hs hn =>
      have hframe := ReadFrame.announce a n data (.resourceCreated key (a.attached n).id)
      have hdet := Detaches.of_readFrame hframe
      refine ⟨hb, ?_, fun key' id s' hmem hs' => ?_⟩
      · change sent ≤ (a.callbacks ++ _).length
        rw [List.length_append]
        exact Nat.le_add_right_of_le ha.sent_le
      · obtain ⟨s₀, hs₀, hlist⟩ := hdet.exists_session hs'
        rw [hdet.resourceIds_eq hlist]
        change _ ∈ (a.callbacks ++ [Callback.resourceCreated key (a.attached n).id]).drop
          sent at hmem
        rw [List.drop_append_of_le_length ha.sent_le, List.mem_append] at hmem
        rcases hmem with hmem | hmem
        · exact ha.named key' id s₀ hmem hs₀
        · obtain ⟨rfl, rfl⟩ : key' = key ∧ id = (a.attached n).id := by simpa using hmem
          obtain rfl := Option.some.inj (hs.symm.trans hs₀)
          exact mem_resourceIds_iff.2 ⟨n, hn, rfl⟩

theorem TableChange.id_eq {env : Env} {k : ChangeKind} {a b : Agent} (h : TableChange env k a b)
    {n : ℕ} (hn : n < a.poolResources.next) :
    n < b.poolResources.next ∧ (b.attached n).id = (a.attached n).id := by
  have hdetaches : Detaches a b →
      n < b.poolResources.next ∧ (b.attached n).id = (a.attached n).id := by
    intro hdet
    rw [hdet.next]
    exact ⟨hn, hdet.id n⟩
  cases h with
  | reads hframe _ => exact hdetaches (.of_readFrame hframe)
  | announce key m data => exact hdetaches (.of_readFrame (.announce a m data _))
  | session key f hf => exact hdetaches (.updateSession a key hf)
  | detach key m del copyOut => exact hdetaches (detachResourceEA_detaches key m del copyOut a)
  | openSession => exact ⟨hn, rfl⟩
  | closeSession => exact ⟨hn, rfl⟩
  | insert q =>
      have hframe := insertResourceRecordEA_recordFrame env q a
      unfold Agent.attached
      rw [hframe.poolResources]
      exact ⟨hn, rfl⟩
  | leak x =>
      refine ⟨Nat.lt_succ_of_lt hn, ?_⟩
      unfold Agent.attached
      rw [BufferPool.content_take_of_ne _ _ (Nat.ne_of_lt hn)]
  | attachAll => exact ⟨Nat.lt_succ_of_lt hn, by rw [Agent.attached_link_of_lt hn]⟩
  | create => exact ⟨Nat.lt_succ_of_lt hn, by rw [Agent.attached_link_of_lt hn]⟩

/-- A creation without an identifier is refused. -/
def GivesIds (a : Agent) (i : Operation × Env) : Prop :=
  match i.1 with
  | .createResource key q =>
      q.id = attachedResourceIdInvalid → ∀ s, a.sessions.lookup key = some s → s.active = true →
        (checkCreate s q a).1 = none
  | _ => True

theorem createResource_refused {env : Env} {key : ClientSessionKey} {q : CreateRequest} {a : Agent}
    (h : ∀ s, a.sessions.lookup key = some s → s.active = true → (checkCreate s q a).1 = none) :
    (createResource env key q a).2 = a := by
  let I := fun b => b = a
  change I (createResource env key q a).2
  unfold createResource
  rw [read_bind_apply]
  refine keeps_require (I := I) rfl fun s hs => keeps_ensure (I := I) rfl fun hactive => ?_
  have hrefused : createResourceEA env key q a = (none, a) := by
    have hstate : a = (checkCreate s q a).2 := checkCreate_frame (R := Eq) s q a
    have hcheck : checkCreate s q a = (none, a) := Prod.ext (h s hs hactive) hstate.symm
    unfold createResourceEA
    simp [bind_apply, hs, hcheck]
  rw [bind_apply, hrefused]

theorem Operation.exists_of_create_mem {op : Operation} {id : ℕ} (h : .create id ∈ op.changes) :
    ∃ key q, op = .createResource key q ∧ q.id = id := by
  cases op with
  | createResource key q =>
      refine ⟨key, q, rfl, ?_⟩
      simpa [changes, createChanges, eq_comm] using h
  | _ => simp [changes, openChanges, sessionChanges, attachChanges] at h

theorem DistinctIds.step {a : Agent} (ha : DistinctIds a) {i : Operation × Env}
    (h : GivesIds a i) : DistinctIds (a.step i) := by
  obtain ⟨op, env⟩ := i
  by_cases hop : .create attachedResourceIdInvalid ∈ op.changes
  · obtain ⟨key, q, rfl, hid⟩ := Operation.exists_of_create_mem hop
    have hrefused : a.step (.createResource key q, env) = a := createResource_refused (h hid)
    rw [hrefused]
    exact ha
  · refine (op.run_changes env a).invariant (fun k hk _ _ hchange hb => hb.change hchange ?_) ha
    rintro rfl
    exact hop hk

/-- An agent that has just been started and hashes every reference to the same octets. -/
def Agent.hashing (autoAttach : Bool) : Agent :=
  { started autoAttach .firstCached with autoId := hashedId fun _ => (0x12, 0x34) }

theorem Agent.hashing_initial (autoAttach : Bool) : (hashing autoAttach).Initial :=
  ⟨rfl, rfl, rfl, rfl, rfl, rfl, rfl, rfl, rfl, rfl, rfl, rfl, rfl, fun _ => rfl, fun _ => rfl,
    fun _ => rfl, rfl, rfl⟩

end NanoAgent
