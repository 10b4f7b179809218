import NanoAgent.DdsAgent.AutoAttach
import NanoAgent.DdsAgent.XmlLoading

/-!
# What a load from XML leaves behind

With regular names (`RegularName`) the entity that a record refers to is the one of the
element. A load that succeeds has a record for each of them (`Loading`), and one that fails
has those before the first element that could not be loaded. No record that was there is
changed, and loading what is there already changes nothing.
-/

namespace NanoAgent

open Prog EntityName

/-- A reference with as many components as the kind has. -/
def RegularName (kind : ResourceKind) (ref : List Char) : Prop :=
  ∃ l : List (List Char), l.length = kind.depth ∧ (∀ p ∈ l, p ≠ [] ∧ ':' ∉ p) ∧ ref = joinRef l

namespace ResourceFactory

/-- What is logged for a reference is the full reference. -/
theorem createResourceNativeRef_created {env : FactoryEnv} {kind : ResourceKind} {ref : List Char}
    {parent : Option ParentId} {s : FactoryState}
    (h : createResourceNativeRef env kind ref parent .initial = (some ⟨⟩, s)) :
    ∃ full, fullRef env ref parent = some full ∧ lookupResource env kind full = some true ∧
      s.created = [⟨kind, if env.ok (.copyRef ref) then some full else none⟩] := by
  have hret := onFailure_eq_some.1 h
  obtain ⟨full, _, hrequire, hret⟩ := bind_eq_some.1 hret
  obtain ⟨hfull, rfl⟩ := require_eq_some.1 hrequire
  obtain ⟨found, _, hrequire, hret⟩ := bind_eq_some.1 hret
  obtain ⟨hfound, rfl⟩ := require_eq_some.1 hrequire
  obtain ⟨_, _, htrue, hret⟩ := bind_eq_some.1 hret
  obtain ⟨rfl, rfl⟩ := ensure_eq_some.1 htrue
  obtain ⟨_, _, hgrow, hret⟩ := bind_eq_some.1 hret
  obtain ⟨_, _, hok, hgrow⟩ := bind_eq_some.1 hgrow
  obtain rfl := (ensure_eq_some.1 hok).2
  obtain rfl := modify_eq_some.1 hgrow
  obtain rfl := modify_eq_some.1 hret
  exact ⟨full, hfull, hfound, rfl⟩

end ResourceFactory

namespace AgentM

/-- From `a` to `b` no record other than the one has changed. -/
def OtherRecords (rid : ResourceId) (a b : Agent) : Prop :=
  ∀ rid', rid' ≠ rid → b.resources.lookup rid' = a.resources.lookup rid'

instance (rid : ResourceId) : IsPreorder Agent (OtherRecords rid) where
  refl _ _ _ := rfl
  trans _ _ _ h h' rid' hne := (h' rid' hne).trans (h rid' hne)

theorem updateResource_otherRecords (rid : ResourceId) (f : Resource → Resource) :
    Within (OtherRecords rid) (modify fun a => a.updateResource rid f) := by
  intro a rid' hne
  rw [modify_apply, Agent.lookup_updateResource, if_neg hne]

theorem initializeUserDataEA_otherRecords (env : Env) (rid : ResourceId) (kind : ResourceKind) :
    Within (OtherRecords rid) (initializeUserDataEA env rid kind) := by
  refine .read fun a => .ite (fun _ => ?_) fun _ => .ite (fun _ => ?_) fun _ => .pure _
  · refine .bind (.ensure _) fun _ => .bind (.modify fun _ _ _ => rfl) fun _ => ?_
    refine .bind (.onlyIf fun _ => .bind (.modify fun _ _ _ => rfl) fun _ => .fail) fun _ => ?_
    refine .bind (updateResource_otherRecords _ _) fun _ => ?_
    exact .onlyIf fun _ => .bind (.modify fun _ _ _ => rfl) fun _ => .fail
  · refine .bind (.ensure _) fun _ => .bind (.modify fun _ _ _ => rfl) fun _ => ?_
    refine .bind (.onlyIf fun _ => .bind (.modify fun _ _ _ => rfl) fun _ => .fail) fun _ => ?_
    exact updateResource_otherRecords _ _

theorem initializeRecordEA_otherRecords (env : Env) (rid : ResourceId) (q : CreateRequest) :
    Within (OtherRecords rid) (initializeRecordEA env rid q) := by
  refine .bind (.ensure _) fun _ => .read fun _ => .bind (.onlyIf fun _ => .ensure _) fun _ => ?_
  refine .bind (.ensure _) fun _ => .bind (updateResource_otherRecords _ _) fun _ => ?_
  refine .bind (.ensure _) fun _ => .bind (updateResource_otherRecords _ _) fun _ => ?_
  exact initializeUserDataEA_otherRecords env rid q.kind

theorem obtainRecordEA_otherRecords (env : Env) (rid : ResourceId) (q : CreateRequest) :
    Within (OtherRecords rid) (obtainRecordEA env rid q) := by
  refine .read fun a => ?_
  cases a.resources.lookup rid with
  | some r => exact .ensure _
  | none =>
      refine .bind (.modify fun b rid' hne => ?_) fun _ => initializeRecordEA_otherRecords env rid q
      exact AList.lookup_insert_ne hne

/-- Only the record of the resource that was logged is inserted. -/
theorem insertResourceRecordEA_otherRecords {env : Env} {q : CreateRequest} {rid : ResourceId}
    (hrid : ∀ c, env.factory.success = true → env.factory.created.head? = some c → c.2 ≠ .none →
      c.2 = rid) : Within (OtherRecords rid) (insertResourceRecordEA env q) := by
  refine .bind (.modify fun _ _ _ => rfl) fun _ => .ensureThen fun hok => ?_
  refine .requireThen fun first hfirst => .bind (.ensure _) fun _ => .ensureThen fun hne => ?_
  obtain rfl := hrid first hok hfirst (by simpa using hne)
  refine .bind (.ensure _) fun _ => .bind (obtainRecordEA_otherRecords env _ q) fun _ => ?_
  refine .bind (.ensure _) fun _ => .bind (.modify fun _ _ _ => rfl) fun _ => ?_
  exact .read fun _ => .bind (.require _) fun _ => .pure _

/-- A record as it is created for a resource. -/
structure NewRecord (rid : ResourceId) (q : CreateRequest) (r : Resource) : Prop where
  kind : r.kind = q.kind
  id : r.id = rid
  createRepr : r.createRepr = q.repr
  attachedCount : r.attachedCount = 0
  pendingDelete : r.pendingDelete = false
  nativeDeleted : r.nativeDeleted = false
  native : q.kind.isEntity = true → r.native.isSome = true
  userData : q.kind = .dataReader ∨ q.kind = .dataWriter → r.userData.isSome = true

theorem initializeUserDataEA_newRecord {env : Env} {rid : ResourceId} {q : CreateRequest}
    {a b : Agent} {r : Resource} (hr : a.resources.lookup rid = some r) (hkind : r.kind = q.kind)
    (hid : r.id = rid) (hrepr : r.createRepr = q.repr) (hcount : r.attachedCount = 0)
    (hpend : r.pendingDelete = false) (hdel : r.nativeDeleted = false)
    (hnative : q.kind.isEntity = true → r.native.isSome = true)
    (h : initializeUserDataEA env rid q.kind a = (some ⟨⟩, b)) :
    ∃ r', b.resources.lookup rid = some r' ∧ NewRecord rid q r' := by
  unfold initializeUserDataEA at h
  rw [read_bind_apply] at h
  have hset : ∀ {c : Agent} (n : ℕ), c.resources = a.resources →
      (c.updateResource rid fun r => { r with userData := some n }).resources.lookup rid =
        some { r with userData := some n } := by
    intro c n hc
    rw [Agent.lookup_updateResource, if_pos rfl, hc, hr]
    rfl
  have hnew : ∀ n, NewRecord rid q { r with userData := some n } := fun n =>
    ⟨hkind, hid, hrepr, hcount, hpend, hdel, hnative, fun _ => rfl⟩
  split at h
  · obtain ⟨_, _, hok, h⟩ := bind_eq_some.1 h
    obtain rfl := (ensure_eq_some.1 hok).2
    obtain ⟨_, _, htake, h⟩ := bind_eq_some.1 h
    obtain rfl := modify_eq_some.1 htake
    obtain ⟨_, _, hstate, h⟩ := bind_eq_some.1 h
    obtain rfl := (onlyIf_fail_eq_some.1 hstate).2
    obtain ⟨_, _, hupdate, h⟩ := bind_eq_some.1 h
    obtain rfl := modify_eq_some.1 hupdate
    obtain rfl := (onlyIf_fail_eq_some.1 h).2
    exact ⟨_, hset _ rfl, hnew _⟩
  · split at h
    · obtain ⟨_, _, hok, h⟩ := bind_eq_some.1 h
      obtain rfl := (ensure_eq_some.1 hok).2
      obtain ⟨_, _, htake, h⟩ := bind_eq_some.1 h
      obtain rfl := modify_eq_some.1 htake
      obtain ⟨_, _, hstate, h⟩ := bind_eq_some.1 h
      obtain rfl := (onlyIf_fail_eq_some.1 hstate).2
      obtain rfl := modify_eq_some.1 h
      exact ⟨_, hset _ rfl, hnew _⟩
    · rename_i hreader hwriter
      obtain ⟨-, rfl⟩ := pure_eq_some.1 h
      refine ⟨r, hr, hkind, hid, hrepr, hcount, hpend, hdel, hnative, ?_⟩
      rintro (h | h)
      · exact absurd h hreader
      · exact absurd h hwriter

theorem initializeRecordEA_newRecord {env : Env} {rid : ResourceId} {q : CreateRequest}
    {a b : Agent} (ha : (a.resources.lookup rid).isSome = true)
    (h : initializeRecordEA env rid q a = (some ⟨⟩, b)) :
    ∃ r, b.resources.lookup rid = some r ∧ NewRecord rid q r := by
  obtain ⟨r₀, hr₀⟩ := Option.isSome_iff_exists.1 ha
  unfold initializeRecordEA at h
  obtain ⟨_, _, hkind, h⟩ := bind_eq_some.1 h
  obtain rfl := (ensure_eq_some.1 hkind).2
  rw [read_bind_apply] at h
  obtain ⟨_, _, hentity, h⟩ := bind_eq_some.1 h
  rw [onlyIf_ensure, ensure_eq_some] at hentity
  obtain ⟨hentity, rfl⟩ := hentity
  obtain ⟨_, _, hok, h⟩ := bind_eq_some.1 h
  obtain rfl := (ensure_eq_some.1 hok).2
  obtain ⟨_, _, hupdate, h⟩ := bind_eq_some.1 h
  obtain rfl := modify_eq_some.1 hupdate
  obtain ⟨_, _, hok, h⟩ := bind_eq_some.1 h
  obtain rfl := (ensure_eq_some.1 hok).2
  obtain ⟨_, _, hupdate, h⟩ := bind_eq_some.1 h
  obtain rfl := modify_eq_some.1 hupdate
  refine initializeUserDataEA_newRecord (r := { Resource.initial with
    kind := q.kind
    id := rid
    native := (a.lookupEntity q.kind rid).map (·.ptr)
    createRepr := q.repr }) ?_ rfl rfl rfl rfl rfl rfl (fun hk => ?_) h
  · rw [Agent.lookup_updateResource, if_pos rfl, Agent.lookup_updateResource, if_pos rfl, hr₀]
    rfl
  · rw [hk] at hentity
    simpa using (Bool.and_eq_true_iff.1 hentity).2

/-- What a successful insertion has done: a new record, or the one that is there. -/
theorem insertResourceRecordEA_eq_some {env : Env} {q : CreateRequest} {a b : Agent}
    {res : Option ResourceId} (h : insertResourceRecordEA env q a = (some res, b)) :
    ∃ rid, env.factory.success = true ∧ env.factory.created.head? = some (q.kind, rid) ∧
      rid ≠ .none ∧ ((∃ r, a.resources.lookup rid = some r ∧ b.resources = a.resources) ∨
        a.resources.lookup rid = none ∧
          ∃ r, b.resources.lookup rid = some r ∧ NewRecord rid q r) := by
  unfold insertResourceRecordEA at h
  obtain ⟨_, _, hentities, h⟩ := bind_eq_some.1 h
  obtain rfl := modify_eq_some.1 hentities
  obtain ⟨_, _, hok, h⟩ := bind_eq_some.1 h
  obtain ⟨hsuccess, rfl⟩ := ensure_eq_some.1 hok
  obtain ⟨first, _, hrequire, h⟩ := bind_eq_some.1 h
  obtain ⟨hfirst, rfl⟩ := require_eq_some.1 hrequire
  obtain ⟨_, _, hok, h⟩ := bind_eq_some.1 h
  obtain ⟨hkind, rfl⟩ := ensure_eq_some.1 hok
  obtain ⟨_, _, hok, h⟩ := bind_eq_some.1 h
  obtain ⟨hrid, rfl⟩ := ensure_eq_some.1 hok
  obtain ⟨_, _, hok, h⟩ := bind_eq_some.1 h
  obtain rfl := (ensure_eq_some.1 hok).2
  obtain ⟨_, c, hobtain, h⟩ := bind_eq_some.1 h
  obtain ⟨_, _, hok, h⟩ := bind_eq_some.1 h
  obtain rfl := (ensure_eq_some.1 hok).2
  obtain ⟨_, _, htrigger, h⟩ := bind_eq_some.1 h
  obtain rfl := modify_eq_some.1 htrigger
  rw [read_bind_apply] at h
  obtain ⟨r, _, hr, h⟩ := bind_eq_some.1 h
  obtain ⟨hr, rfl⟩ := require_eq_some.1 hr
  obtain rfl := (pure_eq_some.1 h).2
  have hkind : first.1 = q.kind := of_decide_eq_true hkind
  refine ⟨first.2, hsuccess, by rw [hfirst, ← hkind], by simpa using hrid, ?_⟩
  unfold obtainRecordEA at hobtain
  rw [read_bind_apply] at hobtain
  cases hold : a.resources.lookup first.2 with
  | some r₀ =>
      rw [hold] at hobtain
      obtain rfl := (ensure_eq_some.1 hobtain).2
      exact .inl ⟨r₀, rfl, rfl⟩
  | none =>
      rw [hold] at hobtain
      obtain ⟨_, d, hinsert, hinit⟩ := bind_eq_some.1 hobtain
      obtain rfl := modify_eq_some.1 hinsert
      have hnew := initializeRecordEA_newRecord ?_ hinit
      · exact .inr ⟨rfl, hnew⟩
      · rw [Agent.insertResource, AList.lookup_insert]
        rfl

end AgentM

namespace XmlM

theorem onAgent_apply {α : Type} (x : AgentM α) (s : XmlLoading) :
    onAgent x s = ((x s.agent).1, { s with agent := (x s.agent).2 }) := rfl

theorem onAgent_eq_some {α : Type} {x : AgentM α} {s s' : XmlLoading} {v : α} :
    onAgent x s = (some v, s') ↔
      x s.agent = (some v, s'.agent) ∧ s'.created = s.created := by
  rw [onAgent_apply]
  cases s'
  simp only [Prod.ext_iff, XmlLoading.mk.injEq]
  constructor
  · rintro ⟨hv, hagent, hcreated⟩
    exact ⟨⟨hv, hagent⟩, hcreated.symm⟩
  · rintro ⟨⟨hv, hagent⟩, hcreated⟩
    exact ⟨hv, hagent, hcreated.symm⟩

/-- The parent and the leaf of a regular name make up the name. -/
theorem fullRef_of_regular {factory : FactoryEnv} {kind : ResourceKind} {el full : List Char}
    {names : List (List Char)} {parent : List Char} (hreg : RegularName kind el)
    (hnames : ResourceFactory.entityName factory el = some names)
    (hparent : toRef (factory.ok (.printName el)) names (kind.depth - 1) = some parent)
    (hfull : ResourceFactory.fullRef factory (names.getLastD []) (some ⟨some parent⟩) =
      some full) : full = el := by
  obtain ⟨l, hlen, hl, rfl⟩ := hreg
  have hdepth : 2 ≤ kind.depth := by cases kind <;> simp [ResourceKind.depth]
  have hne : l ≠ [] := by
    rintro rfl
    rw [List.length_nil] at hlen
    omega
  obtain rfl : names = l := by
    have hcomp := componentsFrom_joinRef hne hl
    rw [ResourceFactory.entityName] at hnames
    split at hnames
    · rw [← Option.some.inj hnames, components_eq_componentsFrom, hcomp]
      rw [hcomp]
      exact fun p hp => (hl p hp).1
    · cases hnames
  have htake : names.take (kind.depth - 1) = names.dropLast := by
    rw [List.dropLast_eq_take, hlen]
  have hparent' : parent = joinRef names.dropLast := by
    cases hok : factory.ok (.printName (joinRef names)) with
    | false =>
        rw [hok] at hparent
        unfold toRef at hparent
        split at hparent <;> simp at hparent
    | true =>
        rw [hok, toRef_eq (fun p hp => (hl p hp).1) (by omega), htake] at hparent
        exact (Option.some.inj hparent).symm
  have hdrop : names.dropLast ≠ [] := by
    rw [← List.length_pos_iff, List.length_dropLast]
    omega
  rw [ResourceFactory.fullRef] at hfull
  split at hfull
  · rw [Option.map_some, Option.some.injEq] at hfull
    rw [← hfull, hparent', ← joinRef_concat hdrop, List.getLastD_eq_getLast?,
      List.getLast?_eq_some_getLast hne, Option.getD_some, List.dropLast_append_getLast]
  · cases hfull

/-- Records that are there are not changed, and no other than the one is added. -/
structure Inserts (rid : ResourceId) (s s' : XmlLoading) : Prop where
  frame : InsertFrame s.agent s'.agent
  kept : ∀ id r, s.agent.resources.lookup id = some r → s'.agent.resources.lookup id = some r
  others : AgentM.OtherRecords rid s.agent s'.agent
  created : s'.created = s.created

instance (rid : ResourceId) : IsPreorder XmlLoading (Inserts rid) where
  refl s := ⟨refl s.agent, fun _ _ h => h, refl s.agent, rfl⟩
  trans _ _ _ h h' := ⟨IsTrans.trans _ _ _ h.1 h'.1, fun id r hr => h'.2 id r (h.2 id r hr),
    IsTrans.trans _ _ _ h.3 h'.3, h'.4.trans h.4⟩

/-- No record has changed. -/
structure Prepares (s s' : XmlLoading) : Prop where
  frame : InsertFrame s.agent s'.agent
  resources : s'.agent.resources = s.agent.resources
  created : s'.created = s.created

instance : IsPreorder XmlLoading Prepares where
  refl s := ⟨refl s.agent, rfl, rfl⟩
  trans _ _ _ h h' := ⟨IsTrans.trans _ _ _ h.1 h'.1, h'.2.trans h.2, h'.3.trans h.3⟩

theorem Prepares.inserts {s s' : XmlLoading} (h : Prepares s s') (rid : ResourceId) :
    Inserts rid s s' :=
  ⟨h.frame, fun _ _ hr => by rw [h.resources]; exact hr, fun _ _ => by rw [h.resources], h.created⟩

variable {x : VisitEnv} {kind : ResourceKind} {el : List Char}

/-- The record that the factory logs for an element is that of the element. -/
theorem refOutcome_created {ref : List Char} {parent : Option ParentId}
    {c : ResourceKind × ResourceId}
    (hfull : ∀ full, ResourceFactory.fullRef x.factory ref parent = some full → full = el)
    (hok : (refOutcome x.factory kind ref parent).success = true)
    (hc : (refOutcome x.factory kind ref parent).created.head? = some c) (hne : c.2 ≠ .none) :
    c.2 = refId (some el) := by
  obtain ⟨_, hret⟩ := Option.isSome_iff_exists.1 hok
  obtain ⟨full, href, -, hcreated⟩ :=
    ResourceFactory.createResourceNativeRef_created (eq_of_fst_eq_some hret)
  obtain rfl := hfull full href
  rw [refOutcome, hcreated] at hc
  obtain rfl := Option.some.inj hc
  dsimp only at hne ⊢
  split at hne
  · rename_i hcopy
    rw [if_pos hcopy]
  · exact absurd rfl hne

theorem prepareRecord_prepares (x : VisitEnv) (kind : ResourceKind) (el : List Char)
    (names : List (List Char)) : Within Prepares (prepareRecord x kind el names) := by
  have hcreate : Within Prepares (onAgent (modify fun a : Agent =>
      { a with entities := a.entities ++ x.entities })) :=
    fun _ => ⟨⟨⟨rfl, rfl, rfl, rfl, rfl, rfl⟩, rfl, rfl⟩, rfl, rfl⟩
  have hparent : Within Prepares (do
      let parent ← require (toRef (x.factory.ok (.printName el)) names (kind.depth - 1))
      pure (names.getLastD [], some (ParentId.mk (some parent)))) :=
    .bind (.require _) fun _ => .pure _
  cases kind with
  | domainParticipant => exact .bind (.ensure _) fun _ => .bind hcreate fun _ => .pure _
  | publisher => exact hparent
  | subscriber => exact hparent
  | topic => exact hparent
  | dataReader => exact hparent
  | dataWriter => exact hparent
  | _ => exact .fail

/-- The reference with which a record is created for an element is the name of the element. -/
theorem prepareRecord_fullRef {names : List (List Char)} {s s' : XmlLoading}
    {prepared : List Char × Option ParentId} (hreg : RegularName kind el)
    (hnames : ResourceFactory.entityName x.factory el = some names)
    (h : prepareRecord x kind el names s = (some prepared, s')) (full : List Char)
    (hfull : ResourceFactory.fullRef x.factory prepared.1 prepared.2 = some full) :
    full = el := by
  have hparent : (do
      let parent ← require (toRef (x.factory.ok (.printName el)) names (kind.depth - 1))
      pure (names.getLastD [], some (ParentId.mk (some parent))) : XmlM _) s =
        (some prepared, s') → full = el := by
    intro h
    obtain ⟨parent, _, hrequire, h⟩ := bind_eq_some.1 h
    obtain ⟨hparent, rfl⟩ := require_eq_some.1 hrequire
    obtain ⟨rfl, rfl⟩ := pure_eq_some.1 h
    exact fullRef_of_regular hreg hnames hparent hfull
  cases kind with
  | domainParticipant =>
      obtain ⟨_, _, -, h⟩ := bind_eq_some.1 h
      obtain ⟨_, _, -, h⟩ := bind_eq_some.1 h
      obtain ⟨rfl, rfl⟩ := pure_eq_some.1 h
      exact (Option.some.inj hfull).symm
  | publisher => exact hparent h
  | subscriber => exact hparent h
  | topic => exact hparent h
  | dataReader => exact hparent h
  | dataWriter => exact hparent h
  | _ => cases h

theorem insertPrepared_inserts {prepared : List Char × Option ParentId} (q : CreateRequest)
    (hfull : ∀ full, ResourceFactory.fullRef x.factory prepared.1 prepared.2 = some full →
      full = el) :
    Within (Inserts (refId (some el))) (onAgent (AgentM.insertResourceRecordEA
      { x.env with factory := refOutcome x.factory kind prepared.1 prepared.2 } q)) := by
  intro s
  refine ⟨AgentM.insertResourceRecordEA_insertFrame _ q _, fun id r hr => ?_, ?_, rfl⟩
  · exact AgentM.insertResourceRecordEA_keepsOthers q _ hr
  · exact AgentM.insertResourceRecordEA_otherRecords
      (fun c hok hc hne => refOutcome_created hfull hok hc hne) s.agent

theorem insertRecord_inserts (hreg : RegularName kind el) :
    Within (Inserts (refId (some el))) (insertRecord x kind el) := by
  intro s
  unfold insertRecord
  cases hnames : ResourceFactory.entityName x.factory el with
  | none => exact refl s
  | some names =>
      rw [show require (some names) = (pure names : XmlM _) from rfl, pure_then]
      have hprepare := (prepareRecord_prepares x kind el names s).inserts
        (refId (some el))
      refine exits_bind (K := fun _ s' => Inserts (refId (some el)) s s') (fun _ => hprepare)
        fun prepared hret => ?_
      have hfull := prepareRecord_fullRef hreg hnames (eq_of_fst_eq_some hret)
      refine IsTrans.trans _ _ _ hprepare ?_
      exact Within.bind (insertPrepared_inserts _ hfull) (fun _ => .pure _) _

/-- A record that an element has when it was visited. A new one is for the element. -/
structure Recorded (kind : ResourceKind) (el : List Char) (a b : Agent) : Prop where
  recorded : ∃ r, b.resources.lookup (refId (some el)) = some r
  fresh : a.resources.lookup (refId (some el)) = none →
    ∃ r q, b.resources.lookup (refId (some el)) = some r ∧ q.kind = kind ∧
      q.repr.isRef = true ∧ AgentM.NewRecord (refId (some el)) q r

/-- A successful creation has made the record of the element. -/
theorem insertRecord_recorded (hreg : RegularName kind el) {s s' : XmlLoading} {held : Bool}
    (h : insertRecord x kind el s = (some held, s')) : Recorded kind el s.agent s'.agent := by
  obtain ⟨names, _, hrequire, h⟩ := bind_eq_some.1 h
  obtain ⟨hnames, rfl⟩ := require_eq_some.1 hrequire
  obtain ⟨prepared, s₁, hprepared, h⟩ := bind_eq_some.1 h
  have hfull := prepareRecord_fullRef hreg hnames hprepared
  have hprepare := prepareRecord_prepares x kind el names s
  rw [hprepared] at hprepare
  obtain ⟨inserted, s₂, hinsert, h⟩ := bind_eq_some.1 h
  obtain rfl := (pure_eq_some.1 h).2
  obtain ⟨hinsert, -⟩ := onAgent_eq_some.1 hinsert
  obtain ⟨rid, hok, hhead, hne, hrecord⟩ := AgentM.insertResourceRecordEA_eq_some hinsert
  obtain rfl : rid = refId (some el) := refOutcome_created hfull hok hhead hne
  rw [hprepare.resources] at hrecord
  rcases hrecord with ⟨r, hr, hb⟩ | ⟨hnew, r, hr, hrec⟩
  · refine ⟨⟨r, ?_⟩, fun hnone => ?_⟩
    · rw [hb]
      exact hprepare.resources ▸ hr
    · rw [hr] at hnone
      cases hnone
  · exact ⟨⟨r, hr⟩, fun _ => ⟨r, _, hr, rfl, rfl, hrec⟩⟩

/-- The entry of the log for an element. -/
def entry (x : VisitEnv) (kind : ResourceKind) (o : XmlObject) : CreatedResource :=
  ⟨kind, if x.ok .copyRef then o.resourceId else none⟩

/-- What a visit may do, whether it succeeds or fails. -/
structure Visits (rid : ResourceId) (s s' : XmlLoading) : Prop where
  frame : InsertFrame s.agent s'.agent
  kept : ∀ id r, s.agent.resources.lookup id = some r → s'.agent.resources.lookup id = some r
  others : AgentM.OtherRecords rid s.agent s'.agent

instance (rid : ResourceId) : IsPreorder XmlLoading (Visits rid) where
  refl s := ⟨refl s.agent, fun _ _ h => h, refl s.agent⟩
  trans _ _ _ h h' := ⟨IsTrans.trans _ _ _ h.1 h'.1, fun id r hr => h'.2 id r (h.2 id r hr),
    IsTrans.trans _ _ _ h.3 h'.3⟩

theorem Inserts.visits {rid : ResourceId} {s s' : XmlLoading} (h : Inserts rid s s') :
    Visits rid s s' := ⟨h.frame, h.kept, h.others⟩

theorem appendCreatedResource_visits (rid : ResourceId) :
    Within (Visits rid) (appendCreatedResource x kind el) :=
  .bind (.ensure _) fun _ => .modify fun s =>
    ⟨refl s.agent, fun _ _ h => h, refl s.agent⟩

theorem obtainRecord_inserts (hreg : RegularName kind el) :
    Within (Inserts (refId (some el))) (obtainRecord x kind el) :=
  .read fun _ => .ite (fun _ => .pure _) fun _ => insertRecord_inserts hreg

theorem obtainRecord_recorded (hreg : RegularName kind el) {s s' : XmlLoading} {held : Bool}
    (h : obtainRecord x kind el s = (some held, s')) : Recorded kind el s.agent s'.agent := by
  unfold obtainRecord at h
  rw [read_bind_apply] at h
  split at h
  · rename_i hthere
    obtain ⟨-, rfl⟩ := pure_eq_some.1 h
    obtain ⟨r, hr⟩ := Option.isSome_iff_exists.1 hthere
    refine ⟨⟨r, hr⟩, fun hnone => ?_⟩
    rw [hr] at hnone
    cases hnone
  · exact insertRecord_recorded hreg h

theorem onResource_visits {o : XmlObject} (hel : o.resourceId = some el)
    (hreg : RegularName kind el) : Within (Visits (refId (some el))) (onResource x kind o) := by
  refine .requireThen fun el' hel' => .bind (.ensure _) fun _ => ?_
  obtain rfl := Option.some.inj (hel.symm.trans hel')
  refine .bind (fun s => (obtainRecord_inserts hreg s).visits) fun _ => ?_
  exact .bind (appendCreatedResource_visits _) fun _ => .ensure _

/-- A visit that succeeds logs the element, which then has a record. -/
theorem onResource_eq_some {o : XmlObject} (hel : o.resourceId = some el)
    (hreg : RegularName kind el) {s s' : XmlLoading}
    (h : onResource x kind o s = (some ⟨⟩, s')) :
    s'.created = s.created ++ [entry x kind o] ∧ Recorded kind el s.agent s'.agent := by
  obtain ⟨el', _, hrequire, h⟩ := bind_eq_some.1 h
  obtain ⟨hel', rfl⟩ := require_eq_some.1 hrequire
  obtain rfl := Option.some.inj (hel.symm.trans hel')
  obtain ⟨_, _, hok, h⟩ := bind_eq_some.1 h
  obtain rfl := (ensure_eq_some.1 hok).2
  obtain ⟨held, s₁, hheld, h⟩ := bind_eq_some.1 h
  obtain ⟨_, _, happend, h⟩ := bind_eq_some.1 h
  obtain rfl := (ensure_eq_some.1 h).2
  obtain ⟨_, _, hok, happend⟩ := bind_eq_some.1 happend
  obtain rfl := (ensure_eq_some.1 hok).2
  obtain rfl := modify_eq_some.1 happend
  have hcreated := (obtainRecord_inserts (x := x) hreg s).created
  rw [hheld] at hcreated
  have hrecorded := obtainRecord_recorded hreg hheld
  refine ⟨?_, hrecorded⟩
  rw [entry, hel]
  exact congrArg (· ++ _) hcreated

end XmlM

/-- An element with a regular name. -/
def RegularElement (e : ResourceKind × XmlObject) : Prop :=
  ∃ el, e.2.resourceId = some el ∧ RegularName e.1 el

/-- From `s` to `s'` the elements were loaded: each is logged and has a record, and the records
that are new are theirs. -/
structure Loading (env : ℕ → VisitEnv) (l : List (ResourceKind × XmlObject)) (s s' : XmlLoading) :
    Prop where
  frame : InsertFrame s.agent s'.agent
  kept : ∀ id r, s.agent.resources.lookup id = some r → s'.agent.resources.lookup id = some r
  created : s'.created = s.created ++
    l.mapIdx fun i e => XmlM.entry (env (s.created.length + i)) e.1 e.2
  recorded : ∀ e ∈ l, (s'.agent.resources.lookup (refId e.2.resourceId)).isSome = true
  fresh : ∀ rid r, s.agent.resources.lookup rid = none →
    s'.agent.resources.lookup rid = some r → ∃ e ∈ l, rid = refId e.2.resourceId ∧
      ∃ q, q.kind = e.1 ∧ q.repr.isRef = true ∧ AgentM.NewRecord rid q r

namespace Loading

variable {env : ℕ → VisitEnv} {l : List (ResourceKind × XmlObject)}
  {e : ResourceKind × XmlObject} {s s₁ s' : XmlLoading}

theorem nil (env : ℕ → VisitEnv) (s : XmlLoading) : Loading env [] s s where
  frame := refl s.agent
  kept _ _ h := h
  created := (List.append_nil _).symm
  recorded _ he := by cases he
  fresh rid r hnone hr := by
    rw [hnone] at hr
    cases hr

/-- One more element before the others. -/
theorem cons {el : List Char} (hel : e.2.resourceId = some el)
    (hvisit : XmlM.Visits (refId (some el)) s s₁)
    (hcreated : s₁.created = s.created ++ [XmlM.entry (env s.created.length) e.1 e.2])
    (hrec : XmlM.Recorded e.1 el s.agent s₁.agent) (h : Loading env l s₁ s') :
    Loading env (e :: l) s s' where
  frame := IsTrans.trans _ _ _ hvisit.frame h.frame
  kept id r hr := h.kept id r (hvisit.kept id r hr)
  created := by
    rw [h.created, hcreated, List.mapIdx_cons, List.append_assoc, List.singleton_append,
      List.length_append, List.length_singleton]
    simp only [Nat.add_assoc, Nat.add_comm 1, Nat.add_zero]
  recorded e' he' := by
    rcases List.mem_cons.1 he' with rfl | he'
    · obtain ⟨r, hr⟩ := hrec.recorded
      rw [hel, h.kept _ r hr]
      rfl
    · exact h.recorded e' he'
  fresh rid r hnone hr := by
    cases hmid : s₁.agent.resources.lookup rid with
    | none =>
        obtain ⟨e', he', hnew⟩ := h.fresh rid r hmid hr
        exact ⟨e', List.mem_cons_of_mem _ he', hnew⟩
    | some r₁ =>
        have hrid : rid = refId (some el) := by
          by_contra hne
          rw [hvisit.others rid hne, hnone] at hmid
          cases hmid
        subst hrid
        obtain rfl := Option.some.inj ((h.kept _ r₁ hmid).symm.trans hr)
        obtain ⟨r₂, q, hr₂, hq⟩ := hrec.fresh hnone
        obtain rfl := Option.some.inj (hmid.symm.trans hr₂)
        exact ⟨e, List.mem_cons_self, by rw [hel], q, hq⟩

end Loading

namespace XmlM

variable {env : ℕ → VisitEnv} {l : List (ResourceKind × XmlObject)} {s s' : XmlLoading}

/-- The elements of a list are loaded when all their visits succeed. -/
theorem visitAll_eq_some (hreg : ∀ e ∈ l, RegularElement e)
    (h : visitAll env l s = (some ⟨⟩, s')) : Loading env l s s' := by
  induction l generalizing s with
  | nil =>
      obtain rfl := (pure_eq_some.1 h).2
      exact .nil env s
  | cons e l ih =>
      obtain ⟨_, s₁, hvisit, hrest⟩ := bind_eq_some.1 h
      obtain ⟨el, hel, hname⟩ := hreg e List.mem_cons_self
      have hrest := ih (fun e' he' => hreg e' (List.mem_cons_of_mem _ he')) hrest
      have hstep := onResource_visits (x := env s.created.length) hel hname s
      change onResource (env s.created.length) e.1 e.2 s = (some ⟨⟩, s₁) at hvisit
      obtain ⟨hcreated, hrec⟩ := onResource_eq_some hel hname hvisit
      rw [hvisit] at hstep
      exact .cons hel hstep hcreated hrec hrest

/-- Visits that fail have loaded the elements before the one whose visit has failed. -/
theorem visitAll_eq_none (hreg : ∀ e ∈ l, RegularElement e)
    (h : visitAll env l s = (none, s')) :
    ∃ before e after s₁, l = before ++ e :: after ∧ Loading env before s s₁ ∧
      Visits (refId e.2.resourceId) s₁ s' := by
  obtain ⟨before, e, after, s₁, rfl, hbefore, hfailed⟩ := forEach_eq_none h
  have hloaded := visitAll_eq_some (fun e' he' => hreg e' (List.mem_append_left _ he')) hbefore
  obtain ⟨el, hel, hname⟩ := hreg e (List.mem_append_right _ List.mem_cons_self)
  have hstep := onResource_visits (x := env s₁.created.length) hel hname s₁
  change onResource (env s₁.created.length) e.1 e.2 s₁ = (none, s') at hfailed
  rw [hfailed] at hstep
  exact ⟨before, e, after, s₁, rfl, hloaded, by rw [hel]; exact hstep⟩

/-- Elements that have a record are only logged. -/
theorem visitAll_idle (hok : ∀ i c, (env i).ok c = true)
    (hthere : ∀ e ∈ l, ∃ el, e.2.resourceId = some el ∧
      (s.agent.resources.lookup (refId (some el))).isSome = true) :
    visitAll env l s = (some ⟨⟩, { s with
      created := s.created ++ l.map fun e => ⟨e.1, e.2.resourceId⟩ }) := by
  induction l generalizing s with
  | nil => rw [List.map_nil, List.append_nil]; rfl
  | cons e l ih =>
      obtain ⟨el, hel, hr⟩ := hthere e List.mem_cons_self
      have hvisit : onElement env e.1 e.2 s =
          (some ⟨⟩, { s with created := s.created ++ [⟨e.1, e.2.resourceId⟩] }) := by
        simp [onElement, onResource, obtainRecord, appendCreatedResource, hel, hok, hr, bind_apply,
          ensure]
      have hrest := ih (s := { s with created := s.created ++ [⟨e.1, e.2.resourceId⟩] })
        fun e' he' => hthere e' (List.mem_cons_of_mem _ he')
      refine bind_eq_some.2 ⟨_, _, hvisit, hrest.trans ?_⟩
      rw [List.append_assoc, List.singleton_append, List.map_cons]

end XmlM

/-- A library with a participant, which has a subscriber with a data reader. -/
def readerDocument : XmlObject :=
  .mk [] none [.mk ResourceFactory.participantLibraryTag (some "::l".toList)
    [.mk ResourceFactory.participantTag (some "::l::d".toList)
      [.mk ResourceFactory.subscriberTag (some "::l::d::s".toList)
        [.mk ResourceFactory.dataReaderTag (some "::l::d::s::r".toList) []]]]]

/-- The answers while it is loaded. -/
def readerDocumentEnv : LoadEnv where
  ok _ := true
  root _ := some readerDocument
  visit _ := {
    ok _ := true
    env := .obliging ⟨true, [], []⟩
    factory := ⟨fun _ => true, [], fun _ _ _ name => some name⟩
    entities := [⟨1, .domainParticipant, .ref "l::d", 0, 0⟩, ⟨2, .subscriber, .ref "l::d::s", 1, 0⟩,
      ⟨3, .dataReader, .ref "l::d::s::r", 2, 4⟩] }

theorem regular_readerDocument : ∀ e ∈ readerDocument.visited, RegularElement e := by
  intro e he
  have hvisited : readerDocument.visited.map (fun e => (e.1, e.2.resourceId)) =
      [(.domainParticipant, some "l::d".toList), (.subscriber, some "l::d::s".toList),
        (.dataReader, some "l::d::s::r".toList)] := by decide
  have hmem := List.mem_map_of_mem (f := fun e => (e.1, e.2.resourceId)) he
  rw [hvisited] at hmem
  simp only [List.mem_cons, Prod.mk.injEq, List.not_mem_nil, or_false] at hmem
  obtain ⟨hkind, hel⟩ | ⟨hkind, hel⟩ | ⟨hkind, hel⟩ := hmem
  · exact ⟨_, hel, ["l".toList, "d".toList], by rw [hkind]; rfl, by decide, by decide⟩
  · exact ⟨_, hel, ["l".toList, "d".toList, "s".toList], by rw [hkind]; rfl, by decide, by decide⟩
  · exact ⟨_, hel, ["l".toList, "d".toList, "s".toList, "r".toList], by rw [hkind]; rfl,
      by decide, by decide⟩

namespace AgentM

variable {env : LoadEnv} {root : XmlObject} {a b : Agent}

/-- How far a load from a root has come: the elements before some place are loaded, and at most
the record of the element at this place was touched as well. -/
def LoadedUpTo (env : LoadEnv) (l : List (ResourceKind × XmlObject)) (a b : Agent) : Prop :=
  ∃ before after s₁, l = before ++ after ∧ Loading env.visit before ⟨a, []⟩ s₁ ∧
    (s₁.agent = b ∨ ∃ e rest log, after = e :: rest ∧
      XmlM.Visits (refId e.2.resourceId) s₁ ⟨b, log⟩)

theorem visitRoot_loadedUpTo (env : LoadEnv) (hreg : ∀ e ∈ root.visited, RegularElement e)
    (a : Agent) :
    LoadedUpTo env root.visited a (visitRoot env.visit root a).2 ∧
      ∀ log, (visitRoot env.visit root a).1 = some log →
        Loading env.visit root.visited ⟨a, []⟩ ⟨(visitRoot env.visit root a).2, log⟩ := by
  unfold visitRoot
  rw [XmlM.visitXml_eq]
  rcases h : XmlM.visitAll env.visit root.visited ⟨a, []⟩ with ⟨_ | _, s'⟩
  · obtain ⟨before, e, after, s₁, hl, hbefore, hvisit⟩ := XmlM.visitAll_eq_none hreg h
    refine ⟨⟨before, e :: after, s₁, hl, hbefore, .inr ⟨e, after, s'.created, rfl, hvisit⟩⟩, ?_⟩
    intro log hlog
    cases hlog
  · have hall := XmlM.visitAll_eq_some hreg h
    refine ⟨⟨_, [], s', (List.append_nil _).symm, hall, .inl rfl⟩, fun log hlog => ?_⟩
    obtain rfl := Option.some.inj hlog
    exact hall

theorem forEach_ensure {ι : Type} (l : List ι) (p : ι → Bool) (a : Agent) :
    forEach l (fun i => (ensure (p i) : AgentM Unit)) a =
      (if l.all p then some ⟨⟩ else none, a) := by
  induction l with
  | nil => rfl
  | cons i l ih =>
      rw [forEach, List.all_cons]
      cases hp : p i with
      | false => rfl
      | true => exact ih

theorem LoadedUpTo.start (env : LoadEnv) (l : List (ResourceKind × XmlObject)) (a : Agent) :
    LoadedUpTo env l a a := ⟨[], l, ⟨a, []⟩, rfl, .nil _ _, .inl rfl⟩

theorem createResourcesLocked_loadedUpTo (hreg : ∀ e ∈ root.visited, RegularElement e)
    (a : Agent) :
    LoadedUpTo env root.visited a (createResourcesLocked env (some root) a).2 ∧
      ((createResourcesLocked env (some root) a).1.isSome = true → ∃ log,
        Loading env.visit root.visited ⟨a, []⟩
          ⟨(createResourcesLocked env (some root) a).2, log⟩) := by
  obtain ⟨hupto, hall⟩ := visitRoot_loadedUpTo env hreg a
  refine exits_ensure (K := fun res b => LoadedUpTo env root.visited a b ∧
    (res.isSome = true → ∃ log, Loading env.visit root.visited ⟨a, []⟩ ⟨b, log⟩))
    ⟨.start env _ a, fun h => by cases h⟩ fun _ => ?_
  rw [show require (some root) = (pure root : AgentM _) from rfl, pure_then]
  refine exits_bind (K := fun res b => LoadedUpTo env root.visited a b ∧
    (res.isSome = true → ∃ log, Loading env.visit root.visited ⟨a, []⟩ ⟨b, log⟩))
    (fun _ => ⟨hupto, fun h => by cases h⟩) fun log hlog => ?_
  rw [read_bind_apply, forEach_ensure]
  exact ⟨hupto, fun _ => ⟨log, hall log hlog⟩⟩

theorem createImplicitResources_upTo (hreg : ∀ e ∈ root.visited, RegularElement e) (a : Agent) :
    LoadedUpTo env root.visited a (createImplicitResources env (some root) a).2 := by
  unfold createImplicitResources
  cases env.ok .lockResources with
  | false => exact .start env _ a
  | true =>
      rw [ensure_true_bind_apply, attempt_bind_apply]
      exact (createResourcesLocked_loadedUpTo hreg a).1

theorem createImplicitResources_loading (hreg : ∀ e ∈ root.visited, RegularElement e)
    (hunlock : env.ok .unlockResources = true)
    (h : createImplicitResources env (some root) a = (some ⟨⟩, b)) :
    ∃ log, Loading env.visit root.visited ⟨a, []⟩ ⟨b, log⟩ := by
  obtain ⟨_, _, hok, h⟩ := bind_eq_some.1 h
  obtain rfl := (ensure_eq_some.1 hok).2
  rw [attempt_bind_apply] at h
  obtain ⟨hdone, rfl⟩ := ensure_eq_some.1 h
  rw [hunlock, Bool.not_true, Bool.or_false] at hdone
  exact (createResourcesLocked_loadedUpTo hreg _).2 hdone

/-- Whatever the outcome of a load, the elements before some place are loaded and at most one
more was touched. A load that succeeds is complete, unless the unlocking has failed, which
makes a success of every outcome. -/
theorem createImplicitResources_loadedUpTo (env : LoadEnv)
    (hreg : ∀ e ∈ root.visited, RegularElement e) (a : Agent) :
    LoadedUpTo env root.visited a (createImplicitResources env (some root) a).2 ∧
      ((createImplicitResources env (some root) a).1 = some ⟨⟩ →
        env.ok .unlockResources = true → ∃ log, Loading env.visit root.visited ⟨a, []⟩
          ⟨(createImplicitResources env (some root) a).2, log⟩) ∧
      (env.ok .lockResources = true → env.ok .unlockResources = false →
        (createImplicitResources env (some root) a).1 = some ⟨⟩) := by
  refine ⟨createImplicitResources_upTo hreg a, fun hret hunlock =>
    createImplicitResources_loading hreg hunlock (eq_of_fst_eq_some hret), fun hlock hunlock => ?_⟩
  unfold createImplicitResources
  rw [hlock, ensure_true_bind_apply, attempt_bind_apply, hunlock, Bool.not_false, Bool.or_true]
  rfl

/-- The answers when the reader of the document cannot be logged. -/
def readerRefusedEnv : LoadEnv where
  ok := fun _ => true
  root := readerDocumentEnv.root
  visit := fun i => { readerDocumentEnv.visit i with ok := fun c => c != .growLog || i != 2 }

/-- The load of the document stops at the reader. -/
theorem createImplicitResources_readerRefused :
    (createImplicitResources readerRefusedEnv (some readerDocument) (.hashing true)).1 = none ∧
      LoadedUpTo readerRefusedEnv readerDocument.visited (.hashing true)
        (createImplicitResources readerRefusedEnv (some readerDocument) (.hashing true)).2 :=
  ⟨by decide +kernel,
    (createImplicitResources_loadedUpTo readerRefusedEnv regular_readerDocument _).1⟩

/-- Loading the same elements again changes nothing, and needs neither DDS nor the factory. -/
theorem createImplicitResources_again {root' : XmlObject} {log : List CreatedResource}
    (hloaded : Loading env.visit root.visited ⟨a, []⟩ ⟨b, log⟩)
    (hsub : ∀ e ∈ root'.visited, ∃ el, e.2.resourceId = some el ∧
      ∃ e' ∈ root.visited, e'.2.resourceId = some el)
    {env' : LoadEnv} (hok : ∀ c, env'.ok c = true) (hvisit : ∀ i c, (env'.visit i).ok c = true)
    (hids : ∀ e ∈ root'.visited,
      (b.generateAttachedResourceId (refId e.2.resourceId) e.1).isSome = true) :
    createImplicitResources env' (some root') b = (some ⟨⟩, b) := by
  have hthere : ∀ e ∈ root'.visited, ∃ el, e.2.resourceId = some el ∧
      (b.resources.lookup (refId (some el))).isSome = true := by
    intro e he
    obtain ⟨el, hel, e', he', hel'⟩ := hsub e he
    have hrec := hloaded.recorded e' he'
    rw [hel'] at hrec
    exact ⟨el, hel, hrec⟩
  have hvisits : visitRoot env'.visit root' b =
      (some (root'.visited.map fun e => ⟨e.1, e.2.resourceId⟩), b) := by
    unfold visitRoot
    rw [XmlM.visitXml_eq, XmlM.visitAll_idle (s := ⟨b, []⟩) hvisit hthere]
    rfl
  have hlocked : createResourcesLocked env' (some root') b = (some ⟨⟩, b) := by
    unfold createResourcesLocked
    rw [hok, ensure_true_bind_apply, show require (some root') = (pure root' : AgentM _) from rfl,
      pure_then]
    refine bind_eq_some.2 ⟨_, b, hvisits, ?_⟩
    rw [read_bind_apply, forEach_ensure, if_pos]
    rw [List.all_map, List.all_eq_true]
    exact hids
  unfold createImplicitResources
  rw [hok, ensure_true_bind_apply, attempt_bind_apply, hlocked, hok]
  rfl

end AgentM

namespace XmlLoader

/-- A load that succeeds was given a URL with one of the two schemes, which is added to the
profiles. -/
theorem loadResourcesFromXml_eq_some {env : LoadEnv} {url : List Char} {s s' : XmlLoader}
    (h : loadResourcesFromXml env url s = (some ⟨⟩, s')) :
    (7 < url.length ∧ (fileScheme <+: url ∨ strScheme <+: url)) ∧
      s'.profiles = withUrl env url s.profiles ∧
      AgentM.createImplicitResources env (env.root s'.profiles) s.agent =
        (some ⟨⟩, s'.agent) := by
  obtain ⟨_, _, hok, h⟩ := bind_eq_some.1 h
  obtain rfl := (ensure_eq_some.1 hok).2
  obtain ⟨_, _, hok, h⟩ := bind_eq_some.1 h
  obtain rfl := (ensure_eq_some.1 hok).2
  obtain ⟨_, _, hok, h⟩ := bind_eq_some.1 h
  obtain ⟨hlen, rfl⟩ := ensure_eq_some.1 hok
  obtain ⟨_, _, hok, h⟩ := bind_eq_some.1 h
  obtain ⟨hscheme, rfl⟩ := ensure_eq_some.1 hok
  obtain ⟨_, _, hok, h⟩ := bind_eq_some.1 h
  obtain rfl := (ensure_eq_some.1 hok).2
  obtain ⟨_, _, hok, h⟩ := bind_eq_some.1 h
  obtain rfl := (ensure_eq_some.1 hok).2
  rw [modify_bind_apply, read_bind_apply] at h
  have hret := congrArg Prod.fst h
  obtain rfl := congrArg Prod.snd h
  rw [Bool.or_eq_true, List.isPrefixOf_iff_prefix, List.isPrefixOf_iff_prefix] at hscheme
  exact ⟨⟨of_decide_eq_true hlen, hscheme⟩, rfl, eq_of_fst_eq_some hret⟩

/-- A load that succeeds has added the URL and loaded all elements of what DDS has parsed. -/
theorem loadResourcesFromXml_loads {env : LoadEnv} {url : List Char} {s s' : XmlLoader}
    {root : XmlObject} (hunlock : env.ok .unlockResources = true)
    (hroot : env.root (withUrl env url s.profiles) = some root)
    (hreg : ∀ e ∈ root.visited, RegularElement e)
    (h : loadResourcesFromXml env url s = (some ⟨⟩, s')) :
    (7 < url.length ∧ (fileScheme <+: url ∨ strScheme <+: url)) ∧
      s'.profiles = withUrl env url s.profiles ∧
      ∃ log, Loading env.visit root.visited ⟨s.agent, []⟩ ⟨s'.agent, log⟩ := by
  obtain ⟨hurl, hprofiles, hcreate⟩ := loadResourcesFromXml_eq_some h
  refine ⟨hurl, hprofiles, ?_⟩
  rw [hprofiles, hroot] at hcreate
  exact AgentM.createImplicitResources_loading hreg hunlock hcreate

/-- Loading again what is loaded changes only the profiles. -/
theorem loadResourcesFromXml_again {env env' : LoadEnv} {url url' : List Char} {s s' : XmlLoader}
    {root root' : XmlObject} (hunlock : env.ok .unlockResources = true)
    (hroot : env.root (withUrl env url s.profiles) = some root)
    (hreg : ∀ e ∈ root.visited, RegularElement e)
    (h : loadResourcesFromXml env url s = (some ⟨⟩, s'))
    (hok : ∀ c, env'.ok c = true) (hvisit : ∀ i c, (env'.visit i).ok c = true)
    (hurl : 7 < url'.length ∧ (fileScheme <+: url' ∨ strScheme <+: url'))
    (hroot' : env'.root (withUrl env' url' s'.profiles) = some root')
    (hsub : ∀ e ∈ root'.visited, ∃ el, e.2.resourceId = some el ∧
      ∃ e' ∈ root.visited, e'.2.resourceId = some el)
    (hids : ∀ e ∈ root'.visited,
      (s'.agent.generateAttachedResourceId (refId e.2.resourceId) e.1).isSome = true) :
    loadResourcesFromXml env' url' s' =
      (some ⟨⟩, { s' with profiles := withUrl env' url' s'.profiles }) := by
  obtain ⟨-, -, log, hloaded⟩ := loadResourcesFromXml_loads hunlock hroot hreg h
  have hagain := AgentM.createImplicitResources_again hloaded hsub hok hvisit hids
  have hscheme : (fileScheme.isPrefixOf url' || strScheme.isPrefixOf url') = true := by
    rw [Bool.or_eq_true, List.isPrefixOf_iff_prefix, List.isPrefixOf_iff_prefix]
    exact hurl.2
  unfold loadResourcesFromXml
  rw [hok, ensure_true_bind_apply, hok, ensure_true_bind_apply, decide_eq_true hurl.1,
    ensure_true_bind_apply, hscheme, ensure_true_bind_apply, hok, ensure_true_bind_apply, hok,
    ensure_true_bind_apply, modify_bind_apply, read_bind_apply, hroot']
  unfold onAgent
  rw [hagain]

/-- The agent that the document is loaded into. -/
def beforeReaderDocument : XmlLoader := ⟨.hashing true, ⟨[], []⟩⟩

/-- The document is loaded twice. -/
theorem loadResourcesFromXml_readerDocument :
    let s := (loadResourcesFromXml readerDocumentEnv "str://<dds/>".toList beforeReaderDocument).2
    loadResourcesFromXml readerDocumentEnv "str://<dds/>".toList s = (some ⟨⟩,
      { s with profiles := withUrl readerDocumentEnv "str://<dds/>".toList s.profiles }) := by
  refine loadResourcesFromXml_again (s := beforeReaderDocument) rfl rfl regular_readerDocument
    (eq_of_fst_eq_some (by decide +kernel)) (fun _ => rfl) (fun _ _ => rfl) (by decide) rfl
    (fun e he => ?_) (fun e he => ?_)
  · obtain ⟨el, hel, -⟩ := regular_readerDocument e he
    exact ⟨el, hel, e, he, hel⟩
  · revert e
    decide +kernel

end XmlLoader

open AgentM

/-- The elements have identifiers, and elements of different names have different ones. -/
def DistinctElements (b : Agent) (l : List (ResourceKind × XmlObject)) : Prop :=
  (∀ e ∈ l, (b.generateAttachedResourceId (refId e.2.resourceId) e.1).isSome = true) ∧
    ∀ e ∈ l, ∀ e' ∈ l, b.generateAttachedResourceId (refId e.2.resourceId) e.1 =
      b.generateAttachedResourceId (refId e'.2.resourceId) e'.1 →
      e.2.resourceId = e'.2.resourceId

namespace Loading

variable {env : ℕ → VisitEnv} {l : List (ResourceKind × XmlObject)} {a b : Agent}
  {log : List CreatedResource}

/-- In an agent without resources, a record is that of an element. -/
theorem exists_element (h : Loading env l ⟨a, []⟩ ⟨b, log⟩) (ha : a.resources = ∅)
    {rid : ResourceId} {r : Resource} (hr : b.resources.lookup rid = some r) :
    ∃ e ∈ l, rid = refId e.2.resourceId ∧ r.kind = e.1 ∧ r.id = rid ∧ r.nativeDeleted = false ∧
      (e.1.isEntity = true → r.native.isSome = true) := by
  have hnone : a.resources.lookup rid = none := by
    rw [ha]
    rfl
  obtain ⟨e, he, hrid, q, hkind, -, hnew⟩ := h.fresh rid r hnone hr
  exact ⟨e, he, hrid, hnew.kind.trans hkind, hnew.id, hnew.nativeDeleted,
    fun hentity => hnew.native (hkind ▸ hentity)⟩

theorem namedRecords (h : Loading env l ⟨a, []⟩ ⟨b, log⟩) (ha : a.resources = ∅)
    (hreg : ∀ e ∈ l, RegularElement e) : NamedRecords b where
  valid rid r hr := by
    obtain ⟨e, he, rfl, -⟩ := h.exists_element ha hr
    obtain ⟨el, hel, -⟩ := hreg e he
    rw [hel]
    simp [refId]
  id rid r hr := by
    obtain ⟨e, -, -, -, hid, -⟩ := h.exists_element ha hr
    exact .inl hid

/-- The names that a pass over the records of the elements hands out. -/
theorem autoName_eq (h : Loading env l ⟨a, []⟩ ⟨b, log⟩) (ha : a.resources = ∅)
    (hreg : ∀ e ∈ l, RegularElement e) {rid : ResourceId} (hrid : rid ∈ b.attachable) :
    ∃ e ∈ l, rid = refId e.2.resourceId ∧
      b.autoName rid = b.generateAttachedResourceId (refId e.2.resourceId) e.1 ∧
      (e.1.isEntity = true → b.isReady rid = true) := by
  obtain ⟨r, hr, -⟩ := Agent.mem_attachable_iff.1 hrid
  obtain ⟨e, he, heq, hkind, hid, -, hnative⟩ := h.exists_element ha hr
  have hne : rid ≠ .none := (h.namedRecords ha hreg).valid rid r hr
  refine ⟨e, he, heq, ?_, fun hentity => ?_⟩
  · unfold Agent.autoName
    rw [hr, Option.bind_some, hid, hkind, heq]
  · unfold Agent.isReady
    rw [hr, Option.any_some, hid, hnative hentity, Bool.and_true, bne_iff_ne]
    exact hne

/-- The pass hands out the identifiers of the elements. -/
theorem exists_assign (h : Loading env l ⟨a, []⟩ ⟨b, log⟩) (ha : a.resources = ∅)
    (hreg : ∀ e ∈ l, RegularElement e) (hids : DistinctElements b l) :
    ∃ es, Assignment.assign b.autoName b.isReady b.attachable [] = some es ∧
      ∀ rid ∈ b.attachable, Assignment.Sole es rid := by
  refine (Assignment.assign_sole_iff_of_nil b.attachable_nodup).2 ⟨fun rid hrid => ?_, ?_⟩
  · obtain ⟨e, he, -, hname, hready⟩ := h.autoName_eq ha hreg hrid
    have hsome := hids.1 e he
    rw [hname]
    refine ⟨hsome, hready ?_⟩
    by_contra hentity
    rw [Agent.generateAttachedResourceId, if_neg hentity] at hsome
    cases hsome
  · refine List.Nodup.map_on (fun rid hrid rid' hrid' heq => ?_) b.attachable_nodup
    obtain ⟨e, he, rfl, hname, -⟩ := h.autoName_eq ha hreg hrid
    obtain ⟨e', he', rfl, hname', -⟩ := h.autoName_eq ha hreg hrid'
    rw [hname, hname'] at heq
    rw [hids.2 e he e' he' heq]

theorem mem_attachable (h : Loading env l ⟨a, []⟩ ⟨b, log⟩) (ha : a.resources = ∅)
    {e : ResourceKind × XmlObject} (he : e ∈ l) : refId e.2.resourceId ∈ b.attachable := by
  obtain ⟨r, hr⟩ := Option.isSome_iff_exists.1 (h.recorded e he)
  obtain ⟨-, -, -, -, -, hdel, -⟩ := h.exists_element ha hr
  exact Agent.mem_attachable_iff.2 ⟨r, hr, hdel⟩

end Loading

/-- A session that is opened after a load has every element attached once, under an identifier
of its own. -/
theorem openSession_loaded {env : Env} (hyes : ∀ c, env.ok c = true) {visit : ℕ → VisitEnv}
    {l : List (ResourceKind × XmlObject)} {a b : Agent} {log : List CreatedResource}
    (ha : a.Initial) (hauto : a.autoAttachResources = true)
    (h : Loading visit l ⟨a, []⟩ ⟨b, log⟩) (hreg : ∀ e ∈ l, RegularElement e)
    (hids : DistinctElements b l) (src : ℕ) (key : ClientSessionKey) (timeout : ℕ)
    (data : Option ℕ) :
    ∃ c, openSession env src key timeout data b = (some (), c) ∧
      ∀ e ∈ l, c.AttachedOnce key (refId e.2.resourceId) := by
  have hsessions : b.sessions = ∅ := h.frame.sessions.trans ha.sessions
  set b' : Agent := b.insertSession key (.initial src timeout data) with hb'
  have hlookup : b'.sessions.lookup key = some (.initial src timeout data) :=
    AList.lookup_insert _
  have hentries : b'.attachedEntries key = [] := by
    unfold Agent.attachedEntries
    rw [hlookup]
    rfl
  have hallocated : LinksAllocated b' := by
    intro key' s hs n hn
    by_cases heq : key' = key
    · rw [heq, hlookup] at hs
      obtain rfl := Option.some.inj hs
      cases hn
    · have hnone : b'.sessions.lookup key' = b.sessions.lookup key' := AList.lookup_insert_ne heq
      rw [hnone, hsessions] at hs
      cases hs
  have hstart : Passing b' key b' :=
    ⟨h.frame.autoAttach.trans hauto, rfl, by rw [hlookup]; rfl, hallocated, fun _ => rfl⟩
  obtain ⟨es, hassign, hsole⟩ := h.exists_assign ha.resources hreg hids
  have hassign' : Assignment.assign b'.autoName b'.isReady b'.attachable [] = some es := hassign
  have hpass := attachAllResourcesToSessionEA_computes hyes
    ((h.namedRecords ha.resources hreg).of_resources (b := b') rfl) hstart
  rw [hentries, hassign'] at hpass
  obtain ⟨hret, hpassing, hes⟩ := hpass
  set c := (attachAllResourcesToSessionEA env key b').2 with hc
  have hopen : openNewSession env src key timeout data b = (some (), c) := by
    unfold openNewSession
    rw [modify_bind_apply]
    refine onFailure_eq_some.2 ?_
    unfold populateSession
    rw [hyes, ensure_true_bind_apply, hyes, ensure_true_bind_apply]
    refine bind_eq_some.2 ⟨(), c, eq_of_fst_eq_some hret, ?_⟩
    rw [hyes]
    rfl
  obtain ⟨s, hs⟩ := Option.isSome_iff_exists.1 hpassing.session
  refine ⟨c, ?_, fun e he => ?_⟩
  · unfold openSession
    rw [hyes, ensure_true_bind_apply]
    refine bind_eq_some.2 ⟨(), c, ?_, ?_⟩
    · unfold resetOrOpenSession
      rw [read_bind_apply, hsessions]
      exact hopen
    · rw [read_bind_apply]
      refine bind_eq_some.2 ⟨s, c, require_eq_some.2 ⟨hs, rfl⟩, ?_⟩
      simp [hyes, ensure, bind_apply]
  · have hmem := hsole _ (h.mem_attachable ha.resources he)
    dsimp only at hes
    rw [← hes] at hmem
    exact Agent.sole_attachedEntries_iff.1 hmem

/-- After a load that succeeds, a new session has every element of the document attached once,
under an identifier of its own. -/
theorem openSession_loadResourcesFromXml {load : LoadEnv} {url : List Char} {s s' : XmlLoader}
    {root : XmlObject} (hunlock : load.ok .unlockResources = true)
    (hroot : load.root (XmlLoader.withUrl load url s.profiles) = some root)
    (hreg : ∀ e ∈ root.visited, RegularElement e)
    (h : XmlLoader.loadResourcesFromXml load url s = (some ⟨⟩, s'))
    (hinit : s.agent.Initial) (hauto : s.agent.autoAttachResources = true)
    (hids : DistinctElements s'.agent root.visited) {env : Env} (hyes : ∀ c, env.ok c = true)
    (src : ℕ) (key : ClientSessionKey) (timeout : ℕ) (data : Option ℕ) :
    ∃ c, openSession env src key timeout data s'.agent = (some (), c) ∧
      ∀ e ∈ root.visited, c.AttachedOnce key (refId e.2.resourceId) := by
  obtain ⟨-, -, log, hloaded⟩ := XmlLoader.loadResourcesFromXml_loads hunlock hroot hreg h
  exact openSession_loaded hyes hinit hauto hloaded hreg hids src key timeout data

/-- A session that is opened after the document was loaded has all of its elements. -/
theorem openSession_readerDocument :
    ∃ c, openSession (.obliging ⟨true, [], []⟩) 0 ⟨1, 1⟩ 0 none
      (XmlLoader.loadResourcesFromXml readerDocumentEnv "str://<dds/>".toList
        XmlLoader.beforeReaderDocument).2.agent = (some (), c) ∧
      ∀ e ∈ readerDocument.visited, c.AttachedOnce ⟨1, 1⟩ (refId e.2.resourceId) := by
  refine openSession_loadResourcesFromXml (s := XmlLoader.beforeReaderDocument)
    (rfl : readerDocumentEnv.ok .unlockResources = true) rfl regular_readerDocument
    (eq_of_fst_eq_some (by decide +kernel)) (Agent.hashing_initial true) rfl ⟨?_, ?_⟩
    (fun _ => rfl) 0 ⟨1, 1⟩ 0 none
  · decide +kernel
  · decide +kernel

end NanoAgent
