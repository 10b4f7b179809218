import NanoAgent.DdsAgent.NamedRecords
import NanoAgent.DdsAgent.ResourceIds
import NanoAgent.Foundations.Assignment

/-!
# Attaching all resources to a session

A pass over the resources gives every resource that was not natively deleted an attached
resource under the identifier hashed from its name, unless the session uses this
identifier. This is how names are handed out in `Assignment`: the entries are the
identifiers of the session with the resources attached under them, and the pass computes
`assign` as long as nothing else fails.

A resource of a kind without an identifier makes the pass fail. One whose identifier is in
use is passed over, although it may be attached under another identifier or not at all.
-/

namespace NanoAgent

open Prog AgentM

theorem linksAllocated_of_occurs {a : Agent} (h : a.Occurs) : LinksAllocated a := by
  refine h.invariant (fun a h₀ => ?_) fun _ _ _ _ hchange ha => ha.change hchange
  intro key s hs
  rw [h₀.sessions] at hs
  cases hs

namespace Agent

variable (a : Agent)

/-- The identifier under which a resource is attached automatically. -/
def autoName (rid : ResourceId) : Option ℕ :=
  (a.resources.lookup rid).bind fun r => a.generateAttachedResourceId r.id r.kind

/-- The record of the resource has its name and an entity. -/
def isReady (rid : ResourceId) : Bool :=
  (a.resources.lookup rid).any fun r => r.id != .none && r.native.isSome

/-- The resource was not natively deleted. -/
def isAttachable (rid : ResourceId) : Bool :=
  (a.resources.lookup rid).any fun r => !r.nativeDeleted

/-- The resources that a pass attaches, in the order of the table. -/
def attachable : List ResourceId := a.resourceKeys.filter a.isAttachable

/-- The identifiers of a session with the resources that are attached under them. -/
def attachedEntries (key : ClientSessionKey) : List (ℕ × ResourceId) :=
  match a.sessions.lookup key with
  | none => []
  | some s => s.resources.map fun n => ((a.attached n).id, (a.attached n).resource)

/-- The resource is attached to the session once, under an identifier of its own. -/
def AttachedOnce (key : ClientSessionKey) (rid : ResourceId) : Prop :=
  ∃ s n, a.sessions.lookup key = some s ∧ (a.attached n).resource = rid ∧
    (s.resources.filter fun m =>
      (a.attached m).id = (a.attached n).id ∨ (a.attached m).resource = rid) = [n]

/-- What a resource needs to be attached once, when `earlier` are the resources before it in
the table. -/
def AutoAttachable (key : ClientSessionKey) (earlier : List ResourceId) (rid : ResourceId) : Prop :=
  Assignment.Assignable a.autoName a.isReady (a.attachedEntries key) earlier rid

variable {a}

theorem sole_attachedEntries_iff {key : ClientSessionKey} {rid : ResourceId} :
    Assignment.Sole (a.attachedEntries key) rid ↔ a.AttachedOnce key rid := by
  unfold Assignment.Sole Assignment.related AttachedOnce attachedEntries
  cases a.sessions.lookup key with
  | none => simp
  | some s =>
      simp only [List.filter_map, List.map_eq_singleton_iff, Prod.mk.injEq, Option.some.injEq]
      constructor
      · rintro ⟨k, n, hfilter, rfl, hn⟩
        exact ⟨s, n, rfl, hn, hfilter⟩
      · rintro ⟨s', n, rfl, hn, hfilter⟩
        exact ⟨_, n, hfilter, rfl, hn⟩

end Agent

/-- A state of a pass over the resources that began in `a`: only the counts of the records
have changed, and what is attached. -/
structure Passing (a : Agent) (key : ClientSessionKey) (b : Agent) : Prop where
  auto : b.autoAttachResources = true
  autoId : b.autoId = a.autoId
  session : (b.sessions.lookup key).isSome
  allocated : LinksAllocated b
  record : ∀ rid, (b.resources.lookup rid).map (fun r => { r with attachedCount := 0 }) =
    (a.resources.lookup rid).map fun r => { r with attachedCount := 0 }

namespace Passing

variable {a b : Agent} {key : ClientSessionKey} {rid : ResourceId}

theorem exists_record (h : Passing a key b) {r : Resource} (hr : b.resources.lookup rid = some r) :
    ∃ r₀, a.resources.lookup rid = some r₀ ∧ r₀.id = r.id ∧ r₀.kind = r.kind ∧
      r₀.native = r.native ∧ r₀.nativeDeleted = r.nativeDeleted := by
  have hrecord := h.record rid
  rw [hr] at hrecord
  obtain ⟨r₀, hr₀, heq⟩ := Option.map_eq_some_iff.1 hrecord.symm
  have hid := congrArg Resource.id heq
  have hkind := congrArg Resource.kind heq
  have hnative := congrArg Resource.native heq
  have hdel := congrArg Resource.nativeDeleted heq
  exact ⟨r₀, hr₀, hid, hkind, hnative, hdel⟩

theorem autoName_eq (h : Passing a key b) {r : Resource} (hr : b.resources.lookup rid = some r) :
    a.autoName rid = b.generateAttachedResourceId r.id r.kind := by
  obtain ⟨r₀, hr₀, hid, hkind, -⟩ := h.exists_record hr
  unfold Agent.autoName Agent.generateAttachedResourceId
  rw [hr₀, Option.bind_some, hid, hkind, h.autoId]

theorem isReady_eq (h : Passing a key b) {r : Resource} (hr : b.resources.lookup rid = some r) :
    a.isReady rid = (r.id != .none && r.native.isSome) := by
  obtain ⟨r₀, hr₀, hid, -, hnative, -⟩ := h.exists_record hr
  unfold Agent.isReady
  rw [hr₀, Option.any_some, hid, hnative]

theorem isAttachable_eq (h : Passing a key b) {r : Resource}
    (hr : b.resources.lookup rid = some r) : a.isAttachable rid = !r.nativeDeleted := by
  obtain ⟨r₀, hr₀, -, -, -, hdel⟩ := h.exists_record hr
  unfold Agent.isAttachable
  rw [hr₀, Option.any_some, hdel]

theorem isAttachable_eq_false (h : Passing a key b) (hr : b.resources.lookup rid = none) :
    a.isAttachable rid = false := by
  have hrecord := h.record rid
  rw [hr] at hrecord
  unfold Agent.isAttachable
  rw [Option.map_eq_none_iff.1 hrecord.symm]
  rfl

/-- The state after a resource was attached and announced. -/
theorem attach (h : Passing a key b) (id : ℕ) {r : Resource} (data : Option ℕ) (c : Callback) :
    Passing a key (((b.link key id rid r).updateAttached b.poolResources.next fun x =>
      { x with userData := data }).notify c) where
  auto := h.auto
  autoId := h.autoId
  session := by
    change ((b.sessions.modify key _).lookup key).isSome
    rw [AList.lookup_modify_self, Option.isSome_map]
    exact h.session
  allocated := h.allocated.link key id rid r
  record rid' := by
    change ((b.link key id rid r).resources.lookup rid').map _ = _
    rw [← h.record rid', Agent.lookup_link]
    split
    · rw [Option.map_map]
      rfl
    · rfl

theorem attachedEntries_attach (h : Passing a key b) (id : ℕ) {r : Resource} (hid : r.id = rid)
    (data : Option ℕ) (c : Callback) :
    (((b.link key id rid r).updateAttached b.poolResources.next fun x =>
      { x with userData := data }).notify c).attachedEntries key =
      b.attachedEntries key ++ [(id, rid)] := by
  obtain ⟨s, hs⟩ := Option.isSome_iff_exists.1 h.session
  generalize hd : ((b.link key id rid r).updateAttached b.poolResources.next fun x =>
      { x with userData := data }).notify c = d
  have hlookup : d.sessions.lookup key =
      some { s with resources := s.resources ++ [b.poolResources.next] } := by
    rw [← hd]
    change (b.sessions.modify key _).lookup key = _
    rw [AList.lookup_modify_self, hs]
    rfl
  have hattached : ∀ n, ((d.attached n).id, (d.attached n).resource) =
      (((b.link key id rid r).attached n).id, ((b.link key id rid r).attached n).resource) := by
    intro n
    rw [← hd, Agent.attached_notify, Agent.attached_updateAttached]
    split <;> rfl
  unfold Agent.attachedEntries
  rw [hlookup, hs]
  dsimp only
  rw [List.map_append, List.map_singleton]
  congr 1
  · refine List.map_congr_left fun n hn => ?_
    rw [hattached, Agent.attached_link_of_lt (h.allocated key s hs n hn)]
  · rw [hattached, Agent.attached_link_self]
    simp [AttachedResource.initial, hid]

end Passing

theorem Agent.mem_taken_iff {a : Agent} {key : ClientSessionKey} {s : ClientSession}
    (hs : a.sessions.lookup key = some s) (id : ℕ) :
    id ∈ Assignment.taken (a.attachedEntries key) ↔ a.findAttachedResource s id ≠ none := by
  unfold Assignment.taken Agent.attachedEntries Agent.findAttachedResource
  rw [hs, List.map_map, List.mem_map, ne_eq, List.find?_eq_none]
  simp

namespace AgentM

variable {env : Env} {a b : Agent} {key : ClientSessionKey} {rid : ResourceId}

/-- One step of handing out the identifiers; a resource that was natively deleted takes no
part. -/
def attachStep (a : Agent) (es : List (ℕ × ResourceId)) (rid : ResourceId) :
    Option (List (ℕ × ResourceId)) :=
  if a.isAttachable rid then Assignment.assignOne a.autoName a.isReady es rid else some es

/-- A record that is not ready is not attached. -/
theorem attachNewEA_fails {id : ℕ} {r : Resource} (hr : b.resources.lookup rid = some r)
    (hgen : (b.generateAttachedResourceId r.id r.kind).isSome)
    (hready : (r.id != .none && r.native.isSome) = false) :
    (attachNewEA env key rid id b).1 = none := by
  have hentity : r.kind.isEntity = true := by
    unfold Agent.generateAttachedResourceId at hgen
    by_contra hnot
    rw [if_neg hnot] at hgen
    cases hgen
  cases hret : (attachNewEA env key rid id b).1 with
  | none => rfl
  | some v =>
      obtain ⟨n, c, hattach, hrest⟩ := bind_eq_some.1 (eq_of_fst_eq_some hret)
      obtain ⟨r', hr', hid, -, rfl⟩ := exists_of_attachResourceToSessionEA hattach
      obtain rfl := Option.some.inj (hr.symm.trans hr')
      have hnative : r.native = none := by simpa [hid] using hready
      obtain ⟨_, _, henable, -⟩ := bind_eq_some.1 hrest
      unfold enableResourceEA at henable
      rw [read_bind_apply] at henable
      obtain ⟨r', _, hlookup, henable⟩ := bind_eq_some.1 henable
      rw [require_eq_some, Agent.lookup_link, if_pos rfl, hr] at hlookup
      obtain ⟨hr', rfl⟩ := hlookup
      obtain rfl := Option.some.inj hr'
      simp [hentity, hnative, bind_eq_some] at henable

/-- A round of the pass hands out the identifier of its resource. -/
theorem attachOneEA_computes (hyes : ∀ c, env.ok c = true) (ha : NamedRecords a) (rid : ResourceId)
    (hb : Passing a key b) :
    Computes (fun c => c.attachedEntries key) (Passing a key)
      (attachStep a (b.attachedEntries key) rid) (attachOneEA env key rid b) := by
  obtain ⟨s, hs⟩ := Option.isSome_iff_exists.1 hb.session
  unfold attachStep
  cases hr : b.resources.lookup rid with
  | none =>
      rw [hb.isAttachable_eq_false hr, if_neg Bool.false_ne_true]
      have hround : attachOneEA env key rid b = (some (), b) := by simp [attachOneEA, hyes, hr]
      rw [hround]
      exact ⟨rfl, hb, rfl⟩
  | some r =>
      rw [hb.isAttachable_eq hr]
      cases hdel : r.nativeDeleted with
      | true =>
          have hround : attachOneEA env key rid b = (some (), b) := by
            simp [attachOneEA, hyes, hr, hdel, bind_apply, ensure]
          rw [hround]
          exact ⟨rfl, hb, rfl⟩
      | false =>
          rw [Bool.not_false, if_pos rfl]
          unfold Assignment.assignOne
          rw [hb.autoName_eq hr]
          cases hgen : b.generateAttachedResourceId r.id r.kind with
          | none =>
              have hround : (attachOneEA env key rid b).1 = none := by
                simp [attachOneEA, hyes, hr, hdel, hb.auto, bind_apply, hgen, ensure]
              exact hround
          | some id =>
              dsimp only
              rw [hb.isReady_eq hr]
              by_cases hfind : b.findAttachedResource s id = none
              · rw [if_neg (by rw [Agent.mem_taken_iff hs]; exact not_not.2 hfind)]
                have hround : attachOneEA env key rid b =
                    ((attachNewEA env key rid id b).1, (attachNewEA env key rid id b).2) := by
                  cases hnew : attachNewEA env key rid id b with
                  | mk v c =>
                      cases v <;>
                        simp [attachOneEA, hyes, hr, hdel, hb.auto, bind_apply, hgen, hs, hfind,
                          hnew, ensure]
                rw [hround]
                cases hready : (r.id != .none && r.native.isSome) with
                | false =>
                    rw [if_neg Bool.false_ne_true]
                    exact attachNewEA_fails hr (by rw [hgen]; rfl) hready
                | true =>
                    rw [if_pos rfl]
                    rw [Bool.and_eq_true, bne_iff_ne] at hready
                    obtain ⟨r₀, hr₀, hid₀, -⟩ := hb.exists_record hr
                    have hid : r.id = rid := by
                      have hnamed := ha.id rid r₀ hr₀
                      rw [hid₀] at hnamed
                      exact hnamed.resolve_right hready.1
                    rw [attachNewEA_eq hyes key id hr ⟨hready.1, hready.2, by rw [hgen]; rfl⟩ hdel]
                    exact ⟨rfl, hb.attach id _ _, hb.attachedEntries_attach id hid _ _⟩
              · rw [if_pos ((Agent.mem_taken_iff hs id).2 hfind)]
                have hused : (b.findAttachedResource s id).isNone = false := by
                  rw [Bool.eq_false_iff, ne_eq, Option.isNone_iff_eq_none]
                  exact hfind
                have hround : attachOneEA env key rid b = (some (), b) := by
                  simp [attachOneEA, hyes, hr, hdel, hb.auto, bind_apply, hgen, hs, hused, ensure]
                rw [hround]
                exact ⟨rfl, hb, rfl⟩

/-- The pass hands out the identifiers of all resources. -/
theorem attachAllResourcesToSessionEA_computes (hyes : ∀ c, env.ok c = true) (ha : NamedRecords a)
    (hb : Passing a key a) :
    Computes (fun c => c.attachedEntries key) (Passing a key)
      (Assignment.assign a.autoName a.isReady a.attachable (a.attachedEntries key))
      (attachAllResourcesToSessionEA env key a) := by
  have hfold : Assignment.assign a.autoName a.isReady a.attachable (a.attachedEntries key) =
      a.resourceKeys.foldlM (attachStep a) (a.attachedEntries key) :=
    List.foldlM_filter
  rw [hfold]
  unfold attachAllResourcesToSessionEA
  rw [hyes, ensure_true_bind_apply, read_bind_apply]
  exact forEach_computes (fun rid b hb => attachOneEA_computes hyes ha rid hb) _ hb

end AgentM

open AgentM

theorem Agent.attachable_nodup (a : Agent) : a.attachable.Nodup := by
  unfold Agent.attachable
  exact AList.nodup_keysBy.filter _

theorem Agent.mem_attachable_iff {a : Agent} {rid : ResourceId} :
    rid ∈ a.attachable ↔ ∃ r, a.resources.lookup rid = some r ∧ r.nativeDeleted = false := by
  unfold Agent.attachable Agent.isAttachable Agent.resourceKeys
  rw [List.mem_filter, AList.mem_keysBy, ← AList.mem_keys, ← AList.lookup_isSome]
  cases a.resources.lookup rid with
  | none => simp
  | some r => simp

/-- The resources that are to be attached do not change in a pass. -/
theorem Passing.mem_attachable_iff {a b : Agent} {key : ClientSessionKey} (h : Passing a key b)
    {rid : ResourceId} : rid ∈ b.attachable ↔ rid ∈ a.attachable := by
  have hdel := congrArg (Option.map Resource.nativeDeleted) (h.record rid)
  rw [Option.map_map, Option.map_map] at hdel
  rw [Agent.mem_attachable_iff, Agent.mem_attachable_iff]
  have hiff : ∀ c : Agent, (∃ r, c.resources.lookup rid = some r ∧ r.nativeDeleted = false) ↔
      (c.resources.lookup rid).map (Resource.nativeDeleted ∘
        fun r => { r with attachedCount := 0 }) = some false := by
    intro c
    cases c.resources.lookup rid <;> simp
  rw [hiff, hiff, hdel]

/-- A pass in a state in which all identifiers are used does nothing. -/
theorem attachAll_idle {env : Env} (hyes : ∀ c, env.ok c = true) {a b : Agent}
    {key : ClientSessionKey} (hb : Passing a key b)
    (htaken : ∀ rid ∈ a.attachable, ∃ id, a.autoName rid = some id ∧
      id ∈ Assignment.taken (b.attachedEntries key)) :
    attachAllResourcesToSessionEA env key b = (some (), b) := by
  obtain ⟨s, hs⟩ := Option.isSome_iff_exists.1 hb.session
  unfold attachAllResourcesToSessionEA
  rw [hyes, ensure_true_bind_apply, read_bind_apply]
  refine forEach_idle fun rid _ => ?_
  cases hr : b.resources.lookup rid with
  | none => simp [attachOneEA, hyes, hr]
  | some r =>
      cases hdel : r.nativeDeleted with
      | true => simp [attachOneEA, hyes, hr, hdel, bind_apply, ensure]
      | false =>
          have hmem : rid ∈ a.attachable := by
            rw [← hb.mem_attachable_iff, Agent.mem_attachable_iff]
            exact ⟨r, hr, hdel⟩
          obtain ⟨id, hid, hused⟩ := htaken rid hmem
          rw [hb.autoName_eq hr] at hid
          have hfind : (b.findAttachedResource s id).isNone = false := by
            rw [Bool.eq_false_iff, ne_eq, Option.isNone_iff_eq_none]
            exact (Agent.mem_taken_iff hs id).1 hused
          simp [attachOneEA, hyes, hr, hdel, hb.auto, bind_apply, hid, hs, hfind, ensure]

/-- With all calls succeeding, a pass over the resources attaches all of them exactly once,
under identifiers of their own, and a second pass does nothing, exactly when every resource
has what it needs. -/
theorem attachAllResourcesToSessionEA_complete_iff {env : Env} (hyes : ∀ c, env.ok c = true)
    {a : Agent} (h : a.Occurs) (hauto : a.autoAttachResources = true) {key : ClientSessionKey}
    (hs : (a.sessions.lookup key).isSome) :
    (∃ b, attachAllResourcesToSessionEA env key a = (some (), b) ∧
      (∀ rid r, b.resources.lookup rid = some r → r.nativeDeleted = false →
        b.AttachedOnce key rid) ∧
      attachAllResourcesToSessionEA env key b = (some (), b)) ↔
    ∀ earlier rid later, a.attachable = earlier ++ rid :: later →
      a.AutoAttachable key earlier rid := by
  have hstart : Passing a key a := ⟨hauto, rfl, hs, linksAllocated_of_occurs h, fun _ => rfl⟩
  have hpass := attachAllResourcesToSessionEA_computes hyes (namedRecords_of_occurs h) hstart
  refine Iff.trans ?_ (Assignment.assign_sole_iff a.attachable_nodup (a.attachedEntries key))
  constructor
  · rintro ⟨b, hb, hall, -⟩
    rw [hb] at hpass
    cases hassign : Assignment.assign a.autoName a.isReady a.attachable (a.attachedEntries key) with
    | none =>
        rw [hassign] at hpass
        cases hpass
    | some es =>
        rw [hassign] at hpass
        obtain ⟨-, hpassing, rfl⟩ := hpass
        refine ⟨_, rfl, fun rid hrid => ?_⟩
        rw [← hpassing.mem_attachable_iff, Agent.mem_attachable_iff] at hrid
        obtain ⟨r, hr, hdel⟩ := hrid
        exact Agent.sole_attachedEntries_iff.2 (hall rid r hr hdel)
  · rintro ⟨es, hassign, hall⟩
    rw [hassign] at hpass
    obtain ⟨hret, hpassing, hes⟩ := hpass
    dsimp only at hes
    refine ⟨_, eq_of_fst_eq_some hret, fun rid r hr hdel => ?_, attachAll_idle hyes hpassing ?_⟩
    · have hmem : rid ∈ a.attachable :=
        hpassing.mem_attachable_iff.1 (Agent.mem_attachable_iff.2 ⟨r, hr, hdel⟩)
      have hrid := hall rid hmem
      rw [← hes] at hrid
      exact Agent.sole_attachedEntries_iff.1 hrid
    · rw [hes]
      exact Assignment.taken_of_assign hassign

/-- For a session without attached resources, the resources need identifiers that are pairwise
different. -/
theorem Agent.forall_autoAttachable_iff {a : Agent} {key : ClientSessionKey}
    (h : a.attachedEntries key = []) :
    (∀ earlier rid later, a.attachable = earlier ++ rid :: later →
      a.AutoAttachable key earlier rid) ↔
    (∀ rid ∈ a.attachable, (a.autoName rid).isSome ∧ a.isReady rid = true) ∧
      (a.attachable.map a.autoName).Nodup := by
  unfold Agent.AutoAttachable
  rw [h, ← Assignment.assign_sole_iff a.attachable_nodup,
    Assignment.assign_sole_iff_of_nil a.attachable_nodup]

/-- A session that is opened after a resource was created by another one. -/
def Agent.joined (q : CreateRequest) (factory : FactoryOutcome) : Agent :=
  ((hashing true).after [(.openSession 0 ⟨1, 1⟩ 0 none, .obliging factory),
    (.createResource ⟨1, 1⟩ q, .obliging factory)]).insertSession ⟨2, 2⟩ (.initial 0 0 none)

theorem Agent.joined_occurs {q : CreateRequest} {factory : FactoryOutcome}
    (hnew : ((hashing true).after [(.openSession 0 ⟨1, 1⟩ 0 none, .obliging factory),
      (.createResource ⟨1, 1⟩ q, .obliging factory)]).sessions.lookup ⟨2, 2⟩ = none) :
    (joined q factory).Occurs :=
  ⟨_, .obliging factory, [.openSession], Agent.reached_after (Agent.hashing_initial true) _,
    .one (.openSession ⟨2, 2⟩ _ hnew rfl) (List.mem_singleton_self _)⟩

/-- A session that is opened after a participant was created. -/
def Agent.joinedParticipant : Agent :=
  joined ⟨5, .domainParticipant, .xml "", 0, false, false⟩
    (.one ⟨7, .domainParticipant, .guid 1, 0, 0⟩)

/-- The participant of another session is attached to a session that is opened. -/
theorem attachAll_joinedParticipant : ∃ b, attachAllResourcesToSessionEA
      (.obliging (.one ⟨7, .domainParticipant, .guid 1, 0, 0⟩)) ⟨2, 2⟩ Agent.joinedParticipant =
      (some (), b) ∧
    (∀ rid r, b.resources.lookup rid = some r → r.nativeDeleted = false →
      b.AttachedOnce ⟨2, 2⟩ rid) ∧
    attachAllResourcesToSessionEA
      (.obliging (.one ⟨7, .domainParticipant, .guid 1, 0, 0⟩)) ⟨2, 2⟩ b = (some (), b) := by
  refine (attachAllResourcesToSessionEA_complete_iff (fun _ => rfl)
    (Agent.joined_occurs (by decide)) rfl (by decide)).2 ?_
  rw [Agent.forall_autoAttachable_iff (by decide)]
  decide

/-- A QoS profile in the table has no identifier, and no session can be opened any more. -/
theorem attachAll_fails_of_qosProfile : ¬ ∀ a : Agent, a.Occurs → a.autoAttachResources = true →
    ∀ key, (a.sessions.lookup key).isSome → ∀ env : Env, (∀ c, env.ok c = true) →
      (attachAllResourcesToSessionEA env key a).1 = some () := by
  intro h
  let factory : FactoryOutcome := ⟨true, [], [(.qosProfile, .ref "p")]⟩
  have hret := h (Agent.joined ⟨5, .qosProfile, .xml "", 0, false, false⟩ factory)
    (Agent.joined_occurs (by decide)) rfl ⟨2, 2⟩ (by decide) (.obliging factory) fun _ => rfl
  exact absurd hret (by decide)

end NanoAgent
