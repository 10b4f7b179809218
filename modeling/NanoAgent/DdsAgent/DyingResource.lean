import NanoAgent.DdsAgent.RecordChange

/-!
# Attaching resources that are to be deleted

The deletion of a resource that several sessions use is only requested: its record is
marked `pendingDelete` and goes with the last session that detaches. Creating a resource
again by reference refuses a record that is marked. Attaching all resources to a
session looks at `nativeDeleted` alone, so a session that is opened, or one that a
clean-up pass comes to, is given a resource that waits for its deletion.

Between such steps a record that waits for its deletion loses attachments only, and the
detachment that takes its last one removes it.
-/

namespace NanoAgent

open Prog AgentM

/-- Attaching all resources to the session would attach one that waits for its deletion. -/
def OffersDying (env : Env) (a : Agent) (s : ClientSession) : Prop :=
  ∃ rid r id, a.resources.lookup rid = some r ∧ r.pendingDelete = true ∧
    r.nativeDeleted = false ∧ a.autoAttachResources = true ∧
    a.generateAttachedResourceId r.id r.kind = some id ∧ a.findAttachedResource s id = none ∧
    env.ok (.getBuffer .attach id) = true ∧ env.ok (.copyId .attach r.id) = true

/-- The condition under which a step attaches no resource that waits for its deletion: where
it attaches all resources to a new session, or to every session, it offers none. -/
def SparesDying (a : Agent) (i : Operation × Env) : Prop :=
  match i.1 with
  | .openSession src key timeout data =>
      a.sessions.lookup key = none → ¬ OffersDying i.2 a (.initial src timeout data)
  | .cleanupResources =>
      a.condCleanupResources = true →
        ∀ key s, a.sessions.lookup key = some s → ¬ OffersDying i.2 a s
  | _ => True

/-- The record of the resource, if it is there, waits for its deletion and has at most `c`
attachments. -/
def Dying (rid : ResourceId) (c : ℕ) (a : Agent) : Prop :=
  ∀ r, a.resources.lookup rid = some r → r.pendingDelete = true ∧ r.attachedCount ≤ c

/-- Every session that the resource could be attached to has an attached resource with its
identifier. -/
def Shunned (env : Env) (rid : ResourceId) (a : Agent) : Prop :=
  ∀ r id key s, a.resources.lookup rid = some r → r.nativeDeleted = false →
    a.autoAttachResources = true → a.generateAttachedResourceId r.id r.kind = some id →
    env.ok (.getBuffer .attach id) = true → env.ok (.copyId .attach r.id) = true →
    a.sessions.lookup key = some s →
    ∃ n ∈ s.resources, n < a.poolResources.next ∧ (a.attached n).id = id

theorem generateAttachedResourceId_congr {a b : Agent} (h : b.autoId = a.autoId)
    (rid : ResourceId) (kind : ResourceKind) :
    b.generateAttachedResourceId rid kind = a.generateAttachedResourceId rid kind := by
  unfold Agent.generateAttachedResourceId
  rw [h]

namespace Detaches

variable {a b : Agent}

theorem dying (h : Detaches a b) {rid : ResourceId} {c : ℕ} (ha : Dying rid c a) :
    Dying rid c b := by
  intro r' hr'
  obtain ⟨r, hr, hfrom⟩ := h.record rid r' hr'
  obtain ⟨hpend, hcount⟩ := ha r hr
  exact ⟨hfrom.pending hpend, Nat.le_trans hfrom.count hcount⟩

theorem shunned (h : Detaches a b) {env : Env} {rid : ResourceId} (ha : Shunned env rid a) :
    Shunned env rid b := by
  intro r' id key s hr' hdel hauto hid hbuffer hcopy hs
  obtain ⟨r, hr, hfrom⟩ := h.record rid r' hr'
  obtain ⟨hdel₀, hid₀, hkind₀⟩ := hfrom.kept hdel
  obtain ⟨s₀, hs₀, hlist⟩ := h.exists_session hs
  rw [generateAttachedResourceId_congr h.autoId, hid₀, hkind₀] at hid
  rw [h.autoAttach] at hauto
  rw [hid₀] at hcopy
  obtain ⟨n, hn, hlt, hname⟩ := ha r id key s₀ hr hdel₀ hauto hid hbuffer hcopy hs₀
  refine ⟨n, hlist ▸ hn, ?_, ?_⟩
  · rw [h.next]
    exact hlt
  · rw [h.id]
    exact hname

end Detaches

/-- Linking another resource, or a record that does not wait for its deletion. -/
theorem Dying.link {rid rid' : ResourceId} {c : ℕ} {a : Agent} (ha : Dying rid c a)
    (hne : rid ≠ rid') (key : ClientSessionKey) (id : ℕ) (r : Resource) :
    Dying rid c (a.link key id rid' r) := by
  intro r' hr'
  rw [Agent.lookup_link, if_neg hne] at hr'
  exact ha r' hr'

/-- A change that attaches nothing automatically and inserts no record. -/
theorem Dying.change {env : Env} {k : ChangeKind} {rid : ResourceId} {c : ℕ} {a b : Agent}
    (h : TableChange env k a b) (hk : k ≠ .insert ∧ k ≠ .attachAll) (ha : Dying rid c a) :
    Dying rid c b := by
  cases h with
  | reads hframe _ => exact (Detaches.of_readFrame hframe).dying ha
  | announce key n data => exact (Detaches.of_readFrame (.announce a n data _)).dying ha
  | session key f hf => exact (Detaches.updateSession a key hf).dying ha
  | detach key n del copyOut => exact (detachResourceEA_detaches key n del copyOut a).dying ha
  | openSession key s => exact ha
  | closeSession key => exact ha
  | insert q => exact absurd rfl hk.1
  | attachAll => exact absurd rfl hk.2
  | leak x => exact ha
  | create key id rid' hs hr hpend =>
      refine ha.link ?_ key id _
      rintro rfl
      rw [(ha _ hr).1] at hpend
      cases hpend

/-- A change of a pass that attaches all resources, on a resource that it cannot attach. -/
theorem Shunned.change {env : Env} {k : ChangeKind} {rid : ResourceId} {c : ℕ} {a b : Agent}
    (h : TableChange env k a b) (hk : k ∈ ChangeKind.closeSession :: attachChanges)
    (ha : Dying rid c a ∧ Shunned env rid a) : Dying rid c b ∧ Shunned env rid b := by
  obtain ⟨hdying, hshunned⟩ := ha
  cases h with
  | reads hframe _ =>
      exact ⟨(Detaches.of_readFrame hframe).dying hdying,
        (Detaches.of_readFrame hframe).shunned hshunned⟩
  | announce key n data =>
      exact ⟨(Detaches.of_readFrame (.announce a n data _)).dying hdying,
        (Detaches.of_readFrame (.announce a n data _)).shunned hshunned⟩
  | detach key n del copyOut =>
      exact ⟨(detachResourceEA_detaches key n del copyOut a).dying hdying,
        (detachResourceEA_detaches key n del copyOut a).shunned hshunned⟩
  | session key f hf => simp [attachChanges] at hk
  | openSession key s => simp [attachChanges] at hk
  | insert q => simp [attachChanges] at hk
  | create => simp [attachChanges] at hk
  | closeSession key =>
      refine ⟨hdying, fun r id key' s hr hdel hauto hid hbuffer hcopy hs => ?_⟩
      exact hshunned r id key' s hr hdel hauto hid hbuffer hcopy (AList.lookup_of_lookup_erase hs)
  | leak x =>
      refine ⟨hdying, fun r id key s hr hdel hauto hid hbuffer hcopy hs => ?_⟩
      obtain ⟨n, hn, hlt, hname⟩ := hshunned r id key s hr hdel hauto hid hbuffer hcopy hs
      refine ⟨n, hn, Nat.lt_succ_of_lt hlt, ?_⟩
      unfold Agent.attached
      rw [BufferPool.content_take_of_ne _ _ (Nat.ne_of_lt hlt)]
      exact hname
  | attachAll key id rid' hs hr hdel hauto hid hfree hbuffer hcopy =>
      have hne : rid ≠ rid' := by
        rintro rfl
        obtain ⟨n, hn, -, hname⟩ := hshunned _ id key _ hr hdel hauto hid hbuffer hcopy hs
        have hnone := List.find?_eq_none.1 hfree n hn
        simp [hname] at hnone
      refine ⟨hdying.link hne key id _,
        fun r id' key' s hr' hdel' hauto' hid' hbuffer' hcopy' hs' => ?_⟩
      rw [Agent.lookup_link, if_neg hne] at hr'
      obtain ⟨s₀, hs₀, hlist⟩ := Agent.exists_of_session_link hs'
      obtain ⟨n, hn, hlt, hname⟩ := hshunned r id' key' s₀ hr' hdel' hauto' hid' hbuffer' hcopy' hs₀
      refine ⟨n, ?_, Nat.lt_succ_of_lt hlt, ?_⟩
      · rw [hlist]
        exact List.mem_append_left _ hn
      · rw [Agent.attached_link_of_lt hlt]
        exact hname

/-- Where no resource is offered, one that waits for its deletion is shunned. -/
theorem shunned_of_not_offersDying {env : Env} {rid : ResourceId} {c : ℕ} {a : Agent}
    (ha : LinksAllocated a)
    (hdying : Dying rid c a) (h : ∀ key s, a.sessions.lookup key = some s → ¬ OffersDying env a s) :
    Shunned env rid a := by
  intro r id key s hr hdel hauto hid hbuffer hcopy hs
  cases hfind : a.findAttachedResource s id with
  | none =>
      exact absurd ⟨rid, r, id, hr, (hdying r hr).1, hdel, hauto, hid, hfind, hbuffer, hcopy⟩
        (h key s hs)
  | some n =>
      have hn := List.mem_of_find?_eq_some hfind
      refine ⟨n, hn, ha key s hs n hn, ?_⟩
      simpa using List.find?_some hfind

theorem Dying.of_changes {env : Env} {ks : List ChangeKind} {rid : ResourceId} {c : ℕ}
    {a b : Agent} (h : Changes env ks a b) (hks : ∀ k ∈ ks, k ≠ .insert ∧ k ≠ .attachAll)
    (ha : Dying rid c a) : Dying rid c b :=
  h.invariant (fun k hk _ _ hchange ha => ha.change hchange (hks k hk)) ha

/-- Creating a resource up to its announcement removes no record, so that a record that is
there is not inserted again. -/
theorem createChanges_dying {env : Env} {rid : ResourceId} {c id : ℕ} {a b : Agent}
    (h : Changes env (createChanges id) a b) (hin : ∃ r, a.resources.lookup rid = some r)
    (ha : Dying rid c a) : Dying rid c b := by
  refine And.right (h.invariant (I := fun a => (∃ r, a.resources.lookup rid = some r) ∧
    Dying rid c a) ?_ ⟨hin, ha⟩)
  rintro k hk a b hchange ⟨⟨r, hr⟩, ha⟩
  have hkeep : ∀ b : Agent, b.resources = a.resources →
      (∃ r, b.resources.lookup rid = some r) ∧ Dying rid c b := by
    intro b hsame
    refine ⟨⟨r, hsame ▸ hr⟩, fun r' hr' => ?_⟩
    rw [hsame] at hr'
    exact ha r' hr'
  cases hchange with
  | reads hframe _ => exact hkeep b hframe.resources
  | leak x => exact hkeep _ rfl
  | insert q =>
      have hsame : (insertResourceRecordEA env q a).2.resources.lookup rid = some r :=
        insertResourceRecordEA_keepsOthers q a hr
      refine ⟨⟨r, hsame⟩, fun r' hr' => ?_⟩
      obtain rfl := Option.some.inj (hsame.symm.trans hr')
      exact ha r hr
  | create key id rid' hs hr' hpend hdel hfree =>
      have hlink : TableChange env (.create _) a _ := .create key _ rid' hs hr' hpend hdel hfree
      refine ⟨?_, ha.change hlink (by simp)⟩
      rw [Agent.lookup_link, hr]
      split
      · exact ⟨_, rfl⟩
      · exact ⟨r, rfl⟩
  | session => simp [createChanges] at hk
  | openSession => simp [createChanges] at hk
  | closeSession => simp [createChanges] at hk
  | attachAll => simp [createChanges] at hk
  | announce => simp [createChanges] at hk
  | detach => simp [createChanges] at hk

theorem createResource_dying {env : Env} {rid : ResourceId} {c : ℕ} {a : Agent}
    (key : ClientSessionKey) (q : CreateRequest) (hin : ∃ r, a.resources.lookup rid = some r)
    (ha : Dying rid c a) : Dying rid c (createResource env key q a).2 := by
  obtain ⟨b, hcreate, hrest⟩ := createResource_changes env key q a
  exact (createChanges_dying hcreate hin ha).of_changes hrest (by decide)

/-- Attaching all resources to sessions that are offered none that waits for its
deletion. -/
theorem attachChanges_dying {env : Env} {rid : ResourceId} {c : ℕ} {a b : Agent}
    (h : Changes env (.closeSession :: attachChanges) a b)
    (ha : Dying rid c a ∧ Shunned env rid a) : Dying rid c b :=
  (h.invariant (I := fun a => Dying rid c a ∧ Shunned env rid a)
    (fun _ hk _ _ hchange ha => Shunned.change hchange hk ha) ha).1

theorem openSession_dying {env : Env} {rid : ResourceId} {c : ℕ} {a : Agent}
    (src : ℕ) (key : ClientSessionKey) (timeout : ℕ) (data : Option ℕ) (ha : Dying rid c a)
    (h : a.sessions.lookup key = none → ¬ OffersDying env a (.initial src timeout data)) :
    Dying rid c (openSession env src key timeout data a).2 := by
  rcases openSession_phases src key timeout data a with hreset | ⟨hnew, hopen⟩
  · exact ha.of_changes hreset (by decide)
  · refine attachChanges_dying hopen ⟨ha, fun r id key' s' hr hdel hauto hid hbuffer hcopy _ => ?_⟩
    -- without an attached resource, the session would be offered the record
    exact absurd ⟨rid, r, id, hr, (ha r hr).1, hdel, hauto, hid, rfl, hbuffer, hcopy⟩ (h hnew)

/-- One step under the condition. -/
theorem Dying.step {rid : ResourceId} {c : ℕ} {a : Agent} {i : Operation × Env}
    (hlinks : LinksAllocated a) (hin : ∃ r, a.resources.lookup rid = some r)
    (ha : Dying rid c a) (h : SparesDying a i) : Dying rid c (a.step i) := by
  obtain ⟨op, env⟩ := i
  have hquiet : (∀ k ∈ op.changes, k ≠ .insert ∧ k ≠ .attachAll) → Dying rid c (a.step (op, env)) :=
    ha.of_changes (op.run_changes env a)
  have hreads : ∀ k ∈ [ChangeKind.reads], k ≠ .insert ∧ k ≠ .attachAll := by decide
  have hsession : ∀ k ∈ sessionChanges, k ≠ .insert ∧ k ≠ .attachAll := by decide
  cases op with
  | openSession src key timeout data => exact openSession_dying src key timeout data ha h
  | createResource key q => exact createResource_dying key q hin ha
  | cleanupResources =>
      change Dying rid c ((Prog.read >>= _) a).2
      rw [read_bind_apply]
      refine keeps_ensure ha fun htrigger => ?_
      refine attachChanges_dying ((onCleanupResources_changes a).mono (by decide)) ⟨ha, ?_⟩
      exact shunned_of_not_offersDying hlinks ha (h htrigger)
  | closeSession src key => exact hquiet hsession
  | finishCloseSession key => exact hquiet hsession
  | sessionTimeout key => exact hquiet hsession
  | deleteResource key id =>
      have hdelete : ∀ k ∈ [ChangeKind.reads, .detach], k ≠ .insert ∧ k ≠ .attachAll := by decide
      exact hquiet hdelete
  | readData key id spec => exact hquiet hreads
  | cancelRead key id => exact hquiet hreads
  | returnLoan src key d => exact hquiet hreads
  | writeData key id => exact hquiet hreads
  | dataEvent rd => exact hquiet hreads
  | changeCache reader cache => exact hquiet hreads
  | cleanupSessions => exact hquiet hsession
  | cleanupReads => exact hquiet hreads

/-- From `a` to `b` the agent makes steps that attach no resource that waits for its
deletion, and the record of the resource `rid` is never removed. -/
def Stays (rid : ResourceId) : Agent → Agent → Prop :=
  Relation.ReflTransGen fun a b =>
    ∃ i, SparesDying a i ∧ b = a.step i ∧ ∃ r, b.resources.lookup rid = some r

theorem Stays.dying {a b : Agent} {rid : ResourceId} {c : ℕ} (hrun : Stays rid a b)
    (h : a.ReachedWhen fun _ _ => True) (hin : ∃ r, a.resources.lookup rid = some r)
    (ha : Dying rid c a) : Dying rid c b := by
  suffices hinv : b.ReachedWhen (fun _ _ => True) ∧ (∃ r, b.resources.lookup rid = some r) ∧
      Dying rid c b from hinv.2.2
  induction hrun with
  | refl => exact ⟨h, hin, ha⟩
  | tail _ hstep ih =>
      obtain ⟨hreached, hthere, hdying⟩ := ih
      obtain ⟨i, hspare, rfl, hstay⟩ := hstep
      exact ⟨.next i hreached trivial, hstay,
        hdying.step (linksAllocated_of_reached hreached) hthere hspare⟩

/-- In every run whose steps meet the condition, a record that waits for its deletion goes
on waiting and its attachments become no more, and the detachment that takes the
last of them removes the record. -/
theorem attachedCount_le_of_pendingDelete {a b : Agent} (h : a.ReachedWhen fun _ _ => True)
    {rid : ResourceId} {r r' : Resource} (hr : a.resources.lookup rid = some r)
    (hpend : r.pendingDelete = true) (hrun : Stays rid a b)
    (hr' : b.resources.lookup rid = some r') :
    (r'.pendingDelete = true ∧ r'.attachedCount ≤ r.attachedCount) ∧
      ∀ env key n del copyOut c, (b.attached n).resource = rid → r'.attachedCount = 1 →
        detachResourceEA env key n del copyOut b = (some (), c) →
        c.resources.lookup rid = none := by
  have hstart : Dying rid r.attachedCount a := by
    intro r₁ hr₁
    obtain rfl := Option.some.inj (hr.symm.trans hr₁)
    exact ⟨hpend, Nat.le_refl _⟩
  have hdying := hrun.dying h ⟨r, hr⟩ hstart r' hr'
  refine ⟨hdying, fun env key n del copyOut c hn hlast hdet => ?_⟩
  subst hn
  exact lookup_of_detachResourceEA hr' hdying.1 hlast hdet

/-- Two sessions share a participant, whose deletion the first one asks for. -/
def sharedParticipantRun : List (Operation × Env) :=
  [(.openSession 0 ⟨1, 1⟩ 0 none, .obliging ⟨true, [], []⟩),
    (.createResource ⟨1, 1⟩ ⟨1, .domainParticipant, .xml "", 0, false, false⟩,
      .obliging (.one ⟨10, .domainParticipant, .guid 1, 0, 0⟩)),
    (.openSession 0 ⟨2, 1⟩ 0 none, .obliging ⟨true, [], []⟩),
    (.deleteResource ⟨1, 1⟩ 1, .obliging ⟨true, [], []⟩)]

/-- The participant of `sharedParticipantRun`. -/
def sharedParticipant : Resource where
  kind := .domainParticipant
  id := .guid 1
  native := some 10
  createRepr := .xml ""
  attachedCount := 1
  userData := none
  nativeDeleted := false
  pendingDelete := true

theorem attachedCount_sharedParticipantRun :
    let a := (Agent.started true .firstCached).after sharedParticipantRun
    let b := a.step (.closeSession 0 ⟨2, 1⟩, .obliging ⟨true, [], []⟩)
    a.ReachedWhen (fun _ _ => True) ∧ Stays (.guid 1) a b ∧
      b.resources.lookup (.guid 1) = some sharedParticipant ∧
      sharedParticipant.attachedCount ≤ 1 := by
  intro a b
  have h : a.ReachedWhen fun _ _ => True := Agent.reached_after (Agent.started_initial _ _) _
  have hr : a.resources.lookup (.guid 1) = some sharedParticipant := by decide
  have hr' : b.resources.lookup (.guid 1) = some sharedParticipant := by decide
  have hrun : Stays (.guid 1) a b := .single
    ⟨(.closeSession 0 ⟨2, 1⟩, .obliging ⟨true, [], []⟩), trivial, rfl, _, hr'⟩
  exact ⟨h, hrun, hr', (attachedCount_le_of_pendingDelete h hr rfl hrun hr').1.2⟩

/-- A third session that opens is given the participant that waits for its deletion. -/
theorem attachedCount_grows_on_openSession : ¬ ∀ (a : Agent) (i : Operation × Env)
    (rid : ResourceId) (r r' : Resource), a.ReachedWhen (fun _ _ => True) →
    a.resources.lookup rid = some r → r.pendingDelete = true →
    (a.step i).resources.lookup rid = some r' → r'.attachedCount ≤ r.attachedCount := by
  intro h
  have hle := h ((Agent.started true .firstCached).after sharedParticipantRun)
    (.openSession 0 ⟨3, 1⟩ 0 none, .obliging ⟨true, [], []⟩) (.guid 1) sharedParticipant
    { sharedParticipant with attachedCount := 2 }
    (Agent.reached_after (Agent.started_initial _ _) _) (by decide) rfl (by decide)
  exact absurd hle (by decide)

end NanoAgent
