import Mathlib.Logic.Relation
import NanoAgent.DdsAgent.AttachPass
import NanoAgent.DdsAgent.Notification

/-!
# What an operation does to the tables

Whatever an operation of the agent does to its resources, its sessions and the
attached resources is a sequence of few changes: a session is opened, changed or
removed, a record is inserted, a resource is attached, announced or detached, and
everything else concerns reads. `TableChange` lists these changes with what the agent has checked
before it makes them, and `Changes env ks` are the sequences of changes of the kinds
`ks`. An invariant that every change of these kinds keeps is kept by all operations
that make no others.

Inserting a record and detaching a resource are left whole here, since what holds
between their steps is nobody's business.
-/

namespace NanoAgent

open Prog AgentM

/-- The kinds of changes to the tables. -/
inductive ChangeKind
  | reads | session | openSession | closeSession | insert | attachAll | leak | announce | detach
  | create (id : ℕ)
  deriving DecidableEq, Repr

/-- A notification that does not announce a resource. -/
def Callback.Aside (c : Callback) : Prop := ∀ key id, c ≠ .resourceCreated key id

/-- A change to the tables, with what was checked before. -/
inductive TableChange (env : Env) : ChangeKind → Agent → Agent → Prop
  | reads {a b : Agent} : ReadFrame a b → Notifies Callback.Aside a b → TableChange env .reads a b
  | session {a : Agent} (key : ClientSessionKey) (f : ClientSession → ClientSession) :
      (∀ s, (f s).resources = s.resources) → TableChange env .session a (a.updateSession key f)
  | openSession {a : Agent} (key : ClientSessionKey) (s : ClientSession) :
      a.sessions.lookup key = none → s.resources = [] →
      TableChange env .openSession a (a.insertSession key s)
  | closeSession {a : Agent} (key : ClientSessionKey) :
      TableChange env .closeSession a (a.eraseSession key)
  | insert {a : Agent} (q : CreateRequest) :
      TableChange env .insert a (insertResourceRecordEA env q a).2
  | create {a : Agent} (key : ClientSessionKey) (id : ℕ) (rid : ResourceId) {r : Resource}
      {s : ClientSession} : a.sessions.lookup key = some s → a.resources.lookup rid = some r →
      r.pendingDelete = false → r.nativeDeleted = false →
      (id = attachedResourceIdInvalid ∨ a.findAttachedResource s id = none) →
      TableChange env (.create id) a (a.link key id rid r)
  | attachAll {a : Agent} (key : ClientSessionKey) (id : ℕ) (rid : ResourceId) {r : Resource}
      {s : ClientSession} : a.sessions.lookup key = some s → a.resources.lookup rid = some r →
      r.nativeDeleted = false → a.autoAttachResources = true →
      a.generateAttachedResourceId r.id r.kind = some id → a.findAttachedResource s id = none →
      env.ok (.getBuffer .attach id) = true → env.ok (.copyId .attach r.id) = true →
      TableChange env .attachAll a (a.link key id rid r)
  | leak {a : Agent} (x : AttachedResource) :
      TableChange env .leak a { a with poolResources := a.poolResources.take x }
  | announce {a : Agent} (key : ClientSessionKey) (n : ℕ) (data : Option ℕ) {s : ClientSession} :
      a.sessions.lookup key = some s → n ∈ s.resources →
      TableChange env .announce a ((a.updateAttached n fun x => { x with userData := data }).notify
        (.resourceCreated key (a.attached n).id))
  | detach {a : Agent} (key : ClientSessionKey) (n : ℕ) (del copyOut : Bool) :
      TableChange env .detach a (detachResourceEA env key n del copyOut a).2

theorem ReadFrame.announce (a : Agent) (n : ℕ) (data : Option ℕ) (c : Callback) :
    ReadFrame a ((a.updateAttached n fun x => { x with userData := data }).notify c) := by
  apply ReadFrame.notify
  apply ReadFrame.updateAttached (.rfl' a)
  intro x
  rfl

/-- A sequence of changes of the kinds `ks`. -/
def Changes (env : Env) (ks : List ChangeKind) : Agent → Agent → Prop :=
  Relation.ReflTransGen fun a b => ∃ k ∈ ks, TableChange env k a b

namespace Changes

variable {env : Env} {ks : List ChangeKind}

instance : IsPreorder Agent (Changes env ks) where
  refl _ := .refl
  trans _ _ _ := .trans

theorem one {k : ChangeKind} {a b : Agent} (h : TableChange env k a b)
    (hk : k ∈ ks) : Changes env ks a b :=
  .single ⟨k, hk, h⟩

theorem mono {ks' : List ChangeKind} {a b : Agent} (h : Changes env ks a b) (hks : ks ⊆ ks') :
    Changes env ks' a b :=
  Relation.ReflTransGen.mono (fun _ _ ⟨k, hk, h⟩ => ⟨k, hks hk, h⟩) _ _ h

/-- An invariant kept by every change of the kinds `ks` is kept by a sequence. -/
theorem invariant {I : Agent → Prop} {a b : Agent} (h : Changes env ks a b)
    (hI : ∀ k ∈ ks, ∀ a b, TableChange env k a b → I a → I b) (ha : I a) : I b := by
  induction h with
  | refl => exact ha
  | tail _ hchange ih =>
      obtain ⟨k, hk, hchange⟩ := hchange
      exact hI k hk _ _ hchange ih

end Changes

namespace AgentM

variable {env : Env} {ks : List ChangeKind}

theorem changes_of_frame {α : Type} {x : AgentM α} (hx : Within ReadFrame x)
    (hn : Within (Notifies Callback.Aside) x) (hk : .reads ∈ ks) : Within (Changes env ks) x :=
  fun a => .one (.reads (hx a) (hn a)) hk

theorem modify_changes {f : Agent → Agent} (hf : ∀ a, ReadFrame a (f a))
    (hc : ∀ a, (f a).callbacks = a.callbacks) (hk : .reads ∈ ks) :
    Within (Changes env ks) (modify f) :=
  changes_of_frame (.modify hf) (silent hc) hk

theorem notify_changes {c : Callback} (hc : c.Aside) (hk : .reads ∈ ks) :
    Within (Changes env ks) (modify fun a => a.notify c) :=
  changes_of_frame (notify_frame c) (notify_notifies hc) hk

theorem updateSession_changes (key : ClientSessionKey) {f : ClientSession → ClientSession}
    (hf : ∀ s, (f s).resources = s.resources) (hk : .session ∈ ks) :
    Within (Changes env ks) (modify fun a => a.updateSession key f) :=
  .modify fun _ => .one (.session key f hf) hk

theorem eraseSession_changes (key : ClientSessionKey) (hk : .closeSession ∈ ks) :
    Within (Changes env ks) (modify fun a => a.eraseSession key) :=
  .modify fun _ => .one (.closeSession key) hk

theorem detachResourceEA_changes (key : ClientSessionKey) (n : ℕ) (del copyOut : Bool)
    (hk : .detach ∈ ks) :
    Within (Changes env ks) (detachResourceEA env key n del copyOut) :=
  fun _ => .one (.detach key n del copyOut) hk

/-- Attaching a resource links it, or loses the buffer taken for it. -/
theorem attachResourceToSessionEA_changes {key : ClientSessionKey} {id : ℕ} {rid : ResourceId}
    {k : ChangeKind} {a : Agent} (hlink : ∀ r, a.resources.lookup rid = some r →
      env.ok (.getBuffer .attach id) = true → env.ok (.copyId .attach r.id) = true →
      TableChange env k a (a.link key id rid r)) (hk : k ∈ ks) (hleak : .leak ∈ ks) :
    Changes env ks a (attachResourceToSessionEA env key id rid a).2 := by
  unfold attachResourceToSessionEA
  rw [read_bind_apply]
  refine keeps_require (refl a) fun r hr => ?_
  rw [onlyIf_ensure]
  refine keeps_ensure (refl a) fun _ => keeps_ensure (refl a) fun hbuffer => ?_
  split
  · rename_i hcopy
    exact .one (hlink r hr hbuffer (Bool.and_eq_true_iff.1 hcopy).2) hk
  · exact .one (.leak _) hleak

/-- The changes of attaching all resources to a session. -/
def attachChanges : List ChangeKind := [.reads, .attachAll, .leak, .announce, .detach]

theorem attachNewEA_changes {key : ClientSessionKey} {rid : ResourceId} {id : ℕ} {a : Agent}
    {s : ClientSession} (hs : a.sessions.lookup key = some s)
    (hlink : ∀ r, a.resources.lookup rid = some r →
      env.ok (.getBuffer .attach id) = true → env.ok (.copyId .attach r.id) = true →
      TableChange env .attachAll a (a.link key id rid r)) :
    Changes env attachChanges a (attachNewEA env key rid id a).2 := by
  have hattach : Changes env attachChanges a (attachResourceToSessionEA env key id rid a).2 :=
    attachResourceToSessionEA_changes hlink (by decide) (by decide)
  refine keeps_bind (fun _ => hattach) fun n hn => IsTrans.trans _ _ _ hattach ?_
  obtain ⟨r, -, -, rfl, hb⟩ := exists_of_attachResourceToSessionEA (eq_of_fst_eq_some hn)
  rw [hb]
  have henable : Changes env attachChanges (a.link key id rid r)
      (enableResourceEA env rid (a.link key id rid r)).2 :=
    changes_of_frame (enableResourceEA_frame env rid) (enableResourceEA_notifies env rid)
      (by decide) _
  refine keeps_bind (fun _ => henable) fun _ _ => IsTrans.trans _ _ _ henable ?_
  have hframe := enableResourceEA_nativeFrame env rid (a.link key id rid r)
  generalize (enableResourceEA env rid (a.link key id rid r)).2 = b at hframe
  split
  · have hlinked : b.sessions.lookup key =
        some { s with resources := s.resources ++ [a.poolResources.next] } := by
      rw [hframe.sessions]
      change (a.sessions.modify key _).lookup key = _
      rw [AList.lookup_modify_self, hs]
      rfl
    have hid : (b.attached a.poolResources.next).id = id := by
      unfold Agent.attached
      rw [hframe.poolResources]
      exact congrArg AttachedResource.id Agent.attached_link_self
    have hannounce : TableChange env .announce b _ :=
      .announce key a.poolResources.next (env.resourceData id) hlinked (by simp)
    rw [hid] at hannounce
    exact .one hannounce (by decide)
  · exact Within.bind (.ignore (detachResourceEA_changes key _ false false (by decide)))
      (fun _ => .fail) _

theorem attachOneEA_changes (key : ClientSessionKey) (rid : ResourceId) :
    Within (Changes env attachChanges) (attachOneEA env key rid) := by
  intro a
  unfold attachOneEA
  rw [read_bind_apply]
  refine keeps_ensure (refl a) fun _ => ?_
  cases hr : a.resources.lookup rid with
  | none => exact refl a
  | some r =>
      have hround : Changes env attachChanges a
          (onlyIf (!r.nativeDeleted && a.autoAttachResources) (do
            let id ← require (a.generateAttachedResourceId r.id r.kind)
            let s ← require (a.sessions.lookup key)
            onlyIf (a.findAttachedResource s id).isNone (attachNewEA env key rid id)) a).2 := by
        refine keeps_onlyIf (refl a) fun hattach => keeps_require (refl a) fun id hid => ?_
        refine keeps_require (refl a) fun s hs => keeps_onlyIf (refl a) fun hfree => ?_
        rw [Bool.and_eq_true, Bool.not_eq_true'] at hattach
        refine attachNewEA_changes hs fun r' hr' hbuffer hcopy => ?_
        obtain rfl : r = r' := Option.some.inj (hr.symm.trans hr')
        exact .attachAll key id rid hs hr hattach.1 hattach.2 hid
          (Option.isNone_iff_eq_none.1 hfree) hbuffer hcopy
      exact keeps_bind (fun _ => hround) fun _ _ => hround

theorem attachAllResourcesToSessionEA_changes (key : ClientSessionKey) :
    Within (Changes env attachChanges) (attachAllResourcesToSessionEA env key) :=
  .bind (.ensure _) fun _ => .read fun _ => .forEach fun rid _ => attachOneEA_changes key rid

/-- The changes of cleaning up a session. -/
def sessionChanges : List ChangeKind := [.reads, .session, .closeSession, .detach]

theorem detachOnCloseEA_changes (key : ClientSessionKey) (n : ℕ) :
    Within (Changes env sessionChanges) (detachOnCloseEA env key n) :=
  .read fun _ => .bind (detachResourceEA_changes key n false true (by decide)) fun _ =>
    notify_changes (by simp [Callback.Aside]) (by decide)

theorem finalizeSessionEA_changes (key : ClientSessionKey) :
    Within (Changes env sessionChanges) (finalizeSessionEA env key) := by
  have hreads : .reads ∈ sessionChanges := by decide
  refine .read fun a => .bind (.require _) fun s => .bind (.ensure _) fun _ => ?_
  refine .bind (.forEach fun n _ => changes_of_frame (endReadEA_frame env key n) ?_ hreads)
    fun _ => ?_
  · exact endReadEA_notifies env n (by simp [Callback.Aside])
  refine .bind (.forEach fun n _ => detachOnCloseEA_changes key n) fun _ => ?_
  refine .bind (modify_changes (fun b => .drainSamples b key) (fun b => ?_) hreads) fun _ => ?_
  · unfold Agent.drainSamples
    split <;> rfl
  exact .onlyIf fun _ => .ensure _

theorem releaseFinalizedEA_changes (key : ClientSessionKey) (timedout : Bool) :
    Within (Changes env sessionChanges) (releaseFinalizedEA env key timedout) := by
  refine .ite (fun _ => ?_) fun _ => ?_
  · refine .bind (.ensure _) fun _ => .bind (.ensure _) fun _ => ?_
    refine .bind (eraseSession_changes key (by decide)) fun _ => ?_
    exact notify_changes (by simp [Callback.Aside]) (by decide)
  · exact .bind (updateSession_changes key (fun _ => rfl) (by decide)) fun _ => .ensure _

theorem cleanupSessionEA_changes (key : ClientSessionKey) :
    Within (Changes env sessionChanges) (cleanupSessionEA env key) := by
  refine .bind (.ensure _) fun _ => .read fun a => ?_
  cases a.sessions.lookup key with
  | none => exact .pure _
  | some s =>
      exact .onlyIf fun _ => .bind (finalizeSessionEA_changes key) fun _ =>
        releaseFinalizedEA_changes key s.timedout

/-- A change of what the tables do not hold. -/
theorem modify_changes_of_same {f : Agent → Agent} (hr : ∀ a, (f a).resources = a.resources)
    (he : ∀ a, (f a).entities = a.entities)
    (hat : ∀ a, (f a).autoAttachResources = a.autoAttachResources)
    (hid : ∀ a, (f a).autoId = a.autoId) (hs : ∀ a, (f a).sessions = a.sessions)
    (hp : ∀ a, (f a).poolResources = a.poolResources) (hc : ∀ a, (f a).callbacks = a.callbacks)
    (hk : .reads ∈ ks) : Within (Changes env ks) (modify f) :=
  modify_changes (fun a => .of_same (hr a) (he a) (hat a) (hid a) (hs a) (hp a)) hc hk

theorem onCleanupSessions_changes : Within (Changes env sessionChanges)
    (onCleanupSessions env) := by
  refine .bind (.ensure _) fun _ => .bind (.ensure _) fun _ => .bind ?_ fun _ => .read fun a => ?_
  · exact modify_changes_of_same (fun _ => rfl) (fun _ => rfl) (fun _ => rfl) (fun _ => rfl)
      (fun _ => rfl) (fun _ => rfl) (fun _ => rfl) (by decide)
  · exact .forEach fun key _ => cleanupSessionEA_changes key

theorem disposeSessionEA_changes (key : ClientSessionKey) (s : ClientSession) :
    Within (Changes env sessionChanges) (disposeSessionEA env key s) := by
  refine .ite (fun _ => .pure _) fun _ => ?_
  refine .bind (updateSession_changes key (fun _ => rfl) (by decide)) fun _ => ?_
  refine .bind (.ensure _) fun _ => ?_
  exact modify_changes_of_same (fun _ => rfl) (fun _ => rfl) (fun _ => rfl) (fun _ => rfl)
    (fun _ => rfl) (fun _ => rfl) (fun _ => rfl) (by decide)

theorem closeSession_changes (src : ℕ) (key : ClientSessionKey) :
    Within (Changes env sessionChanges) (closeSession env src key) :=
  .bind (.ensure _) fun _ => .bind (.ensure _) fun _ => .read fun _ => .bind (.require _) fun s =>
    .bind (.ensure _) fun _ => .bind (.ensure _) fun _ => disposeSessionEA_changes key s

theorem finishCloseSession_changes (key : ClientSessionKey) :
    Within (Changes env sessionChanges) (finishCloseSession env key) := by
  refine .read fun _ => .bind (.require _) fun s => .bind (.ensure _) fun _ => ?_
  refine .bind (.ensure _) fun _ => ?_
  refine .bind (updateSession_changes key (fun _ => rfl) (by decide)) fun _ => ?_
  refine .bind (.ensure _) fun _ => .bind (.ensure _) fun _ => ?_
  refine .bind (eraseSession_changes key (by decide)) fun _ => .bind (.ensure _) fun _ => ?_
  exact notify_changes (by simp [Callback.Aside]) (by decide)

theorem returnLoans_changes (src : ℕ) (key : ClientSessionKey) (c : LoanCallback)
    (hreads : .reads ∈ ks) : Within (Changes env ks) (returnLoans env src key c) :=
  changes_of_frame (returnLoans_frame env src key c)
    (returnLoans_notifies env src c (by simp [Callback.Aside])) hreads

theorem onSessionTimeout_changes (key : ClientSessionKey) :
    Within (Changes env sessionChanges) (onSessionTimeout env key) := by
  refine .bind (.ensure _) fun _ => .read fun _ => .bind (.require _) fun s => ?_
  refine .bind (.ensure _) fun _ => ?_
  refine .bind (updateSession_changes key (fun _ => rfl) (by decide)) fun _ => .bind ?_ fun _ => ?_
  · exact returnLoans_changes s.intf key _ (by decide)
  · exact disposeSessionEA_changes key _

theorem deleteResource_changes (key : ClientSessionKey) (id : ℕ) :
    Within (Changes env [.reads, .detach]) (deleteResource env key id) := by
  refine .bind (findAttached_frame key id) fun found => ?_
  cases found with
  | none => exact .pure _
  | some n =>
      refine .bind (changes_of_frame (endReadI_frame env key n id) ?_ (by decide)) fun _ => ?_
      · exact endReadI_notifies env n (by simp [Callback.Aside])
      refine .bind (detachResourceEA_changes key n true true (by decide)) fun _ => ?_
      exact .bind (notify_changes (by simp [Callback.Aside]) (by decide)) fun _ => .ensure _

/-- The changes of opening a session. -/
def openChanges : List ChangeKind := [.session, .openSession, .closeSession] ++ attachChanges

theorem resetSession_changes (src : ℕ) (key : ClientSessionKey) (s : ClientSession) :
    Within (Changes env [.reads, .session]) (resetSession env src key s) := by
  refine .bind (.ensure _) fun _ => ?_
  refine .bind (updateSession_changes key (fun _ => rfl) (by decide)) fun _ => ?_
  refine .bind (.ensure _) fun _ => .bind (.bind ?_ fun _ => .ensure _) fun _ => ?_
  · exact returnLoans_changes src key _ (by decide)
  refine .bind (.onlyIf fun _ => updateSession_changes key (fun _ => rfl) (by decide)) fun _ => ?_
  refine .bind (.forEach fun n _ => .read fun _ => .onlyIf fun _ => ?_) fun _ => ?_
  · exact changes_of_frame (cancelReadI_frame env n) (cancelReadI_notifies env n) (by decide)
  · exact updateSession_changes key (fun _ => rfl) (by decide)

theorem populateSession_changes (key : ClientSessionKey) :
    Within (Changes env attachChanges) (populateSession env key) :=
  .bind (.ensure _) fun _ => .bind (.ensure _) fun _ =>
    .bind (attachAllResourcesToSessionEA_changes key) fun _ => .ensure _

/-- Opening a session resets the one that has the key, or inserts a record and sets it up. -/
theorem openSession_phases (src : ℕ) (key : ClientSessionKey) (timeout : ℕ) (data : Option ℕ)
    (a : Agent) : Changes env [.reads, .session] a (openSession env src key timeout data a).2 ∨
      (a.sessions.lookup key = none ∧ Changes env (.closeSession :: attachChanges)
        (a.insertSession key (.initial src timeout data))
        (openSession env src key timeout data a).2) := by
  let K := fun c => Changes env [.reads, .session] a c ∨ (a.sessions.lookup key = none ∧
    Changes env (.closeSession :: attachChanges)
      (a.insertSession key (.initial src timeout data)) c)
  have hopen : K (resetOrOpenSession env src key timeout data a).2 := by
    unfold resetOrOpenSession
    rw [read_bind_apply]
    cases hs : a.sessions.lookup key with
    | some s => exact .inl (resetSession_changes src key s a)
    | none =>
        refine .inr ⟨hs, ?_⟩
        unfold openNewSession
        dsimp only
        rw [modify_bind_apply]
        refine Within.onFailure (fun b => (populateSession_changes key b).mono (by decide)) ?_ _
        exact .onlyIf fun _ => eraseSession_changes key (by decide)
  refine keeps_ensure (I := K) (.inl (refl a)) fun _ => keeps_bind (fun _ => hopen) fun _ _ => ?_
  generalize (resetOrOpenSession env src key timeout data a).2 = b at hopen
  rw [read_bind_apply]
  exact keeps_require hopen fun s _ => keeps_ensure hopen fun _ => hopen

theorem openSession_changes (src : ℕ) (key : ClientSessionKey) (timeout : ℕ) (data : Option ℕ) :
    Within (Changes env openChanges) (openSession env src key timeout data) := by
  intro a
  rcases openSession_phases src key timeout data a with h | ⟨hnew, h⟩
  · exact h.mono (by decide)
  · exact IsTrans.trans _ _ _ (.one (.openSession key _ hnew rfl) (by decide))
      (h.mono (by decide))

theorem cleanupResourceEA_changes (key : ClientSessionKey) (n : ℕ) :
    Within (Changes env attachChanges) (cleanupResourceEA env key n) := by
  have hreads : .reads ∈ attachChanges := by decide
  refine .read fun a => .bind (lookupResource_frame _ _ _) fun _ => ?_
  refine .bind (.require _) fun r => .bind (.ensure _) fun _ => .onlyIf fun _ => ?_
  refine .bind (detachResourceEA_changes key n true true (by decide)) fun _ => ?_
  exact notify_changes (by simp [Callback.Aside]) hreads

theorem onCleanupResources_changes :
    Within (Changes env attachChanges) (onCleanupResources env) := by
  refine .bind (.ensure _) fun _ => .bind ?_ fun _ => .bind (.ensure _) fun _ => .read fun a => ?_
  · exact modify_changes_of_same (fun _ => rfl) (fun _ => rfl) (fun _ => rfl) (fun _ => rfl)
      (fun _ => rfl) (fun _ => rfl) (fun _ => rfl) (by decide)
  refine .forEach fun key _ => .bind (.ensure _) fun _ => .read fun b => ?_
  cases b.sessions.lookup key with
  | none => exact .pure _
  | some s =>
      exact .bind (.forEach fun n _ => cleanupResourceEA_changes key n) fun _ =>
        attachAllResourcesToSessionEA_changes key

end AgentM

/-- From `a` to `b` the sessions, the attached resources, the settings of the agent and the
notifications have not changed. -/
structure RecordFrame (a b : Agent) : Prop where
  sessions : b.sessions = a.sessions
  poolResources : b.poolResources = a.poolResources
  autoAttach : b.autoAttachResources = a.autoAttachResources
  autoId : b.autoId = a.autoId
  callbacks : b.callbacks = a.callbacks

instance : IsPreorder Agent RecordFrame where
  refl _ := ⟨rfl, rfl, rfl, rfl, rfl⟩
  trans _ _ _ h h' :=
    ⟨h'.1.trans h.1, h'.2.trans h.2, h'.3.trans h.3, h'.4.trans h.4, h'.5.trans h.5⟩

/-- From `a` to `b` only resource records, entities, reader and writer states have changed, and
not the settings of the agent. -/
structure InsertFrame (a b : Agent) : Prop extends NativeFrame a b where
  autoAttach : b.autoAttachResources = a.autoAttachResources
  autoId : b.autoId = a.autoId

instance : IsPreorder Agent InsertFrame where
  refl a := ⟨refl a, rfl, rfl⟩
  trans _ _ _ h h' := ⟨IsTrans.trans _ _ _ h.1 h'.1, h'.2.trans h.2, h'.3.trans h.3⟩

namespace AgentM

theorem initializeUserDataEA_insertFrame (env : Env) (rid : ResourceId) (kind : ResourceKind) :
    Within InsertFrame (initializeUserDataEA env rid kind) := by
  refine .read fun a => .ite (fun _ => ?_) fun _ => .ite (fun _ => ?_) fun _ => .pure _
  · refine .bind (.ensure _) fun _ => .bind (.modify fun _ => ?_) fun _ => ?_
    · exact ⟨⟨rfl, rfl, rfl, rfl, rfl, rfl⟩, rfl, rfl⟩
    refine .bind (.onlyIf fun _ => .bind (.modify fun _ => ?_) fun _ => .fail) fun _ => ?_
    · exact ⟨⟨rfl, rfl, rfl, rfl, rfl, rfl⟩, rfl, rfl⟩
    refine .bind (.modify fun _ => ⟨⟨rfl, rfl, rfl, rfl, rfl, rfl⟩, rfl, rfl⟩) fun _ => ?_
    refine .onlyIf fun _ => .bind (.modify fun _ => ?_) fun _ => .fail
    exact ⟨⟨rfl, rfl, rfl, rfl, rfl, rfl⟩, rfl, rfl⟩
  · refine .bind (.ensure _) fun _ => .bind (.modify fun _ => ?_) fun _ => ?_
    · exact ⟨⟨rfl, rfl, rfl, rfl, rfl, rfl⟩, rfl, rfl⟩
    refine .bind (.onlyIf fun _ => .bind (.modify fun _ => ?_) fun _ => .fail) fun _ => ?_
    · exact ⟨⟨rfl, rfl, rfl, rfl, rfl, rfl⟩, rfl, rfl⟩
    exact .modify fun _ => ⟨⟨rfl, rfl, rfl, rfl, rfl, rfl⟩, rfl, rfl⟩

theorem initializeRecordEA_insertFrame (env : Env) (rid : ResourceId) (q : CreateRequest) :
    Within InsertFrame (initializeRecordEA env rid q) := by
  refine .bind (.ensure _) fun _ => .read fun _ => .bind (.onlyIf fun _ => .ensure _) fun _ => ?_
  refine .bind (.ensure _) fun _ => .bind (.modify fun _ => ?_) fun _ => ?_
  · exact ⟨⟨rfl, rfl, rfl, rfl, rfl, rfl⟩, rfl, rfl⟩
  refine .bind (.ensure _) fun _ => .bind (.modify fun _ => ?_) fun _ => ?_
  · exact ⟨⟨rfl, rfl, rfl, rfl, rfl, rfl⟩, rfl, rfl⟩
  exact initializeUserDataEA_insertFrame env rid q.kind

theorem obtainRecordEA_insertFrame (env : Env) (rid : ResourceId) (q : CreateRequest) :
    Within InsertFrame (obtainRecordEA env rid q) := by
  refine .read fun a => ?_
  cases a.resources.lookup rid with
  | some r => exact .ensure _
  | none =>
      exact .bind (.modify fun _ => ⟨⟨rfl, rfl, rfl, rfl, rfl, rfl⟩, rfl, rfl⟩) fun _ =>
        initializeRecordEA_insertFrame env rid q

theorem insertResourceRecordEA_insertFrame (env : Env) (q : CreateRequest) :
    Within InsertFrame (insertResourceRecordEA env q) := by
  refine .bind (.modify fun _ => ?_) fun _ => .bind (.ensure _) fun _ => ?_
  · exact ⟨⟨rfl, rfl, rfl, rfl, rfl, rfl⟩, rfl, rfl⟩
  refine .bind (.require _) fun first => .bind (.ensure _) fun _ => .bind (.ensure _) fun _ => ?_
  refine .bind (.ensure _) fun _ => .bind (obtainRecordEA_insertFrame env _ q) fun _ => ?_
  refine .bind (.ensure _) fun _ => .bind (.modify fun _ => ?_) fun _ => ?_
  · exact ⟨⟨rfl, rfl, rfl, rfl, rfl, rfl⟩, rfl, rfl⟩
  exact .read fun _ => .bind (.require _) fun _ => .pure _

theorem insertResourceRecordEA_recordFrame (env : Env) (q : CreateRequest) :
    Within RecordFrame (insertResourceRecordEA env q) := by
  intro a
  have h := insertResourceRecordEA_insertFrame env q a
  exact ⟨h.sessions, h.poolResources, h.autoAttach, h.autoId, h.callbacks⟩

/-- The record that a creation goes on with is not about to be deleted. -/
theorem exists_of_insertResourceRecordEA {env : Env} {q : CreateRequest} {rid : ResourceId}
    {a b : Agent} (h : insertResourceRecordEA env q a = (some (some rid), b)) :
    ∃ r, b.resources.lookup rid = some r ∧ r.pendingDelete = false ∧ r.nativeDeleted = false := by
  unfold insertResourceRecordEA at h
  obtain ⟨_, _, -, h⟩ := bind_eq_some.1 h
  obtain ⟨_, _, -, h⟩ := bind_eq_some.1 h
  obtain ⟨first, _, -, h⟩ := bind_eq_some.1 h
  obtain ⟨_, _, -, h⟩ := bind_eq_some.1 h
  obtain ⟨_, _, -, h⟩ := bind_eq_some.1 h
  obtain ⟨_, _, -, h⟩ := bind_eq_some.1 h
  obtain ⟨_, _, -, h⟩ := bind_eq_some.1 h
  obtain ⟨_, _, -, h⟩ := bind_eq_some.1 h
  obtain ⟨_, _, -, h⟩ := bind_eq_some.1 h
  rw [read_bind_apply] at h
  obtain ⟨r, _, hr, h⟩ := bind_eq_some.1 h
  rw [require_eq_some] at hr
  obtain ⟨hr, rfl⟩ := hr
  obtain ⟨hrid, rfl⟩ := pure_eq_some.1 h
  split at hrid
  · simp at hrid
  · obtain rfl : first.2 = rid := Option.some.inj hrid
    refine ⟨r, hr, ?_, ?_⟩ <;> simp_all

/-- A creation that goes on without an attached resource was given no identifier, or one
that is not in use. -/
theorem free_of_checkCreate {s : ClientSession} {q : CreateRequest} {a b : Agent}
    (h : checkCreate s q a = (some none, b)) :
    q.id = attachedResourceIdInvalid ∨ a.findAttachedResource s q.id = none := by
  unfold checkCreate at h
  rw [read_bind_apply] at h
  obtain ⟨_, _, hformat, h⟩ := bind_eq_some.1 h
  obtain ⟨_, _, hparent, h⟩ := bind_eq_some.1 h
  obtain ⟨_, _, -, h⟩ := bind_eq_some.1 h
  by_cases hid : q.id = attachedResourceIdInvalid
  · exact .inl hid
  · right
    cases hfind : a.findAttachedResource s q.id with
    | none => rfl
    | some n => simp [hid, hfind, bind_eq_some] at h

/-- The changes of creating a resource, up to its announcement. -/
def createChanges (id : ℕ) : List ChangeKind := [.reads, .insert, .leak, .create id]

theorem obtainAttachedEA_changes {env : Env} {key : ClientSessionKey} {q : CreateRequest}
    {found : Option ℕ} {s : ClientSession} {a : Agent} (hs : a.sessions.lookup key = some s)
    (hfree : found = none → q.id = attachedResourceIdInvalid ∨
      a.findAttachedResource s q.id = none) :
    Changes env (createChanges q.id) a (obtainAttachedEA env key q found a).2 := by
  cases found with
  | some n =>
      refine Within.bind (changes_of_frame (reuseAttachedEA_frame env n q)
        (reuseAttachedEA_notifies env n q) (by simp [createChanges])) ?_ a
      exact fun _ => .pure _
  | none =>
      have hins : Changes env (createChanges q.id) a (insertResourceRecordEA env q a).2 :=
        .one (.insert q) (by simp [createChanges])
      refine keeps_bind (fun _ => hins) fun inserted hinserted => ?_
      have hframe := insertResourceRecordEA_recordFrame env q a
      refine keeps_require hins fun rid hrid => ?_
      obtain ⟨r, hr, hpend, hdel⟩ :=
        exists_of_insertResourceRecordEA (eq_of_fst_eq_some (hinserted.trans (by rw [hrid])))
      generalize (insertResourceRecordEA env q a).2 = b at hins hframe hr
      have hattach : Changes env (createChanges q.id) b
          (attachResourceToSessionEA env key q.id rid b).2 := by
        refine attachResourceToSessionEA_changes (fun r' hr' _ _ => ?_) (k := .create q.id)
          (by simp [createChanges]) (by simp [createChanges])
        obtain rfl : r = r' := Option.some.inj (hr.symm.trans hr')
        refine .create key q.id rid (by rw [hframe.sessions]; exact hs) hr hpend hdel ?_
        rcases hfree rfl with hfree | hfree
        · exact .inl hfree
        · right
          rw [← hfree]
          unfold Agent.findAttachedResource Agent.attached
          rw [hframe.poolResources]
      exact IsTrans.trans _ _ _ hins (keeps_bind (fun _ => hattach) fun _ _ => hattach)

theorem createResourceEA_changes (env : Env) (key : ClientSessionKey) (q : CreateRequest) :
    Within (Changes env (createChanges q.id)) (createResourceEA env key q) := by
  intro a
  unfold createResourceEA
  rw [read_bind_apply]
  refine keeps_require (refl a) fun s hs => ?_
  have hstate : (checkCreate s q a).2 = a := (checkCreate_frame (R := Eq) s q a).symm
  refine keeps_bind (fun _ => by rw [hstate]; exact refl a) fun found hfound => ?_
  have hcheck := eq_of_fst_eq_some hfound
  rw [hstate] at hcheck ⊢
  refine keeps_ensure (refl a) fun _ => ?_
  have hobtain : Changes env (createChanges q.id) a (obtainAttachedEA env key q found a).2 := by
    refine obtainAttachedEA_changes hs fun hnone => ?_
    rw [hnone] at hcheck
    exact free_of_checkCreate hcheck
  refine keeps_bind (fun _ => hobtain) fun v _ => IsTrans.trans _ _ _ hobtain ?_
  have hfinish := finishCreateEA_frame env key v.1 v.2.1 v.2.2
  have hnotify : Within (Notifies Callback.Aside) (finishCreateEA env key v.1 v.2.1 v.2.2) :=
    finishCreateEA_notifies env _ _ _ (by simp [Callback.Aside])
  exact Within.bind (changes_of_frame hfinish hnotify (by simp [createChanges]))
    (fun _ => .pure _) _

/-- The attached resource of a creation is linked in the session. -/
theorem linked_of_obtainAttachedEA {env : Env} {key : ClientSessionKey} {q : CreateRequest}
    {found : Option ℕ} {v : ℕ × ResourceId × Bool} {a b : Agent} {s : ClientSession}
    (hs : a.sessions.lookup key = some s) (hfound : ∀ n, found = some n → n ∈ s.resources)
    (h : obtainAttachedEA env key q found a = (some v, b)) :
    ∃ s', b.sessions.lookup key = some s' ∧ v.1 ∈ s'.resources := by
  cases found with
  | some n =>
      obtain ⟨_, c, hreuse, h⟩ := bind_eq_some.1 h
      obtain ⟨rfl, rfl⟩ := pure_eq_some.1 h
      have hc := reuseAttachedEA_frame env n q a
      rw [hreuse] at hc
      obtain ⟨s', hs', houtline⟩ := hc.exists_session hs
      have hlist : s'.resources = s.resources := congrArg (·.resources) houtline
      exact ⟨s', hs', by rw [hlist]; exact hfound n rfl⟩
  | none =>
      obtain ⟨_, c, hinsert, h⟩ := bind_eq_some.1 h
      have hframe := insertResourceRecordEA_recordFrame env q a
      rw [hinsert] at hframe
      obtain ⟨rid, d, hrid, h⟩ := bind_eq_some.1 h
      rw [require_eq_some] at hrid
      obtain ⟨-, rfl⟩ := hrid
      obtain ⟨n, d, hattach, h⟩ := bind_eq_some.1 h
      obtain ⟨rfl, rfl⟩ := pure_eq_some.1 h
      obtain ⟨r, -, -, rfl, rfl⟩ := exists_of_attachResourceToSessionEA hattach
      refine ⟨{ s with resources := s.resources ++ [c.poolResources.next] }, ?_, by simp⟩
      change (c.sessions.modify key _).lookup key = _
      rw [AList.lookup_modify_self, hframe.sessions, hs]
      rfl

theorem linked_of_createResourceEA {env : Env} {key : ClientSessionKey} {q : CreateRequest}
    {n : ℕ} {a b : Agent} (h : createResourceEA env key q a = (some n, b)) :
    ∃ s, b.sessions.lookup key = some s ∧ n ∈ s.resources := by
  unfold createResourceEA at h
  rw [read_bind_apply] at h
  obtain ⟨s, _, hs, h⟩ := bind_eq_some.1 h
  rw [require_eq_some] at hs
  obtain ⟨hs, rfl⟩ := hs
  obtain ⟨found, c, hcheck, h⟩ := bind_eq_some.1 h
  obtain ⟨rfl, hfound⟩ := find_of_checkCreate hcheck
  obtain ⟨_, _, hlock, h⟩ := bind_eq_some.1 h
  obtain ⟨-, rfl⟩ := ensure_eq_some.1 hlock
  obtain ⟨v, c, hobtain, h⟩ := bind_eq_some.1 h
  have hlinked := linked_of_obtainAttachedEA hs
    (fun n hn => List.mem_of_find?_eq_some (hfound n hn)) hobtain
  obtain ⟨_, d, hfinish, h⟩ := bind_eq_some.1 h
  obtain ⟨rfl, rfl⟩ := pure_eq_some.1 h
  have hb := finishCreateEA_frame env key v.1 v.2.1 v.2.2 c
  rw [hfinish] at hb
  obtain ⟨s₁, hs₁, hn⟩ := hlinked
  obtain ⟨s₂, hs₂, houtline⟩ := hb.exists_session hs₁
  have hlist : s₂.resources = s₁.resources := congrArg (·.resources) houtline
  exact ⟨s₂, hs₂, by rw [hlist]; exact hn⟩

/-- A creation is announced, or taken back when the interface refuses it. -/
theorem createResource_changes (env : Env) (key : ClientSessionKey) (q : CreateRequest)
    (a : Agent) : ∃ b, Changes env (createChanges q.id) a b ∧
      Changes env [.announce, .detach] b (createResource env key q a).2 := by
  let K := fun c => ∃ b, Changes env (createChanges q.id) a b ∧ Changes env [.announce, .detach] b c
  have hsame : K a := ⟨a, refl a, refl a⟩
  change K (createResource env key q a).2
  unfold createResource
  rw [read_bind_apply]
  refine keeps_require hsame fun s _ => keeps_ensure hsame fun _ => ?_
  have hcreate := createResourceEA_changes env key q a
  refine keeps_bind (fun _ => ⟨_, hcreate, refl _⟩) fun n hn => ⟨_, hcreate, ?_⟩
  obtain ⟨s', hs', hlinked⟩ := linked_of_createResourceEA (eq_of_fst_eq_some hn)
  rw [read_bind_apply]
  split
  · exact .one (.announce key n _ hs' hlinked) (by decide)
  · exact Within.bind (.ignore (detachResourceEA_changes key n false false (by decide)))
      (fun _ => .fail) _

end AgentM

/-- The changes that an operation makes. -/
def Operation.changes : Operation → List ChangeKind
  | .openSession .. => openChanges
  | .closeSession .. | .finishCloseSession _ | .sessionTimeout _ | .cleanupSessions =>
      sessionChanges
  | .createResource _ q => createChanges q.id ++ [.announce, .detach]
  | .deleteResource .. => [.reads, .detach]
  | .cleanupResources => attachChanges
  | _ => [.reads]

theorem Operation.run_changes (env : Env) (i : Operation) :
    Within (Changes env i.changes) (i.run env) := by
  have hreads : .reads ∈ [ChangeKind.reads] := List.mem_singleton_self _
  cases i with
  | openSession src key timeout data => exact openSession_changes src key timeout data
  | closeSession src key => exact closeSession_changes src key
  | finishCloseSession key => exact finishCloseSession_changes key
  | sessionTimeout key => exact onSessionTimeout_changes key
  | createResource key q =>
      intro a
      obtain ⟨b, hcreate, hrest⟩ := createResource_changes env key q a
      exact (hcreate.mono (List.subset_append_left _ _)).trans
        (hrest.mono (List.subset_append_right _ _))
  | deleteResource key id => exact deleteResource_changes key id
  | readData key id spec =>
      exact changes_of_frame (readData_frame env key id spec)
        (readData_notifies env spec (by simp [Callback.Aside])) hreads
  | cancelRead key id =>
      exact changes_of_frame (cancelRead_frame env key id)
        (cancelRead_notifies env (by simp [Callback.Aside])) hreads
  | returnLoan src key d =>
      exact changes_of_frame (returnLoan_frame env src key d)
        (returnLoan_notifies env src d (by simp [Callback.Aside])) hreads
  | writeData key id =>
      exact changes_of_frame (writeData_frame env key id)
        (writeData_notifies env (by simp [Callback.Aside])) hreads
  | dataEvent rd =>
      exact changes_of_frame (onDataOnReader_frame env rd)
        (onDataOnReader_notifies env rd (by simp [Callback.Aside])) hreads
  | changeCache reader cache =>
      exact modify_changes_of_same (fun _ => rfl) (fun _ => rfl) (fun _ => rfl) (fun _ => rfl)
        (fun _ => rfl) (fun _ => rfl) (fun _ => rfl) hreads
  | cleanupSessions => exact .read fun _ => .bind (.ensure _) fun _ => onCleanupSessions_changes
  | cleanupReads =>
      exact .read fun _ => .bind (.ensure _) fun _ =>
        changes_of_frame (onCleanupReads_frame env)
          (onCleanupReads_notifies env (by simp [Callback.Aside])) hreads
  | cleanupResources => exact .read fun _ => .bind (.ensure _) fun _ => onCleanupResources_changes

end NanoAgent
