import NanoAgent.DdsAgent.LoanReturns
import NanoAgent.DdsAgent.ReadFrame

/-!
# Operations that serve no read

A read is started by `readData`, served by its data event and advanced by the return of
a loan, of which an interface may make some in a callback. Every other operation may end
reads, and leaves the reads themselves and what was accepted for them alone. `Idle a b`
says that this is so from `a` to `b`.
-/

namespace NanoAgent

open Prog

/-- A sample was accepted for a read. -/
def Callback.accepts (rd : ℕ) : Callback → Bool
  | .dataAccepted r _ => r == rd
  | _ => false

/-- The number of samples accepted for a read. -/
def Agent.accepted (a : Agent) (rd : ℕ) : ℕ := a.callbacks.countP (Callback.accepts rd)

/-- From `a` to `b` no read is started or served. -/
structure Idle (a b : Agent) : Prop where
  next : b.poolReads.next = a.poolReads.next
  readAt : ∀ rd, b.readAt rd = a.readAt rd
  accepted : ∀ rd, b.accepted rd = a.accepted rd
  readReq : ∀ n rd, (b.attached n).readReq = some rd → (a.attached n).readReq = some rd

namespace Idle

variable {a b c : Agent}

theorem of_same (hr : b.poolReads = a.poolReads) (hc : b.callbacks = a.callbacks)
    (hp : b.poolResources = a.poolResources) : Idle a b where
  next := by rw [hr]
  readAt rd := by rw [Agent.readAt, hr, Agent.readAt]
  accepted rd := by rw [Agent.accepted, hc, Agent.accepted]
  readReq n rd h := by rwa [Agent.attached, hp] at h

theorem rfl' (a : Agent) : Idle a a := of_same rfl rfl rfl

theorem of_native (h : NativeFrame a b) : Idle a b :=
  of_same h.poolReads h.callbacks h.poolResources

theorem trans' (h : Idle a b) (h' : Idle b c) : Idle a c where
  next := h'.next.trans h.next
  readAt rd := (h'.readAt rd).trans (h.readAt rd)
  accepted rd := (h'.accepted rd).trans (h.accepted rd)
  readReq n rd hn := h.readReq n rd (h'.readReq n rd hn)

instance : IsPreorder Agent Idle where
  refl := rfl'
  trans _ _ _ := trans'

/-- A notification other than that of an accepted sample. -/
theorem notify (a : Agent) {e : Callback} (he : ∀ rd, e.accepts rd = false) :
    Idle a (a.notify e) where
  next := rfl
  readAt _ := rfl
  accepted rd := by simp [Agent.accepted, Agent.notify, he]
  readReq _ _ h := h

theorem updateAttached (a : Agent) (n : ℕ) {f : AttachedResource → AttachedResource}
    (hf : ∀ x rd, (f x).readReq = some rd → x.readReq = some rd) :
    Idle a (a.updateAttached n f) where
  next := rfl
  readAt _ := rfl
  accepted _ := rfl
  readReq m rd h := by
    rw [Agent.attached_updateAttached] at h
    split at h
    · exact hf _ _ h
    · exact h

/-- A new attached resource has no read. -/
theorem takeAttached (a : Agent) {x : AttachedResource} (hx : x.readReq = none) :
    Idle a { a with poolResources := a.poolResources.take x } where
  next := rfl
  readAt _ := rfl
  accepted _ := rfl
  readReq m rd h := by
    by_cases hm : m = a.poolResources.next
    · subst hm
      have h' : x.readReq = some rd := by
        simpa [Agent.attached] using h
      rw [hx] at h'
      cases h'
    · simpa [Agent.attached, BufferPool.content_take_of_ne _ _ hm] using h

theorem link (a : Agent) (key : ClientSessionKey) (id : ℕ) (rid : ResourceId) (r : Resource) :
    Idle a (a.link key id rid r) :=
  (takeAttached a rfl).trans' (of_same rfl rfl rfl)

theorem releaseRead (a : Agent) (n rd : ℕ) : Idle a (a.releaseRead n rd) := by
  have h : Idle a { a with poolReads := a.poolReads.giveBack rd } :=
    ⟨rfl, fun _ => rfl, fun _ => rfl, fun _ _ h => h⟩
  exact h.trans' (updateAttached _ n fun _ _ h => by cases h)

theorem unlink (a : Agent) (n : ℕ) : Idle a (a.unlink n) := by
  have h : Idle a (a.updateAttached n fun x => { x with resource := .none }) :=
    updateAttached a n fun _ _ h => h
  exact h.trans' ⟨rfl, fun _ => rfl, fun _ => rfl, fun _ _ h => h⟩

theorem drainSamples (a : Agent) (key : ClientSessionKey) : Idle a (a.drainSamples key) := by
  unfold Agent.drainSamples
  split
  · exact of_same rfl rfl rfl
  · exact rfl' a

end Idle

namespace AgentM

variable (env : Env)

theorem within_idle_of_native {α : Type} {x : AgentM α} (h : Within NativeFrame x) :
    Within Idle x :=
  fun a => .of_native (h a)

theorem modify_idle {f : Agent → Agent} (hr : ∀ a, (f a).poolReads = a.poolReads)
    (hc : ∀ a, (f a).callbacks = a.callbacks) (hp : ∀ a, (f a).poolResources = a.poolResources) :
    Within Idle (modify f) :=
  .modify fun a => .of_same (hr a) (hc a) (hp a)

theorem updateSession_idle (key : ClientSessionKey) (f : ClientSession → ClientSession) :
    Within Idle (modify fun a : Agent => a.updateSession key f) :=
  modify_idle (fun _ => rfl) (fun _ => rfl) fun _ => rfl

theorem deref_idle (id : ResourceId) (r : Resource) : Within Idle (deref id r) :=
  .bind (within_idle_of_native (access_nativeFrame _ _)) fun _ => .require _

theorem cancelReadEA_idle (n : ℕ) (rid : ResourceId) : Within Idle (cancelReadEA env n rid) := by
  refine .read fun a => ?_
  cases (a.attached n).readReq with
  | none => exact .pure _
  | some rd =>
      refine .bind (.ensure _) fun _ => .bind (.require _) fun r => .bind (deref_idle _ _) ?_
      refine fun reader => .bind (within_idle_of_native (onReader_nativeFrame _ _)) fun _ => ?_
      exact .bind (.ensure _) fun _ => .bind (.ensure _) fun _ => .modify fun a =>
        .releaseRead a n rd

theorem cancelReadI_idle (n : ℕ) : Within Idle (cancelReadI env n) :=
  .read fun _ => .bind (lookupResource_frame _ _ _) fun _ => .bind (.require _) fun _ =>
    .bind (.ensure _) fun _ => cancelReadEA_idle env _ _

theorem enableResourceEA_idle (rid : ResourceId) : Within Idle (enableResourceEA env rid) :=
  .read fun _ => .bind (.require _) fun _ => .onlyIf fun _ =>
    .bind (within_idle_of_native (access_nativeFrame _ _)) fun _ => .bind (.require _) fun _ =>
      .ensure _

theorem attachResourceToSessionEA_idle (key : ClientSessionKey) (id : ℕ) (rid : ResourceId) :
    Within Idle (attachResourceToSessionEA env key id rid) := by
  refine .read fun a => .bind (.require _) fun r => .bind (.onlyIf fun _ => .ensure _) fun _ => ?_
  refine .bind (.ensure _) fun _ => .ite (fun _ => .bind (.modify fun b => ?_) fun _ => ?_) ?_
  · exact .link b key id rid r
  · exact .pure _
  · exact fun _ => .bind (.modify fun b => .takeAttached b rfl) fun _ => .fail

theorem countOutEA_idle (key : ClientSessionKey) (n : ℕ) (del : Bool) :
    Within Idle (countOutEA env key n del) := by
  refine .read fun a => .bind (.ensure _) fun _ => .bind (lookupResource_frame _ _ _) fun _ => ?_
  refine .bind (.require _) fun r => .bind (.ensure _) fun _ => .bind (.onlyIf fun _ => ?_) ?_
  · exact cancelReadEA_idle env n _
  · refine fun _ => .bind (modify_idle (fun _ => rfl) (fun _ => rfl) fun _ => rfl) fun _ => ?_
    refine .bind (.ensure _) fun _ => .bind (.onlyIf fun _ => .modify fun b => ?_) fun _ => .pure _
    exact .notify b fun _ => rfl

theorem detachResourceEA_idle (key : ClientSessionKey) (n : ℕ) (del copyOut : Bool) :
    Within Idle (detachResourceEA env key n del copyOut) := by
  refine .read fun a => .bind (countOutEA_idle env key n del) fun delete => ?_
  refine .bind (.onlyIf fun _ => ?_) fun _ => .bind (.onlyIf fun _ => .ensure _) fun _ => ?_
  · refine .bind (within_idle_of_native (deleteNativeResourceEA_frame env _)) fun _ => ?_
    exact .bind (.ensure _) fun _ => modify_idle (fun _ => rfl) (fun _ => rfl) fun _ => rfl
  · exact .bind (.modify fun b => .unlink b n) fun _ => .ensure _

/-- The interface accepts an attached resource. -/
theorem acceptResource_idle (n : ℕ) (u : Option ℕ) (key : ClientSessionKey) (id : ℕ) :
    Within Idle (modify fun a : Agent =>
      (a.updateAttached n fun x => { x with userData := u }).notify (.resourceCreated key id)) := by
  refine .modify fun a => ?_
  have h : Idle a (a.updateAttached n fun x => { x with userData := u }) :=
    .updateAttached a n fun _ _ h => h
  exact h.trans' (.notify _ fun _ => rfl)

theorem attachOneEA_idle (key : ClientSessionKey) (rid : ResourceId) :
    Within Idle (attachOneEA env key rid) := by
  have hnew : ∀ id, Within Idle (attachNewEA env key rid id) := by
    intro id
    refine .bind (attachResourceToSessionEA_idle env key id rid) fun n => ?_
    refine .bind (enableResourceEA_idle env rid) fun _ => .ite (fun _ => ?_) fun _ => ?_
    · exact acceptResource_idle n _ key id
    · exact .bind (.ignore (detachResourceEA_idle env key n false false)) fun _ => .fail
  refine .read fun a => .bind (.ensure _) fun _ => ?_
  cases a.resources.lookup rid with
  | none => exact .pure _
  | some r =>
      refine .bind (.onlyIf fun _ => .bind (.require _) fun id => ?_) fun _ => .ensure _
      exact .bind (.require _) fun s => .onlyIf fun _ => hnew id

theorem attachAllResourcesToSessionEA_idle (key : ClientSessionKey) :
    Within Idle (attachAllResourcesToSessionEA env key) :=
  .bind (.ensure _) fun _ => .read fun _ => .forEach fun rid _ => attachOneEA_idle env key rid

theorem disposeSessionEA_idle (key : ClientSessionKey) (s : ClientSession) :
    Within Idle (disposeSessionEA env key s) := by
  refine .ite (fun _ => .pure _) fun _ => .bind (updateSession_idle key _) fun _ => ?_
  exact .bind (.ensure _) fun _ => modify_idle (fun _ => rfl) (fun _ => rfl) fun _ => rfl

theorem closeSession_idle (src : ℕ) (key : ClientSessionKey) :
    Within Idle (closeSession env src key) :=
  .bind (.ensure _) fun _ => .bind (.ensure _) fun _ => .read fun _ => .bind (.require _) fun _ =>
    .bind (.ensure _) fun _ => .bind (.ensure _) fun _ => disposeSessionEA_idle env _ _

theorem finishCloseSession_idle (key : ClientSessionKey) :
    Within Idle (finishCloseSession env key) := by
  refine .read fun _ => .bind (.require _) fun _ => .bind (.ensure _) fun _ => ?_
  refine .bind (.ensure _) fun _ => .bind (updateSession_idle key _) fun _ => ?_
  refine .bind (.ensure _) fun _ => .bind (.ensure _) fun _ => .bind ?_ fun _ => ?_
  · exact modify_idle (fun _ => rfl) (fun _ => rfl) fun _ => rfl
  · exact .bind (.ensure _) fun _ => .modify fun a => .notify a fun _ => rfl

theorem insertResourceRecordEA_idle (q : CreateRequest) :
    Within Idle (insertResourceRecordEA env q) := by
  have hsame : ∀ {f : Agent → Agent}, (∀ a, (f a).poolReads = a.poolReads) →
      (∀ a, (f a).callbacks = a.callbacks) → (∀ a, (f a).poolResources = a.poolResources) →
      Within Idle (modify f) := modify_idle
  have hdata : ∀ rid kind, Within Idle (initializeUserDataEA env rid kind) := by
    intro rid kind
    refine .read fun a => .ite (fun _ => .bind (.ensure _) fun _ => ?_) fun _ => ?_
    · refine .bind (hsame (fun _ => rfl) (fun _ => rfl) fun _ => rfl) fun _ => ?_
      refine .bind (.onlyIf fun _ => .bind (hsame (fun _ => rfl) (fun _ => rfl) fun _ => rfl) ?_) ?_
      · exact fun _ => .fail
      · refine fun _ => .bind (hsame (fun _ => rfl) (fun _ => rfl) fun _ => rfl) fun _ => ?_
        refine .onlyIf fun _ => .bind (hsame (fun _ => rfl) (fun _ => rfl) fun _ => rfl) ?_
        exact fun _ => .fail
    · refine .ite (fun _ => .bind (.ensure _) fun _ => ?_) fun _ => .pure _
      refine .bind (hsame (fun _ => rfl) (fun _ => rfl) fun _ => rfl) fun _ => .bind ?_ fun _ => ?_
      · refine .onlyIf fun _ => .bind (hsame (fun _ => rfl) (fun _ => rfl) fun _ => rfl) ?_
        exact fun _ => .fail
      · exact hsame (fun _ => rfl) (fun _ => rfl) fun _ => rfl
  have hobtain : ∀ rid, Within Idle (obtainRecordEA env rid q) := by
    intro rid
    refine .read fun a => ?_
    cases a.resources.lookup rid with
    | some r => exact .ensure _
    | none =>
        refine .bind (hsame (fun _ => rfl) (fun _ => rfl) fun _ => rfl) fun _ => ?_
        refine .bind (.ensure _) fun _ => .read fun b => .bind (.onlyIf fun _ => .ensure _) ?_
        refine fun _ => .bind (.ensure _) fun _ => .bind ?_ fun _ => .bind (.ensure _) fun _ => ?_
        · exact hsame (fun _ => rfl) (fun _ => rfl) fun _ => rfl
        · refine .bind ?_ fun _ => hdata rid q.kind
          exact hsame (fun _ => rfl) (fun _ => rfl) fun _ => rfl
  refine .bind (hsame (fun _ => rfl) (fun _ => rfl) fun _ => rfl) fun _ => .bind (.ensure _) ?_
  refine fun _ => .bind (.require _) fun first => .bind (.ensure _) fun _ => .bind (.ensure _) ?_
  refine fun _ => .bind (.ensure _) fun _ => .bind (hobtain _) fun _ => .bind (.ensure _) ?_
  refine fun _ => .bind (hsame (fun _ => rfl) (fun _ => rfl) fun _ => rfl) fun _ =>
    .read fun a => ?_
  exact .bind (.require _) fun r => .pure _

theorem createResource_idle (key : ClientSessionKey) (q : CreateRequest) :
    Within Idle (createResource env key q) := by
  have hcheck : ∀ s, Within Idle (checkCreate s q) := by
    intro s
    refine .read fun a => .bind (.ensure _) fun _ => .bind (.ensure _) fun _ => ?_
    refine .bind (.onlyIf fun _ => .bind (.require _) fun p => .ensure _) fun _ => ?_
    refine .ite (fun _ => .pure _) fun _ => ?_
    cases a.findAttachedResource s q.id with
    | none => exact .pure _
    | some n => exact .bind (.ensure _) fun _ => .bind (.ensure _) fun _ => .pure _
  have hobtain : ∀ o, Within Idle (obtainAttachedEA env key q o) := by
    intro o
    cases o with
    | some n =>
        refine .bind (.read fun a => .bind (lookupResource_frame _ _ _) fun _ => ?_)
          fun _ => .pure _
        refine .bind (.require _) fun r => .bind (.ensure _) fun _ => .bind (.require _) fun _ => ?_
        refine .bind (.ensure _) fun _ => .bind (.ensure _) fun _ => .bind (.onlyIf fun _ => ?_) ?_
        · exact cancelReadEA_idle env n _
        · exact fun _ => .pure _
    | none =>
        refine .bind (insertResourceRecordEA_idle env q) fun _ => .bind (.require _) fun rid => ?_
        exact .bind (attachResourceToSessionEA_idle env key q.id rid) fun _ => .pure _
  have hcreate : Within Idle (createResourceEA env key q) := by
    refine .read fun a => .bind (.require _) fun s => .bind (hcheck s) fun o => ?_
    refine .bind (.ensure _) fun _ => .bind (hobtain o) fun v => .bind ?_ fun _ => .pure _
    refine .bind (enableResourceEA_idle env _) fun _ => .bind (.ensure _) fun _ => ?_
    exact .bind (.ensure _) fun _ => .onlyIf fun _ => .modify fun b => .notify b fun _ => rfl
  refine .read fun a => .bind (.require _) fun s => .bind (.ensure _) fun _ => .bind hcreate ?_
  refine fun n => .read fun b => .ite (fun _ => acceptResource_idle n _ key _) fun _ => ?_
  exact .bind (.ignore (detachResourceEA_idle env key n false false)) fun _ => .fail

theorem deleteResource_idle (key : ClientSessionKey) (id : ℕ) :
    Within Idle (deleteResource env key id) := by
  refine .bind (findAttached_frame key id) fun found => ?_
  cases found with
  | none => exact .pure _
  | some n =>
      refine .bind (.read fun a => .onlyIf fun _ => .bind (cancelReadI_idle env n) fun _ => ?_) ?_
      · exact .modify fun b => .notify b fun _ => rfl
      · refine fun _ => .bind (detachResourceEA_idle env key n true true) fun _ => .bind ?_ ?_
        · exact .modify fun b => .notify b fun _ => rfl
        · exact fun _ => .ensure _

theorem writeData_idle (key : ClientSessionKey) (id : ℕ) :
    Within Idle (writeData env key id) := by
  refine .bind (findAttached_frame key id) fun found => .bind (.require _) fun n =>
    .read fun a => ?_
  refine .bind (.ensure _) fun _ => .bind (lookupResource_frame _ _ _) fun _ => ?_
  refine .bind (.require _) fun r => .bind (.ensure _) fun _ => .bind (deref_idle _ _) fun _ => ?_
  refine .bind (.ensure _) fun _ => .bind (.ensure _) fun _ => .bind (.ensure _) fun _ => ?_
  exact .modify fun b => .notify b fun _ => rfl

theorem onCleanupSessions_idle : Within Idle (onCleanupSessions env) := by
  have hend : ∀ key n, Within Idle (endReadEA env key n) := by
    intro key n
    refine .read fun a => .onlyIf fun _ => .bind (lookupResource_frame _ _ _) fun found => ?_
    cases found with
    | none => exact .pure _
    | some r =>
        refine .ite (fun _ => .ensure _) fun _ => .bind (cancelReadEA_idle env n _) fun _ => ?_
        exact .bind (.ensure _) fun _ => .modify fun b => .notify b fun _ => rfl
  have hfinalize : ∀ key, Within Idle (finalizeSessionEA env key) := by
    intro key
    refine .read fun a => .bind (.require _) fun s => .bind (.ensure _) fun _ => ?_
    refine .bind (.forEach fun n _ => hend key n) fun _ => .bind (.forEach fun n _ => ?_) ?_
    · refine .read fun b => .bind (detachResourceEA_idle env key n false true) fun _ => ?_
      exact .modify fun b => .notify b fun _ => rfl
    · refine fun _ => .bind (.modify fun b => .drainSamples b key) fun _ => .onlyIf fun _ => ?_
      exact .ensure _
  have hrelease : ∀ key timedout, Within Idle (releaseFinalizedEA env key timedout) := by
    intro key timedout
    refine .ite (fun _ => .bind (.ensure _) fun _ => .bind (.ensure _) fun _ => ?_) fun _ => ?_
    · refine .bind (modify_idle (fun _ => rfl) (fun _ => rfl) fun _ => rfl) fun _ => ?_
      exact .modify fun b => .notify b fun _ => rfl
    · exact .bind (updateSession_idle key _) fun _ => .ensure _
  refine .bind (.ensure _) fun _ => .bind (.ensure _) fun _ => .bind ?_ fun _ => .read fun a => ?_
  · exact modify_idle (fun _ => rfl) (fun _ => rfl) fun _ => rfl
  · refine .forEach fun key _ => .bind (.ensure _) fun _ => .read fun b => ?_
    cases b.sessions.lookup key with
    | none => exact .pure _
    | some s => exact .onlyIf fun _ => .bind (hfinalize key) fun _ => hrelease key _

theorem onCleanupResources_idle : Within Idle (onCleanupResources env) := by
  have hone : ∀ key n, Within Idle (cleanupResourceEA env key n) := by
    intro key n
    refine .read fun a => .bind (lookupResource_frame _ _ _) fun _ => .bind (.require _) fun r => ?_
    refine .bind (.ensure _) fun _ => .onlyIf fun _ => .bind ?_ fun _ => ?_
    · exact detachResourceEA_idle env key n true true
    · exact .modify fun b => .notify b fun _ => rfl
  refine .bind (.ensure _) fun _ => .bind ?_ fun _ => .bind (.ensure _) fun _ => .read fun a => ?_
  · exact modify_idle (fun _ => rfl) (fun _ => rfl) fun _ => rfl
  · refine .forEach fun key _ => .bind (.ensure _) fun _ => .read fun b => ?_
    cases b.sessions.lookup key with
    | none => exact .pure _
    | some s =>
        refine .bind (.forEach fun n _ => hone key n) fun _ => ?_
        exact attachAllResourcesToSessionEA_idle env key

section Callbacks

/-! An interface may return loans in a callback, which advances reads: what is said about
these operations is a relation that idle reads and the return of a loan stay within. -/

variable {R : Agent → Agent → Prop} [IsPreorder Agent R] {env}

theorem openSession_within (hidle : ∀ {a b}, Idle a b → R a b)
    (hloan : ∀ env src key d, Within R (returnLoan env src key d)) (src : ℕ)
    (key : ClientSessionKey) (timeout : ℕ) (data : Option ℕ) :
    Within R (openSession env src key timeout data) := by
  have hof : ∀ {α : Type} {x : AgentM α}, Within Idle x → Within R x := fun h a => hidle (h a)
  have hnew : Within Idle (openNewSession env src key timeout data) := by
    refine .bind (modify_idle (fun _ => rfl) (fun _ => rfl) fun _ => rfl) fun _ => ?_
    refine .onFailure (.bind (.ensure _) fun _ => .bind (.ensure _) fun _ => ?_) ?_
    · exact .bind (attachAllResourcesToSessionEA_idle env key) fun _ => .ensure _
    · exact .onlyIf fun _ => modify_idle (fun _ => rfl) (fun _ => rfl) fun _ => rfl
  have hreset : ∀ s, Within R (resetSession env src key s) := by
    intro s
    refine .bind (.ensure _) fun _ => .bind (hof (updateSession_idle key _)) fun _ => ?_
    refine .bind (.ensure _) fun _ => .bind (.bind ?_ fun _ => .ensure _) fun _ => ?_
    · exact within_returnLoans fun d _ => hloan _ src key d
    refine .bind (.onlyIf fun _ => hof (updateSession_idle key _)) fun _ => .bind ?_ fun _ => ?_
    · exact .forEach fun n _ => .read fun a => .onlyIf fun _ => hof (cancelReadI_idle env n)
    · exact hof (updateSession_idle key _)
  refine .bind (.ensure _) fun _ => .bind (.read fun a => ?_) fun _ => ?_
  · cases a.sessions.lookup key with
    | some s => exact hreset s
    | none => exact hof hnew
  · exact .read fun _ => .bind (.require _) fun _ => .bind (.ensure _) fun _ => .ensure _

theorem onSessionTimeout_within (hidle : ∀ {a b}, Idle a b → R a b)
    (hloan : ∀ env src key d, Within R (returnLoan env src key d)) (key : ClientSessionKey) :
    Within R (onSessionTimeout env key) := by
  refine .bind (.ensure _) fun _ => .read fun _ => .bind (.require _) fun s => ?_
  refine .bind (.ensure _) fun _ => .bind (fun a => hidle (updateSession_idle key _ a)) fun _ => ?_
  refine .bind (within_returnLoans fun d _ => hloan _ _ key d) fun _ => ?_
  exact fun a => hidle (disposeSessionEA_idle env key s a)

theorem cleanupReadEA_within (hidle : ∀ {a b}, Idle a b → R a b)
    (hloan : ∀ env src key d, Within R (returnLoan env src key d)) (src : ℕ)
    (key : ClientSessionKey) (n : ℕ) : Within R (cleanupReadEA env src key n) := by
  refine .read fun a => ?_
  dsimp only
  cases (a.attached n).readReq with
  | none => exact .pure _
  | some rd =>
      refine .onlyIf fun _ => .ite (fun _ => ?_) fun _ => .bind (lookupResource_frame _ _ _) ?_
      · exact within_returnLoans fun d _ => hloan _ src key d
      · refine fun _ => .bind (.require _) fun _ => .bind (fun b => ?_) fun _ => .ensure _
        exact hidle (cancelReadEA_idle env n _ b)

theorem cleanupReadsOfEA_within (hidle : ∀ {a b}, Idle a b → R a b)
    (hloan : ∀ env src key d, Within R (returnLoan env src key d)) (key : ClientSessionKey) :
    Within R (cleanupReadsOfEA env key) := by
  refine .bind (.ensure _) fun _ => .read fun b => ?_
  cases b.sessions.lookup key with
  | none => exact .pure _
  | some s => exact .forEach fun n _ => cleanupReadEA_within hidle hloan s.intf key n

theorem onCleanupReads_within (hidle : ∀ {a b}, Idle a b → R a b)
    (hloan : ∀ env src key d, Within R (returnLoan env src key d)) :
    Within R (onCleanupReads env) := by
  refine .bind (.ensure _) fun _ => .bind (fun a => ?_) fun _ => .read fun a => ?_
  · exact hidle (.of_same rfl rfl rfl)
  · exact .forEach fun key _ => cleanupReadsOfEA_within hidle hloan key

end Callbacks

end AgentM

namespace Agent

variable {R : Agent → Agent → Prop} [IsPreorder Agent R] {a b t : Agent} {i : Operation × Env}
  {src : ℕ} {key : ClientSessionKey}

theorem CallsBack.before {c : LoanCallback} (h : a.CallsBack i src key c b)
    (hidle : ∀ {a b}, Idle a b → R a b)
    (hloan : ∀ env src key d, Within R (AgentM.returnLoan env src key d)) : R a b := by
  cases h with
  | sessionReset hinsert hs hactive hsrc => exact hidle (.of_same rfl rfl rfl)
  | sessionTimedOut hlookup hs hactive => exact hidle (.of_same rfl rfl rfl)
  | @releaseReadSamples env key s n rd b₀ _ hcond hset hkey hnext hs hn =>
      have hmark : R a { a with condCleanupReads := false } := hidle (.of_same rfl rfl rfl)
      refine IsTrans.trans _ _ _ hmark (IsTrans.trans _ b₀ _ (hkey.before fun key' _ => ?_)
        (hn.before fun m _ => ?_))
      · exact AgentM.cleanupReadsOfEA_within hidle hloan key'
      · exact AgentM.cleanupReadEA_within hidle hloan s.intf key m

/-- What an opening does after the loans were returned in its reset. -/
theorem openSession_after_reset {env : Env} {timeout : ℕ} {data : Option ℕ} {s : ClientSession}
    (hinsert : env.ok (.insertSession key) = true) (hs : a.sessions.lookup key = some s)
    (hactive : s.active = true) (hsrc : s.intf = src) (hidle : ∀ {a b}, Idle a b → R a b) :
    R (AgentM.returnLoans env src key (.sessionReset key)
      (a.updateSession key fun s => { s with resetting := true })).2
      (AgentM.openSession env src key timeout data a).2 := by
  let I := R (AgentM.returnLoans env src key (.sessionReset key)
    (a.updateSession key fun s => { s with resetting := true })).2
  have hreturned : I (AgentM.returnLoans env src key (.sessionReset key)
    (a.updateSession key fun s => { s with resetting := true })).2 := refl _
  have hstep : ∀ {b c}, I b → Idle b c → I c := fun hb hbc => IsTrans.trans _ _ _ hb (hidle hbc)
  have hreset : I (AgentM.resetSession env src key s a).2 := by
    unfold AgentM.resetSession
    rw [hactive, ensure_true_bind_apply, modify_bind_apply, decide_eq_true hsrc,
      ensure_true_bind_apply]
    refine keeps_bind (fun _ => ?_) fun _ _ => ?_
    · exact keeps_bind (fun _ => hreturned) fun _ _ => hreturned
    have hanswered : I (AgentM.onSessionReset env src key
        (a.updateSession key fun s => { s with resetting := true })).2 :=
      keeps_bind (fun _ => hreturned) fun _ _ => hreturned
    refine Within.bind (R := fun b c => I b → I c) (.onlyIf fun _ => .modify fun b hb => ?_)
      (fun _ => .bind (.forEach fun n _ => .read fun b => .onlyIf fun _ => ?_) fun _ => ?_) _
      hanswered
    · exact hstep hb (.of_same rfl rfl rfl)
    · exact fun c hc => hstep hc (AgentM.cancelReadI_idle env n c)
    · exact .modify fun c hc => hstep hc (.of_same rfl rfl rfl)
  change I _
  unfold AgentM.openSession
  rw [hinsert, ensure_true_bind_apply]
  have hopened : I (AgentM.resetOrOpenSession env src key timeout data a).2 := by
    unfold AgentM.resetOrOpenSession
    rw [read_bind_apply, hs]
    exact hreset
  refine keeps_bind (fun _ => hopened) fun _ _ => ?_
  rw [read_bind_apply]
  exact keeps_require hopened fun s _ => keeps_ensure hopened fun _ => hopened

/-- What a time-out does after its loans were returned. -/
theorem onSessionTimeout_after_returns {env : Env} {s : ClientSession}
    (hlookup : env.ok (.lookupSession .onTimeout key) = true)
    (hs : a.sessions.lookup key = some s) (hactive : s.active = true)
    (hidle : ∀ {a b}, Idle a b → R a b) :
    R (AgentM.returnLoans env s.intf key (.sessionTimedOut key)
      (a.updateSession key fun s => { s with timedout := true })).2
      (AgentM.onSessionTimeout env key a).2 := by
  unfold AgentM.onSessionTimeout
  rw [hlookup, ensure_true_bind_apply, read_bind_apply, hs, bind_apply]
  simp only [require_apply]
  rw [hactive, ensure_true_bind_apply, modify_bind_apply]
  refine keeps_bind (I := R _) (fun _ => refl _) fun _ _ => ?_
  exact hidle (AgentM.disposeSessionEA_idle env key s _)

/-- What the clean-up of reads does after it called an interface back. -/
theorem cleanupReads_after_returns {env : Env} {s : ClientSession} {n rd : ℕ} {b₀ : Agent}
    (hcond : a.condCleanupReads = true) (hset : env.ok (.setTrigger .cleanupReads) = true)
    (hkey : Turn a.sessionKeys (AgentM.cleanupReadsOfEA env)
      { a with condCleanupReads := false } key b₀)
    (hnext : env.ok (.nextSession .cleanupReads key) = true)
    (hs : b₀.sessions.lookup key = some s)
    (hn : Turn s.resources (AgentM.cleanupReadEA env s.intf key) b₀ n b)
    (hrd : (b.attached n).readReq = some rd) (hcomplete : (b.readAt rd).complete = true)
    (hpending : (b.readAt rd).hasPendingSamples = true) (hidle : ∀ {a b}, Idle a b → R a b)
    (hloan : ∀ env src key d, Within R (AgentM.returnLoan env src key d)) :
    R (AgentM.returnLoans env s.intf key (.releaseReadSamples key (b.attached n).id) b).2
      (a.step (.cleanupReads, env)) := by
  have hcall : (AgentM.cleanupReadEA env s.intf key n b).2 = (AgentM.returnLoans env s.intf key
      (.releaseReadSamples key (b.attached n).id) b).2 := by
    unfold AgentM.cleanupReadEA
    rw [read_bind_apply]
    simp only [hrd, hcomplete, hpending, onlyIf_true, if_true]
  have hround : (AgentM.cleanupReadsOfEA env key b₀).2 =
      (forEach s.resources (AgentM.cleanupReadEA env s.intf key) b₀).2 := by
    unfold AgentM.cleanupReadsOfEA
    rw [hnext, ensure_true_bind_apply, read_bind_apply, hs]
  have hloop : (a.step (.cleanupReads, env)) = (forEach a.sessionKeys
      (AgentM.cleanupReadsOfEA env) { a with condCleanupReads := false }).2 := by
    change ((Prog.read >>= fun a : Agent => Prog.ensure a.condCleanupReads >>= fun _ =>
      AgentM.onCleanupReads env) a).2 = _
    rw [read_bind_apply, hcond, ensure_true_bind_apply]
    unfold AgentM.onCleanupReads
    rw [hset, ensure_true_bind_apply, modify_bind_apply, read_bind_apply]
    rfl
  have hinner := hn.after (R := R) fun m _ =>
    AgentM.cleanupReadEA_within hidle hloan s.intf key m
  have houter := hkey.after (R := R) fun key' _ =>
    AgentM.cleanupReadsOfEA_within hidle hloan key'
  rw [hcall] at hinner
  rw [hround] at houter
  rw [hloop]
  exact IsTrans.trans _ _ _ hinner houter

theorem CallsBack.after {c : LoanCallback} (h : a.CallsBack i src key c b)
    (hidle : ∀ {a b}, Idle a b → R a b)
    (hloan : ∀ env src key d, Within R (AgentM.returnLoan env src key d)) :
    R (AgentM.returnLoans i.2 src key c b).2 (a.step i) := by
  cases h with
  | sessionReset hinsert hs hactive hsrc =>
      exact openSession_after_reset hinsert hs hactive hsrc hidle
  | sessionTimedOut hlookup hs hactive =>
      exact onSessionTimeout_after_returns hlookup hs hactive hidle
  | releaseReadSamples hcond hset hkey hnext hs hn hrd hcomplete hpending =>
      exact cleanupReads_after_returns hcond hset hkey hnext hs hn hrd hcomplete hpending hidle
        hloan

/-- What leads to a return of a loan. -/
theorem ReturnsLoan.before {env : Env} {d : ℕ} (h : a.ReturnsLoan i env src key d t)
    (hidle : ∀ {a b}, Idle a b → R a b)
    (hloan : ∀ env src key d, Within R (AgentM.returnLoan env src key d)) : R a t := by
  cases h with
  | operation => exact refl a
  | callback hcall hturn =>
      refine IsTrans.trans _ _ _ (hcall.before hidle hloan) (hturn.before fun e _ => ?_)
      exact .ignore (hloan _ src key e)

/-- What follows a return of a loan. -/
theorem ReturnsLoan.after {env : Env} {d : ℕ} (h : a.ReturnsLoan i env src key d t)
    (hidle : ∀ {a b}, Idle a b → R a b)
    (hloan : ∀ env src key d, Within R (AgentM.returnLoan env src key d)) :
    R (AgentM.returnLoan env src key d t).2 (a.step i) := by
  cases h with
  | operation => exact refl _
  | callback hcall hturn =>
      refine IsTrans.trans _ _ _ (hturn.after fun e _ => ?_) (hcall.after hidle hloan)
      exact .ignore (hloan _ src key e)

end Agent

/-- The operations that start or serve a read, or in which an interface may return loans. -/
def Operation.servesRead : Operation → Bool
  | readData _ _ _ => true
  | dataEvent _ => true
  | returnLoan _ _ _ => true
  | openSession _ _ _ _ => true
  | sessionTimeout _ => true
  | cleanupReads => true
  | _ => false

/-- Every other operation leaves the reads idle. -/
theorem Agent.step_idle (a : Agent) {o : Operation} (env : Env) (h : o.servesRead = false) :
    Idle a (a.step (o, env)) := by
  cases o with
  | closeSession src key => exact AgentM.closeSession_idle env src key a
  | finishCloseSession key => exact AgentM.finishCloseSession_idle env key a
  | createResource key q => exact AgentM.createResource_idle env key q a
  | deleteResource key id => exact AgentM.deleteResource_idle env key id a
  | cancelRead key id =>
      refine Within.bind (AgentM.findAttachedReader_frame key id) (fun n => ?_) a
      refine .bind (AgentM.cancelReadI_idle env n) fun _ => .modify fun b => ?_
      exact .notify b fun _ => rfl
  | writeData key id => exact AgentM.writeData_idle env key id a
  | changeCache reader cache => exact .of_same rfl rfl rfl
  | cleanupSessions => exact keeps_ensure (.rfl' a) fun _ => AgentM.onCleanupSessions_idle env a
  | cleanupResources => exact keeps_ensure (.rfl' a) fun _ => AgentM.onCleanupResources_idle env a
  | readData key id spec => cases h
  | dataEvent rd => cases h
  | returnLoan src key d => cases h
  | openSession src key timeout data => cases h
  | sessionTimeout key => cases h
  | cleanupReads => cases h

end NanoAgent
