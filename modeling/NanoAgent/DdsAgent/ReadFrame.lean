import NanoAgent.DdsAgent.NativeFrame

/-!
# What reads leave alone

The functions that start, serve and cancel reads work on reads, reader states and
received-data records. `ReadFrame a b` says that from `a` to `b` nothing else has
changed: the resource records and the entities are the same, every session links
the same attached resources, and an attached resource differs at most in its read,
in the positions of its samples and in the data that the interface keeps for it.
-/

namespace NanoAgent

open Prog

/-- The attached resources linked in the sessions. -/
def Agent.linked (a : Agent) : List ℕ := a.sessions.collect (·.resources)

/-- A session without its pool of received-data records. -/
def ClientSession.outline (s : ClientSession) : ClientSession := { s with rcvdDataPool := [] }

/-- An attached resource without its read, the positions of its samples and the
data of the interface. -/
def AttachedResource.outline (x : AttachedResource) : AttachedResource :=
  { x with userData := none, readReq := none, lastSampleForwarded := 0, lastSampleReturned := 0 }

/-- From `a` to `b` only reads, reader states and received-data records have
changed. -/
structure ReadFrame (a b : Agent) : Prop where
  resources : b.resources = a.resources
  entities : b.entities = a.entities
  autoAttach : b.autoAttachResources = a.autoAttachResources
  autoId : b.autoId = a.autoId
  linked : b.linked.Perm a.linked
  session : ∀ key, (b.sessions.lookup key).map ClientSession.outline =
    (a.sessions.lookup key).map ClientSession.outline
  next : b.poolResources.next = a.poolResources.next
  returned : b.poolResources.returned = a.poolResources.returned
  attached : ∀ n, (b.attached n).outline = (a.attached n).outline

namespace ReadFrame

theorem rfl' (a : Agent) : ReadFrame a a :=
  ⟨rfl, rfl, rfl, rfl, .refl _, fun _ => rfl, rfl, rfl, fun _ => rfl⟩

theorem trans' {a b c : Agent} (h : ReadFrame a b) (h' : ReadFrame b c) : ReadFrame a c where
  resources := h'.resources.trans h.resources
  entities := h'.entities.trans h.entities
  autoAttach := h'.autoAttach.trans h.autoAttach
  autoId := h'.autoId.trans h.autoId
  linked := h'.linked.trans h.linked
  session key := (h'.session key).trans (h.session key)
  next := h'.next.trans h.next
  returned := h'.returned.trans h.returned
  attached n := (h'.attached n).trans (h.attached n)

instance : IsPreorder Agent ReadFrame where
  refl := rfl'
  trans _ _ _ := trans'

/-- The pools of reads, samples, readers and writers, the notifications and the
faults are outside the frame. -/
theorem of_same {a b : Agent} (hr : b.resources = a.resources) (he : b.entities = a.entities)
    (hat : b.autoAttachResources = a.autoAttachResources) (hid : b.autoId = a.autoId)
    (hs : b.sessions = a.sessions) (hp : b.poolResources = a.poolResources) : ReadFrame a b where
  resources := hr
  entities := he
  autoAttach := hat
  autoId := hid
  linked := by rw [Agent.linked, hs]; exact .refl _
  session key := by rw [hs]
  next := by rw [hp]
  returned := by rw [hp]
  attached n := by rw [Agent.attached, hp]; rfl

theorem updateAttached {a b : Agent} (h : ReadFrame a b) (n : ℕ)
    {f : AttachedResource → AttachedResource} (hf : ∀ x, (f x).outline = x.outline) :
    ReadFrame a (b.updateAttached n f) :=
  .trans' h
    { resources := rfl
      entities := rfl
      autoAttach := rfl
      autoId := rfl
      linked := .refl _
      session := fun _ => rfl
      next := rfl
      returned := rfl
      attached := by
        intro m
        change ((b.poolResources.update n f).content m).outline = _
        rw [BufferPool.content_update]
        split
        · exact hf _
        · rfl }

theorem updateRead {a b : Agent} (h : ReadFrame a b) (rd : ℕ) (f : Read → Read) :
    ReadFrame a (b.updateRead rd f) :=
  .trans' h (.of_same rfl rfl rfl rfl rfl rfl)

theorem notify {a b : Agent} (h : ReadFrame a b) (c : Callback) : ReadFrame a (b.notify c) :=
  .trans' h (.of_same rfl rfl rfl rfl rfl rfl)

theorem releaseRead (a : Agent) (n rd : ℕ) : ReadFrame a (a.releaseRead n rd) := by
  apply ReadFrame.updateAttached
  · exact .of_same rfl rfl rfl rfl rfl rfl
  · intro x
    rfl

theorem takeRead (a : Agent) (key : ClientSessionKey) (n : ℕ) :
    ReadFrame a (a.takeRead key n) := by
  apply ReadFrame.updateAttached
  · exact .of_same rfl rfl rfl rfl rfl rfl
  · intro x
    rfl

theorem discardRead (a : Agent) (n : ℕ) : ReadFrame a (a.discardRead n) := by
  unfold Agent.discardRead
  cases (a.attached n).readReq with
  | none => exact .rfl' a
  | some rd => exact .of_same rfl rfl rfl rfl rfl rfl

end ReadFrame

theorem ReadFrame.updateSession {a b : Agent} (h : ReadFrame a b) (key : ClientSessionKey)
    {f : ClientSession → ClientSession} (hf : ∀ s, (f s).outline = s.outline) :
    ReadFrame a (b.updateSession key f) :=
  .trans' h
    { resources := rfl
      entities := rfl
      autoAttach := rfl
      autoId := rfl
      linked := by
        refine AList.collect_modify_perm _ fun s => ?_
        have hs := congrArg ClientSession.resources (hf s)
        exact hs
      session := by
        intro key'
        change ((b.sessions.modify key f).lookup key').map _ = _
        rw [AList.lookup_modify]
        split
        · rw [Option.map_map]
          exact congrArg (fun g => (b.sessions.lookup key').map g) (funext hf)
        · rfl
      next := rfl
      returned := rfl
      attached := fun _ => rfl }

theorem ReadFrame.exists_session {a b : Agent} (h : ReadFrame a b) {key : ClientSessionKey}
    {s : ClientSession} (hs : a.sessions.lookup key = some s) :
    ∃ s', b.sessions.lookup key = some s' ∧ s'.outline = s.outline := by
  have heq := h.session key
  rw [hs] at heq
  exact Option.map_eq_some_iff.1 heq

theorem ReadFrame.drainSamples (a : Agent) (key : ClientSessionKey) :
    ReadFrame a (a.drainSamples key) := by
  unfold Agent.drainSamples
  cases hs : a.sessions.lookup key with
  | none => exact .rfl' a
  | some s =>
      have hmod : a.sessions.insert key { s with rcvdDataPool := [] } =
          a.sessions.modify key fun s => { s with rcvdDataPool := [] } := by
        unfold AList.modify
        rw [hs]
      have h : ReadFrame a (a.updateSession key fun s => { s with rcvdDataPool := [] }) :=
        .updateSession (.rfl' a) key fun _ => rfl
      exact .trans' h (.of_same rfl rfl rfl rfl hmod rfl)

theorem ReadFrame.recycle {a b : Agent} (h : ReadFrame a b) (key : ClientSessionKey) (d : ℕ) :
    ReadFrame a (b.recycle key d) := by
  apply ReadFrame.updateSession h
  intro s
  rfl

theorem ReadFrame.reuse (a : Agent) (key : ClientSessionKey) (d size : ℕ) :
    ReadFrame a (a.reuse key d size) := by
  have h : ReadFrame a (a.updateSession key
      fun s => { s with rcvdDataPool := s.rcvdDataPool.erase d }) := by
    apply ReadFrame.updateSession (.rfl' a)
    intro s
    rfl
  exact .trans' h (.of_same rfl rfl rfl rfl rfl rfl)

theorem ReadFrame.acceptSample (a : Agent) (n rd d : ℕ) (smp : Sample) (retained : Bool)
    (now : ℕ) : ReadFrame a (a.acceptSample n rd d smp retained now) := by
  unfold Agent.acceptSample
  apply ReadFrame.notify
  apply ReadFrame.updateAttached
  · apply ReadFrame.updateRead
    cases retained with
    | true => exact .updateRead (.rfl' a) _ _
    | false =>
        apply ReadFrame.updateRead
        apply ReadFrame.updateAttached (.rfl' a)
        intro x
        rfl
  · intro x
    rfl

namespace AgentM

theorem notify_frame (c : Callback) : Within ReadFrame (modify fun a => a.notify c) :=
  .modify fun _ => .of_same rfl rfl rfl rfl rfl rfl

theorem updateRead_frame (rd : ℕ) (f : Read → Read) :
    Within ReadFrame (modify fun a => a.updateRead rd f) :=
  .modify fun _ => .of_same rfl rfl rfl rfl rfl rfl

theorem lookupResource_frame {R : Agent → Agent → Prop} [IsPreorder Agent R] (env : Env)
    (c : Caller) (id : ResourceId) : Within R (lookupResource env c id) :=
  .bind (.ensure _) fun _ => .read fun _ => .pure _

theorem access_frame (id : ResourceId) (valid : Bool) : Within ReadFrame (access id valid) := by
  refine .modify fun a => ?_
  cases valid
  · exact .of_same rfl rfl rfl rfl rfl rfl
  · exact .rfl' a

theorem deref_frame (id : ResourceId) (r : Resource) : Within ReadFrame (deref id r) :=
  .bind (access_frame _ _) fun _ => .require _

theorem onReader_frame {α : Type} (n : ℕ) (x : Prog Reader α) :
    Within ReadFrame (onReader n x) :=
  fun _ => .of_same rfl rfl rfl rfl rfl rfl

theorem cancelReadEA_frame (env : Env) (n : ℕ) (rid : ResourceId) :
    Within ReadFrame (cancelReadEA env n rid) := by
  refine .read fun a => ?_
  cases (a.attached n).readReq with
  | none => exact .pure _
  | some rd =>
      refine .bind (.ensure _) fun _ => .bind (.require _) fun r => ?_
      refine .bind (deref_frame _ _) fun reader => .bind (onReader_frame _ _) fun _ => ?_
      exact .bind (.ensure _) fun _ => .bind (.ensure _) fun _ => .modify fun a =>
        .releaseRead a n rd

theorem cancelReadI_frame (env : Env) (n : ℕ) : Within ReadFrame (cancelReadI env n) := by
  refine .read fun a => .bind (lookupResource_frame _ _ _) fun found => ?_
  refine .bind (.require _) fun r => .bind (.ensure _) fun _ => ?_
  exact cancelReadEA_frame _ _ _

theorem startReadEA_frame (env : Env) (key : ClientSessionKey) (n : ℕ)
    (spec : ReadSpecification) : Within ReadFrame (startReadEA env key n spec) := by
  refine .read fun a => .bind (lookupResource_frame _ _ _) fun found => ?_
  refine .bind (.require _) fun r => .bind (.ensure _) fun _ => ?_
  refine .bind (.onlyIf fun _ => cancelReadEA_frame _ _ _) fun _ => ?_
  refine .read fun a => .bind (.ensure _) fun _ => ?_
  refine .bind (.modify fun a => .takeRead a key n) fun _ => .bind (.ensure _) fun _ => ?_
  refine .bind (.modify fun a => .of_same rfl rfl rfl rfl rfl rfl) fun _ => ?_
  refine .bind (.onlyIf fun _ => .ensure _) fun _ => .bind (.ensure _) fun _ => ?_
  refine .bind (updateRead_frame _ _) fun _ => ?_
  refine .bind (deref_frame _ _) fun reader => .bind (onReader_frame _ _) fun _ => ?_
  exact .ensure _

theorem readEA_frame (env : Env) (key : ClientSessionKey) (n : ℕ) (spec : ReadSpecification) :
    Within ReadFrame (readEA env key n spec) := by
  have hexit : Within ReadFrame (modify fun a : Agent => a.discardRead n) :=
    .modify fun a => .discardRead a n
  refine .bind (.onFailure (startReadEA_frame _ _ _ _) hexit) fun _ => ?_
  exact .read fun _ => .ensure _

theorem findAttached_frame {R : Agent → Agent → Prop} [IsPreorder Agent R]
    (key : ClientSessionKey) (id : ℕ) : Within R (findAttached key id) :=
  .read fun _ => .bind (.require _) fun _ => .bind (.ensure _) fun _ => .pure _

theorem findAttachedReader_frame {R : Agent → Agent → Prop} [IsPreorder Agent R]
    (key : ClientSessionKey) (id : ℕ) : Within R (findAttachedReader key id) :=
  .bind (findAttached_frame _ _) fun _ => .bind (.require _) fun _ => .read fun _ =>
    .bind (.ensure _) fun _ => .pure _

theorem readData_frame (env : Env) (key : ClientSessionKey) (id : ℕ) (spec : ReadSpecification) :
    Within ReadFrame (readData env key id spec) := by
  refine .bind (findAttachedReader_frame _ _) fun n => .bind (readEA_frame _ _ _ _) fun _ => ?_
  refine .ite (fun _ => notify_frame _) fun _ => ?_
  exact .bind (.ignore (cancelReadI_frame _ _)) fun _ => .fail

theorem cancelRead_frame (env : Env) (key : ClientSessionKey) (id : ℕ) :
    Within ReadFrame (cancelRead env key id) :=
  .bind (findAttachedReader_frame _ _) fun _ => .bind (cancelReadI_frame _ _) fun _ =>
    notify_frame _

theorem fillReceivedData_frame (env : Env) (key : ClientSessionKey) (n d : ℕ) (smp : Sample) :
    Within ReadFrame (fillReceivedData env key n d smp) := by
  refine .read fun a => .bind (.modify fun _ => .of_same rfl rfl rfl rfl rfl rfl) fun _ => ?_
  refine .bind (.onlyIf fun _ => .bind (.ensure _) fun _ => ?_) fun _ => ?_
  · exact .modify fun _ => .of_same rfl rfl rfl rfl rfl rfl
  refine .bind (.ensure _) fun _ => ?_
  refine .bind (.modify fun _ => .of_same rfl rfl rfl rfl rfl rfl) fun _ => ?_
  exact .bind (.require _) fun _ => .modify fun _ => .of_same rfl rfl rfl rfl rfl rfl

theorem recycle_frame (key : ClientSessionKey) (d : ℕ) :
    Within ReadFrame (modify fun a => a.recycle key d) :=
  .modify fun a => .recycle (.rfl' a) key d

theorem obtainReceivedData_frame (env : Env) (key : ClientSessionKey) (smp : Sample) :
    Within ReadFrame (obtainReceivedData env key smp) := by
  refine .read fun a => .bind (.require _) fun s => ?_
  cases s.rcvdDataPool with
  | nil =>
      refine .bind (.ensure _) fun _ => .bind (.modify fun _ => ?_) fun _ => .pure _
      exact .of_same rfl rfl rfl rfl rfl rfl
  | cons d l =>
      exact .bind (.modify fun a => .reuse a key d _) fun _ => .pure _

theorem convertSampleEA_frame (env : Env) (key : ClientSessionKey) (n : ℕ) (smp : Sample) :
    Within ReadFrame (convertSampleEA env key n smp) :=
  .bind (obtainReceivedData_frame _ _ _) fun _ =>
    .bind (.onFailure (fillReceivedData_frame _ _ _ _ _) (recycle_frame _ _)) fun _ => .pure _

theorem processSampleEA_frame (env : Env) (key : ClientSessionKey) (n : ℕ) (smp : Sample)
    (now : ℕ) : Within ReadFrame (processSampleEA env key n smp now) := by
  refine .read fun a => .bind (.require _) fun rd => ?_
  refine .ite (fun _ => .pure _) fun _ => .ite (fun _ => .pure _) fun _ => ?_
  refine .bind (.ensure _) fun _ => .bind (convertSampleEA_frame _ _ _ _) fun d => ?_
  cases env.delivery smp with
  | error => exact .bind (recycle_frame _ _) fun _ => .fail
  | tryAgain => exact .bind (recycle_frame _ _) fun _ => .pure _
  | accepted retained =>
      exact .bind (.modify fun a => .acceptSample a _ _ _ _ _ _) fun _ => .pure _

theorem readFromReaderDdsEA_frame (env : Env) (n : ℕ) :
    Within ReadFrame (readFromReaderDdsEA env n) :=
  .read fun _ => .bind (lookupResource_frame _ _ _) fun _ => .bind (.require _) fun _ =>
    .bind (.ensure _) fun _ => .bind (deref_frame _ _) fun _ => .bind (.require _) fun _ =>
    .bind (.require _) fun _ => .bind (.ensure _) fun _ => .bind (.ensure _) fun _ => .pure _

theorem returnLoanToReaderDdsEA_frame (env : Env) (n : ℕ) (updated : Bool) :
    Within ReadFrame (returnLoanToReaderDdsEA env n updated) :=
  .read fun _ => .bind (lookupResource_frame _ _ _) fun _ => .bind (.require _) fun _ =>
    .bind (.ensure _) fun _ => .bind (deref_frame _ _) fun _ => .bind (.require _) fun _ =>
    .bind (.require _) fun _ => .bind (.ensure _) fun _ =>
    .bind (.onlyIf fun _ => onReader_frame _ _) fun _ => .ensure _

theorem processSamplesEA_frame (env : Env) (key : ClientSessionKey) (n now : ℕ)
    (samples : List Sample) (updated : Bool) :
    Within ReadFrame (processSamplesEA env key n now samples updated) := by
  induction samples generalizing updated with
  | nil => exact .pure _
  | cons smp samples ih =>
      refine .ite (fun _ => ?_) fun _ => ih _
      refine .bind (.attempt (processSampleEA_frame _ _ _ _ _)) fun res => ?_
      match res with
      | none => exact .pure _
      | some .old => exact ih _
      | some (.retry delay) => exact .pure _
      | some .delivered => exact ih _

theorem leaveReaderEA_frame (env : Env) (n rd : ℕ) (loan : Bool) (exit : LoopExit)
    (done : Bool) : Within ReadFrame (leaveReaderEA env n rd loan exit done) := by
  refine .bind (updateRead_frame _ _) fun _ => .bind (.attempt ?_) fun _ => ?_
  · exact within_postRetry (fun _ _ => .of_same rfl rfl rfl rfl rfl rfl) _ _ _
  refine .bind (.attempt (.onlyIf fun _ => returnLoanToReaderDdsEA_frame _ _ _)) fun _ => ?_
  exact .bind (.onlyIf fun _ => updateRead_frame _ _) fun _ => .ensure _

theorem readFromReaderEA_frame (env : Env) (key : ClientSessionKey) (n : ℕ) :
    Within ReadFrame (readFromReaderEA env key n) := by
  refine .read fun a => .bind (.require _) fun rd => ?_
  refine .ite (fun _ => leaveReaderEA_frame _ _ _ _ _ _) fun _ => ?_
  refine .ite (fun _ => leaveReaderEA_frame _ _ _ _ _ _) fun _ => ?_
  refine .bind (.attempt (readFromReaderDdsEA_frame _ _)) fun res => ?_
  cases res with
  | none => exact leaveReaderEA_frame _ _ _ _ _ _
  | some samples =>
      refine .bind (processSamplesEA_frame _ _ _ _ _ _) fun exit => .read fun a => ?_
      refine .ite (fun _ => ?_) fun _ => leaveReaderEA_frame _ _ _ _ _ _
      exact .ite (fun _ => leaveReaderEA_frame _ _ _ _ _ _) fun _ =>
        leaveReaderEA_frame _ _ _ _ _ _

theorem onDataOnReader_frame (env : Env) (rd : ℕ) :
    Within ReadFrame (onDataOnReader env rd) := by
  have htrigger : Within ReadFrame (modify fun a : Agent => { a with condCleanupReads := true }) :=
    .modify fun _ => .of_same rfl rfl rfl rfl rfl rfl
  refine .read fun a => .bind (.ensure _) fun _ => ?_
  refine .bind (findAttachedReader_frame _ _) fun n => .bind (.require _) fun req => ?_
  refine .ite (fun _ => htrigger) fun _ => ?_
  refine .bind (.onlyIf fun _ => updateRead_frame _ _) fun _ => ?_
  refine .bind (updateRead_frame _ _) fun _ => .bind (readFromReaderEA_frame _ _ _) fun _ => ?_
  exact .read fun _ => .onlyIf fun _ => htrigger

theorem closeReturn_frame (env : Env) (key : ClientSessionKey) (n rd : ℕ) (rid : ResourceId) :
    Within ReadFrame (closeReturn env key n rd rid) := by
  refine .read fun a => .ite (fun _ => .bind (updateRead_frame _ _) fun _ => ?_) fun _ => .ensure _
  refine .ite (fun _ => .bind (cancelReadEA_frame _ _ _) fun _ => ?_) fun _ => .ensure _
  exact .bind (.ensure _) fun _ => .modify fun _ => .of_same rfl rfl rfl rfl rfl rfl

theorem takeBack_frame (a : Agent) (key : ClientSessionKey) (n rd d : ℕ) :
    ReadFrame a (a.takeBack key n rd d) := by
  refine .updateAttached (.recycle (.updateRead (.rfl' a) _ _) key d) n fun x => ?_
  rfl

theorem returnLoan_frame (env : Env) (src : ℕ) (key : ClientSessionKey) (d : ℕ) :
    Within ReadFrame (returnLoan env src key d) := by
  intro a
  rcases returnLoan_cases env src key d a with ⟨-, h⟩ | ⟨n, rd, -, ⟨-, h⟩ | ⟨-, h⟩⟩
  · rw [h]
    exact .rfl' a
  · rw [h]
    exact takeBack_frame a key n rd d
  · rw [h]
    exact ((takeBack_frame a key n rd d).updateRead rd _).trans'
      (closeReturn_frame env key n rd _ _)

theorem returnLoans_frame (env : Env) (src : ℕ) (key : ClientSessionKey) (c : LoanCallback) :
    Within ReadFrame (returnLoans env src key c) :=
  within_returnLoans fun d _ => returnLoan_frame _ src key d

theorem writeData_frame (env : Env) (key : ClientSessionKey) (id : ℕ) :
    Within ReadFrame (writeData env key id) :=
  .bind (findAttached_frame _ _) fun _ => .bind (.require _) fun _ => .read fun _ =>
    .bind (.ensure _) fun _ => .bind (lookupResource_frame _ _ _) fun _ =>
    .bind (.require _) fun _ => .bind (.ensure _) fun _ => .bind (deref_frame _ _) fun _ =>
    .bind (.ensure _) fun _ => .bind (.ensure _) fun _ => .bind (.ensure _) fun _ =>
    notify_frame _

theorem enableResourceEA_frame (env : Env) (rid : ResourceId) :
    Within ReadFrame (enableResourceEA env rid) :=
  .read fun _ => .bind (.require _) fun _ => .onlyIf fun _ => .bind (access_frame _ _) fun _ =>
    .bind (.require _) fun _ => .ensure _

theorem endReadI_frame (env : Env) (key : ClientSessionKey) (n id : ℕ) :
    Within ReadFrame (endReadI env key n id) :=
  .read fun _ => .onlyIf fun _ => .bind (cancelReadI_frame _ _) fun _ => notify_frame _

theorem endReadEA_frame (env : Env) (key : ClientSessionKey) (n : ℕ) :
    Within ReadFrame (endReadEA env key n) := by
  refine .read fun a => .onlyIf fun _ => .bind (lookupResource_frame _ _ _) fun found => ?_
  cases found with
  | none => exact .pure _
  | some r =>
      refine .ite (fun _ => .ensure _) fun _ => .bind (cancelReadEA_frame _ _ _) fun _ => ?_
      exact .bind (.ensure _) fun _ => notify_frame _

theorem cleanupReadEA_frame (env : Env) (src : ℕ) (key : ClientSessionKey) (n : ℕ) :
    Within ReadFrame (cleanupReadEA env src key n) := by
  refine .read fun a => ?_
  dsimp only
  cases (a.attached n).readReq with
  | none => exact .pure _
  | some rd =>
      refine .onlyIf fun _ => .ite (fun _ => returnLoans_frame _ _ _ _) fun _ => ?_
      refine .bind (lookupResource_frame _ _ _) fun found => ?_
      refine .bind (.require _) fun _ => .bind (cancelReadEA_frame _ _ _) fun _ => ?_
      exact .ensure _

theorem onCleanupReads_frame (env : Env) : Within ReadFrame (onCleanupReads env) := by
  refine .bind (.ensure _) fun _ => .bind (.modify fun _ => ?_) fun _ => .read fun a => ?_
  · exact .of_same rfl rfl rfl rfl rfl rfl
  refine .forEach fun key _ => .bind (.ensure _) fun _ => .read fun a => ?_
  cases a.sessions.lookup key with
  | none => exact .pure _
  | some s => exact .forEach fun n _ => cleanupReadEA_frame env s.intf key n

/-- From `a` to `b` reads may have ended, and nothing else has happened to them. -/
structure EndsReads (a b : Agent) : Prop where
  readReq : ∀ n, (b.attached n).readReq = (a.attached n).readReq ∨ (b.attached n).readReq = none
  readAt : ∀ rd, b.readAt rd = a.readAt rd

instance : IsPreorder Agent EndsReads where
  refl _ := ⟨fun _ => .inl rfl, fun _ => rfl⟩
  trans _ _ _ h h' := by
    refine ⟨fun n => ?_, fun rd => (h'.readAt rd).trans (h.readAt rd)⟩
    rcases h'.readReq n with hn | hn
    · rw [hn]
      exact h.readReq n
    · exact .inr hn

theorem EndsReads.of_same {a b : Agent} (hp : b.poolResources = a.poolResources)
    (hr : b.poolReads.content = a.poolReads.content) : EndsReads a b :=
  ⟨fun n => .inl (by rw [Agent.attached, hp, Agent.attached]), fun rd => congrFun hr rd⟩

theorem cancelReadEA_endsReads (env : Env) (n : ℕ) (rid : ResourceId) :
    Within EndsReads (cancelReadEA env n rid) := by
  refine .read fun a => ?_
  cases (a.attached n).readReq with
  | none => exact .pure _
  | some rd =>
      refine .bind (.ensure _) fun _ => .bind (.require _) fun r => .bind ?_ fun reader => ?_
      · refine .bind (fun a => ?_) fun _ => .require _
        have h := access_nativeFrame rid (!r.nativeDeleted && r.userData.isSome) a
        exact .of_same h.poolResources (by rw [h.poolReads])
      refine .bind (fun a => .of_same rfl rfl) fun _ => .bind (.ensure _) fun _ => ?_
      refine .bind (.ensure _) fun _ => .modify fun a => ⟨fun m => ?_, fun _ => rfl⟩
      unfold Agent.releaseRead
      rw [Agent.attached_updateAttached]
      split
      · exact .inr rfl
      · exact .inl rfl

theorem cancelReadI_endsReads (env : Env) (n : ℕ) : Within EndsReads (cancelReadI env n) :=
  .read fun _ => .bind (lookupResource_frame _ _ _) fun _ => .bind (.require _) fun _ =>
    .bind (.ensure _) fun _ => cancelReadEA_endsReads _ _ _

end AgentM

end NanoAgent
