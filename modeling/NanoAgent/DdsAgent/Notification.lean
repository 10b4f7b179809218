import NanoAgent.DdsAgent.ReadFrame

/-!
# The notifications of an operation

`Notifies P a b` says that from `a` to `b` the interfaces have been sent notifications
that meet `P`, and nothing was taken back. Functions that send none keep it for every
`P`; the others ask of `P` that it covers what they send.
-/

namespace NanoAgent

open Prog

/-- From `a` to `b` only notifications that meet `P` have been sent. -/
def Notifies (P : Callback → Prop) (a b : Agent) : Prop :=
  ∃ sent, b.callbacks = a.callbacks ++ sent ∧ ∀ c ∈ sent, P c

namespace Notifies

variable {P : Callback → Prop}

theorem of_same {a b : Agent} (h : b.callbacks = a.callbacks) : Notifies P a b :=
  ⟨[], by rw [h, List.append_nil], by simp⟩

instance : IsPreorder Agent (Notifies P) where
  refl _ := .of_same rfl
  trans a b c h h' := by
    obtain ⟨sent, hsent, hall⟩ := h
    obtain ⟨sent', hsent', hall'⟩ := h'
    refine ⟨sent ++ sent', by rw [hsent', hsent, List.append_assoc], fun c hc => ?_⟩
    rcases List.mem_append.1 hc with hc | hc
    · exact hall c hc
    · exact hall' c hc

theorem notify (a : Agent) {c : Callback} (hc : P c) : Notifies P a (a.notify c) :=
  ⟨[c], rfl, by simpa using hc⟩

theorem of_native {a b : Agent} (h : NativeFrame a b) : Notifies P a b := .of_same h.callbacks

end Notifies

namespace AgentM

variable {P : Callback → Prop}

theorem notify_notifies {c : Callback} (hc : P c) :
    Within (Notifies P) (modify fun a => a.notify c) :=
  .modify fun a => .notify a hc

theorem silent {f : Agent → Agent} (hf : ∀ a, (f a).callbacks = a.callbacks) :
    Within (Notifies P) (modify f) :=
  .modify fun a => .of_same (hf a)

theorem deref_notifies (id : ResourceId) (r : Resource) : Within (Notifies P) (deref id r) :=
  .bind (fun a => .of_native (access_nativeFrame _ _ a)) fun _ => .require _

theorem onReader_notifies {α : Type} (n : ℕ) (x : Prog Reader α) :
    Within (Notifies P) (onReader n x) :=
  fun _ => .of_same rfl

theorem cancelReadEA_notifies (env : Env) (n : ℕ) (rid : ResourceId) :
    Within (Notifies P) (cancelReadEA env n rid) := by
  refine .read fun a => ?_
  cases (a.attached n).readReq with
  | none => exact .pure _
  | some rd =>
      refine .bind (.ensure _) fun _ => .bind (.require _) fun r => ?_
      refine .bind (deref_notifies _ _) fun reader => .bind (onReader_notifies _ _) fun _ => ?_
      exact .bind (.ensure _) fun _ => .bind (.ensure _) fun _ => silent fun _ => rfl

theorem cancelReadI_notifies (env : Env) (n : ℕ) :
    Within (Notifies P) (cancelReadI env n) :=
  .read fun _ => .bind (lookupResource_frame _ _ _) fun _ => .bind (.require _) fun _ =>
    .bind (.ensure _) fun _ => cancelReadEA_notifies _ _ _

theorem startReadEA_notifies (env : Env) (key : ClientSessionKey) (n : ℕ)
    (spec : ReadSpecification) : Within (Notifies P) (startReadEA env key n spec) := by
  refine .read fun a => .bind (lookupResource_frame _ _ _) fun found => ?_
  refine .bind (.require _) fun r => .bind (.ensure _) fun _ => ?_
  refine .bind (.onlyIf fun _ => cancelReadEA_notifies _ _ _) fun _ => ?_
  refine .read fun a => .bind (.ensure _) fun _ => .bind (silent fun _ => rfl) fun _ => ?_
  refine .bind (.ensure _) fun _ => .bind (silent fun _ => rfl) fun _ => ?_
  refine .bind (.onlyIf fun _ => .ensure _) fun _ => .bind (.ensure _) fun _ => ?_
  refine .bind (silent fun _ => rfl) fun _ => .bind (deref_notifies _ _) fun reader => ?_
  exact .bind (onReader_notifies _ _) fun _ => .ensure _

theorem readEA_notifies (env : Env) (key : ClientSessionKey) (n : ℕ) (spec : ReadSpecification) :
    Within (Notifies P) (readEA env key n spec) := by
  have hexit : Within (Notifies P) (modify fun a : Agent => a.discardRead n) := by
    refine silent fun a => ?_
    unfold Agent.discardRead
    split <;> rfl
  refine .bind (.onFailure (startReadEA_notifies _ _ _ _) hexit) fun _ => ?_
  exact .read fun _ => .ensure _

theorem readData_notifies (env : Env) {key : ClientSessionKey} {id : ℕ} (spec : ReadSpecification)
    (hP : P (.readCreated key id)) : Within (Notifies P) (readData env key id spec) := by
  refine .bind (findAttachedReader_frame _ _) fun n => .bind (readEA_notifies _ _ _ _) fun _ => ?_
  refine .ite (fun _ => notify_notifies hP) fun _ => ?_
  exact .bind (.ignore (cancelReadI_notifies _ _)) fun _ => .fail

theorem cancelRead_notifies (env : Env) {key : ClientSessionKey} {id : ℕ}
    (hP : P (.readComplete key id)) : Within (Notifies P) (cancelRead env key id) :=
  .bind (findAttachedReader_frame _ _) fun _ => .bind (cancelReadI_notifies _ _) fun _ =>
    notify_notifies hP

theorem fillReceivedData_notifies (env : Env) (key : ClientSessionKey) (n d : ℕ) (smp : Sample) :
    Within (Notifies P) (fillReceivedData env key n d smp) := by
  refine .read fun a => .bind (silent fun _ => rfl) fun _ => ?_
  refine .bind (.onlyIf fun _ => .bind (.ensure _) fun _ => silent fun _ => rfl) fun _ => ?_
  refine .bind (.ensure _) fun _ => .bind (silent fun _ => rfl) fun _ => ?_
  exact .bind (.require _) fun _ => silent fun _ => rfl

theorem convertSampleEA_notifies (env : Env) (key : ClientSessionKey) (n : ℕ) (smp : Sample) :
    Within (Notifies P) (convertSampleEA env key n smp) := by
  refine .bind (.read fun a => .bind (.require _) fun s => ?_) fun d => ?_
  · cases s.rcvdDataPool with
    | nil => exact .bind (.ensure _) fun _ => .bind (silent fun _ => rfl) fun _ => .pure _
    | cons d l => exact .bind (silent fun _ => rfl) fun _ => .pure _
  · refine .bind (.onFailure (fillReceivedData_notifies _ _ _ _ _) ?_) fun _ => .pure _
    exact silent fun _ => rfl

/-- The notification of an accepted sample is sent with `on_data_available`. -/
theorem processSampleEA_notifies (env : Env) (key : ClientSessionKey) (n : ℕ) (smp : Sample)
    (now : ℕ) (hP : ∀ rd, P (.dataAccepted rd smp)) :
    Within (Notifies P) (processSampleEA env key n smp now) := by
  refine .read fun a => .bind (.require _) fun rd => ?_
  refine .ite (fun _ => .pure _) fun _ => .ite (fun _ => .pure _) fun _ => ?_
  refine .bind (.ensure _) fun _ => .bind (convertSampleEA_notifies _ _ _ _) fun d => ?_
  cases env.delivery smp with
  | error => exact .bind (silent fun _ => rfl) fun _ => .fail
  | tryAgain => exact .bind (silent fun _ => rfl) fun _ => .pure _
  | accepted retained =>
      refine .bind (.modify fun b => ?_) fun _ => .pure _
      cases retained
      · exact ⟨[.dataAccepted rd smp], rfl, by simpa using hP rd⟩
      · exact ⟨[.dataAccepted rd smp], rfl, by simpa using hP rd⟩

theorem processSamplesEA_notifies (env : Env) (key : ClientSessionKey) (n now : ℕ)
    (samples : List Sample) (updated : Bool) (hP : ∀ rd smp, P (.dataAccepted rd smp)) :
    Within (Notifies P) (processSamplesEA env key n now samples updated) := by
  induction samples generalizing updated with
  | nil => exact .pure _
  | cons smp samples ih =>
      refine .ite (fun _ => ?_) fun _ => ih _
      refine .bind (.attempt (processSampleEA_notifies _ _ _ _ _ fun rd => hP rd smp)) fun res => ?_
      match res with
      | none => exact .pure _
      | some .old => exact ih _
      | some (.retry delay) => exact .pure _
      | some .delivered => exact ih _

theorem readFromReaderDdsEA_notifies (env : Env) (n : ℕ) :
    Within (Notifies P) (readFromReaderDdsEA env n) :=
  .read fun _ => .bind (lookupResource_frame _ _ _) fun _ => .bind (.require _) fun _ =>
    .bind (.ensure _) fun _ => .bind (deref_notifies _ _) fun _ => .bind (.require _) fun _ =>
    .bind (.require _) fun _ => .bind (.ensure _) fun _ => .bind (.ensure _) fun _ => .pure _

theorem leaveReaderEA_notifies (env : Env) (n rd : ℕ) (loan : Bool) (exit : LoopExit)
    (done : Bool) : Within (Notifies P) (leaveReaderEA env n rd loan exit done) := by
  have hreturn : Within (Notifies P) (returnLoanToReaderDdsEA env n exit.updated) :=
    .read fun _ => .bind (lookupResource_frame _ _ _) fun _ => .bind (.require _) fun _ =>
      .bind (.ensure _) fun _ => .bind (deref_notifies _ _) fun _ => .bind (.require _) fun _ =>
      .bind (.require _) fun _ => .bind (.ensure _) fun _ =>
      .bind (.onlyIf fun _ => onReader_notifies _ _) fun _ => .ensure _
  have hretry : Within (Notifies P) (postRetry env rd exit.retry) :=
    within_postRetry (fun _ _ => .of_same rfl) env rd exit.retry
  refine .bind (silent fun _ => rfl) fun _ => .bind (.attempt hretry) fun _ => ?_
  refine .bind (.attempt (.onlyIf fun _ => hreturn)) fun _ => ?_
  exact .bind (.onlyIf fun _ => silent fun _ => rfl) fun _ => .ensure _

theorem readFromReaderEA_notifies (env : Env) (key : ClientSessionKey) (n : ℕ)
    (hP : ∀ rd smp, P (.dataAccepted rd smp)) :
    Within (Notifies P) (readFromReaderEA env key n) := by
  refine .read fun a => .bind (.require _) fun rd => ?_
  refine .ite (fun _ => leaveReaderEA_notifies _ _ _ _ _ _) fun _ => ?_
  refine .ite (fun _ => leaveReaderEA_notifies _ _ _ _ _ _) fun _ => ?_
  refine .bind (.attempt (readFromReaderDdsEA_notifies _ _)) fun res => ?_
  cases res with
  | none => exact leaveReaderEA_notifies _ _ _ _ _ _
  | some samples =>
      refine .bind (processSamplesEA_notifies _ _ _ _ _ _ hP) fun exit => .read fun a => ?_
      refine .ite (fun _ => ?_) fun _ => leaveReaderEA_notifies _ _ _ _ _ _
      exact .ite (fun _ => leaveReaderEA_notifies _ _ _ _ _ _) fun _ =>
        leaveReaderEA_notifies _ _ _ _ _ _

theorem onDataOnReader_notifies (env : Env) (rd : ℕ) (hP : ∀ rd smp, P (.dataAccepted rd smp)) :
    Within (Notifies P) (onDataOnReader env rd) := by
  refine .read fun a => .bind (.ensure _) fun _ => ?_
  refine .bind (findAttachedReader_frame _ _) fun n => .bind (.require _) fun req => ?_
  refine .ite (fun _ => silent fun _ => rfl) fun _ => ?_
  refine .bind (.onlyIf fun _ => silent fun _ => rfl) fun _ =>
    .bind (silent fun _ => rfl) fun _ => ?_
  refine .bind (readFromReaderEA_notifies _ _ _ hP) fun _ => ?_
  exact .read fun _ => .onlyIf fun _ => silent fun _ => rfl

theorem closeReturn_notifies (env : Env) {key : ClientSessionKey} (n rd : ℕ) (rid : ResourceId)
    (hP : ∀ id, P (.readComplete key id)) :
    Within (Notifies P) (closeReturn env key n rd rid) := by
  refine .read fun a => .ite (fun _ => ?_) fun _ => .ensure _
  refine .bind (silent fun _ => rfl) fun _ => .ite (fun _ => ?_) fun _ => .ensure _
  refine .bind (cancelReadEA_notifies _ _ _) fun _ => .bind (.ensure _) fun _ => ?_
  exact .modify fun a => .notify a (hP _)

theorem returnLoan_notifies (env : Env) (src : ℕ) {key : ClientSessionKey} (d : ℕ)
    (hP : ∀ id, P (.readComplete key id)) : Within (Notifies P) (returnLoan env src key d) := by
  intro a
  rcases returnLoan_cases env src key d a with ⟨-, h⟩ | ⟨n, rd, -, ⟨-, h⟩ | ⟨-, h⟩⟩
  · rw [h]
    exact refl a
  · rw [h]
    exact .of_same rfl
  · rw [h]
    have hcount : Notifies P a (a.countReturn key n rd d) := .of_same rfl
    exact IsTrans.trans _ _ _ hcount (closeReturn_notifies env n rd _ hP _)

theorem writeData_notifies (env : Env) {key : ClientSessionKey} {id : ℕ}
    (hP : P (.dataWritten key id)) : Within (Notifies P) (writeData env key id) :=
  .bind (findAttached_frame _ _) fun _ => .bind (.require _) fun _ => .read fun _ =>
    .bind (.ensure _) fun _ => .bind (lookupResource_frame _ _ _) fun _ =>
    .bind (.require _) fun _ => .bind (.ensure _) fun _ => .bind (deref_notifies _ _) fun _ =>
    .bind (.ensure _) fun _ => .bind (.ensure _) fun _ => .bind (.ensure _) fun _ =>
    notify_notifies hP

theorem endReadI_notifies (env : Env) {key : ClientSessionKey} (n : ℕ) {id : ℕ}
    (hP : P (.readComplete key id)) : Within (Notifies P) (endReadI env key n id) :=
  .read fun _ => .onlyIf fun _ => .bind (cancelReadI_notifies _ _) fun _ => notify_notifies hP

theorem endReadEA_notifies (env : Env) {key : ClientSessionKey} (n : ℕ)
    (hP : ∀ id, P (.readComplete key id)) : Within (Notifies P) (endReadEA env key n) := by
  refine .read fun a => .onlyIf fun _ => .bind (lookupResource_frame _ _ _) fun found => ?_
  cases found with
  | none => exact .pure _
  | some r =>
      refine .ite (fun _ => .ensure _) fun _ => .bind (cancelReadEA_notifies _ _ _) fun _ => ?_
      exact .bind (.ensure _) fun _ => notify_notifies (hP _)

theorem returnLoans_notifies (env : Env) (src : ℕ) {key : ClientSessionKey} (c : LoanCallback)
    (hP : ∀ id, P (.readComplete key id)) : Within (Notifies P) (returnLoans env src key c) :=
  within_returnLoans fun d _ => returnLoan_notifies _ src d hP

theorem cleanupReadEA_notifies (env : Env) (src : ℕ) {key : ClientSessionKey} (n : ℕ)
    (hP : ∀ id, P (.readComplete key id)) : Within (Notifies P) (cleanupReadEA env src key n) := by
  refine .read fun a => ?_
  dsimp only
  cases (a.attached n).readReq with
  | none => exact .pure _
  | some rd =>
      refine .onlyIf fun _ => .ite (fun _ => returnLoans_notifies env src _ hP) fun _ => ?_
      refine .bind (lookupResource_frame _ _ _) fun found => .bind (.require _) fun r => ?_
      exact .bind (cancelReadEA_notifies _ _ _) fun _ => .ensure _

theorem onCleanupReads_notifies (env : Env) (hP : ∀ key id, P (.readComplete key id)) :
    Within (Notifies P) (onCleanupReads env) := by
  refine .bind (.ensure _) fun _ => .bind (silent fun _ => rfl) fun _ => .read fun a => ?_
  refine .forEach fun key _ => .bind (.ensure _) fun _ => .read fun a => ?_
  cases a.sessions.lookup key with
  | none => exact .pure _
  | some s => exact .forEach fun n _ => cleanupReadEA_notifies env s.intf n (hP key)

theorem enableResourceEA_notifies (env : Env) (rid : ResourceId) :
    Within (Notifies P) (enableResourceEA env rid) := by
  refine .read fun _ => .bind (.require _) fun r => .onlyIf fun _ => ?_
  refine .bind (fun b => .of_native (access_nativeFrame _ _ b)) fun _ => ?_
  exact .bind (.require _) fun _ => .ensure _

theorem reuseAttachedEA_notifies (env : Env) (n : ℕ) (q : CreateRequest) :
    Within (Notifies P) (reuseAttachedEA env n q) :=
  .read fun _ => .bind (lookupResource_frame _ _ _) fun _ => .bind (.require _) fun _ =>
    .bind (.ensure _) fun _ => .bind (.require _) fun _ => .bind (.ensure _) fun _ =>
    .bind (.ensure _) fun _ => .bind (.onlyIf fun _ => cancelReadEA_notifies _ _ _) fun _ =>
    .pure _

theorem finishCreateEA_notifies (env : Env) {key : ClientSessionKey} (n : ℕ) (rid : ResourceId)
    (cancelled : Bool) (hP : ∀ id, P (.readComplete key id)) :
    Within (Notifies P) (finishCreateEA env key n rid cancelled) :=
  .bind (enableResourceEA_notifies _ _) fun _ => .bind (.ensure _) fun _ =>
    .bind (.ensure _) fun _ => .onlyIf fun _ => .modify fun a => .notify a (hP _)

theorem countOutEA_notifies (env : Env) {key : ClientSessionKey} (n : ℕ) (del : Bool)
    (hP : ∀ id, P (.readComplete key id)) : Within (Notifies P) (countOutEA env key n del) := by
  refine .read fun a => .bind (.ensure _) fun _ => .bind (lookupResource_frame _ _ _) fun _ => ?_
  refine .bind (.require _) fun r => .bind (.ensure _) fun _ => ?_
  refine .bind (.onlyIf fun _ => cancelReadEA_notifies _ _ _) fun _ => ?_
  refine .bind (silent fun _ => rfl) fun _ => .bind (.ensure _) fun _ => ?_
  exact .bind (.onlyIf fun _ => notify_notifies (hP _)) fun _ => .pure _

theorem detachResourceEA_notifies (env : Env) {key : ClientSessionKey} (n : ℕ)
    (del copyOut : Bool) (hP : ∀ id, P (.readComplete key id)) :
    Within (Notifies P) (detachResourceEA env key n del copyOut) := by
  refine .read fun a => .bind (countOutEA_notifies env n del hP) fun delete => ?_
  refine .bind (.onlyIf fun _ => ?_) fun _ => .bind (.onlyIf fun _ => .ensure _) fun _ => ?_
  · refine .bind (fun b => .of_native (deleteNativeResourceEA_frame env _ b)) fun _ => ?_
    exact .bind (.ensure _) fun _ => silent fun _ => rfl
  · exact .bind (silent fun _ => rfl) fun _ => .ensure _

end AgentM

end NanoAgent
