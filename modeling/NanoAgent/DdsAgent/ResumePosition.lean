import NanoAgent.DdsAgent.Operation
import NanoAgent.DdsAgent.ReadLifecycleRun
import NanoAgent.Foundations.Run

/-!
# The position at which a read resumes

An attached data reader remembers the last sample forwarded to its client and the last
one returned by it, so that a later read can start after them. `Deliveries` follows the
deliveries and the returned loans of an agent: `carried` is the sequence number of the
sample in each received-data record, and `returned` lists for each attached resource
the samples that were delivered without being retained or whose loan was returned.

The record of a retained sample never learns the sequence number of the sample, so a
returned loan moves the position up to the number that the record happens to hold
(`returnLoan_returnsUpTo`), and a sample that is not retained sets it even when it is older.
`KeepsPosition` is the condition under which neither matters.
-/

namespace NanoAgent

open Prog

/-- The greatest of the given sequence numbers, or zero. -/
def greatest (l : List ℕ) : ℕ := l.foldl max 0

@[simp] theorem greatest_nil : greatest [] = 0 := rfl

@[simp] theorem greatest_append_singleton (l : List ℕ) (sn : ℕ) :
    greatest (l ++ [sn]) = max (greatest l) sn := by
  simp [greatest]

/-- The positions of the attached resources stay. -/
structure SamePositions (a b : Agent) : Prop where
  startPoint : b.readStartPoint = a.readStartPoint
  returned : ∀ n, (b.attached n).lastSampleReturned = (a.attached n).lastSampleReturned
  forwarded : ∀ n, (b.attached n).lastSampleForwarded = (a.attached n).lastSampleForwarded

instance : IsPreorder Agent SamePositions where
  refl _ := ⟨rfl, fun _ => rfl, fun _ => rfl⟩
  trans _ _ _ h h' := ⟨h'.startPoint.trans h.startPoint,
    fun n => (h'.returned n).trans (h.returned n), fun n => (h'.forwarded n).trans (h.forwarded n)⟩

namespace SamePositions

variable {a b : Agent}

theorem of_same (hstart : b.readStartPoint = a.readStartPoint)
    (hresources : b.poolResources = a.poolResources) : SamePositions a b where
  startPoint := hstart
  returned n := by rw [Agent.attached, hresources, Agent.attached]
  forwarded n := by rw [Agent.attached, hresources, Agent.attached]

/-- A change of the read of an attached resource, next to one of the pool of reads. -/
theorem setRead (a : Agent) (p : BufferPool Read) (n : ℕ) (u : Option ℕ) :
    SamePositions a
      (({ a with poolReads := p }).updateAttached n fun x => { x with readReq := u }) where
  startPoint := rfl
  returned m := by
    rw [Agent.attached_updateAttached]
    split <;> rfl
  forwarded m := by
    rw [Agent.attached_updateAttached]
    split <;> rfl

end SamePositions

namespace AgentM

variable (env : Env)

theorem cancelReadEA_samePositions (n : ℕ) (rid : ResourceId) :
    Within SamePositions (cancelReadEA env n rid) := by
  refine .read fun a => ?_
  cases (a.attached n).readReq with
  | none => exact .pure _
  | some rd =>
      refine .bind (.ensure _) fun _ => .bind (.require _) fun r => .bind ?_ fun reader => ?_
      · refine .bind (.modify fun b => ?_) fun _ => .require _
        exact .of_same (by split <;> rfl) (by split <;> rfl)
      · refine .bind (fun b => .of_same rfl rfl) fun _ => .bind (.ensure _) fun _ =>
          .bind (.ensure _) fun _ => .modify fun b => ?_
        exact .setRead b _ n none

theorem cancelReadI_samePositions (n : ℕ) : Within SamePositions (cancelReadI env n) := by
  refine .read fun a => .bind ?_ fun found => ?_
  · exact .bind (.ensure _) fun _ => .read fun _ => .pure _
  · exact .bind (.require _) fun r => .bind (.ensure _) fun _ => cancelReadEA_samePositions env n _

theorem registerReadEA_samePositions (key : ClientSessionKey) (n : ℕ) (rid : ResourceId)
    (r : Resource) (spec : ReadSpecification) :
    Within SamePositions (registerReadEA env key n rid r spec) := by
  refine .read fun a => .bind (.ensure _) fun _ => .bind (.modify fun b => ?_) fun _ => ?_
  · exact .setRead b _ n _
  refine .bind (.ensure _) fun _ => .bind (.modify fun b => .of_same rfl rfl) fun _ => ?_
  refine .bind (.onlyIf fun _ => .ensure _) fun _ => .bind (.ensure _) fun _ => ?_
  refine .bind (.modify fun b => .of_same rfl rfl) fun _ => .bind ?_ fun reader => ?_
  · refine .bind (.modify fun b => ?_) fun _ => .require _
    exact .of_same (by split <;> rfl) (by split <;> rfl)
  · exact .bind (fun b => .of_same rfl rfl) fun _ => .ensure _

theorem readEA_samePositions (key : ClientSessionKey) (n : ℕ) (spec : ReadSpecification) :
    Within SamePositions (readEA env key n spec) := by
  refine .bind (.onFailure (.read fun a => ?_) (.modify fun b => ?_)) fun _ =>
    .read fun _ => .ensure _
  · refine .bind ?_ fun found => .bind (.require _) fun r => .bind (.ensure _) fun _ => ?_
    · exact .bind (.ensure _) fun _ => .read fun _ => .pure _
    · exact .bind (.onlyIf fun _ => cancelReadEA_samePositions env n _) fun _ =>
        registerReadEA_samePositions env key n _ r spec
  · unfold Agent.discardRead
    split
    · exact .of_same rfl rfl
    · exact .of_same rfl rfl

theorem convertSampleEA_samePositions (key : ClientSessionKey) (n : ℕ) (smp : Sample) :
    Within SamePositions (convertSampleEA env key n smp) := by
  refine .bind (.read fun a => .bind (.require _) fun s => ?_) fun d => .bind ?_ fun _ => .pure _
  · cases s.rcvdDataPool with
    | nil =>
        refine .bind (.ensure _) fun _ => .bind (.modify fun b => ?_) fun _ => .pure _
        exact .of_same rfl rfl
    | cons d l =>
        exact .bind (.modify fun b => .of_same rfl rfl) fun _ => .pure _
  · have hfill : ∀ f : Agent → BufferPool ReceivedData, Within SamePositions
        (modify fun b => { b with poolSamples := f b }) := fun f =>
      .modify fun b => .of_same rfl rfl
    refine .onFailure (.read fun a => .bind (hfill _) fun _ => ?_)
      (.modify fun b => .of_same rfl rfl)
    refine .bind (.onlyIf fun _ => .bind (.ensure _) fun _ => hfill _) fun _ => ?_
    exact .bind (.ensure _) fun _ => .bind (hfill _) fun _ => .bind (.require _) fun enc => hfill _

/-- The exits of offering a sample: it is delivered, and the read and its attached resource
move to it, or the positions stay. -/
inductive OfferExit (env : Env) (a : Agent) (n : ℕ) (smp : Sample) (now : ℕ) :
    Option Processed → Agent → Prop
  | delivered {b c : Agent} {rd d : ℕ} {retained : Bool} :
      env.delivery smp = .accepted retained → SamePositions a b →
      c = b.acceptSample n rd d smp retained now →
      OfferExit env a n smp now (some .delivered) c
  | kept {res : Option Processed} {b : Agent} : res ≠ some .delivered → SamePositions a b →
      OfferExit env a n smp now res b

theorem processSampleEA_exits (key : ClientSessionKey) (n : ℕ) (smp : Sample) (now : ℕ)
    (a : Agent) :
    OfferExit env a n smp now (processSampleEA env key n smp now a).1
      (processSampleEA env key n smp now a).2 := by
  have hstay : OfferExit env a n smp now none a := .kept (by simp) (refl a)
  unfold processSampleEA
  rw [read_bind_apply]
  refine exits_require hstay fun rd hrd => ?_
  by_cases hold : smp.sn ≤ (a.readAt rd).lastSample
  · rw [if_pos hold]
    exact .kept (by simp) (refl a)
  rw [if_neg hold]
  split
  · exact .kept (by simp) (refl a)
  refine exits_ensure hstay fun _ => exits_bind (fun _ => ?_) fun d _ => ?_
  · exact .kept (by simp) (convertSampleEA_samePositions env key n smp a)
  have hconv := convertSampleEA_samePositions env key n smp a
  generalize (convertSampleEA env key n smp a).2 = b at hconv
  have hrecycle : SamePositions a (b.recycle key d) :=
    IsTrans.trans _ _ _ hconv (.of_same rfl rfl)
  cases hdel : env.delivery smp with
  | error => exact .kept (by simp) hrecycle
  | tryAgain => exact .kept (by simp) hrecycle
  | accepted retained => exact .delivered hdel hconv rfl

/-- A read passes over the samples up to its position, and over no other. -/
theorem processSampleEA_old_iff (key : ClientSessionKey) {n rd : ℕ} (smp : Sample) (now : ℕ)
    {a : Agent} (hrd : (a.attached n).readReq = some rd) :
    (processSampleEA env key n smp now a).1 = some .old ↔
      smp.sn ≤ (a.readAt rd).lastSample := by
  let K := fun (res : Option Processed) (_ : Agent) =>
    res = some .old ↔ smp.sn ≤ (a.readAt rd).lastSample
  change K (processSampleEA env key n smp now a).1 (processSampleEA env key n smp now a).2
  unfold processSampleEA
  rw [read_bind_apply, bind_apply, require_apply, hrd]
  by_cases hold : smp.sn ≤ (a.readAt rd).lastSample
  · simp [K, hold]
  have hother : ∀ {res : Option Processed}, res ≠ some .old →
      (res = some .old ↔ smp.sn ≤ (a.readAt rd).lastSample) := by
    intro res hres
    simp [hold, hres]
  simp only [if_neg hold]
  split
  · exact hother (by simp)
  · refine exits_ensure (hother (by simp)) fun _ =>
      exits_bind (fun _ => hother (by simp)) fun d _ => ?_
    cases env.delivery smp with
    | error => exact hother (by simp)
    | tryAgain => exact hother (by simp)
    | accepted retained => exact hother (by simp)

theorem closeReturn_samePositions (key : ClientSessionKey) (n rd : ℕ) (rid : ResourceId) :
    Within SamePositions (closeReturn env key n rd rid) := by
  refine .read fun a => .ite (fun _ => .bind (.modify fun b => .of_same rfl rfl) fun _ => ?_)
    fun _ => .ensure _
  refine .ite (fun _ => .bind (cancelReadEA_samePositions env n _) fun _ => ?_) fun _ => .ensure _
  exact .bind (.ensure _) fun _ => .modify fun b => .of_same rfl rfl

end AgentM

/-- From `a` to `b` the position of the last sample returned by the attached resource `n` is
moved up to `sn`, and no other position is. -/
structure ReturnsUpTo (n sn : ℕ) (a b : Agent) : Prop where
  self : (b.attached n).lastSampleReturned = max (a.attached n).lastSampleReturned sn
  others : ∀ m, m ≠ n → (b.attached m).lastSampleReturned = (a.attached m).lastSampleReturned
  forwarded : ∀ m, (b.attached m).lastSampleForwarded = (a.attached m).lastSampleForwarded

theorem ReturnsUpTo.then {n sn : ℕ} {a b c : Agent} (h : ReturnsUpTo n sn a b)
    (h' : SamePositions b c) : ReturnsUpTo n sn a c where
  self := (h'.returned n).trans h.self
  others m hm := (h'.returned m).trans (h.others m hm)
  forwarded m := (h'.forwarded m).trans (h.forwarded m)

theorem ReturnsUpTo.takeBack (a : Agent) (key : ClientSessionKey) (n rd d : ℕ) :
    ReturnsUpTo n (a.poolSamples.content d).ddsSn a (a.takeBack key n rd d) where
  self := congrArg AttachedResource.lastSampleReturned
    ((Agent.attached_updateAttached _ _ _).trans (if_pos rfl))
  others m hm := congrArg AttachedResource.lastSampleReturned
    ((Agent.attached_updateAttached _ _ _).trans (if_neg hm))
  forwarded m := by
    unfold Agent.takeBack
    rw [Agent.attached_updateAttached]
    split <;> rfl

namespace AgentM

variable (env : Env)

/-- A loan that is returned moves the position up to the number in its record, also when the
call fails after that. -/
theorem returnLoan_returnsUpTo {src : ℕ} {key : ClientSessionKey} {d n rd : ℕ} {a : Agent}
    (hlent : Lent a src key d n rd) :
    ReturnsUpTo n (a.poolSamples.content d).ddsSn a (returnLoan env src key d a).2 := by
  have hback := ReturnsUpTo.takeBack a key n rd d
  rw [returnLoan_lent hlent]
  split
  · have hcount : SamePositions (a.takeBack key n rd d) (a.countReturn key n rd d) :=
      .of_same rfl rfl
    exact (hback.then hcount).then (closeReturn_samePositions env key n rd _ _)
  · exact hback

/-- The read `rd` of the attached resource `n` starts after the sample `sn`. -/
def StartsAfter (n rd sn : ℕ) (a : Agent) : Prop :=
  (a.attached n).readReq = some rd ∧ (a.readAt rd).lastSample = sn

/-- The state in which the new read is taken from the pool and set up. -/
def setUpRead (key : ClientSessionKey) (n : ℕ) (spec : ReadSpecification) (a : Agent) : Agent :=
  ((a.takeRead key n).updateRead a.poolReads.next fun x =>
    { x with lastSample := (a.takeRead key n).startPosition n
             samplePace := readPeriod spec.minPacePeriod
             maxElapsedTs := readPeriod spec.maxElapsedTime }).updateRead a.poolReads.next fun x =>
    { x with contentFilterExpr := spec.contentFilterExpr
             samplesMax := spec.maxSamples
             startTs := env.clock 0 }

/-- A read that is registered is as it was set up. -/
theorem registerReadEA_succeeds {P : Agent → Prop} {key : ClientSessionKey} {n : ℕ}
    {rid : ResourceId} {r : Resource} {spec : ReadSpecification} {a : Agent}
    (hP : ∀ b c, NativeFrame b c → P b → P c) (hset : P (setUpRead env key n spec a))
    (h : (registerReadEA env key n rid r spec a).1 = some ()) :
    P (registerReadEA env key n rid r spec a).2 := by
  let K := fun (res : Option Unit) b => res = some () → P b
  have hstop : ∀ b, K none b := by
    intro b hb
    cases hb
  suffices hK : K (registerReadEA env key n rid r spec a).1
      (registerReadEA env key n rid r spec a).2 from hK h
  unfold registerReadEA
  simp only [onlyIf_ensure]
  rw [read_bind_apply]
  refine exits_ensure (hstop _) fun _ => ?_
  rw [modify_bind_apply]
  refine exits_ensure (hstop _) fun _ => ?_
  rw [modify_bind_apply]
  refine exits_ensure (hstop _) fun _ => exits_ensure (hstop _) fun _ => ?_
  rw [modify_bind_apply]
  have hrest : Within NativeFrame (deref rid r >>= fun reader =>
      onReader reader (Reader.newRequest env a.poolReads.next spec.contentFilterExpr) >>= fun _ =>
        ensure (env.ok (.postEvent .read n))) :=
    .bind (.bind (access_nativeFrame _ _) fun _ => .require _) fun reader =>
      .bind (onReader_nativeFrame _ _) fun _ => .ensure _
  exact fun _ => hP _ _ (hrest _) hset

/-- A read is started by a registration, after another read was cancelled. -/
theorem readEA_succeeds {P : Agent → Prop} {key : ClientSessionKey} {n : ℕ}
    {spec : ReadSpecification} {a : Agent}
    (hreg : ∀ b rid r, SamePositions a b → (registerReadEA env key n rid r spec b).1 = some () →
      P (registerReadEA env key n rid r spec b).2)
    (h : (readEA env key n spec a).1 = some ()) : P (readEA env key n spec a).2 := by
  let K := fun (res : Option Unit) b => res = some () → P b
  have hstop : ∀ b, K none b := by
    intro b hb
    cases hb
  suffices hK : K (readEA env key n spec a).1 (readEA env key n spec a).2 from hK h
  unfold readEA
  refine exits_bind (fun _ => hstop _) fun _ hok => ?_
  have hbody : K (startReadEA env key n spec a).1 (startReadEA env key n spec a).2 := by
    unfold startReadEA
    rw [read_bind_apply]
    refine exits_lookupResource (hstop a) fun _ => exits_require (hstop a) fun r _ => ?_
    refine exits_ensure (hstop a) fun _ => exits_bind (fun _ => hstop _) fun _ _ hres => ?_
    have hsame : SamePositions a (onlyIf (a.attached n).readReq.isSome
        (cancelReadEA env n (a.attached n).resource) a).2 :=
      Within.onlyIf (fun _ => cancelReadEA_samePositions env n _) a
    exact hreg _ _ r hsame hres
  have hres := onFailure_eq_some.1 (eq_of_fst_eq_some hok)
  rw [hres] at hbody
  rw [read_bind_apply]
  cases env.ok (.releaseResource .read _) with
  | false => exact hstop _
  | true => exact fun _ => hbody rfl

/-- A read that is registered starts after the last returned sample. -/
theorem registerReadEA_starts (key : ClientSessionKey) (n : ℕ) (rid : ResourceId) (r : Resource)
    (spec : ReadSpecification) {a : Agent} (hstart : a.readStartPoint = .lastReturned)
    (h : (registerReadEA env key n rid r spec a).1 = some ()) :
    StartsAfter n a.poolReads.next (a.attached n).lastSampleReturned
      (registerReadEA env key n rid r spec a).2 := by
  refine registerReadEA_succeeds env (fun b c hframe hb => ?_) ⟨?_, ?_⟩ h
  · rw [StartsAfter, Agent.attached, Agent.readAt, hframe.poolResources, hframe.poolReads]
    exact hb
  · simp [setUpRead, Agent.attached, Agent.updateRead, Agent.takeRead, Agent.updateAttached]
  · simp [setUpRead, Agent.readAt, Agent.updateRead, Agent.takeRead, Agent.updateAttached,
      Agent.startPosition, Agent.attached, hstart]

/-- A new read starts after the last returned sample. -/
theorem readEA_starts (key : ClientSessionKey) (n : ℕ) (spec : ReadSpecification) {a : Agent}
    (hstart : a.readStartPoint = .lastReturned) (h : (readEA env key n spec a).1 = some ()) :
    ∃ rd, StartsAfter n rd (a.attached n).lastSampleReturned (readEA env key n spec a).2 := by
  refine readEA_succeeds (P := fun b => ∃ rd, StartsAfter n rd (a.attached n).lastSampleReturned b)
    env (fun b rid r hsame hreg => ?_) h
  rw [← hsame.returned]
  exact ⟨_, registerReadEA_starts env key n rid r spec (hsame.startPoint.trans hstart) hreg⟩

end AgentM

/-- The agent together with the history of its deliveries. -/
structure Deliveries where
  agent : Agent
  carried : ℕ → ℕ
  returned : ℕ → List ℕ

/-- What happens to the samples of the attached data readers. -/
inductive DeliveryEvent
  | process (env : Env) (key : ClientSessionKey) (n : ℕ) (smp : Sample) (now : ℕ)
  | returnLoan (env : Env) (src : ℕ) (key : ClientSessionKey) (d : ℕ)
  | read (env : Env) (key : ClientSessionKey) (n : ℕ) (spec : ReadSpecification)
  | cancelRead (env : Env) (n : ℕ)

namespace Deliveries

/-- The sample `sn` of the attached resource `n` is returned. -/
def addReturned (h : Deliveries) (n sn : ℕ) : Deliveries :=
  { h with returned := Function.update h.returned n (h.returned n ++ [sn]) }

/-- The attached resource whose read holds the record `d`, which the interface `src` can
return. -/
def lender (a : Agent) (src : ℕ) (key : ClientSessionKey) (d : ℕ) : Option ℕ := do
  let s ← a.sessions.lookup key
  let n ← a.findAttachedResource s (a.poolSamples.content d).readerId
  let rd ← (a.attached n).readReq
  if (a.poolSamples.content d).sessionKey = key ∧ s.intf = src ∧
      (a.attached n).kind = .dataReader ∧ d ∈ (a.readAt rd).samples then some n
  else none

theorem lender_eq_some {a : Agent} {src : ℕ} {key : ClientSessionKey} {d n : ℕ} :
    lender a src key d = some n ↔ ∃ rd, Lent a src key d n rd := by
  unfold lender
  constructor
  · intro h
    obtain ⟨s, hs, h⟩ := Option.bind_eq_some_iff.1 h
    obtain ⟨m, hm, h⟩ := Option.bind_eq_some_iff.1 h
    obtain ⟨rd, hrd, h⟩ := Option.bind_eq_some_iff.1 h
    split at h
    · rename_i hlent
      obtain rfl := Option.some.inj h
      exact ⟨rd, hlent.1, ⟨s, hs, hlent.2.1, hm⟩, hlent.2.2.1, hrd, hlent.2.2.2⟩
    · cases h
  · rintro ⟨rd, h⟩
    obtain ⟨s, hs, hsrc, hn⟩ := h.session
    simp [hs, hn, h.readReq, h.sessionKey, hsrc, h.kind, h.held]

def step (h : Deliveries) : DeliveryEvent → Deliveries
  | .process env key n smp now =>
      let res := AgentM.processSampleEA env key n smp now h.agent
      let h' := { h with agent := res.2 }
      if res.1 = some .delivered then
        if env.delivery smp = .accepted true then
          match (AgentM.convertSampleEA env key n smp h.agent).1 with
          | some d => { h' with carried := Function.update h.carried d smp.sn }
          | none => h'
        else h'.addReturned n smp.sn
      else h'
  | .returnLoan env src key d =>
      let h' := { h with agent := (AgentM.returnLoan env src key d h.agent).2 }
      match lender h.agent src key d with
      | some n => h'.addReturned n (h.carried d)
      | none => h'
  | .read env key n spec => { h with agent := (AgentM.readEA env key n spec h.agent).2 }
  | .cancelRead env n => { h with agent := (AgentM.cancelReadI env n h.agent).2 }

/-- A history begins with attached resources from which nothing was forwarded. -/
structure Initial (h : Deliveries) : Prop where
  forwarded : ∀ n, (h.agent.attached n).lastSampleForwarded = 0
  positions : ∀ n, (h.agent.attached n).lastSampleReturned = 0
  returned : ∀ n, h.returned n = []

/-- The position of every attached resource is that of the last sample returned, and no
sample beyond the last one forwarded was returned. -/
structure Positioned (h : Deliveries) : Prop where
  returned : ∀ n, (h.agent.attached n).lastSampleReturned = greatest (h.returned n)
  forwarded : ∀ n,
    (h.agent.attached n).lastSampleReturned ≤ (h.agent.attached n).lastSampleForwarded

/-- The condition under which an event keeps the positions: no sample before the last
returned one is delivered, and the number in the record of a loan that is returned moves the
position where the sample itself would, which is not beyond the last sample forwarded. -/
def KeepsPosition (h : Deliveries) : DeliveryEvent → Prop
  | .process env key n smp now =>
      (AgentM.processSampleEA env key n smp now h.agent).1 = some .delivered →
        (h.agent.attached n).lastSampleReturned ≤ smp.sn
  | .returnLoan _ src key d => ∀ n, lender h.agent src key d = some n →
      max (h.agent.attached n).lastSampleReturned (h.agent.poolSamples.content d).ddsSn =
          max (h.agent.attached n).lastSampleReturned (h.carried d) ∧
        max (h.agent.attached n).lastSampleReturned (h.carried d) ≤
          (h.agent.attached n).lastSampleForwarded
  | _ => True

variable {h : Deliveries}

theorem acceptSample_attached (b : Agent) (n rd d : ℕ) (smp : Sample) (retained : Bool)
    (now m : ℕ) :
    (b.acceptSample n rd d smp retained now).attached m =
      if m = n then
        { b.attached m with
          lastSampleForwarded := smp.sn
          lastSampleReturned := if retained then (b.attached m).lastSampleReturned else smp.sn }
      else b.attached m := by
  unfold Agent.acceptSample
  cases retained with
  | false =>
      by_cases hm : m = n <;>
        simp [Agent.attached, Agent.notify, Agent.updateAttached, Agent.updateRead,
          BufferPool.content_update, hm]
  | true =>
      by_cases hm : m = n <;>
        simp [Agent.attached, Agent.notify, Agent.updateAttached, Agent.updateRead,
          BufferPool.content_update, hm]

/-- A loan was returned to the attached resource `n`, whose position it moved up to the number
in its record. -/
theorem Positioned.return_iff (hp : h.Positioned) {b : Agent} {n stale : ℕ}
    (hb : ReturnsUpTo n stale h.agent b) (sn : ℕ) :
    ({ h with agent := b }.addReturned n sn).Positioned ↔
      max (h.agent.attached n).lastSampleReturned stale =
          max (h.agent.attached n).lastSampleReturned sn ∧
        max (h.agent.attached n).lastSampleReturned sn ≤
          (h.agent.attached n).lastSampleForwarded := by
  have hlist : greatest ((({ h with agent := b } : Deliveries).addReturned n sn).returned n) =
      max (h.agent.attached n).lastSampleReturned sn := by
    simp only [addReturned, Function.update_self, greatest_append_singleton, ← hp.returned n]
  constructor
  · intro hpos
    have heq : max (h.agent.attached n).lastSampleReturned stale =
        max (h.agent.attached n).lastSampleReturned sn :=
      hb.self.symm.trans ((hpos.returned n).trans hlist)
    have hle : (b.attached n).lastSampleReturned ≤ (b.attached n).lastSampleForwarded :=
      hpos.forwarded n
    rw [hb.self, hb.forwarded, heq] at hle
    exact ⟨heq, hle⟩
  · rintro ⟨heq, hle⟩
    constructor
    · intro m
      change (b.attached m).lastSampleReturned = _
      by_cases hm : m = n
      · subst hm
        rw [hb.self, hlist, heq]
      · rw [hb.others m hm]
        simp only [addReturned, Function.update_of_ne hm, hp.returned m]
    · intro m
      change (b.attached m).lastSampleReturned ≤ (b.attached m).lastSampleForwarded
      rw [hb.forwarded]
      by_cases hm : m = n
      · subst hm
        rw [hb.self, heq]
        exact hle
      · rw [hb.others m hm]
        exact hp.forwarded m

/-- A sample was delivered to the attached resource `n`. -/
theorem Positioned.deliver_iff (hp : h.Positioned) {b : Agent} {n : ℕ} {smp : Sample}
    {retained : Bool} {returned : ℕ → List ℕ} {carried : ℕ → ℕ}
    (hself : (b.attached n).lastSampleForwarded = smp.sn ∧ (b.attached n).lastSampleReturned =
      if retained then (h.agent.attached n).lastSampleReturned else smp.sn)
    (hother : ∀ m, m ≠ n →
      (b.attached m).lastSampleReturned = (h.agent.attached m).lastSampleReturned ∧
      (b.attached m).lastSampleForwarded = (h.agent.attached m).lastSampleForwarded)
    (hreturned : returned = if retained then h.returned
      else Function.update h.returned n (h.returned n ++ [smp.sn])) :
    (Deliveries.mk b carried returned).Positioned ↔
      (h.agent.attached n).lastSampleReturned ≤ smp.sn := by
  subst hreturned
  cases retained with
  | true =>
      simp only [if_true] at hself ⊢
      constructor
      · intro hpos
        have hn := hpos.forwarded n
        simp only [hself.1, hself.2] at hn
        exact hn
      · intro hle
        constructor
        · intro m
          by_cases hm : m = n
          · subst hm
            exact hself.2.trans (hp.returned m)
          · exact (hother m hm).1.trans (hp.returned m)
        · intro m
          by_cases hm : m = n
          · subst hm
            simpa only [hself.1, hself.2] using hle
          · simpa only [(hother m hm).1, (hother m hm).2] using hp.forwarded m
  | false =>
      simp only [Bool.false_eq_true, if_false] at hself ⊢
      constructor
      · intro hpos
        have hn := hpos.returned n
        simp only [hself.2, Function.update_self, greatest_append_singleton,
          ← hp.returned n] at hn
        omega
      · intro hle
        constructor
        · intro m
          by_cases hm : m = n
          · subst hm
            simp only [hself.2, Function.update_self, greatest_append_singleton,
              ← hp.returned m]
            omega
          · simp only [Function.update_of_ne hm, (hother m hm).1, hp.returned m]
        · intro m
          by_cases hm : m = n
          · subst hm
            simp only [hself.1, hself.2, Nat.le_refl]
          · simpa only [(hother m hm).1, (hother m hm).2] using hp.forwarded m

theorem Positioned.same (hp : h.Positioned) {b : Agent} (hb : SamePositions h.agent b)
    (carried : ℕ → ℕ) : (Deliveries.mk b carried h.returned).Positioned where
  returned n := (hb.returned n).trans (hp.returned n)
  forwarded n := by
    change (b.attached n).lastSampleReturned ≤ (b.attached n).lastSampleForwarded
    rw [hb.returned, hb.forwarded]
    exact hp.forwarded n

/-- After an event the positions are right exactly when the event keeps them. -/
theorem Positioned.step_iff (hp : h.Positioned) (e : DeliveryEvent) :
    (h.step e).Positioned ↔ h.KeepsPosition e := by
  cases e with
  | process env key n smp now =>
      have hexit := AgentM.processSampleEA_exits env key n smp now h.agent
      simp only [step, KeepsPosition]
      rcases hres : AgentM.processSampleEA env key n smp now h.agent with ⟨res, c⟩
      rw [hres] at hexit
      cases hexit with
      | kept hno hb =>
          simp only [hno, if_false, false_imp_iff, iff_true]
          exact hp.same hb _
      | @delivered b _ rd d retained hdel hb hc =>
          dsimp only at hc
          have hself : (c.attached n).lastSampleForwarded = smp.sn ∧
              (c.attached n).lastSampleReturned =
                if retained then (b.attached n).lastSampleReturned else smp.sn := by
            rw [hc, acceptSample_attached, if_pos rfl]
            exact ⟨rfl, rfl⟩
          have hother : ∀ m, m ≠ n → c.attached m = b.attached m := by
            intro m hm
            rw [hc, acceptSample_attached, if_neg hm]
          have hiff : ∀ carried returned, returned = (if retained then h.returned
              else Function.update h.returned n (h.returned n ++ [smp.sn])) →
              ((Deliveries.mk c carried returned).Positioned ↔
                (h.agent.attached n).lastSampleReturned ≤ smp.sn) := by
            intro carried returned hreturned
            refine hp.deliver_iff ?_ (fun m hm => ?_) hreturned
            · rwa [hb.returned] at hself
            · rw [hother m hm]
              exact ⟨hb.returned m, hb.forwarded m⟩
          simp only [if_true, true_imp_iff, hdel]
          cases retained with
          | true =>
              simp only [if_true]
              split
              · exact hiff _ _ rfl
              · exact hiff _ _ rfl
          | false => exact hiff _ _ rfl
  | returnLoan env src key d =>
      simp only [step, KeepsPosition]
      cases hlent : lender h.agent src key d with
      | none =>
          simp only [reduceCtorEq, false_imp_iff, implies_true, iff_true]
          have hrefused : ∀ n rd, ¬ Lent h.agent src key d n rd := fun n rd hn => by
            have hsome := lender_eq_some.2 ⟨rd, hn⟩
            rw [hlent] at hsome
            cases hsome
          rw [AgentM.returnLoan_refused hrefused]
          exact hp
      | some n =>
          obtain ⟨rd, hn⟩ := lender_eq_some.1 hlent
          rw [hp.return_iff (AgentM.returnLoan_returnsUpTo env hn)]
          simp
  | read env key n spec =>
      have hb := AgentM.readEA_samePositions env key n spec h.agent
      exact ⟨fun _ => trivial, fun _ => hp.same hb _⟩
  | cancelRead env n =>
      have hb := AgentM.cancelReadI_samePositions env n h.agent
      exact ⟨fun _ => trivial, fun _ => hp.same hb _⟩

/-- The histories reached by events that meet the condition. -/
abbrev ReachedWhen (ok : Deliveries → DeliveryEvent → Prop) : Deliveries → Prop :=
  Reachable Initial step ok

theorem ReachedWhen.positioned (hh : h.ReachedWhen KeepsPosition) : h.Positioned := by
  apply Reachable.invariant (I := Positioned) _ _ hh
  · intro h h₀
    refine ⟨fun n => ?_, fun n => ?_⟩
    · rw [h₀.positions, h₀.returned, greatest_nil]
    · rw [h₀.positions]
      exact Nat.zero_le _
  · exact fun h e hp hok => (hp.step_iff e).2 hok

/-- In every history whose events keep the positions they are those of the last samples
returned, a new read passes over the samples up to them and no other, and the next event
keeps them exactly when it meets the condition. -/
theorem positioned_of_reached (hh : h.ReachedWhen KeepsPosition) :
    h.Positioned ∧
      (∀ env key n spec, h.agent.readStartPoint = .lastReturned →
        (AgentM.readEA env key n spec h.agent).1 = some () →
        ∀ env' key' smp now, (AgentM.processSampleEA env' key' n smp now
            (AgentM.readEA env key n spec h.agent).2).1 = some .old ↔
          smp.sn ≤ greatest (h.returned n)) ∧
      ∀ e, (h.step e).Positioned ↔ h.KeepsPosition e := by
  have hp := hh.positioned
  refine ⟨hp, fun env key n spec hstart hread env' key' smp now => ?_, hp.step_iff⟩
  obtain ⟨rd, hrd, hlast⟩ := AgentM.readEA_starts env key n spec hstart hread
  rw [AgentM.processSampleEA_old_iff env' key' smp now hrd, hlast, hp.returned]

/-- An agent with an attached data reader whose cache holds a sample. -/
def resumingAgent : Agent :=
  (Agent.started false .lastReturned).after
    [(.openSession 0 ⟨1, 1⟩ 0 none, .obliging (.one ⟨12, .dataReader, .guid 3, 11, 13⟩)),
      (.createResource ⟨1, 1⟩ ⟨3, .dataReader, .xml "", 0, false, false⟩,
        .obliging (.one ⟨12, .dataReader, .guid 3, 11, 13⟩))]

def resumingStart : Deliveries := ⟨resumingAgent, fun _ => 0, fun _ => []⟩

/-- The interface retains the samples it accepts, or not. -/
def accepting (retained : Bool) : Env :=
  { Env.obliging (.one ⟨12, .dataReader, .guid 3, 11, 13⟩) with
    delivery := fun _ => .accepted retained }

/-- A read that delivers the sample 4. -/
def deliveredOnce (retained : Bool) : Deliveries :=
  (resumingStart.step (.read (accepting retained) ⟨1, 1⟩ 0 ⟨0, 0, 0, none⟩)).step
    (.process (accepting retained) ⟨1, 1⟩ 0 ⟨4, true, 7⟩ 0)

theorem resumingStart_initial : resumingStart.Initial where
  forwarded n := by
    cases n with
    | zero => rfl
    | succ n => rfl
  positions n := by
    cases n with
    | zero => rfl
    | succ n => rfl
  returned n := rfl

/-- A sample that the interface does not retain is the last one returned. -/
theorem positioned_deliveredOnce :
    (deliveredOnce false).ReachedWhen KeepsPosition ∧ (deliveredOnce false).returned 0 = [4] ∧
      (deliveredOnce false).Positioned := by
  have hreached : (deliveredOnce false).ReachedWhen KeepsPosition := by
    refine .next _ (.next _ (.start resumingStart_initial) trivial) fun _ => ?_
    decide
  exact ⟨hreached, by decide, (positioned_of_reached hreached).1⟩

/-- The loan of a retained sample is returned, and the position stays before the sample. -/
theorem not_positioned_of_returned_loan :
    ¬ ∀ h : Deliveries, h.ReachedWhen (fun _ _ => True) → h.Positioned := by
  intro hall
  have hreached : (deliveredOnce true).ReachedWhen fun _ _ => True :=
    .next _ (.next _ (.start resumingStart_initial) trivial) trivial
  have hpos := hall _ (hreached.next (.returnLoan (accepting true) 0 ⟨1, 1⟩ 0) trivial)
  exact absurd (hpos.returned 0) (by decide)

end Deliveries

end NanoAgent
