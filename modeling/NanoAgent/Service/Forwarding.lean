import NanoAgent.DdsAgent.ReadTally
import NanoAgent.Service.Disposal

/-!
# Forwarding the samples of a read

The DDS agent offers a sample of a read to the XRCE agent, which makes messages of it and
sends them to the client; what it answers decides whether the read moves past the sample.
`Forwarding` joins the two agents and follows the message buffers of the samples. A buffer is
named by the number of its allocation. The header of a sample is one buffer, and its payload
comes as `fragments` buffers, the first of which is in the message of the header.

A run is a list of events, and `offersOf` lists what becomes of the samples in it.
-/

namespace NanoAgent

open Prog

namespace AgentM

/-- `NDDSA_Read_process_sampleEA`, up to its call of the interface: what becomes of a sample
that is passed over, or the read and the record that it is offered with. -/
def prepareSampleEA (env : Env) (key : ClientSessionKey) (n : ℕ) (smp : Sample) (now : ℕ) :
    AgentM (Processed ⊕ ℕ × ℕ) := do
  let a ← read
  let rd ← require (a.attached n).readReq
  let r := a.readAt rd
  if smp.sn ≤ r.lastSample then
    pure (.inl .old)
  else if r.samplePace != 0 && decide (now - r.lastSampleTs < r.samplePace) then
    pure (.inl (.retry (r.samplePace - (now - r.lastSampleTs))))
  else do
    ensure (env.ok (.toCdr .processSample smp.sn))
    let d ← convertSampleEA env key n smp
    pure (.inr (rd, d))

/-- `NDDSA_Read_process_sampleEA`, from the answer of the interface. -/
def settleSampleEA (key : ClientSessionKey) (n rd d : ℕ) (smp : Sample) (now : ℕ) :
    Delivery → AgentM Processed
  | .error => do
      modify fun a => a.recycle key d
      fail
  | .tryAgain => do
      modify fun a => a.recycle key d
      pure (.retry (packFromMillisec 0 1))
  | .accepted retained => do
      modify fun a => a.acceptSample n rd d smp retained now
      pure .delivered

theorem processSampleEA_eq (env : Env) (key : ClientSessionKey) (n : ℕ) (smp : Sample)
    (now : ℕ) : processSampleEA env key n smp now =
      prepareSampleEA env key n smp now >>= fun
        | .inl p => pure p
        | .inr (rd, d) => settleSampleEA key n rd d smp now (env.delivery smp) := by
  unfold processSampleEA prepareSampleEA
  rw [bind_bind]
  congr 1
  funext a
  rw [bind_bind]
  congr 1
  funext rd
  dsimp only
  split
  · rfl
  split
  · rfl
  rw [bind_bind]
  congr 1
  funext _
  rw [bind_bind]
  congr 1

end AgentM

namespace ServiceM

theorem forwardData_isSome (env : ServiceEnv) (c id stream d n : ℕ) (a : Service) :
    (forwardData env c id stream d n a).1.isSome =
      (env.ok (.getForward n) && env.ok (.sendData n)) := by
  unfold forwardData
  cases env.ok (.getForward n) <;> cases env.ok (.sendData n) <;>
    cases env.wire.streamReliable stream <;> rfl

end ServiceM

/-- What became of a sample offered to a read: the position of the read before and after it,
whether it is due to the client, and the message buffers that were allocated for it, passed
to `NANO_XRCE_Session_send` and released. -/
structure Offer where
  sample : ℕ
  before : ℕ
  after : ℕ
  due : Bool
  allocated : List ℕ
  sent : List ℕ
  released : List ℕ
  deriving DecidableEq, Repr

/-- The two agents and the message buffers of samples: the number of the buffers allocated,
those passed to `NANO_XRCE_Session_send`, in order, and those released. -/
structure Forwarding where
  agent : Agent
  service : Service
  buffers : ℕ
  sent : List ℕ
  released : List ℕ

/-- The position of the read of an attached data reader, or 0 without a read. -/
def Agent.position (a : Agent) (n : ℕ) : ℕ :=
  (a.attached n).readReq.elim 0 fun rd => (a.readAt rd).lastSample

namespace Forwarding

/-- Run a function of the DDS agent. -/
def onAgent {α : Type} (x : AgentM α) : Prog Forwarding α := fun s =>
  ((x s.agent).1, { s with agent := (x s.agent).2 })

/-- Run a function of the XRCE agent. -/
def onService {α : Type} (x : ServiceM α) : Prog Forwarding α := fun s =>
  ((x s.service).1, { s with service := (x s.service).2 })

def allocate (s : Forwarding) (n : ℕ) : Forwarding := { s with buffers := s.buffers + n }

def pass (s : Forwarding) (message : List ℕ) : Forwarding := { s with sent := s.sent ++ message }

/-- `NANO_XRCE_Agent_release_reply_message`. -/
def release (s : Forwarding) (buffers : List ℕ) : Forwarding :=
  { s with released := s.released ++ buffers }

/-- The client of a session. -/
def clientOf (s : Forwarding) (key : ClientSessionKey) : Option ℕ :=
  (s.agent.sessions.lookup key).bind (·.userData)

/-- The messages made of a header and the buffers of a payload. -/
def chain (header : ℕ) : List ℕ → List (List ℕ)
  | [] => [[header]]
  | p :: payload => [header, p] :: payload.map fun q => [q]

/-- The sending loop of `NANO_XRCE_Agent_on_data_received`, from the message `k`. -/
def sendMessages (env : ServiceEnv) (c id stream d : ℕ) :
    ℕ → List (List ℕ) → Prog Forwarding Unit
  | _, [] => pure ()
  | k, message :: messages => do
      onFailure (ensure (env.ok (.getForward k)))
        (modify fun s => s.release (message ++ messages.flatten))
      -- sending consumes the message, and an error leaves the messages behind it to nobody
      modify fun s => s.pass message
      onService (ServiceM.forwardData env c id stream d k)
      sendMessages env c id stream d (k + 1) messages

/-- `NANO_XRCE_Agent_on_data_received`, from the allocation of the header, for the reader
state `st`. -/
def forwardSample (env : ServiceEnv) (c id d : ℕ) (st : ReaderState) :
    Prog Forwarding Delivery := do
  if !env.ok (.allocateData 0) then pure .tryAgain
  else do
    let s ← read
    modify fun s => s.allocate 1
    -- the header names the request, which is not checked: without one the agent ends here
    let _ ← require st.req
    if !env.ok (.allocateData 1) then do
      modify fun t => t.release [s.buffers]
      pure .tryAgain
    else do
      modify fun s => s.allocate env.fragments
      let sent ← attempt (sendMessages env c id st.streamId d 0
        (chain s.buffers (List.range' (s.buffers + 1) env.fragments)))
      pure (if sent.isSome then .accepted (env.wire.streamReliable st.streamId) else .error)

/-- `NANO_XRCE_Agent_on_data_received`, for a sample of the length `len` in the record `d`. -/
def onDataReceived (env : ServiceEnv) (c id d len : ℕ) : Prog Forwarding Delivery := do
  let s ← read
  let st ← require ((s.service.client c).readers.lookup id)
  if !st.forward then pure (.accepted false)
  else if (s.service.client c).disposed then pure (.accepted false)
  else if len = 0 then pure (.accepted false)
  else do
    let stream ← attempt (onService (ServiceM.lookupStream env c st.streamId))
    if stream.isSome && st.readFmt = .data then forwardSample env c id d st
    else pure .error

/-- `NDDSA_Read_process_sampleEA`, with `NANO_XRCE_AgentInterface_on_data_available` as the
interface. -/
def processSample (env : Env) (senv : ServiceEnv) (key : ClientSessionKey) (n : ℕ)
    (smp : Sample) (now : ℕ) : Prog Forwarding Processed := do
  let s ← read
  let offer ← onAgent (AgentM.prepareSampleEA env key n smp now)
  match offer with
  | .inl p => pure p
  | .inr (rd, d) => do
      let c ← require (s.clientOf key)
      let delivery ← onDataReceived senv c (s.agent.attached n).id d (env.writtenLen smp)
      onAgent (AgentM.settleSampleEA key n rd d smp now delivery)

/-- `NDDSA_Agent_read`, with `NANO_XRCE_AgentInterface_on_read_created` as the callback. -/
def readData (env : Env) (senv : ServiceEnv) (key : ClientSessionKey) (c r id : ℕ)
    (spec : ReadSpecification) : Prog Forwarding Unit := do
  let n ← onAgent (AgentM.findAttachedReader key id)
  onAgent (AgentM.readEA env key n spec)
  let created ← attempt (onService (ServiceM.onReadCreated senv c r id))
  if created.isSome then onAgent (modify fun a => a.notify (.readCreated key id))
  else do
    ignore (onAgent (AgentM.cancelReadI env n))
    fail

/-- The DDS agent takes the records `loans` back, which the XRCE agent returns for the
client `c`. -/
def takeLoans (env : Env) (c : ℕ) (loans : List ℕ) : Prog Forwarding Unit := do
  let s ← read
  let key ← require (s.service.client c).ddsSession
  forEach loans fun d =>
    ignore (onAgent (AgentM.returnLoan (env.forLoan d) s.service.intf key d))

/-- Run a function of the XRCE agent that dismisses forward requests of the client `c`: each of
them calls `D2S2_Agent_return_loan`. The answers of these calls are inputs of the function, which
ignores them in what it does to the queues and to the readers. -/
def dismissing {α : Type} (env : Env) (c : ℕ) (x : ServiceM α) : Prog Forwarding α := do
  let s ← read
  let res ← attempt (onService x)
  let t ← read
  ignore (takeLoans env c (t.service.returns.drop s.service.returns.length))
  require res

/-- `NANO_XRCE_Agent_on_submsg_read`. -/
def onSubmsgRead (env : Env) (senv : ServiceEnv) (c r : ℕ) (m : Submessage) :
    Prog Forwarding Unit := do
  dismissing env c (ServiceM.prepareRead senv c r m)
  let s ← read
  let key ← require (s.service.client c).ddsSession
  let st ← require ((s.service.client c).readers.lookup m.objectId.value)
  readData env senv key c r m.objectId.value st.readSpec

/-- `NANO_XRCE_ProxyClient_on_submsg` for a `READ_DATA`. -/
def onReadData (env : Env) (senv : ServiceEnv) (c stream : ℕ) (m : Submessage) :
    Prog Forwarding Unit := do
  ensure (m.id = .readData && senv.ok .decode)
  let s ← read
  let r ← onService (ServiceM.newClientRequest senv c stream m
    (m.confirm || s.service.confirmAllRequests))
  let res ← attempt (onSubmsgRead env senv c r m)
  onlyIf res.isSome (onService (ServiceM.completeRequest senv c r m true))
  ensure res.isSome

/-- What happens to a reader: a `READ_DATA` arrives on the stream `stream` of the client `c`, the
client acknowledges the message `m`, the samples of the reader `id` are to be released, or a
data event offers a sample to the read of the attached data reader `n` of the session `key`. -/
inductive Event
  | readData (env : Env) (senv : ServiceEnv) (c stream : ℕ) (m : Submessage)
  | acknowledge (env : Env) (senv : ServiceEnv) (c : ℕ) (m : QueuedMessage)
  | releaseReadSamples (env : Env) (senv : ServiceEnv) (c id : ℕ)
  | sample (env : Env) (senv : ServiceEnv) (key : ClientSessionKey) (n : ℕ) (smp : Sample)
      (now : ℕ)

/-- A sample of the length `len` is due to the client of the session `key`: it is not empty,
and the client is not disposed. -/
def due (s : Forwarding) (key : ClientSessionKey) (len : ℕ) : Bool :=
  decide (0 < len) && (s.clientOf key).any fun c => !(s.service.client c).disposed

/-- What became of a sample that took the first state to the second. -/
def offerOf (s t : Forwarding) (key : ClientSessionKey) (n : ℕ) (smp : Sample) (len : ℕ) :
    Offer where
  sample := smp.sn
  before := s.agent.position n
  after := t.agent.position n
  due := s.due key len
  allocated := List.range' s.buffers (t.buffers - s.buffers)
  sent := t.sent.drop s.sent.length
  released := t.released.drop s.released.length

def step (s : Forwarding) : Event → Forwarding
  | .readData env senv c stream m => (onReadData env senv c stream m s).2
  | .acknowledge env senv c m => (dismissing env c (ServiceM.acknowledge senv c m) s).2
  | .releaseReadSamples env senv c id =>
      (dismissing env c (ServiceM.onReleaseReadSamples senv c id) s).2
  | .sample env senv key n smp now => (processSample env senv key n smp now s).2

/-- What becomes of the sample of an event. -/
def offer (s : Forwarding) : Event → Option Offer
  | .readData _ _ _ _ _ => none
  | .acknowledge _ _ _ _ | .releaseReadSamples _ _ _ _ => none
  | .sample env senv key n smp now =>
      some (s.offerOf (s.step (.sample env senv key n smp now)) key n smp (env.writtenLen smp))

section SendMessages

variable {env : ServiceEnv} {c id stream d k : ℕ} {message : List ℕ} {messages : List (List ℕ)}

theorem sendMessages_refused (h : env.ok (.getForward k) = false) (s : Forwarding) :
    sendMessages env c id stream d k (message :: messages) s =
      (none, s.release (message ++ messages.flatten)) := by
  rw [sendMessages, h]
  rfl

theorem sendMessages_failed (hforward : env.ok (.getForward k) = true)
    (hsend : env.ok (.sendData k) = false) (s : Forwarding) :
    sendMessages env c id stream d k (message :: messages) s = (none, s.pass message) := by
  rw [sendMessages, ServiceM.forwardData, hforward, hsend]
  rfl

theorem sendMessages_sent (hforward : env.ok (.getForward k) = true)
    (hsend : env.ok (.sendData k) = true) (s : Forwarding) :
    sendMessages env c id stream d k (message :: messages) s =
      sendMessages env c id stream d (k + 1) messages
        (onService (ServiceM.forwardData env c id stream d k) (s.pass message)).2 := by
  have hsome := ServiceM.forwardData_isSome env c id stream d k s.service
  rw [hforward, hsend] at hsome
  obtain ⟨_, hsome⟩ := Option.isSome_iff_exists.1 hsome
  have hround : onService (ServiceM.forwardData env c id stream d k) (s.pass message) =
      (some ⟨⟩, (onService (ServiceM.forwardData env c id stream d k) (s.pass message)).2) :=
    eq_of_fst_eq_some hsome
  rw [sendMessages, hforward]
  change (onService (ServiceM.forwardData env c id stream d k) >>=
    fun _ => sendMessages env c id stream d (k + 1) messages) (s.pass message) = _
  rw [bind_apply, hround]

end SendMessages

/-- The DDS agent is left alone. -/
def SameAgent (s t : Forwarding) : Prop := t.agent = s.agent

instance : IsPreorder Forwarding SameAgent where
  refl _ := rfl
  trans _ _ _ h h' := h'.trans h

theorem onService_sameAgent {α : Type} (x : ServiceM α) : Within SameAgent (onService x) :=
  fun _ => rfl

theorem sendMessages_sameAgent (env : ServiceEnv) (c id stream d k : ℕ)
    (messages : List (List ℕ)) : Within SameAgent (sendMessages env c id stream d k messages) := by
  induction messages generalizing k with
  | nil => exact .pure _
  | cons message messages ih =>
      refine .bind (.onFailure (.ensure _) (.modify fun _ => rfl)) fun _ => ?_
      exact .bind (.modify fun _ => rfl) fun _ => .bind (onService_sameAgent _) fun _ => ih _

theorem forwardSample_sameAgent (env : ServiceEnv) (c id d : ℕ) (st : ReaderState) :
    Within SameAgent (forwardSample env c id d st) := by
  refine .ite (fun _ => .pure _) fun _ => .read fun s => .bind (.modify fun _ => rfl) fun _ => ?_
  refine .bind (.require _) fun _ => .ite (fun _ => ?_) fun _ => ?_
  · exact .bind (.modify fun _ => rfl) fun _ => .pure _
  · refine .bind (.modify fun _ => rfl) fun _ => .bind (.attempt ?_) fun _ => .pure _
    exact sendMessages_sameAgent env c id _ d 0 _

theorem onDataReceived_sameAgent (env : ServiceEnv) (c id d len : ℕ) :
    Within SameAgent (onDataReceived env c id d len) := by
  refine .read fun s => .bind (.require _) fun st => .ite (fun _ => .pure _) fun _ => ?_
  refine .ite (fun _ => .pure _) fun _ => .ite (fun _ => .pure _) fun _ => ?_
  refine .bind (.attempt (onService_sameAgent _)) fun _ => .ite (fun _ => ?_) fun _ => .pure _
  exact forwardSample_sameAgent env c id d st

section Agents

/-! What the two agents do when they are joined is what each of them does, with the answers of
the other. -/

variable {env : Env} {senv : ServiceEnv} {key : ClientSessionKey} {c r id n d len : ℕ}
  {smp : Sample} {now : ℕ} {s : Forwarding}

/-- The DDS agent processes a sample with the answer of the XRCE agent. -/
theorem processSample_agent {delivery : Delivery} (hc : s.clientOf key = some c)
    (hanswer : ∀ rd d b, AgentM.prepareSampleEA env key n smp now s.agent =
        (some (.inr (rd, d)), b) →
      (onDataReceived senv c (s.agent.attached n).id d (env.writtenLen smp)
        { s with agent := b }).1 = some delivery) :
    AgentM.processSampleEA { env with delivery := fun _ => delivery } key n smp now s.agent =
      ((processSample env senv key n smp now s).1,
        (processSample env senv key n smp now s).2.agent) := by
  have hsame : AgentM.prepareSampleEA { env with delivery := fun _ => delivery } key n smp now =
      AgentM.prepareSampleEA env key n smp now := rfl
  rw [AgentM.processSampleEA_eq, hsame, processSample, read_bind_apply, bind_apply, bind_apply,
    onAgent]
  rcases hprepare : AgentM.prepareSampleEA env key n smp now s.agent with ⟨_ | p | ⟨rd, d⟩, b⟩
  · rfl
  · rfl
  · dsimp only
    rw [hc, bind_apply, require_apply]
    dsimp only
    have hkept : (onDataReceived senv c (s.agent.attached n).id d (env.writtenLen smp)
        { s with agent := b }).2.agent = b := onDataReceived_sameAgent _ _ _ _ _ _
    rw [bind_apply, eq_of_fst_eq_some (hanswer rd d b hprepare)]
    dsimp only [onAgent]
    rw [hkept]

/-- The DDS agent starts a read with the answer of the callback. -/
theorem readData_agent {spec : ReadSpecification} (h : env.ok (.onReadCreated key id) =
      (ServiceM.onReadCreated senv c r id s.service).1.isSome) :
    AgentM.readData env key id spec s.agent =
      ((readData env senv key c r id spec s).1, (readData env senv key c r id spec s).2.agent) := by
  unfold AgentM.readData readData
  rw [bind_apply, bind_apply, onAgent]
  rcases AgentM.findAttachedReader key id s.agent with ⟨_ | n, a⟩
  · rfl
  · dsimp only
    rw [bind_apply, bind_apply, onAgent]
    dsimp only
    rcases AgentM.readEA env key n spec a with ⟨_ | _, b⟩
    · rfl
    · dsimp only
      rw [h, attempt_bind_apply, onService]
      dsimp only
      cases (ServiceM.onReadCreated senv c r id s.service).1.isSome <;> rfl

/-- The answer to a sample as the DDS agent keeps it: whether the sample is retained. -/
def retainedBy : Delivery → Option Bool
  | .error => none
  | .tryAgain => some false
  | .accepted retained => some retained

/-- The sending loop of the XRCE agent. -/
theorem sendMessages_service (senv : ServiceEnv) (c id stream d k : ℕ)
    (messages : List (List ℕ)) (s : Forwarding) :
    ((sendMessages senv c id stream d k messages s).1,
        (sendMessages senv c id stream d k messages s).2.service) =
      forEach (List.range' k messages.length)
        (fun n => ServiceM.forwardData senv c id stream d n) s.service := by
  induction messages generalizing k s with
  | nil => rfl
  | cons message messages ih =>
      rw [List.length_cons, List.range'_succ, forEach, bind_apply]
      cases hforward : senv.ok (.getForward k) with
      | false =>
          rw [sendMessages, ServiceM.forwardData, hforward]
          rfl
      | true =>
          cases hsend : senv.ok (.sendData k) with
          | false =>
              rw [sendMessages, ServiceM.forwardData, hforward, hsend]
              rfl
          | true =>
              have hsome := ServiceM.forwardData_isSome senv c id stream d k s.service
              rw [hforward, hsend] at hsome
              obtain ⟨_, hsome⟩ := Option.isSome_iff_exists.1 hsome
              rw [sendMessages_sent hforward hsend, ih, eq_of_fst_eq_some hsome]
              rfl

theorem length_chain {header base m : ℕ} (h : 0 < m) :
    (chain header (List.range' base m)).length = m := by
  cases m with
  | zero => exact absurd h (Nat.lt_irrefl 0)
  | succ m => rw [List.range'_succ, chain, List.length_cons, List.length_map, List.length_range']

/-- When the buffers of a sample are there, the answer depends on the sending loop. -/
theorem forwardSample_sends {st : ReaderState} (d : ℕ) (hr : st.req = some r)
    (hheader : senv.ok (.allocateData 0) = true) (hpayload : senv.ok (.allocateData 1) = true)
    {s : Forwarding} {x : Option Unit × Forwarding}
    (hx : sendMessages senv c id st.streamId d 0
      (chain s.buffers (List.range' (s.buffers + 1) senv.fragments))
      ((s.allocate 1).allocate senv.fragments) = x) :
    forwardSample senv c id d st s =
      (some (if x.1.isSome then .accepted (senv.wire.streamReliable st.streamId) else .error),
        x.2) := by
  rw [← hx, forwardSample, hheader, hpayload, hr]
  rfl

theorem forwardSample_service {st : ReaderState} (d : ℕ) (hr : st.req = some r)
    (hfragments : 0 < senv.fragments) (s : Forwarding) :
    ((forwardSample senv c id d st s).1.bind retainedBy,
        (forwardSample senv c id d st s).2.service) =
      (if !(senv.ok (.allocateData 0) && senv.ok (.allocateData 1)) then pure false
      else do
        forEach (List.range senv.fragments) fun n =>
          ServiceM.forwardData senv c id st.streamId d n
        pure (senv.wire.streamReliable st.streamId && decide (0 < senv.fragments)) :
        ServiceM Bool) s.service := by
  cases hheader : senv.ok (.allocateData 0) with
  | false =>
      rw [forwardSample, hheader]
      rfl
  | true =>
      cases hpayload : senv.ok (.allocateData 1) with
      | false =>
          rw [forwardSample, hheader, hpayload, hr]
          rfl
      | true =>
          have hloop := sendMessages_service senv c id st.streamId d 0
            (chain s.buffers (List.range' (s.buffers + 1) senv.fragments))
            ((s.allocate 1).allocate senv.fragments)
          rw [length_chain hfragments, ← List.range_eq_range'] at hloop
          rcases hx : sendMessages senv c id st.streamId d 0
            (chain s.buffers (List.range' (s.buffers + 1) senv.fragments))
            ((s.allocate 1).allocate senv.fragments) with ⟨res, u⟩
          rw [hx] at hloop
          have hround : forEach (List.range senv.fragments)
              (fun n => ServiceM.forwardData senv c id st.streamId d n) s.service =
                (res, u.service) := hloop.symm
          rw [forwardSample_sends d hr hheader hpayload hx, Bool.and_self, Bool.not_true,
            if_neg Bool.false_ne_true, bind_apply, hround]
          cases res with
          | none => rfl
          | some _ => simp [retainedBy, hfragments]

/-- The XRCE agent answers a sample that is not empty as it does alone, when there is a request
to name. -/
theorem onDataReceived_service (hlen : 0 < len) (hfragments : 0 < senv.fragments)
    (hreq : ∀ st, (s.service.client c).readers.lookup id = some st → st.req.isSome = true) :
    ((onDataReceived senv c id d len s).1.bind retainedBy,
        (onDataReceived senv c id d len s).2.service) =
      ServiceM.onDataReceived senv c id d s.service := by
  unfold onDataReceived ServiceM.onDataReceived
  rw [read_bind_apply, read_bind_apply, bind_apply, bind_apply, require_apply, require_apply]
  cases hst : (s.service.client c).readers.lookup id with
  | none => rfl
  | some st =>
      obtain ⟨r, hr⟩ := Option.isSome_iff_exists.1 (hreq st hst)
      dsimp only
      cases st.forward with
      | false => rfl
      | true =>
          cases (s.service.client c).disposed with
          | true => rfl
          | false =>
              rw [Bool.not_true, Bool.or_false, if_neg Bool.false_ne_true,
                if_neg Bool.false_ne_true, if_neg (Nat.ne_of_gt hlen), if_neg Bool.false_ne_true,
                attempt_bind_apply, bind_apply, onService]
              dsimp only
              rcases ServiceM.lookupStream senv c st.streamId s.service with ⟨_ | _, b⟩
              · rfl
              · rw [Option.isSome_some, Bool.true_and]
                cases decide (st.readFmt = .data) with
                | false => rfl
                | true => exact forwardSample_service d hr hfragments _

end Agents

end Forwarding

end NanoAgent
