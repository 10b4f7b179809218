import NanoAgent.Service.ProxyClient

/-!
# Submessages and samples

`onSubmsg` handles a submessage of a connected client: it takes a request, carries
out the operation and replies. Deleting the client itself only disposes it; the
session is closed by the caller of `onMessageReceived`, which learns about it
from the result. `onDataReceived` sends a sample to the client of a read.
-/

namespace NanoAgent

namespace Service

/-- Change the state of a data reader of a client. -/
def updateReaderState (a : Service) (c id : ℕ) (f : ReaderState → ReaderState) : Service :=
  a.updateClient c fun p => { p with readers := p.readers.modify id f }

/-- The samples of a reader that are on loan to a client. -/
def loansOf (a : Service) (c id : ℕ) : List Loan :=
  a.loans.filter fun l => l.client = c && l.readerId = id

end Service

/-- `NANO_XRCE_READREQUEST_INITIALIZER`. -/
def ReaderState.initializer : ReaderState := ⟨none, .invalid, ⟨0, 0, 0, none⟩, 0, false⟩

/-- The read specification after a request: the fields that the request carries
replace those of the reader state. -/
def ReadSpecification.override (spec : ReadSpecification) (m : Submessage) : ReadSpecification :=
  { minPacePeriod := (m.deliveryCtrl.map fun d => d.2.2).getD spec.minPacePeriod
    maxElapsedTime := (m.deliveryCtrl.map fun d => d.2.1).getD spec.maxElapsedTime
    maxSamples := (m.deliveryCtrl.map fun d => d.1).getD spec.maxSamples
    contentFilterExpr :=
      match m.contentFilterExpr with
      | some e => some e
      | none => spec.contentFilterExpr }

namespace ServiceM

open Prog

/-- The creation of a resource by the DDS agent, with the callback
`NANO_XRCE_AgentInterface_on_resource_created`, which replies. -/
def onSubmsgCreate (env : ServiceEnv) (c r : ℕ) (m : Submessage) : ServiceM Unit := do
  ensure (env.ok .operation)
  ensure (m.objectId.kind != .dataReader || env.ok .getReaderState)
  replyToOperation env c r true
  onlyIf (m.objectId.kind = .dataReader) (modify fun a => a.updateClient c fun p =>
    { p with readers := p.readers.insert m.objectId.value .initializer })

/-- `NANO_XRCE_Agent_on_submsg_delete`. The deletion of a resource ends with the
callback `NANO_XRCE_AgentInterface_on_resource_deleted`, which replies. -/
def onSubmsgDelete (env : ServiceEnv) (c r : ℕ) (m : Submessage) : ServiceM Unit := do
  match m.objectId.kind with
  | .invalid => fail
  | .agent => fail
  | .client => disposeClientSession env c (some r)
  | .dataReader => do
      dismissClientFwdDataRequests env c none m.objectId.value
      ensure (env.ok .operation)
      modify fun a => a.updateClient c fun p =>
        { p with readers := p.readers.erase m.objectId.value }
      ignore (replyToOperation env c r true)
  | _ => do
      ensure (env.ok .operation)
      ignore (replyToOperation env c r true)

/-- The writes of `NANO_XRCE_Agent_on_submsg_write`, by the format of the data. Only plain data
is written; the callback `NANO_XRCE_AgentInterface_on_data_written` replies. -/
def writeData (env : ServiceEnv) (c r : ℕ) (m : Submessage) : ServiceM Unit :=
  match m.format with
  | .invalid => fail
  | .data => do
      ensure (env.ok .operation)
      let a ← read
      onlyIf (a.request c r).reply (ignore (replyToOperation env c r true))
  | _ => pure ()

/-- `NANO_XRCE_Agent_on_submsg_write`. The request is returned here. -/
def onSubmsgWrite (env : ServiceEnv) (c r : ℕ) (m : Submessage) : ServiceM Unit := do
  ensure (m.objectId.kind = .dataWriter)
  writeData env c r m
  modify fun a => a.returnClientRequest c r

/-- `NANO_XRCE_Agent_on_submsg_read`, up to its call of `D2S2_Agent_read`. -/
def prepareRead (env : ServiceEnv) (c r : ℕ) (m : Submessage) : ServiceM Unit := do
  ensure (m.objectId.kind = .dataReader)
  ensure (m.format = .data)
  ensure (env.ok .lookupResource)
  let a ← read
  let state ← require ((a.client c).readers.lookup m.objectId.value)
  onlyIf state.req.isSome (modify fun a => a.returnClientRequest c (state.req.getD 0))
  modify fun a => a.updateReaderState c m.objectId.value fun st =>
    { st with
      forward := false, req := some r, readFmt := m.format, streamId := m.preferredStreamId }
  lookupStream env c m.preferredStreamId
  onlyIf (env.wire.streamReliable m.preferredStreamId)
    (dismissClientFwdDataRequests env c (some m.preferredStreamId) m.objectId.value)
  modify fun a => a.updateReaderState c m.objectId.value fun st =>
    { st with readSpec := st.readSpec.override m }

/-- `NANO_XRCE_AgentInterface_on_read_created`. -/
def onReadCreated (env : ServiceEnv) (c r id : ℕ) : ServiceM Unit := do
  modify fun a => a.updateReaderState c id fun st => { st with forward := true }
  let a ← read
  onlyIf (a.request c r).reply (onFailure (replyToOperation env c r true)
    (modify fun a => a.updateReaderState c id fun st => { st with req := none }))

/-- `NANO_XRCE_AgentInterface_on_release_read_samples`. The samples of a read that is to be
cancelled are given back. -/
def onReleaseReadSamples (env : ServiceEnv) (c id : ℕ) : ServiceM Unit := do
  let a ← read
  let st ← require ((a.client c).readers.lookup id)
  lookupStream env c st.streamId
  dismissClientFwdDataRequests env c (some st.streamId) id

/-- `D2S2_Agent_read`. The earlier read of the reader is cancelled first, which the
DDS agent refuses while samples of it are on loan. -/
def readOnAgent (env : ServiceEnv) (c r id : ℕ) : ServiceM Unit := do
  let a ← read
  ensure (a.loansOf c id).isEmpty
  ensure (env.ok .readOnAgent)
  onReadCreated env c r id

/-- `NANO_XRCE_Agent_on_submsg_read`. -/
def onSubmsgRead (env : ServiceEnv) (c r : ℕ) (m : Submessage) : ServiceM Unit := do
  prepareRead env c r m
  readOnAgent env c r m.objectId.value

/-- The operation that a request asks for. -/
def serveRequest (env : ServiceEnv) (c r : ℕ) (m : Submessage) : ServiceM Unit :=
  match m.id with
  | .create => onSubmsgCreate env c r m
  | .delete => onSubmsgDelete env c r m
  | .writeData => onSubmsgWrite env c r m
  | .readData => onSubmsgRead env c r m
  | _ => pure ()

/-- The end of `NANO_XRCE_ProxyClient_on_submsg`: the reply, unless it was sent
already, and the return of the request. -/
def completeRequest (env : ServiceEnv) (c r : ℕ) (m : Submessage) (success : Bool) :
    ServiceM Unit := do
  let a ← read
  onlyIf (a.request c r).reply (ignore (replyToOperation env c r success))
  onlyIf ((!success || (m.id != .readData && m.id != .writeData)) &&
      !(m.id = .delete && m.objectId.kind = .client))
    (modify fun a => a.returnClientRequest c r)

/-- `NANO_XRCE_ProxyClient_on_submsg` for the submessages that make a request. The
request of a failed `READ_DATA` is left to nobody. -/
def onRequest (env : ServiceEnv) (c stream : ℕ) (m : Submessage) (reply : Bool) :
    ServiceM Unit := do
  ensure (env.ok .decode)
  let r ← newClientRequest env c stream m reply
  let res ← attempt (serveRequest env c r m)
  onlyIf (m.id != .readData || res.isSome) (completeRequest env c r m res.isSome)
  ensure res.isSome

/-- `NANO_XRCE_ProxyClient_on_submsg`. -/
def onSubmsg (env : ServiceEnv) (c stream : ℕ) (m : Submessage) : ServiceM Unit := do
  let a ← read
  match m.id with
  | .create => onRequest env c stream m true
  | .delete => onRequest env c stream m true
  | .writeData => onRequest env c stream m (m.confirm || a.confirmAllRequests)
  | .readData => onRequest env c stream m (m.confirm || a.confirmAllRequests)
  | .getInfo => ensure (env.ok .decode)
  | .other => pure ()

/-- The call of the listener for one of the submessages of a message. -/
def dispatchSubmsg (env : ServiceEnv) (c stream : ℕ)
    (m : Submessage × (ServiceCall → Bool)) : ServiceM Unit :=
  ignore (onSubmsg { env with ok := m.2 } c stream m.1)

/-- `NANO_XRCE_Session_receive_message` of nano-client. -/
def receiveInSession (env : ServiceEnv) (c stream : ℕ) : ServiceM Unit := do
  forEach env.dispatched fun m => dispatchSubmsg env c stream m
  ensure env.received

/-- `NANO_XRCE_AgentInterface_on_message_received`; the result is `dispose_out`. -/
def onMessageReceived (env : ServiceEnv) (c : ℕ) : ServiceM Bool := do
  let a ← read
  if (a.client c).disposed then pure false
  else
    match env.stream with
    | none => pure false
    | some stream => do
        let found ← attempt (lookupStream env c stream)
        match found with
        | none => pure false
        | some _ => do
            let res ← attempt (receiveInSession env c stream)
            match res with
            | none => pure false
            | some _ => do
                let a ← read
                pure (a.client c).disposed

/-- A round of the sending loop of `NANO_XRCE_Agent_on_data_received`: a forward request
and the message it stands for. On a stream that is not reliable the forward
request is dropped at once. -/
def forwardData (env : ServiceEnv) (c id stream d n : ℕ) : ServiceM Unit := do
  ensure (env.ok (.getForward n))
  ensure (env.ok (.sendData n))
  modify fun a => a.sendOnStream env.wire c stream (.data id)
  onlyIf (env.wire.streamReliable stream) (modify fun a => a.updateClient c fun p =>
    { p with forwards := p.forwards ++ [⟨d, id, stream, p.lastSn stream⟩] })

/-- `NANO_XRCE_Agent_on_data_received` for a sample that is neither empty nor in an unknown
format; the result says whether the sample is retained. A sample that cannot be
allocated is asked for again later. -/
def onDataReceived (env : ServiceEnv) (c id d : ℕ) : ServiceM Bool := do
  let a ← read
  let state ← require ((a.client c).readers.lookup id)
  if !state.forward || (a.client c).disposed then pure false
  else do
    lookupStream env c state.streamId
    ensure (state.readFmt = .data)
    if !(env.ok (.allocateData 0) && env.ok (.allocateData 1)) then pure false
    else do
      forEach (List.range env.fragments) fun n => forwardData env c id state.streamId d n
      pure (env.wire.streamReliable state.streamId && decide (0 < env.fragments))

/-- A sample that the client retains is on loan. -/
def deliverSample (env : ServiceEnv) (c id d : ℕ) : ServiceM Unit := do
  let retained ← onDataReceived env c id d
  onlyIf retained (modify fun a => { a with loans := a.loans ++ [⟨c, id, d⟩] })

end ServiceM

end NanoAgent
