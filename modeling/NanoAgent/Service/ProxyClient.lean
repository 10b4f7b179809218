import NanoAgent.Service.Service

/-!
# Proxy clients

The functions of `ProxyClient.c`, and those of `Agent.c` that work on one proxy
client: its stream storage, its requests and their replies, and the forward
requests of the samples it was sent. A forward request is dismissed when the
message it stands for is acknowledged, lost or taken out of the send queue; the
sample is then returned to the DDS agent.
-/

namespace NanoAgent

namespace Service

/-- `NANO_XRCE_ProxyClient_release_stream_storage`. -/
def releaseStreamStorage (a : Service) (c r : ℕ) : Service :=
  let b := a.updateClient c fun p => { p with streamStorage := p.streamStorage.erase r }
  { b with poolStorageStream := b.poolStorageStream.giveBack r }

/-- A request of a client. -/
def request (a : Service) (c r : ℕ) : ProxyClientRequest := (a.client c).requestsPool.content r

def updateRequest (a : Service) (c r : ℕ) (f : ProxyClientRequest → ProxyClientRequest) :
    Service :=
  a.updateClient c fun p => { p with requestsPool := p.requestsPool.update r f }

/-- `NANO_XRCE_Agent_return_client_request`. -/
def returnClientRequest (a : Service) (c r : ℕ) : Service :=
  a.updateClient c fun p => { p with requestsPool := p.requestsPool.giveBack r }

/-- `NANO_XRCE_Session_send` of nano-client: the message gets the next sequence number
of its stream, leaves through the transport of the client and, on a reliable
stream, stays in the send queue. -/
def sendOnStream (a : Service) (wire : Wire) (c stream : ℕ) (kind : OutputKind) :
    Service :=
  (a.send c kind).updateClient c fun p =>
    { p with
      lastSn := Function.update p.lastSn stream (p.lastSn stream + 1)
      sendQueue :=
        if wire.streamReliable stream then
          p.sendQueue ++ [⟨stream, p.lastSn stream + 1, kind⟩]
        else p.sendQueue }

end Service

/-- The choice made by `NANO_XRCE_Agent_dismiss_client_fwd_data_requests`; no
stream and an invalid reader id stand for any. -/
def ForwardDataRequest.chosen (stream : Option ℕ) (reader : ℕ) (f : ForwardDataRequest) : Bool :=
  (stream = none || stream = some f.streamId) &&
    (reader = attachedResourceIdInvalid || f.readerId = reader)

namespace ServiceM

open Prog

/-- `NANO_XRCE_ProxyClient_allocate_stream_storage`; `n` tells the calls apart. -/
def allocateStreamStorage (env : ServiceEnv) (c n : ℕ) : ServiceM ℕ := do
  ensure (env.ok (.getStreamStorage n))
  let a ← read
  modify fun a => { a with poolStorageStream := a.poolStorageStream.take () }
  modify fun b => b.updateClient c fun p =>
    { p with streamStorage := p.streamStorage ++ [a.poolStorageStream.next] }
  pure a.poolStorageStream.next

/-- `NANO_XRCE_Agent_register_user_stream`. -/
def registerUserStream (env : ServiceEnv) (c stream : ℕ) : ServiceM Unit := do
  let r ← allocateStreamStorage env c (stream + 2)
  onFailure (ensure (env.ok (.registerStream stream)))
    (modify fun a => a.releaseStreamStorage c r)
  modify fun a => a.updateClient c fun p => { p with streams := p.streams ++ [stream] }

/-- `NANO_XRCE_Agent_lookup_stream`, which fails when it finds no stream. -/
def lookupStream (env : ServiceEnv) (c stream : ℕ) : ServiceM Unit := do
  let a ← read
  if env.wire.streamBuiltin stream || decide (stream ∈ (a.client c).streams) then pure ()
  else registerUserStream env c stream

/-- `NANO_XRCE_Agent_allocate_reply_message`. -/
def allocateReplyMessage (env : ServiceEnv) (c stream : ℕ) : ServiceM Unit := do
  lookupStream env c stream
  ensure (env.ok .allocateReply)

/-- `NANO_XRCE_Agent_new_client_request`. -/
def newClientRequest (env : ServiceEnv) (c stream : ℕ) (m : Submessage) (reply : Bool) :
    ServiceM ℕ := do
  ensure (env.ok .getRequest)
  let a ← read
  let r := (a.client c).requestsPool.next
  modify fun a => a.updateClient c fun p =>
    { p with
      requestsPool := p.requestsPool.take ⟨stream, m.id, m.requestId, m.objectId, reply, false⟩ }
  onlyIf (env.wire.streamReliable stream && reply) do
    onFailure (allocateReplyMessage env c stream) (modify fun a => a.returnClientRequest c r)
    modify fun a => a.updateRequest c r fun q => { q with replyMbuf := true }
  pure r

/-- The stream and the message of a reply. On a reliable stream the message was
allocated together with the request. -/
def prepareReply (env : ServiceEnv) (c stream : ℕ) : ServiceM Unit :=
  if env.wire.streamReliable stream then lookupStream env c stream
  else allocateReplyMessage env c stream

/-- `NANO_XRCE_Agent_reply_to_operation`. Sending consumes the reply also when it
fails. -/
def replyToOperation (env : ServiceEnv) (c r : ℕ) (success : Bool) : ServiceM Unit := do
  let a ← read
  let q := a.request c r
  prepareReply env c q.streamId
  modify fun a => a.updateRequest c r fun q => { q with replyMbuf := false, reply := false }
  ensure (env.ok .sendReply)
  modify fun a =>
    a.sendOnStream env.wire c q.streamId (.status q.requestId q.objectId success)

/-- `NANO_XRCE_Agent_reply_to_connection`. -/
def replyToConnection (env : ServiceEnv) (c : ℕ) : ServiceM Unit := do
  ensure (env.ok .allocateReply)
  ensure (env.ok .sendReply)
  modify fun a => a.send c .statusAgent

/-- `D2S2_Agent_return_loan`. The DDS agent takes the sample back before the steps with which
it counts it, and these can fail as well. -/
def returnLoan (env : ServiceEnv) (d : ℕ) : ServiceM Unit := do
  modify fun a => { a with returns := a.returns ++ [d] }
  ensure (env.ok (.takeBack d))
  modify fun a => { a with loans := a.loans.filter fun l => l.rcvdData != d }
  ensure (env.ok (.returnLoan d))

/-- `NANO_XRCE_ProxyClient_dismiss_forward_request`. -/
def dismissForwardRequest (env : ServiceEnv) (c stream sn : ℕ) : ServiceM Unit := do
  let a ← read
  match (a.client c).forwards.find? fun f => f.streamId = stream && f.sn = sn with
  | none => pure ()
  | some f => do
      modify fun a => a.updateClient c fun p => { p with forwards := p.forwards.erase f }
      returnLoan env f.rcvdData

/-- `NANO_XRCE_ProxyClient_on_send_complete`. -/
def onSendComplete (env : ServiceEnv) (c : ℕ) (m : QueuedMessage) : ServiceM Unit :=
  onlyIf m.kind.isData (ignore (dismissForwardRequest env c m.streamId m.sn))

/-- The message `m` leaves the send queue of the client: it was acknowledged, or given up. Either
way its forward request is dismissed. -/
def acknowledge (env : ServiceEnv) (c : ℕ) (m : QueuedMessage) : ServiceM Unit := do
  let a ← read
  ensure (m ∈ (a.client c).sendQueue)
  modify fun a => a.updateClient c fun p => { p with sendQueue := p.sendQueue.erase m }
  onSendComplete env c m

/-- `NANO_XRCE_Session_dismiss_send_queue_up_to` of nano-client, with the
notification of each message it removes. It returns the number of these. -/
def dismissSendQueueUpTo (env : ServiceEnv) (c stream sn : ℕ) : ServiceM ℕ := do
  let a ← read
  let gone := (a.client c).sendQueue.filter fun m => m.streamId = stream && m.sn ≤ sn
  modify fun a => a.updateClient c fun p =>
    { p with sendQueue := p.sendQueue.filter fun m => !(m.streamId = stream && m.sn ≤ sn) }
  forEach gone fun m => onSendComplete env c m
  pure gone.length

/-- The loop of `NANO_XRCE_Agent_dismiss_client_fwd_data_requests`, which starts
again from the first forward request after every dismissal. The first argument
bounds the number of rounds. -/
def dismissChosen (env : ServiceEnv) (c : ℕ) (stream : Option ℕ) (reader : ℕ) :
    ℕ → ServiceM Unit
  | 0 => pure ()
  | n + 1 => do
      let a ← read
      match (a.client c).forwards.find? (ForwardDataRequest.chosen stream reader) with
      | none => pure ()
      | some f => do
          ignore (lookupStream env c f.streamId)
          let removed ← dismissSendQueueUpTo env c f.streamId f.sn
          if removed = 0 then pure () else dismissChosen env c stream reader n

/-- `NANO_XRCE_Agent_dismiss_client_fwd_data_requests`. Each round but the last removes
a message from a send queue, so their number bounds the rounds. -/
def dismissClientFwdDataRequests (env : ServiceEnv) (c : ℕ) (stream : Option ℕ) (reader : ℕ) :
    ServiceM Unit := do
  let a ← read
  dismissChosen env c stream reader ((a.client c).sendQueue.length + 1)

/-- `NANO_XRCE_Agent_dispose_client_session`. -/
def disposeClientSession (env : ServiceEnv) (c : ℕ) (request : Option ℕ) : ServiceM Unit := do
  let a ← read
  onlyIf (!(a.client c).disposed) do
    modify fun a => a.updateClient c fun p =>
      { p with disposed := true, disposeRequest := request }
    onlyIf request.isSome
      (modify fun a => a.updateRequest c (request.getD 0) fun q => { q with reply := false })
    dismissClientFwdDataRequests env c none attachedResourceIdInvalid

end ServiceM

end NanoAgent
