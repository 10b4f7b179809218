import NanoAgent.Service.Submessage
import Mathlib.Algebra.Group.Nat.Defs

/-!
# Connections

`receiveMessage` is the entry of every message of a transport. A message for a
session goes to `receiveOnSession`; a `CREATE_CLIENT` goes to
`processCreateClient`, which takes a proxy client, binds it to the peer and opens
a session of the DDS agent with it. Opening calls back `onSessionOpened` for a
new session and `onSessionReset` for the session that has the key already, and
closing calls back `onSessionClosed`.

Of the DDS agent this has what concerns its sessions. That resources are attached
to a new session and that the reads of a session are cancelled are answers of the
environment.
-/

namespace NanoAgent

/-- The byte of a message at a position. -/
def Message.byte (m : Message) (i : ℕ) : ℕ := m.bytes.getD i 0

/-- `NANO_XRCE_InlineHeaderBuffer_session_id`. -/
def Message.sessionId (m : Message) : ℕ := m.byte 0

/-- The key of the session that a client representation asks for. -/
def ClientRepresentation.sessionKey (repr : ClientRepresentation) :
    ClientSessionKey :=
  ⟨repr.clientKey, repr.sessionId⟩

/-- The session id of a message that is not for a session. -/
def Wire.noSession (w : Wire) (sid : ℕ) : Bool :=
  sid = w.sessionIdNoneWithClient || sid = w.sessionIdNoneWithoutClient

/-- The client representation in a submessage. A submessage that is not a `CREATE_CLIENT`
leaves the representation as it is initialised. -/
def decodeClientRepr (w : Wire) (m : Message) (offset length : ℕ) :
    Option ClientRepresentation :=
  if m.byte offset = w.submessageIdCreateClient then
    w.deserializeClientRepresentation ((m.bytes.drop (offset + 4)).take length)
      (m.byte (offset + 1))
  else some w.clientRepresentationInitializer

/-- `NANO_XRCE_Agent_deserialize_client_repr`; the flag is `key_changed`. The
subtraction of the declared length is one of machine integers. -/
def deserializeClientRepr (w : Wire) (key sid : ℕ) (m : Message) :
    Option (ClientRepresentation × Bool) :=
  let offset := w.submsgOffset sid
  let dataLen := m.bytes.length - offset
  let length := m.byte (offset + 2) + 256 * m.byte (offset + 3)
  if m.bytes.length < w.headerSize sid + w.createClientHeaderSizeMin then none
  else if 4 < (dataLen + 2 ^ w.usizeBits - length) % 2 ^ w.usizeBits then none
  else
    (decodeClientRepr w m offset length).bind fun repr =>
      if w.cookieValid repr.xrceCookie && w.versionCompatible repr.xrceVersion then
        some (repr, key != w.clientKeyInvalid && key != repr.clientKey)
      else none

/-- The client that a `CREATE_CLIENT` message asks to connect. -/
def Message.clientRepr (w : Wire) (m : Message) : Option ClientRepresentation :=
  (deserializeClientRepr w w.clientKeyInvalid m.sessionId m).map Prod.fst

namespace Service

/-- `NANO_XRCE_ProxyClient_finalize`: the stream storage records are released; the
session storage record is not. -/
def finalizeProxyClient (a : Service) (c : ℕ) : Service :=
  (a.client c).streamStorage.foldl (fun a r => a.releaseStreamStorage c r) a

/-- `NANO_XRCE_Agent_delete_client_session`. -/
def deleteClientSession (a : Service) (c : ℕ) : Service :=
  let b := a.finalizeProxyClient c
  { b with clientsPool := b.clientsPool.giveBack c }

/-- Hand an event to the event generator, in place of its pending posting. -/
def postSessionEvent (a : Service) (p : Posting) : Service :=
  { a with posted := a.posted.filter (fun q => q.event != p.event) ++ [p] }

end Service

namespace ServiceM

open Prog

/-- `NANO_XRCE_ProxyClient_initialize`. -/
def initializeProxyClient (env : ServiceEnv) (c : ℕ) (repr : ClientRepresentation) :
    ServiceM Unit := do
  modify fun a => a.updateClient c fun _ => .initializer
  ensure (env.ok .getSessionStorage)
  let a ← read
  modify fun b => { b with poolStorageSession := b.poolStorageSession.take () }
  modify fun b => b.updateClient c fun p =>
    { p with storage := some a.poolStorageSession.next }
  let _ ← allocateStreamStorage env c 0
  let _ ← allocateStreamStorage env c 1
  ensure (env.ok (.newPool 0) && env.ok (.newPool 1) && env.ok (.newPool 2))
  ensure (env.ok .initializeSession)
  modify fun a => a.updateClient c fun p =>
    { p with key := repr.clientKey, sessionId := repr.sessionId }

/-- `NANO_XRCE_ProxyClientTransport_set_bind_entry`. -/
def setBindEntry (env : ServiceEnv) (c : ℕ) (src : BindEntry) : ServiceM Unit := do
  modify fun a => a.updateClient c fun p =>
    { p with bindEntry := ⟨src.transport, p.bindEntry.locator⟩ }
  ensure (env.ok .copyBindLocator)
  modify fun a => a.updateClient c fun p => { p with bindEntry := src }

/-- The entry of `NANO_XRCE_AgentInterface_on_session_opened` for a locator without a
mapping. When the array cannot grow it is gone, and the length stays. -/
def growMappings (env : ServiceEnv) : ServiceM Unit := do
  onFailure (ensure (env.ok .reallocateMappings))
    (modify fun a => ({ a with clientMappings := [] } : Service).giveMutex)
  modify fun a =>
    { a with
      clientMappings := a.clientMappings ++ [default]
      clientMappingsLen := a.clientMappingsLen + 1 }

/-- The part of `NANO_XRCE_AgentInterface_on_session_opened` that fills in the mapping at a
position. -/
def storeMapping (env : ServiceEnv) (c i : ℕ) : ServiceM Unit := do
  modify fun a =>
    { a with
      clientMappings := a.clientMappings.modify i fun m =>
        { m with clientKey := (a.client c).key } }
  onFailure (ensure (env.ok .copyMappingLocator)) (modify fun a => a.giveMutex)
  modify fun a =>
    { a with
      clientMappings := a.clientMappings.modify i fun m =>
        { m with locator := (a.client c).bindEntry.locator } }
  modify fun a => a.giveMutex

/-- The update of the mapping table for the locator of a client. -/
def recordMapping (env : ServiceEnv) (c : ℕ) : ServiceM Unit := do
  let a ← read
  match a.findClientLocatorMapping (a.client c).bindEntry.locator with
  | some i => storeMapping env c i
  | none => do
      growMappings env
      storeMapping env c a.clientMappingsLen

/-- The part of `NANO_XRCE_AgentInterface_on_session_opened` that records the locator of a
client. -/
def cacheClientMapping (env : ServiceEnv) (c : ℕ) : ServiceM Unit := do
  modify fun a => a.updateClient c fun p => { p with cacheMapping := false }
  modify fun a => a.takeMutex
  recordMapping env c

/-- `NDDSA_Agent_create_session_event`. -/
def createSessionEvent (env : ServiceEnv) (key : ClientSessionKey) (c : ℕ) : ServiceM ℕ := do
  let a ← read
  let s ← require (a.sessions.lookup key)
  ensure (s.intf = a.intf)
  ensure (env.ok .getEvent)
  modify fun a => { a with poolEventsSession := a.poolEventsSession.take ⟨a.intf, key, c⟩ }
  pure a.poolEventsSession.next

/-- `NDDSA_Agent_fire_session_event`. -/
def fireSessionEvent (env : ServiceEnv) (e : ℕ) : ServiceM Unit := do
  ensure (env.ok .postEvent)
  modify fun a => a.postSessionEvent ⟨e, false⟩

/-- `NDDSA_Agent_delete_session_event`: the event is posted as cancelled and returned to
the pool. -/
def deleteSessionEvent (env : ServiceEnv) (e : ℕ) : ServiceM Unit := do
  ensure (env.ok .postEvent)
  modify fun a => a.postSessionEvent ⟨e, true⟩
  modify fun a => { a with poolEventsSession := a.poolEventsSession.giveBack e }

/-- The part of `NANO_XRCE_AgentInterface_on_session_opened` that starts the periodic
heartbeat. -/
def scheduleHeartbeat (env : ServiceEnv) (key : ClientSessionKey) (c : ℕ) : ServiceM Unit := do
  let e ← createSessionEvent env key c
  modify fun a => a.updateClient c fun p => { p with eventHb := some e }
  fireSessionEvent env e

/-- `NANO_XRCE_AgentInterface_on_session_opened`. -/
def onSessionOpened (env : ServiceEnv) (key : ClientSessionKey) (c : ℕ) : ServiceM Unit := do
  modify fun a => a.updateClient c fun p => { p with ddsSession := some key }
  let a ← read
  onlyIf (a.client c).cacheMapping (cacheClientMapping env c)
  modify fun a => a.updateClient c fun p => { p with connected := true }
  replyToConnection env c
  onlyIf (a.heartbeatPeriod != 0) (scheduleHeartbeat env key c)

/-- `NANO_XRCE_AgentInterface_on_session_reset`. The proxy client of the session stays in
use; the one made for the connection is not looked at. -/
def onSessionReset (env : ServiceEnv) (key : ClientSessionKey) (old : ℕ) : ServiceM ℕ := do
  modify fun a => a.updateClient old fun p => { p with ddsSession := some key }
  dismissClientFwdDataRequests env old none attachedResourceIdInvalid
  modify fun a => a.updateClient old fun p =>
    { p with connected := false, sendQueue := [], lastSn := fun _ => 0 }
  replyToConnection env old
  modify fun a => a.updateClient old fun p => { p with connected := true }
  pure old

/-- `NDDSA_Agent_open_session` for a key that has a session already. -/
def resetSession (env : ServiceEnv) (key : ClientSessionKey) (s : ClientSession) :
    ServiceM Unit := do
  ensure s.active
  modify fun a => a.updateSession key fun s => { s with resetting := true }
  let a ← read
  ensure (s.intf = a.intf)
  let old ← require s.userData
  let data ← onSessionReset env key old
  modify fun a => a.updateSession key fun s => { s with userData := some data }
  ensure (env.ok .cancelReads)
  modify fun a => a.updateSession key fun s => { s with resetting := false }

/-- `NDDSA_Agent_open_session` for a new key. -/
def openNewSession (env : ServiceEnv) (key : ClientSessionKey) (c : ℕ) : ServiceM Unit := do
  modify fun a =>
    { a with
      sessions := a.sessions.insert key (.initial a.intf a.clientSessionTimeout (some c)) }
  onFailure
    (do
      ensure (env.ok (.newSemaphore 0) && env.ok (.newSemaphore 1))
      ensure (env.ok .attachResources)
      onSessionOpened env key c)
    (onlyIf (env.ok .deleteSession) (modify fun a => { a with sessions := a.sessions.erase key }))

/-- `NDDSA_Agent_on_session_activityI`. -/
def onSessionActivity (env : ServiceEnv) (key : ClientSessionKey) : ServiceM Unit := do
  let a ← read
  let s ← require (a.sessions.lookup key)
  ensure (s.timeout = 0 || env.ok .postActivity)

/-- The session of `NDDSA_Agent_open_session`, reset or new. -/
def resetOrOpenSession (env : ServiceEnv) (key : ClientSessionKey) (c : ℕ) : ServiceM Unit := do
  let a ← read
  match a.sessions.lookup key with
  | some s => resetSession env key s
  | none => openNewSession env key c

/-- `NDDSA_Agent_open_session`. -/
def openSession (env : ServiceEnv) (key : ClientSessionKey) (c : ℕ) : ServiceM Unit := do
  ensure (env.ok .insertSession)
  resetOrOpenSession env key c
  onSessionActivity env key
  ensure (env.ok .releaseSession)

/-- The part of `NANO_XRCE_Agent_process_create_client` that sets up the proxy client it
took. -/
def prepareClient (env : ServiceEnv) (c : ℕ) (repr : ClientRepresentation) (cache : Bool)
    (src : BindEntry) : ServiceM Unit := do
  initializeProxyClient env c repr
  modify fun a => a.updateClient c fun p => { p with cacheMapping := cache }
  setBindEntry env c src

/-- The part of `NANO_XRCE_Agent_process_create_client` that works on the proxy client it
took. -/
def connectClient (env : ServiceEnv) (c : ℕ) (repr : ClientRepresentation) (cache : Bool)
    (src : BindEntry) : ServiceM Unit := do
  prepareClient env c repr cache src
  openSession env repr.sessionKey c

/-- `NANO_XRCE_Agent_process_create_client`. When it fails, the proxy client it took is
finalized and returned. -/
def processCreateClient (env : ServiceEnv) (key sid : ℕ) (m : Message) (src : BindEntry)
    (keyInHeader missingMapping : Bool) : ServiceM Unit := do
  let (repr, keyChanged) ← require (deserializeClientRepr env.wire key sid m)
  ensure (env.wire.clientRepresentationValid repr)
  ensure (!(keyChanged && keyInHeader))
  ensure (env.ok .getClient)
  let a ← read
  let c := a.clientsPool.next
  modify fun a => { a with clientsPool := a.clientsPool.take .initializer }
  onFailure (connectClient env c repr (missingMapping || keyChanged) src)
    (modify fun a => a.deleteClientSession c)

/-- `NDDSA_Agent_dispose_sessionEA`. -/
def disposeSession (env : ServiceEnv) (key : ClientSessionKey) (s : ClientSession) :
    ServiceM Unit :=
  onlyIf (!s.deleted) do
    modify fun a => a.updateSession key fun s => { s with deleted := true }
    ensure (env.ok .setTrigger)

/-- `NDDSA_Agent_close_session`, up to the point where it waits for the clean-up
handler. -/
def closeSession (env : ServiceEnv) (key : ClientSessionKey) : ServiceM Unit := do
  ensure (env.ok .lockSessions)
  ensure (env.ok .lookupSession)
  let a ← read
  let s ← require (a.sessions.lookup key)
  ensure s.active
  ensure (s.intf = a.intf)
  disposeSession env key s

/-- `NDDSA_Agent_receive_message`. -/
def receiveOnSession (env : ServiceEnv) (key : ClientSessionKey) : ServiceM Unit := do
  ensure (env.ok .lookupSession)
  let a ← read
  match a.sessions.lookup key with
  | none => pure ()
  | some s => do
      ensure s.active
      ensure (s.intf = a.intf)
      onSessionActivity env key
      let c ← require s.userData
      let dispose ← onMessageReceived env c
      onlyIf dispose do
        ensure (env.ok .releaseSession)
        closeSession env key

/-- The key of the client a message is from: the one in its header or, for a
message without one, the one that the sender's locator is mapped to. The flag
says whether there is no such mapping. -/
def identifySender (env : ServiceEnv) (m : Message) (src : BindEntry) :
    ServiceM (ℕ × Bool) := do
  if env.wire.hasClientKey m.sessionId then do
    ensure (env.wire.headerClientKey m != env.wire.clientKeyInvalid)
    pure (env.wire.headerClientKey m, true)
  else do
    modify fun a => a.takeMutex
    let a ← read
    -- this exit does not give the mutex back
    ensure ((a.mappedKey src.locator).isSome || a.autoClientMapping)
    modify fun a => a.giveMutex
    pure ((a.mappedKey src.locator).getD env.wire.clientKeyInvalid,
      (a.mappedKey src.locator).isNone)

/-- The part of `NANO_XRCE_Agent_receive_message` for a message whose sender is known. -/
def receiveFrom (env : ServiceEnv) (src : BindEntry) (m : Message) (key : ℕ) (missing : Bool) :
    ServiceM Unit :=
  if env.wire.noSession m.sessionId then
    processCreateClient env key m.sessionId m src (env.wire.hasClientKey m.sessionId) missing
  else do
    ensure (env.wire.hasClientKey m.sessionId || !missing)
    receiveOnSession env ⟨key, m.sessionId⟩

/-- `NANO_XRCE_Agent_receive_message`. -/
def receiveMessage (env : ServiceEnv) (src : BindEntry) (m : Message) : ServiceM Unit := do
  ensure (env.wire.headerSize m.sessionId ≤ m.bytes.length)
  let sender ← identifySender env m src
  receiveFrom env src m sender.1 sender.2

/-- `NANO_XRCE_AgentInterface_on_session_closed`. When the reply to the client cannot be sent,
the proxy client is left behind. -/
def onSessionClosed (env : ServiceEnv) (c : ℕ) : ServiceM Unit := do
  let a ← read
  let request := (a.client c).disposeRequest
  modify fun a => a.updateClient c fun p => { p with disposeRequest := none }
  onlyIf request.isSome do
    let r := request.getD 0
    modify fun a => a.updateRequest c r fun q => { q with reply := true }
    onFailure (replyToOperation env c r true) (modify fun a => a.returnClientRequest c r)
    modify fun a => a.returnClientRequest c r
  modify fun a => a.deleteClientSession c

/-- `NDDSA_Agent_close_session`, from the point where the clean-up handler has
given `semCleanup`. -/
def finishCloseSession (env : ServiceEnv) (key : ClientSessionKey) : ServiceM Unit := do
  let a ← read
  let s ← require (a.sessions.lookup key)
  ensure s.semCleanup
  ensure (env.ok .lookupSession)
  modify fun a => a.updateSession key fun s => { s with semCleanup := false }
  ensure (env.ok .releaseSession)
  ensure (env.ok .deleteSession)
  modify fun a => { a with sessions := a.sessions.erase key }
  ensure (env.ok .unlockSessions)
  let c ← require s.userData
  onSessionClosed env c

/-- `NANO_XRCE_AgentInterface_on_session_timed_out`. -/
def onSessionTimedOut (env : ServiceEnv) (c : ℕ) : ServiceM Unit := do
  let a ← read
  onlyIf (a.client c).eventHb.isSome (deleteSessionEvent env ((a.client c).eventHb.getD 0))
  disposeClientSession env c none

/-- `NDDSA_Agent_on_session_timeout`. -/
def onSessionTimeout (env : ServiceEnv) (key : ClientSessionKey) : ServiceM Unit := do
  ensure (env.ok .lookupSession)
  let a ← read
  let s ← require (a.sessions.lookup key)
  ensure s.active
  modify fun a => a.updateSession key fun s => { s with timedout := true }
  let c ← require s.userData
  ignore (onSessionTimedOut env c)
  disposeSession env key s
  ensure (env.ok .releaseSession)

/-- What `NDDSA_Agent_on_cleanup_sessions` does with a session: it is finalized, and then
the record of a session that timed out is removed, and the closer of any other
session told to go on. -/
def cleanupSession (env : ServiceEnv) (key : ClientSessionKey) : ServiceM Unit := do
  let a ← read
  let s ← require (a.sessions.lookup key)
  ensure s.deleted
  ensure (env.ok .finalizeSession)
  if s.timedout then do
    ensure (env.ok .releaseSession)
    ensure (env.ok .deleteSession)
    modify fun a => { a with sessions := a.sessions.erase key }
    let c ← require s.userData
    onSessionClosed env c
  else
    modify fun a => a.updateSession key fun s => { s with semCleanup := true }

/-- `NANO_XRCE_Agent_on_periodic_heartbeat`; the result is `reschedule_out`. -/
def onPeriodicHeartbeat (env : ServiceEnv) (c : ℕ) : ServiceM Bool := do
  let a ← read
  if (a.client c).disposed || !env.ok .sendHeartbeat then pure false
  else do
    modify fun a => a.send c .heartbeat
    pure true

/-- `NDDSA_Agent_on_session_event`. -/
def onSessionEvent (env : ServiceEnv) (p : Posting) : ServiceM Unit := do
  let a ← read
  let event := a.poolEventsSession.content p.event
  ensure (env.ok .lookupSession)
  let s ← require (a.sessions.lookup event.sessionKey)
  ensure s.active
  ensure (s.intf = event.intf)
  ensure (!p.cancelled)
  let reschedule ← onPeriodicHeartbeat env event.listener
  onlyIf reschedule (fireSessionEvent env p.event)

end ServiceM

end NanoAgent
