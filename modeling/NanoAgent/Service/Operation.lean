import NanoAgent.Service.ClientWork
import NanoAgent.Foundations.Run

/-!
# Runs of the XRCE agent

A `ServiceOperation` is the reception of a message, the delivery of a sample by the DDS
agent or its call to release those of a read, the acknowledgement of a message by a client,
an event of the event generator, or a step of the closing of a session. An event that is due
is first dispatched, on a thread of its own, and its handler runs later, when it has the
record of its session.
-/

namespace NanoAgent

/-- What can happen to the XRCE agent. -/
inductive ServiceOperation
  | receiveMessage (src : BindEntry) (m : Message)
  | deliverSample (key : ClientSessionKey) (readerId d : ℕ)
  | releaseReadSamples (key : ClientSessionKey) (readerId : ℕ)
  | acknowledge (key : ClientSessionKey) (m : QueuedMessage)
  | sessionTimeout (key : ClientSessionKey)
  | cleanupSession (key : ClientSessionKey)
  | finishCloseSession (key : ClientSessionKey)
  | dispatchEvent (p : Posting)
  | sessionEvent (p : Posting)

/-- The message format of DDS-XRCE as nano-client has it: session ids below 128 are
followed by the key of the client, and streams from 128 on are reliable. -/
def Wire.xrce : Wire where
  usizeBits := 32
  headerSize sid := if sid < 128 then 8 else 4
  hasClientKey sid := decide (sid < 128)
  submsgOffset sid := if sid < 128 then 8 else 4
  createClientHeaderSizeMin := 4
  sessionIdNoneWithClient := 0
  sessionIdNoneWithoutClient := 128
  submessageIdCreateClient := 0
  clientKeyInvalid := 0
  headerClientKey m := m.byte 4 + 256 * (m.byte 5 + 256 * (m.byte 6 + 256 * m.byte 7))
  deserializeClientRepresentation
    | c :: _ :: _ :: _ :: v :: _ :: _ :: _ :: k₀ :: k₁ :: k₂ :: k₃ :: sid :: _, _ =>
        some ⟨c, v, k₀ + 256 * (k₁ + 256 * (k₂ + 256 * k₃)), sid⟩
    | _, _ => none
  clientRepresentationInitializer := ⟨88, 1, 0, 0⟩
  clientRepresentationValid r := r.clientKey != 0
  cookieValid c := c == 88
  versionCompatible v := v == 1
  streamBuiltin s := s == 0 || s == 1 || s == 128
  streamReliable s := decide (128 ≤ s)

/-- An environment in which every call succeeds and the message has no
submessage. -/
def ServiceEnv.obliging : ServiceEnv where
  wire := .xrce
  ok _ := true
  stream := some 128
  dispatched := []
  received := true
  fragments := 1

/-- A `CREATE_CLIENT` message without a key in its header. -/
def Message.createClient (key sid : ℕ) : Message :=
  ⟨[128, 0, 0, 0, 0, 1, 16, 0, 88, 82, 67, 69, 1, 0, 1, 1, key, 0, 0, 0, sid, 0, 0, 0]⟩

/-- Two peers, on different transports. -/
def BindEntry.first : BindEntry := ⟨1, ⟨0, [10]⟩⟩

def BindEntry.second : BindEntry := ⟨2, ⟨0, [20]⟩⟩

/-- The proxy client of the session of a key. -/
def Service.clientOf (a : Service) (key : ClientSessionKey) : Option ℕ :=
  (a.sessions.lookup key).bind fun s => s.userData

namespace ServiceOperation

open Prog

/-- The program of an operation. -/
def run (env : ServiceEnv) : ServiceOperation → ServiceM Unit
  | receiveMessage src m => ServiceM.receiveMessage env src m
  | deliverSample key readerId d => do
      let a ← read
      let c ← require (a.clientOf key)
      ServiceM.deliverSample env c readerId d
  | releaseReadSamples key readerId => do
      let a ← read
      let c ← require (a.clientOf key)
      ServiceM.onReleaseReadSamples env c readerId
  | acknowledge key m => do
      let a ← read
      let c ← require (a.clientOf key)
      ServiceM.acknowledge env c m
  | sessionTimeout key => ServiceM.onSessionTimeout env key
  | cleanupSession key => ServiceM.cleanupSession env key
  | finishCloseSession key => ServiceM.finishCloseSession env key
  | dispatchEvent p => do
      let a ← read
      ensure (p ∈ a.posted)
      modify fun a => { a with posted := a.posted.erase p, dispatched := a.dispatched ++ [p] }
  | sessionEvent p => do
      let a ← read
      ensure (p ∈ a.dispatched)
      modify fun a => { a with dispatched := a.dispatched.erase p }
      ServiceM.onSessionEvent env p

theorem deliverSample_work (env : ServiceEnv) (key : ClientSessionKey) (id d : ℕ) :
    Within ClientWork ((deliverSample key id d).run env) :=
  .read fun _ => .bind (.require _) fun c => ServiceM.deliverSample_work env c id d

theorem releaseReadSamples_work (env : ServiceEnv) (key : ClientSessionKey) (id : ℕ) :
    Within ClientWork ((releaseReadSamples key id).run env) :=
  .read fun _ => .bind (.require _) fun c => ServiceM.onReleaseReadSamples_work env c id

theorem acknowledge_work (env : ServiceEnv) (key : ClientSessionKey) (m : QueuedMessage) :
    Within ClientWork ((acknowledge key m).run env) := by
  refine .read fun _ => .bind (.require _) fun c => .read fun _ => .bind (.ensure _) fun _ => ?_
  refine .bind (.modify fun b => .updateClient b c fun _ => rfl) fun _ => ?_
  exact ServiceM.onSendComplete_work env c m

end ServiceOperation

namespace Service

/-- Carry out an operation. -/
def step (a : Service) (i : ServiceOperation × ServiceEnv) : Service := (i.1.run i.2 a).2

/-- The agent as it is started, without configured mappings. -/
structure Initial (a : Service) : Prop where
  mappingsMutex : a.mappingsMutex = ⟨0, false⟩
  clientMappings : a.clientMappings = []
  clientMappingsLen : a.clientMappingsLen = 0
  clientsNext : a.clientsPool.next = 0
  clientsReturned : a.clientsPool.returned = []
  storageSessionNext : a.poolStorageSession.next = 0
  storageSessionReturned : a.poolStorageSession.returned = []
  storageStreamNext : a.poolStorageStream.next = 0
  storageStreamReturned : a.poolStorageStream.returned = []
  eventsNext : a.poolEventsSession.next = 0
  eventsReturned : a.poolEventsSession.returned = []
  sessions : a.sessions = ∅
  loans : a.loans = []
  returns : a.returns = []
  posted : a.posted = []
  dispatched : a.dispatched = []
  sent : a.sent = []

/-- An agent that has just been started. -/
def started (autoMapping : Bool) (heartbeatPeriod timeout : ℕ) : Service where
  intf := 1
  autoClientMapping := autoMapping
  confirmAllRequests := false
  heartbeatPeriod := heartbeatPeriod
  clientSessionTimeout := timeout
  mappingsMutex := ⟨0, false⟩
  clientMappings := []
  clientMappingsLen := 0
  clientsPool := .empty .initializer
  poolStorageSession := .empty ()
  poolStorageStream := .empty ()
  poolEventsSession := .empty ⟨0, ⟨0, 0⟩, 0⟩
  sessions := ∅
  loans := []
  returns := []
  posted := []
  dispatched := []
  sent := []

theorem started_initial (autoMapping : Bool) (heartbeatPeriod timeout : ℕ) :
    (started autoMapping heartbeatPeriod timeout).Initial :=
  ⟨rfl, rfl, rfl, rfl, rfl, rfl, rfl, rfl, rfl, rfl, rfl, rfl, rfl, rfl, rfl, rfl, rfl⟩

/-- The state after a list of operations. -/
def after (a : Service) (run : List (ServiceOperation × ServiceEnv)) : Service :=
  run.foldl step a

/-- The states reached by runs whose steps meet `ok`. -/
abbrev ReachedWhen (ok : Service → ServiceOperation × ServiceEnv → Prop) : Service → Prop :=
  Reachable Initial step ok

theorem reached_after {a : Service} (h : a.Initial)
    (run : List (ServiceOperation × ServiceEnv)) : (a.after run).ReachedWhen fun _ _ => True :=
  Reachable.foldl run (.start h)

end Service

end NanoAgent
