import NanoAgent.DdsAgent.Session

/-!
# The data of the XRCE agent

The XRCE agent is the interface through which clients reach the DDS agent. For
each session it keeps a `ProxyClient`, which is the `userData` of the session
record of the DDS agent. A proxy client is bound to the peer its session was
created from, by its `bindEntry`; everything it sends leaves through that
transport to that locator. Peers whose messages carry no client key are
recognised by the table `clientMappings`, which is guarded by `mappingsMutex`.

Proxy clients, their storage records, their requests and the events of their
sessions are buffers of pools, referred to by name. The message format and the
session layer of nano-client are not part of this repository; what the agent
uses of them is a parameter, `Wire`.
-/

namespace NanoAgent

/-- `NANO_XRCE_TransportLocator`. -/
structure Locator where
  medium : ℕ
  address : List ℕ
  deriving DecidableEq, Repr, Inhabited

/-- `NANO_XRCE_AgentTransportBindEntry`: the transport and the locator through
which a client is reached. -/
structure BindEntry where
  transport : ℕ
  locator : Locator
  deriving DecidableEq, Repr, Inhabited

/-- `NANO_XRCE_ClientLocatorMapping`. -/
structure ClientLocatorMapping where
  clientKey : ℕ
  locator : Locator
  deriving DecidableEq, Repr, Inhabited

/-- `NANO_XRCE_ClientRepresentation`. -/
structure ClientRepresentation where
  xrceCookie : ℕ
  xrceVersion : ℕ
  clientKey : ℕ
  sessionId : ℕ
  deriving DecidableEq, Repr

/-- A message as it is received. -/
structure Message where
  bytes : List ℕ
  deriving DecidableEq, Repr

/-- The message format of nano-client: sizes, constants and decoders that the
agent uses. -/
structure Wire where
  usizeBits : ℕ
  headerSize : ℕ → ℕ
  hasClientKey : ℕ → Bool
  submsgOffset : ℕ → ℕ
  createClientHeaderSizeMin : ℕ
  sessionIdNoneWithClient : ℕ
  sessionIdNoneWithoutClient : ℕ
  submessageIdCreateClient : ℕ
  clientKeyInvalid : ℕ
  headerClientKey : Message → ℕ
  deserializeClientRepresentation : List ℕ → ℕ → Option ClientRepresentation
  clientRepresentationInitializer : ClientRepresentation
  clientRepresentationValid : ClientRepresentation → Bool
  cookieValid : ℕ → Bool
  versionCompatible : ℕ → Bool
  streamBuiltin : ℕ → Bool
  streamReliable : ℕ → Bool

/-- `NANO_XRCE_ObjectKind`. -/
inductive ObjectKind
  | invalid | participant | topic | publisher | subscriber | dataReader | type | qosProfile
  | application | agent | client | domain | dataWriter
  deriving DecidableEq, Repr

/-- `NANO_XRCE_ObjectId`. -/
structure ObjectId where
  kind : ObjectKind
  value : ℕ
  deriving DecidableEq, Repr

/-- `NANO_XRCE_SubmessageId`, for the submessages a proxy client handles. -/
inductive SubmessageId
  | create | delete | writeData | readData | getInfo | other
  deriving DecidableEq, Repr

/-- `NANO_XRCE_DataFormat`. -/
inductive DataFormat
  | data | dataSeq | sample | sampleSeq | packedSamples | invalid
  deriving DecidableEq, Repr

/-- `NANO_XRCE_ProxyClientRequest`. -/
structure ProxyClientRequest where
  streamId : ℕ
  submsgId : SubmessageId
  requestId : ℕ
  objectId : ObjectId
  reply : Bool
  replyMbuf : Bool
  deriving DecidableEq, Repr

/-- `NANO_XRCE_ForwardDataRequest`: a message that carries a sample and whose
delivery is not known yet. `readerId` is the reader of the sample. -/
structure ForwardDataRequest where
  rcvdData : ℕ
  readerId : ℕ
  streamId : ℕ
  sn : ℕ
  deriving DecidableEq, Repr

/-- The messages a proxy client sends. -/
inductive OutputKind
  | statusAgent
  | status (requestId : ℕ) (objectId : ObjectId) (success : Bool)
  | data (readerId : ℕ)
  | heartbeat
  deriving DecidableEq, Repr

namespace OutputKind

/-- The submessage is a `DATA` or a `FRAGMENT`. -/
def isData : OutputKind → Bool
  | data _ => true
  | _ => false

/-- The data reader that a message is of: it carries a sample of the reader, or the reply to
a request for it. -/
def reader : OutputKind → Option ℕ
  | data id => some id
  | status _ ⟨.dataReader, id⟩ _ => some id
  | _ => none

end OutputKind

/-- A message in the send queue of a reliable stream. -/
structure QueuedMessage where
  streamId : ℕ
  sn : ℕ
  kind : OutputKind
  deriving DecidableEq, Repr

/-- `NANO_XRCE_ReaderState`. -/
structure ReaderState where
  req : Option ℕ
  readFmt : DataFormat
  readSpec : ReadSpecification
  streamId : ℕ
  forward : Bool
  deriving DecidableEq, Repr

/-- `NANO_XRCE_ProxyClient`. `key`, `sessionId`, `connected`, `streams`,
`sendQueue` and `lastSn` are of its XRCE session; `readers` are the states of the
data readers attached to its DDS session. -/
structure ProxyClient where
  key : ℕ
  sessionId : ℕ
  connected : Bool
  streams : List ℕ
  sendQueue : List QueuedMessage
  lastSn : ℕ → ℕ
  bindEntry : BindEntry
  ddsSession : Option ClientSessionKey
  storage : Option ℕ
  streamStorage : List ℕ
  forwards : List ForwardDataRequest
  disposed : Bool
  disposeRequest : Option ℕ
  eventHb : Option ℕ
  cacheMapping : Bool
  requestsPool : BufferPool ProxyClientRequest
  readers : AList (fun _ : ℕ => ReaderState)

/-- `NANO_XRCE_PROXYCLIENT_INITIALIZER`. -/
def ProxyClient.initializer : ProxyClient where
  key := 0
  sessionId := 0
  connected := false
  streams := []
  sendQueue := []
  lastSn _ := 0
  bindEntry := default
  ddsSession := none
  storage := none
  streamStorage := []
  forwards := []
  disposed := false
  disposeRequest := none
  eventHb := none
  cacheMapping := false
  requestsPool := .empty ⟨0, .other, 0, ⟨.invalid, 0⟩, false, false⟩
  readers := ∅

/-- `NDDSA_ClientSessionEvent`. -/
structure SessionEvent where
  intf : ℕ
  sessionKey : ClientSessionKey
  listener : ℕ
  deriving DecidableEq, Repr

/-- An event handed to the event generator. `cancelled` is what the listener storage
says at the time of the posting. -/
structure Posting where
  event : ℕ
  cancelled : Bool
  deriving DecidableEq, Repr

/-- A sample that is on loan to a client. -/
structure Loan where
  client : ℕ
  readerId : ℕ
  rcvdData : ℕ
  deriving DecidableEq, Repr

/-- A message handed to a transport by `NANO_XRCE_ProxyClientTransport_flush_output`. -/
structure SentMessage where
  client : ℕ
  kind : OutputKind
  via : BindEntry
  deriving DecidableEq, Repr

/-- The mutex as the calling thread sees it: how often the thread holds it, and
whether it was ever taken by a thread that held it already. -/
structure Mutex where
  depth : ℕ
  retaken : Bool
  deriving DecidableEq, Repr

namespace Mutex

/-- `RTIOsapiSemaphore_take`. -/
def take (m : Mutex) : Mutex := ⟨m.depth + 1, m.retaken || decide (0 < m.depth)⟩

/-- `RTIOsapiSemaphore_give`. -/
def give (m : Mutex) : Mutex := ⟨m.depth - 1, m.retaken⟩

end Mutex

end NanoAgent
