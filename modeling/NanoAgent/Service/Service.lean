import NanoAgent.Service.Data

/-!
# The state of the XRCE agent and its environment

`Service` is the state of `NANO_XRCE_Agent` together with the part of the DDS
agent that concerns its sessions: the session table, the session events and the
samples on loan. `returns` lists the calls of `D2S2_Agent_return_loan`, and `sent` what was
handed to the transports.

A `ServiceEnv` answers the calls that leave the agent: allocations, calls of
nano-client and of the DDS agent, and the contents of a received message.
-/

namespace NanoAgent

/-- A call whose success is decided outside the XRCE agent. -/
inductive ServiceCall
  | getClient | getSessionStorage | getStreamStorage (n : ℕ) | newPool (n : ℕ)
  | initializeSession | registerStream (stream : ℕ)
  | copyBindLocator | copyMappingLocator | reallocateMappings
  | getRequest | allocateReply | sendReply
  | getForward (n : ℕ) | allocateData (n : ℕ) | sendData (n : ℕ) | takeBack (d : ℕ)
  | returnLoan (d : ℕ)
  | insertSession | newSemaphore (n : ℕ) | attachResources | cancelReads | deleteSession
  | lookupSession | releaseSession | lockSessions | unlockSessions | postActivity | setTrigger
  | getEvent | postEvent | sendHeartbeat
  | decode | operation | lookupResource | readOnAgent | getReaderState | finalizeSession
  deriving DecidableEq, Repr

/-- A submessage as its header and payload decode. -/
structure Submessage where
  id : SubmessageId
  requestId : ℕ
  objectId : ObjectId
  confirm : Bool
  format : DataFormat
  preferredStreamId : ℕ
  deliveryCtrl : Option (ℕ × ℕ × ℕ)
  contentFilterExpr : Option String
  deriving DecidableEq, Repr

/-- The answers of the environment during one operation. `stream` is what
`NANO_XRCE_Session_parse_xrce_message_header` finds, `dispatched` the submessages
that the XRCE session passes to its listener, each with the answers it meets, and
`received` whether the session then reports success. `fragments` is the number of
messages that carry a sample. -/
structure ServiceEnv where
  wire : Wire
  ok : ServiceCall → Bool
  stream : Option ℕ
  dispatched : List (Submessage × (ServiceCall → Bool))
  received : Bool
  fragments : ℕ

/-- The state of `NANO_XRCE_Agent` and of the sessions of the DDS agent. -/
structure Service where
  intf : ℕ
  autoClientMapping : Bool
  confirmAllRequests : Bool
  heartbeatPeriod : ℕ
  clientSessionTimeout : ℕ
  mappingsMutex : Mutex
  clientMappings : List ClientLocatorMapping
  clientMappingsLen : ℕ
  clientsPool : BufferPool ProxyClient
  poolStorageSession : BufferPool Unit
  poolStorageStream : BufferPool Unit
  poolEventsSession : BufferPool SessionEvent
  sessions : AList (fun _ : ClientSessionKey => ClientSession)
  loans : List Loan
  returns : List ℕ
  posted : List Posting
  dispatched : List Posting
  sent : List SentMessage

/-- Functions of the XRCE agent. -/
abbrev ServiceM := Prog Service

namespace Service

def client (a : Service) (c : ℕ) : ProxyClient := a.clientsPool.content c

def updateClient (a : Service) (c : ℕ) (f : ProxyClient → ProxyClient) : Service :=
  { a with clientsPool := a.clientsPool.update c f }

def updateSession (a : Service) (key : ClientSessionKey) (f : ClientSession → ClientSession) :
    Service :=
  { a with sessions := a.sessions.modify key f }

def takeMutex (a : Service) : Service := { a with mappingsMutex := a.mappingsMutex.take }

def giveMutex (a : Service) : Service := { a with mappingsMutex := a.mappingsMutex.give }

/-- `NANO_XRCE_Agent_find_client_locator_mapping`: the position of the first
mapping of a locator, among the entries that the recorded length covers. -/
def findClientLocatorMapping (a : Service) (l : Locator) : Option ℕ :=
  (a.clientMappings.take a.clientMappingsLen).findIdx? fun m => decide (m.locator = l)

/-- The key that the table has for a locator. -/
def mappedKey (a : Service) (l : Locator) : Option ℕ :=
  (a.findClientLocatorMapping l).bind fun i => (a.clientMappings[i]?).map (·.clientKey)

/-- A message leaves through the transport a client is bound to. -/
def send (a : Service) (c : ℕ) (kind : OutputKind) : Service :=
  { a with sent := a.sent ++ [⟨c, kind, (a.client c).bindEntry⟩] }

end Service

end NanoAgent
