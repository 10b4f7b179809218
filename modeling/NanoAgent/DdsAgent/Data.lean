import Mathlib.Algebra.Group.Nat.Defs
import NanoAgent.Foundations.BufferPool
import NanoAgent.Foundations.Program
import NanoAgent.Foundations.Table

/-!
# The data of the DDS agent

The DDS agent keeps a table of resources, shared by all clients, and a table of
client sessions. A session refers to the resources it uses by its list
`resources` of attached resources, and an attached data reader may have one read
in progress, its `readReq`. The read is registered with the reader state
(`Reader`) that the resource record keeps in its `userData`; samples handed to
the client and not yet returned are in the read's list `samples`.

Attached resources, reads, received samples and reader and writer states are
buffers of the agent's pools and are referred to by name, as the source refers
to them by pointer. Both tables are association lists, walked in the order in
which the source compares their keys. Sequence numbers and time stamps are
natural numbers.
-/

namespace NanoAgent

/-- `D2S2_ResourceKind`. -/
inductive ResourceKind
  | unknown | domainParticipant | topic | publisher | subscriber | dataWriter | dataReader
  | domain | type | qosProfile | application
  deriving DecidableEq, Repr

/-- `D2S2_ResourceId`: a finalized identifier is `none`. -/
inductive ResourceId
  | none
  | guid (value : ℕ)
  | ref (name : String)
  deriving DecidableEq, Repr

/-- `D2S2_ResourceId_compare_record`, the order of the resource table. -/
def ResourceId.compareRecord : ResourceId → ResourceId → Ordering
  | guid l, guid r => compare l r
  | guid _, _ => .lt
  | ref l, ref r => compare l r
  | _, _ => .gt

/-- `D2S2_ResourceRepresentation`, a format together with its value. -/
inductive ResourceRepresentation
  | unknown
  | bin (data : List ℕ)
  | ref (name : String)
  | xml (text : String)
  | json (text : String)
  deriving DecidableEq, Repr

/-- `D2S2_ClientSessionKey`. -/
structure ClientSessionKey where
  client : ℕ
  id : ℕ
  deriving DecidableEq, Repr

/-- `D2S2_ClientSessionKey_compare_record`, the order of the session table. -/
def ClientSessionKey.compareRecord (left right : ClientSessionKey) : Ordering :=
  (compare left.client right.client).then (compare left.id right.id)

/-- `D2S2_ATTACHEDRESOURCEID_INVALID`. -/
def attachedResourceIdInvalid : ℕ := 0

/-- A sample in the cache of a DDS data reader, with its reception sequence
number and whether it carries valid data. -/
structure Sample where
  sn : ℕ
  validData : Bool
  content : ℕ
  deriving DecidableEq, Repr

/-- `D2S2_XcdrEncodingKind`. -/
inductive XcdrEncodingKind
  | unknown | xcdr1 | xcdr1Pl | xcdr2 | xcdr2Pl
  deriving DecidableEq, Repr

/-- `NDDSA_ReceivedData`: a sample serialized for a session. `buffer` is the
capacity of the serialization buffer, if one is allocated, and `dataLen` the
length recorded for it. -/
structure ReceivedData where
  read : Option ℕ
  sessionKey : ClientSessionKey
  readerId : ℕ
  encoding : XcdrEncodingKind
  littleEndian : Bool
  buffer : Option ℕ
  dataLen : ℕ
  ddsSn : ℕ
  deriving DecidableEq, Repr

/-- `NDDSA_Read`. The two status flags are separate fields, and a sample pace or
maximum elapsed time of zero means that there is none. -/
structure Read where
  sessionKey : ClientSessionKey
  readerId : ℕ
  samplesRcvd : ℕ
  samplesMax : ℕ
  samples : List ℕ
  lastSample : ℕ
  startTs : ℕ
  lastSampleTs : ℕ
  samplePace : ℕ
  maxElapsedTs : ℕ
  contentFilterExpr : Option String
  delayed : Bool
  dataAvailable : Bool
  complete : Bool
  deriving DecidableEq, Repr

/-- `NDDSA_ReaderRequest`: the registration of a read with a reader. -/
structure ReaderRequest where
  addr : ℕ
  read : ℕ
  queryCondition : Option String
  deriving DecidableEq, Repr

/-- `NDDSA_Reader`, together with the cache of the DDS data reader it stands
for. `poolRequests` are the requests handed out and returned. -/
structure Reader where
  requests : List ReaderRequest
  poolRequests : BufferPool Unit
  dismissSn : ℕ
  listening : Bool
  cache : List Sample

/-- `NDDSA_Resource` of a resource record. `native` is the pointer to the DDS
entity and `userData` the name of the reader or writer state. -/
structure Resource where
  kind : ResourceKind
  id : ResourceId
  native : Option ℕ
  createRepr : ResourceRepresentation
  attachedCount : ℕ
  userData : Option ℕ
  nativeDeleted : Bool
  pendingDelete : Bool
  deriving DecidableEq, Repr

/-- `NDDSA_AttachedResource`. -/
structure AttachedResource where
  kind : ResourceKind
  resource : ResourceId
  id : ℕ
  session : ClientSessionKey
  userData : Option ℕ
  readReq : Option ℕ
  lastSampleForwarded : ℕ
  lastSampleReturned : ℕ
  deriving DecidableEq, Repr

/-- `NDDSA_ClientSession`. `intf` is the interface that opened the session,
`timeout` is positive when the session times out, and `semTimeout` and
`semCleanup` are the values of its two semaphores. -/
structure ClientSession where
  intf : ℕ
  resources : List ℕ
  timeout : ℕ
  userData : Option ℕ
  deleted : Bool
  timedout : Bool
  resetting : Bool
  rcvdDataPool : List ℕ
  semCleanup : Bool
  deriving DecidableEq, Repr

/-- `NDDSA_ClientSession_active`. -/
def ClientSession.active (s : ClientSession) : Bool :=
  !(s.deleted || s.timedout || s.resetting)

/-- A DDS entity, the entity that contains it and, for a reader or writer, its
topic. -/
structure Entity where
  ptr : ℕ
  kind : ResourceKind
  name : ResourceId
  parent : ℕ
  topic : ℕ
  deriving DecidableEq, Repr

/-- Where a new read starts: `NDDSA_ReadStartPoint`. -/
inductive ReadStartPoint
  | firstCached | lastReturned | lastForwarded
  deriving DecidableEq, Repr

/-- `D2S2_ReadSpecification`; a field of zero sets no bound. -/
structure ReadSpecification where
  minPacePeriod : ℕ
  maxElapsedTime : ℕ
  maxSamples : ℕ
  contentFilterExpr : Option String
  deriving DecidableEq, Repr

/-- `RTINtpTime_packFromMillisec`, as exact arithmetic. Times are counted in units of
`1 / (1000 * 2 ^ 32)` seconds, so that milliseconds and NTP fractions are whole. -/
def packFromMillisec (s ms : ℕ) : ℕ := (1000 * s + ms) * 2 ^ 32

/-- The time that `NDDSA_Agent_readEA` makes of a period in milliseconds. -/
def readPeriod (p : ℕ) : ℕ :=
  if p > 0 then packFromMillisec (p / 1000) (p - 1000 * (p / 1000)) else 0

@[simp] theorem readPeriod_zero : readPeriod 0 = 0 := rfl

theorem readPeriod_eq (p : ℕ) : readPeriod p = packFromMillisec 0 p := by
  unfold readPeriod packFromMillisec
  split
  · have hms : 1000 * (p / 1000) + (p - 1000 * (p / 1000)) = 1000 * 0 + p := by omega
    rw [hms]
  · omega

/-- A notification sent to the interface of a session. -/
inductive Callback
  | resourceCreated (key : ClientSessionKey) (id : ℕ)
  | resourceDeleted (key : ClientSessionKey) (id : ℕ)
  | readCreated (key : ClientSessionKey) (id : ℕ)
  | readComplete (key : ClientSessionKey) (id : ℕ)
  | dataAccepted (read : ℕ) (sample : Sample)
  | dataWritten (key : ClientSessionKey) (id : ℕ)
  | sessionClosed (key : ClientSessionKey)
  deriving DecidableEq, Repr

end NanoAgent
