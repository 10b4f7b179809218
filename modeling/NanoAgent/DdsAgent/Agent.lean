import NanoAgent.DdsAgent.Data

/-!
# The state of the DDS agent and its environment

`Agent` is the state of `NDDSA_Agent`: its two tables, its buffer pools, the DDS
entities that exist and the triggers of its clean-up handlers. Three components
only observe the run: `callbacks` lists the notifications sent to the interfaces,
`retries` the data events posted with a delay, and `faults` the accesses to the
reader state, the writer state or the entity of a resource record that was
natively deleted or has none.

Everything an operation asks of code outside the agent is answered by an
`Env`: the success of a call of the database, of DDS, of a pool, of the event
generator or of an interface callback (`ok`), what the resource factory creates,
how a sample is received by the client and what the clock reads. A call names
the function that makes it and its object, so that an environment can answer
each of them independently. In some callbacks an interface calls the agent again,
to return loans; what it returns then, and the answers that each of these calls
gets, are also the environment's.
-/

namespace NanoAgent

/-- The function of the agent that makes a call. -/
inductive Caller
  | attachAll | attach | detach | enable | create | insertRecord | read | cancelRead | cancelReadI
  | write | processSample | convertSample | readFromReader | readDds | returnLoanDds | onData
  | deleteNative | deleteContained | deleteEntity
  | openSession | closeSession | disposeSession | finalizeSession | onTimeout
  | createResource | deleteResource | returnLoan | cleanupSessions | cleanupReads
  | cleanupResources | reader
  deriving DecidableEq, Repr

/-- The operations of a DDS data reader. -/
inductive DdsOp
  | asDataReader | createQueryCondition | deleteReadCondition | setListener | resetListener
  | read | readAll | returnLoan | returnLoanAll | take | returnTaken | getQos | narrow | write
  deriving DecidableEq, Repr

/-- A call whose success is decided outside the agent. -/
inductive Call
  | lockResources (c : Caller)
  | unlockResources (c : Caller)
  | lookupResource (c : Caller) (id : ResourceId)
  | releaseResource (c : Caller) (id : ResourceId)
  | insertResource (id : ResourceId)
  | deleteResource (id : ResourceId)
  | nextResource (c : Caller)
  | lookupSession (c : Caller) (key : ClientSessionKey)
  | releaseSession (c : Caller) (key : ClientSessionKey)
  | nextSession (c : Caller) (key : ClientSessionKey)
  | insertSession (key : ClientSessionKey)
  | deleteSession (key : ClientSessionKey)
  | lockSessions (c : Caller)
  | unlockSessions (c : Caller)
  | getBuffer (c : Caller) (id : ℕ)
  | newSemaphore (c : Caller) (n : ℕ)
  | allocate (c : Caller) (n : ℕ)
  | copyId (c : Caller) (id : ResourceId)
  | postEvent (c : Caller) (id : ℕ)
  | waitSemaphore (c : Caller) (id : ℕ)
  | getTime (c : Caller) (n : ℕ)
  | setTrigger (c : Caller)
  | dds (op : DdsOp) (n : ℕ)
  | ddsEntity (c : Caller) (kind : ResourceKind) (ptr : ℕ)
  | lookupEntity (c : Caller) (id : ResourceId)
  | toCdr (c : Caller) (sn : ℕ)
  | initState (kind : ResourceKind) (id : ResourceId)
  | onSessionOpened (key : ClientSessionKey)
  | onSessionReset (key : ClientSessionKey)
  | onResourceCreated (key : ClientSessionKey) (id : ℕ)
  | onReadCreated (key : ClientSessionKey) (id : ℕ)
  deriving DecidableEq, Repr

/-- A callback in which an interface may return loans: `on_session_reset`,
`on_session_timed_out` and `on_release_read_samples`. -/
inductive LoanCallback
  | sessionReset (key : ClientSessionKey)
  | sessionTimedOut (key : ClientSessionKey)
  | releaseReadSamples (key : ClientSessionKey) (id : ℕ)
  deriving DecidableEq, Repr

/-- How the interface receives a sample in `on_data_available`. -/
inductive Delivery
  | error
  | tryAgain
  | accepted (retained : Bool)
  deriving DecidableEq, Repr

/-- What `NDDSA_ResourceFactory_create_resource_native` does: whether it
succeeds, the entities it leaves behind and the resources it logs as created. -/
structure FactoryOutcome where
  success : Bool
  entities : List Entity
  created : List (ResourceKind × ResourceId)

/-- The answers of the environment during one operation. `loansReturned` are the records
that an interface returns in a callback; `loanOk` and `loanClock` answer the calls made for
such a record. -/
structure Env where
  ok : Call → Bool
  factory : FactoryOutcome
  delivery : Sample → Delivery
  serializedSize : Sample → ℕ
  writtenLen : Sample → ℕ
  cdrHeader : Sample → ℕ × ℕ
  initialCache : List Sample
  clock : ℕ → ℕ
  resourceData : ℕ → Option ℕ
  sessionData : Option ℕ
  loansReturned : LoanCallback → List ℕ
  loanOk : ℕ → Call → Bool
  loanClock : ℕ → ℕ → ℕ

/-- The answers during the return of a record in a callback. -/
def Env.forLoan (env : Env) (d : ℕ) : Env :=
  { env with ok := env.loanOk d, clock := env.loanClock d }

/-- The state of `NDDSA_Agent`. -/
structure Agent where
  autoAttachResources : Bool
  readStartPoint : ReadStartPoint
  autoId : ResourceId → ResourceKind → Option ℕ
  filterMatches : String → Sample → Bool
  resources : AList (fun _ : ResourceId => Resource)
  sessions : AList (fun _ : ClientSessionKey => ClientSession)
  poolResources : BufferPool AttachedResource
  poolReads : BufferPool Read
  poolSamples : BufferPool ReceivedData
  poolReaders : BufferPool Reader
  poolWriters : BufferPool Unit
  entities : List Entity
  condCleanupSessions : Bool
  condCleanupReads : Bool
  condCleanupResources : Bool
  callbacks : List Callback
  retries : List (ℕ × ℕ)
  faults : List ResourceId

/-- Functions of the agent. -/
abbrev AgentM := Prog Agent

namespace Agent

variable (a : Agent)

def attached (n : ℕ) : AttachedResource := a.poolResources.content n

def readAt (n : ℕ) : Read := a.poolReads.content n

def readerAt (n : ℕ) : Reader := a.poolReaders.content n

/-- The keys of the sessions, in the order of the table. -/
def sessionKeys : List ClientSessionKey := a.sessions.keysBy ClientSessionKey.compareRecord

/-- The keys of the resources, in the order of the table. -/
def resourceKeys : List ResourceId := a.resources.keysBy ResourceId.compareRecord

def updateResource (id : ResourceId) (f : Resource → Resource) : Agent :=
  { a with resources := a.resources.modify id f }

def updateSession (key : ClientSessionKey) (f : ClientSession → ClientSession) : Agent :=
  { a with sessions := a.sessions.modify key f }

def updateAttached (n : ℕ) (f : AttachedResource → AttachedResource) : Agent :=
  { a with poolResources := a.poolResources.update n f }

def updateRead (n : ℕ) (f : Read → Read) : Agent :=
  { a with poolReads := a.poolReads.update n f }

def updateReader (n : ℕ) (f : Reader → Reader) : Agent :=
  { a with poolReaders := a.poolReaders.update n f }

/-- Notify an interface. -/
def notify (c : Callback) : Agent := { a with callbacks := a.callbacks ++ [c] }

variable {a}

@[simp] theorem attached_notify (c : Callback) (n : ℕ) :
    (a.notify c).attached n = a.attached n := rfl

theorem attached_updateAttached (n m : ℕ) (f : AttachedResource → AttachedResource) :
    (a.updateAttached n f).attached m = if m = n then f (a.attached m) else a.attached m :=
  BufferPool.content_update _ _ _ _

theorem readAt_updateRead (n m : ℕ) (f : Read → Read) :
    (a.updateRead n f).readAt m = if m = n then f (a.readAt m) else a.readAt m :=
  BufferPool.content_update _ _ _ _

theorem readerAt_updateReader (n m : ℕ) (f : Reader → Reader) :
    (a.updateReader n f).readerAt m = if m = n then f (a.readerAt m) else a.readerAt m :=
  BufferPool.content_update _ _ _ _

theorem updateReader_self (n : ℕ) : a.updateReader n (fun _ => a.readerAt n) = a := by
  simp [updateReader, readerAt, BufferPool.update]

theorem lookup_updateResource (id id' : ResourceId) (f : Resource → Resource) :
    (a.updateResource id f).resources.lookup id' =
      if id' = id then (a.resources.lookup id').map f else a.resources.lookup id' :=
  AList.lookup_modify _ _ _ _

theorem lookup_updateSession (key key' : ClientSessionKey) (f : ClientSession → ClientSession) :
    (a.updateSession key f).sessions.lookup key' =
      if key' = key then (a.sessions.lookup key').map f else a.sessions.lookup key' :=
  AList.lookup_modify _ _ _ _

end Agent

namespace AgentM

open Prog

/-- `NDDSA_AgentDb_lookup_resource` and its variants: the call may fail, and
finds nothing for an identifier that is not in the table. -/
def lookupResource (env : Env) (c : Caller) (id : ResourceId) : AgentM (Option Resource) := do
  ensure (env.ok (.lookupResource c id))
  let a ← read
  pure (a.resources.lookup id)

theorem lookupResource_eq_some {env : Env} {c : Caller} {id : ResourceId} {a b : Agent}
    {o : Option Resource} : lookupResource env c id a = (some o, b) ↔
      env.ok (.lookupResource c id) = true ∧ a.resources.lookup id = o ∧ a = b := by
  unfold lookupResource
  cases env.ok (.lookupResource c id) with
  | false => simp
  | true => simp

theorem exits_lookupResource {α : Type} {K : Option α → Agent → Prop} {env : Env} {c : Caller}
    {id : ResourceId} {f : Option Resource → AgentM α} {a : Agent} (ha : K none a)
    (h : env.ok (.lookupResource c id) = true →
      K (f (a.resources.lookup id) a).1 (f (a.resources.lookup id) a).2) :
    K ((lookupResource env c id >>= f) a).1 ((lookupResource env c id >>= f) a).2 := by
  unfold lookupResource
  cases hok : env.ok (.lookupResource c id) with
  | false => exact ha
  | true => exact h hok

theorem keeps_lookupResource {α : Type} {I : Agent → Prop} {env : Env} {c : Caller}
    {id : ResourceId} {f : Option Resource → AgentM α} {a : Agent} (ha : I a)
    (h : env.ok (.lookupResource c id) = true → I (f (a.resources.lookup id) a).2) :
    I ((lookupResource env c id >>= f) a).2 :=
  exits_lookupResource (K := fun _ b => I b) ha h

theorem lookupThen {α : Type} {I : Agent → Prop} {env : Env} {c : Caller} {id : ResourceId}
    {f : Option Resource → AgentM α} (hf : ∀ a, I a → Preserves I (f (a.resources.lookup id))) :
    Preserves I (lookupResource env c id >>= f) := by
  intro a ha
  exact keeps_lookupResource ha fun _ => hf a ha a ha

/-- Note an access to the state of a resource record, which is a fault when the
record was natively deleted or the state is missing. -/
def access (id : ResourceId) (valid : Bool) : AgentM Unit :=
  modify fun a => if valid then a else { a with faults := a.faults ++ [id] }

/-- Read the reader or writer state of a record. There is nothing to go on with
when it is missing. -/
def deref (id : ResourceId) (r : Resource) : AgentM ℕ := do
  access id (!r.nativeDeleted && r.userData.isSome)
  require r.userData

end AgentM

end NanoAgent
