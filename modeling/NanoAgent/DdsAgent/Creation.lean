import NanoAgent.DdsAgent.Attachment

/-!
# Creating and deleting resources

`createResource` creates a resource for a session: it checks the request against
the resources attached to the session, creates the native resource through the
factory and inserts a record for it, or reuses an attached resource with the same
representation, and tells the interface. `deleteResource` detaches a resource and
requests its deletion.
-/

namespace NanoAgent

/-- The arguments of a creation: `D2S2_AttachedResourceId`, kind, representation,
parent and the properties `reuse` and `replace`. -/
structure CreateRequest where
  id : ℕ
  kind : ResourceKind
  repr : ResourceRepresentation
  parent : ℕ
  reuse : Bool
  replace : Bool
  deriving DecidableEq, Repr

namespace ResourceRepresentation

/-- The formats a resource can be created from. -/
def isSupported : ResourceRepresentation → Bool
  | .xml _ | .ref _ => true
  | _ => false

def isRef : ResourceRepresentation → Bool
  | .ref _ => true
  | _ => false

/-- `NDDSA_Resource_convert_representation`, from the representation a resource
was created with to the format of `fmt`. Only the identical conversions are
implemented. -/
def convertTo (fmt : ResourceRepresentation) : ResourceRepresentation →
    Option ResourceRepresentation
  | .xml x => match fmt with
      | .xml _ => some (.xml x)
      | _ => none
  | .ref x => match fmt with
      | .ref _ => some (.ref x)
      | _ => none
  | _ => none

end ResourceRepresentation

namespace ResourceKind

/-- Kinds that are created without a parent. -/
def isRoot : ResourceKind → Bool
  | .application | .qosProfile | .domain | .type | .domainParticipant => true
  | _ => false

/-- The kind of the parent of an entity. -/
def parentKind : ResourceKind → Option ResourceKind
  | .topic | .publisher | .subscriber => some .domainParticipant
  | .dataWriter => some .publisher
  | .dataReader => some .subscriber
  | _ => none

end ResourceKind

/-- `NDDSA_RESOURCE_INITIALIZER`. -/
def Resource.initial : Resource where
  kind := .unknown
  id := .none
  native := none
  createRepr := .unknown
  attachedCount := 0
  userData := none
  nativeDeleted := false
  pendingDelete := false

/-- A reader state as `NDDSA_Reader_initialize` leaves it, for a data reader with
the given cache. -/
def Reader.initial (cache : List Sample) : Reader where
  requests := []
  poolRequests := .empty ()
  dismissSn := 0
  listening := false
  cache := cache

namespace Agent

/-- The record added by `NDDSA_AgentDb_insert_resourceEA`. -/
def insertResource (a : Agent) (rid : ResourceId) : Agent :=
  { a with resources := a.resources.insert rid .initial }

def takeReader (a : Agent) (cache : List Sample) : Agent :=
  { a with poolReaders := a.poolReaders.take (.initial cache) }

def takeWriter (a : Agent) : Agent :=
  { a with poolWriters := a.poolWriters.take () }

end Agent

namespace AgentM

open Prog

/-- The checks of `NDDSA_Agent_create_resourceEA` on its arguments and on the
resources attached to the session. The result is the attached resource that
already has the identifier, if there is one. -/
def checkCreate (s : ClientSession) (q : CreateRequest) : AgentM (Option ℕ) := do
  let a ← read
  ensure q.repr.isSupported
  ensure (if q.kind.isRoot then decide (q.parent = attachedResourceIdInvalid)
    else q.kind.parentKind.isSome)
  onlyIf (q.parent != attachedResourceIdInvalid) do
    let p ← require (a.findAttachedResource s q.parent)
    ensure (q.kind.parentKind = some (a.attached p).kind)
  if q.id = attachedResourceIdInvalid then
    pure none
  else
    match a.findAttachedResource s q.id with
    | none => pure none
    | some n => do
        ensure ((a.attached n).kind = q.kind)
        ensure (q.reuse || q.replace)
        pure (some n)

/-- Create the reader or writer state of a new record. -/
def initializeUserDataEA (env : Env) (rid : ResourceId) (kind : ResourceKind) : AgentM Unit := do
  let a ← read
  if kind = .dataReader then do
    ensure (env.ok (.getBuffer .insertRecord 0))
    let reader := a.poolReaders.next
    modify fun a => a.takeReader env.initialCache
    onlyIf (!env.ok (.initState kind rid)) do
      modify fun a => { a with poolReaders := a.poolReaders.giveBack reader }
      fail
    modify fun a => a.updateResource rid fun r => { r with userData := some reader }
    onlyIf (!env.ok (.dds .getQos reader)) do
      -- the state is returned, and the record keeps the reference to it
      modify fun a => { a with poolReaders := a.poolReaders.giveBack reader }
      fail
  else if kind = .dataWriter then do
    ensure (env.ok (.getBuffer .insertRecord 0))
    let writer := a.poolWriters.next
    modify Agent.takeWriter
    onlyIf (!env.ok (.initState kind rid)) do
      modify fun a => { a with poolWriters := a.poolWriters.giveBack writer }
      fail
    modify fun a => a.updateResource rid fun r => { r with userData := some writer }
  else pure ()

/-- Initialise a new record in `NDDSA_Agent_insert_resource_recordEA`. -/
def initializeRecordEA (env : Env) (rid : ResourceId) (q : CreateRequest) : AgentM Unit := do
  ensure (q.kind.isGeneric || q.kind.isEntity)
  let a ← read
  let native := (a.lookupEntity q.kind rid).map (·.ptr)
  onlyIf q.kind.isEntity (ensure (env.ok (.lookupEntity .insertRecord rid) && native.isSome))
  ensure (env.ok (.allocate .insertRecord 0))
  -- `NDDSA_Resource_initialize`
  modify fun a => a.updateResource rid fun _ => { Resource.initial with kind := q.kind }
  ensure (env.ok (.copyId .insertRecord rid))
  modify fun a => a.updateResource rid fun r =>
    { r with id := rid, native := native, createRepr := q.repr }
  initializeUserDataEA env rid q.kind

/-- Insert a record, or find the record of a resource created by reference. -/
def obtainRecordEA (env : Env) (rid : ResourceId) (q : CreateRequest) : AgentM Unit := do
  let a ← read
  match a.resources.lookup rid with
  | some _ => ensure q.repr.isRef
  | none => do
      modify fun a => a.insertResource rid
      initializeRecordEA env rid q

/-- `NDDSA_Agent_insert_resource_recordEA`. The result is the identifier of the
record, unless the record is about to be deleted. None of the error exits
removes what was created before. -/
def insertResourceRecordEA (env : Env) (q : CreateRequest) : AgentM (Option ResourceId) := do
  modify fun a => { a with entities := a.entities ++ env.factory.entities }
  ensure env.factory.success
  let first ← require env.factory.created.head?
  ensure (first.1 = q.kind)
  let rid := first.2
  -- the factory logs what it creates by a copy of the identifier
  ensure (rid != .none)
  ensure (env.ok (.insertResource rid))
  obtainRecordEA env rid q
  ensure (env.ok (.setTrigger .insertRecord))
  modify fun a => { a with condCleanupResources := true }
  let a ← read
  let r ← require (a.resources.lookup rid)
  pure (if r.pendingDelete || r.nativeDeleted then none else some rid)

/-- The resource behind an attached resource that is created again: a compatible
representation reuses it, and its read is cancelled. Replacing it is not
implemented. -/
def reuseAttachedEA (env : Env) (n : ℕ) (q : CreateRequest) : AgentM (ResourceId × Bool) := do
  let a ← read
  let x := a.attached n
  let found ← lookupResource env .create x.resource
  let r ← require found
  -- without `reuse`, `replace` asks for the deletion of the existing resource
  ensure q.reuse
  let existing ← require (ResourceRepresentation.convertTo q.repr r.createRepr)
  ensure (env.ok (.allocate .create 0))
  ensure (existing = q.repr)
  onlyIf x.readReq.isSome (cancelReadEA env n x.resource)
  pure (x.resource, x.readReq.isSome)

/-- The attached resource of a creation, new or reused, with the identifier of
its record and whether a read was cancelled. -/
def obtainAttachedEA (env : Env) (key : ClientSessionKey) (q : CreateRequest) :
    Option ℕ → AgentM (ℕ × ResourceId × Bool)
  | some n => do
      let reused ← reuseAttachedEA env n q
      pure (n, reused)
  | none => do
      let inserted ← insertResourceRecordEA env q
      let rid ← require inserted
      let n ← attachResourceToSessionEA env key q.id rid
      pure (n, rid, false)

/-- The end of `NDDSA_Agent_create_resourceEA`, for an attached resource `n` whose read
may have been cancelled. -/
def finishCreateEA (env : Env) (key : ClientSessionKey) (n : ℕ) (rid : ResourceId)
    (cancelled : Bool) : AgentM Unit := do
  enableResourceEA env rid
  ensure (env.ok (.releaseResource .create rid))
  ensure (env.ok (.unlockResources .create))
  onlyIf cancelled (modify fun a => a.notify (.readComplete key (a.attached n).id))

/-- `NDDSA_Agent_create_resourceEA`, for a session `key` that the caller holds. -/
def createResourceEA (env : Env) (key : ClientSessionKey) (q : CreateRequest) : AgentM ℕ := do
  let a ← read
  let s ← require (a.sessions.lookup key)
  let attached ← checkCreate s q
  ensure (env.ok (.lockResources .create))
  let obtained ← obtainAttachedEA env key q attached
  finishCreateEA env key obtained.1 obtained.2.1 obtained.2.2
  pure obtained.1

/-- `NDDSA_Agent_create_resource`. -/
def createResource (env : Env) (key : ClientSessionKey) (q : CreateRequest) : AgentM Unit := do
  let a ← read
  let s ← require (a.sessions.lookup key)
  ensure s.active
  let n ← createResourceEA env key q
  let a ← read
  let id := (a.attached n).id
  if env.ok (.onResourceCreated key id) then
    modify fun a => (a.updateAttached n fun x => { x with userData := env.resourceData id }).notify
      (.resourceCreated key id)
  else do
    ignore (detachResourceEA env key n false false)
    fail

/-- The part of `NDDSA_Agent_delete_resource` that ends the read of a data reader. -/
def endReadI (env : Env) (key : ClientSessionKey) (n id : ℕ) : AgentM Unit := do
  let a ← read
  onlyIf ((a.attached n).kind = .dataReader && (a.attached n).readReq.isSome) do
    cancelReadI env n
    modify fun a => a.notify (.readComplete key id)

/-- `NDDSA_Agent_delete_resource`. Deleting a resource that is not attached to
the session is not an error. -/
def deleteResource (env : Env) (key : ClientSessionKey) (id : ℕ) : AgentM Unit := do
  let found ← findAttached key id
  match found with
  | none => pure ()
  | some n => do
      endReadI env key n id
      detachResourceEA env key n true true
      modify fun a => a.notify (.resourceDeleted key id)
      ensure (env.ok (.releaseSession .deleteResource key))

/-- `NDDSA_Agent_write`, for data in the XCDR format. -/
def writeData (env : Env) (key : ClientSessionKey) (id : ℕ) : AgentM Unit := do
  let found ← findAttached key id
  let n ← require found
  let a ← read
  ensure ((a.attached n).kind = .dataWriter)
  let rid := (a.attached n).resource
  let found ← lookupResource env .write rid
  let r ← require found
  ensure (!r.nativeDeleted)
  let writer ← deref rid r
  ensure (env.ok (.toCdr .write writer))
  ensure (env.ok (.dds .write writer))
  ensure (env.ok (.releaseResource .write rid))
  modify fun a => a.notify (.dataWritten key id)

end AgentM

end NanoAgent
