import NanoAgent.DdsAgent.Native

/-!
# Attaching resources to sessions

Attaching a resource to a session takes a buffer from `poolResources`, links it
in the session's list and counts it in the resource record. Detaching counts it
out, deletes the resource when a deletion was requested and nobody uses it any
more, and returns the buffer; the list of the session is not touched.
-/

namespace NanoAgent

/-- An attached resource as it is taken from the pool for the session `key`. -/
def AttachedResource.initial (kind : ResourceKind) (rid : ResourceId) (id : ℕ)
    (key : ClientSessionKey) : AttachedResource where
  kind := kind
  resource := rid
  id := id
  session := key
  userData := none
  readReq := none
  lastSampleForwarded := 0
  lastSampleReturned := 0

namespace Agent

/-- Link an attached resource for the record `r` in the session `key`, and count
it in the record. -/
def link (a : Agent) (key : ClientSessionKey) (id : ℕ) (rid : ResourceId) (r : Resource) :
    Agent :=
  { a with
    poolResources := a.poolResources.take (.initial r.kind r.id id key)
    sessions := a.sessions.modify key fun s =>
      { s with resources := s.resources ++ [a.poolResources.next] }
    resources := a.resources.modify rid fun r =>
      { r with attachedCount := r.attachedCount + 1 } }

/-- The part of detaching that concerns the resource record. -/
def countOut (a : Agent) (rid : ResourceId) (deleteRequest : Bool) : Agent :=
  a.updateResource rid fun r =>
    { r with attachedCount := r.attachedCount - 1,
             pendingDelete := r.pendingDelete || deleteRequest }

/-- Return the buffer of an attached resource, whose identifier is finalized. -/
def unlink (a : Agent) (n : ℕ) : Agent :=
  let a := a.updateAttached n fun x => { x with resource := .none }
  { a with poolResources := a.poolResources.giveBack n }

theorem attached_unlink (a : Agent) (n m : ℕ) : (a.unlink n).attached m =
    if m = n then { a.attached m with resource := .none } else a.attached m :=
  attached_updateAttached n m fun x => { x with resource := .none }

/-- `NDDSA_Agent_generate_attached_resource_id`. -/
def generateAttachedResourceId (a : Agent) (rid : ResourceId) (kind : ResourceKind) :
    Option ℕ :=
  if kind.isEntity then a.autoId rid kind else none

end Agent

namespace AgentM

open Prog

/-- `NDDSA_Agent_attach_resource_to_sessionEA`. The identifier generated when
the client gave none is not stored. -/
def attachResourceToSessionEA (env : Env) (key : ClientSessionKey) (id : ℕ) (rid : ResourceId) :
    AgentM ℕ := do
  let a ← read
  let r ← require (a.resources.lookup rid)
  onlyIf (id = attachedResourceIdInvalid)
    (ensure (a.generateAttachedResourceId r.id r.kind).isSome)
  ensure (env.ok (.getBuffer .attach id))
  if r.id != .none && env.ok (.copyId .attach r.id) then
    modify fun a => a.link key id rid r
    pure a.poolResources.next
  else do
    -- the buffer is neither linked nor returned
    modify fun a =>
      { a with poolResources := a.poolResources.take (.initial r.kind .none id key) }
    fail

/-- `NDDSA_Agent_detach_resourceEA`, up to the point where the record is
released: cancel a read in progress and count the attached resource out. The
result tells whether the resource is to be deleted. -/
def countOutEA (env : Env) (key : ClientSessionKey) (n : ℕ) (deleteRequest : Bool) :
    AgentM Bool := do
  let a ← read
  let x := a.attached n
  ensure (env.ok (.lockResources .detach))
  let found ← lookupResource env .detach x.resource
  let r ← require found
  ensure (r.attachedCount != 0)
  let cancelled := decide (x.kind = .dataReader) && x.readReq.isSome
  onlyIf cancelled (cancelReadEA env n x.resource)
  modify fun a => a.countOut x.resource deleteRequest
  ensure (env.ok (.releaseResource .detach x.resource))
  onlyIf cancelled (modify fun a => a.notify (.readComplete key x.id))
  pure ((r.pendingDelete || deleteRequest) && decide (r.attachedCount - 1 = 0))

/-- `NDDSA_Agent_detach_resourceEA`, where `copyOut` tells whether the caller
asks for the identifier of the resource. -/
def detachResourceEA (env : Env) (key : ClientSessionKey) (n : ℕ) (deleteRequest : Bool)
    (copyOut : Bool) : AgentM Unit := do
  let a ← read
  let rid := (a.attached n).resource
  let deleteResource ← countOutEA env key n deleteRequest
  onlyIf deleteResource do
    deleteNativeResourceEA env rid
    ensure (env.ok (.deleteResource rid))
    modify fun a => { a with resources := a.resources.erase rid }
  onlyIf copyOut (ensure (env.ok (.copyId .detach rid)))
  modify fun a => a.unlink n
  ensure (env.ok (.unlockResources .detach))

/-- `NDDSA_Agent_enable_resourceEA`: the entity of the record is enabled. -/
def enableResourceEA (env : Env) (rid : ResourceId) : AgentM Unit := do
  let a ← read
  let r ← require (a.resources.lookup rid)
  onlyIf r.kind.isEntity do
    access rid (!r.nativeDeleted && r.native.isSome)
    let ptr ← require r.native
    ensure (env.ok (.ddsEntity .enable r.kind ptr))

/-- The body of the loop of `NDDSA_Agent_attach_all_resources_to_sessionEA`, for a
record that is to be attached. -/
def attachNewEA (env : Env) (key : ClientSessionKey) (rid : ResourceId) (id : ℕ) :
    AgentM Unit := do
  let n ← attachResourceToSessionEA env key id rid
  enableResourceEA env rid
  if env.ok (.onResourceCreated key id) then
    modify fun a => (a.updateAttached n fun x =>
      { x with userData := env.resourceData id }).notify (.resourceCreated key id)
  else do
    ignore (detachResourceEA env key n false false)
    fail

/-- One round of `NDDSA_Agent_attach_all_resources_to_sessionEA`, for the record
of the resource `rid`. -/
def attachOneEA (env : Env) (key : ClientSessionKey) (rid : ResourceId) : AgentM Unit := do
  let a ← read
  ensure (env.ok (.nextResource .attachAll))
  match a.resources.lookup rid with
  | none => pure ()
  | some r => do
      onlyIf (!r.nativeDeleted && a.autoAttachResources) do
        let id ← require (a.generateAttachedResourceId r.id r.kind)
        let s ← require (a.sessions.lookup key)
        onlyIf (a.findAttachedResource s id).isNone (attachNewEA env key rid id)
      ensure (env.ok (.releaseResource .attachAll rid))

/-- `NDDSA_Agent_attach_all_resources_to_sessionEA`. -/
def attachAllResourcesToSessionEA (env : Env) (key : ClientSessionKey) : AgentM Unit := do
  ensure (env.ok (.lockResources .attachAll))
  let a ← read
  forEach a.resourceKeys fun rid => attachOneEA env key rid

end AgentM

end NanoAgent
