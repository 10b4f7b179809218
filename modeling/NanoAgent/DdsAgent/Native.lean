import NanoAgent.DdsAgent.Read

/-!
# Deleting native resources

Deleting the DDS entity of a resource deletes the entities it contains as well:
a participant its subscribers and publishers, these their readers and writers,
and a reader or writer its topic. The records of contained entities are marked
`nativeDeleted` and stay in the table, attached to whatever sessions use them.

The recursion of the source descends along the containment of entities, which
has three levels; the number taken by `findContainedResourceAndDeleteEA` counts
the levels that are left.
-/

namespace NanoAgent

namespace ResourceKind

/-- Resources that only load an XML element and have no DDS entity. -/
def isGeneric : ResourceKind → Bool
  | .domain | .qosProfile | .type | .application => true
  | _ => false

/-- Resources that stand for a DDS entity. -/
def isEntity : ResourceKind → Bool
  | .domainParticipant | .topic | .publisher | .subscriber | .dataReader | .dataWriter => true
  | _ => false

/-- The kinds of entities that deleting an entity of a kind deletes first, in
the order of the source. -/
def containedKinds : ResourceKind → List ResourceKind
  | .domainParticipant => [.subscriber, .publisher]
  | .publisher => [.dataWriter]
  | .subscriber => [.dataReader]
  | _ => []

end ResourceKind

namespace Resource

/-- `NDDSA_Resource_finalize`. The pointer to the entity is not cleared. -/
def finalize (r : Resource) : Resource :=
  { r with kind := .unknown, id := .none, createRepr := .unknown }

end Resource

namespace Agent

/-- `NDDSA_ResourceFactory_lookup_entity_resource`. -/
def lookupEntity (a : Agent) (kind : ResourceKind) (id : ResourceId) : Option Entity :=
  a.entities.find? fun e => e.kind = kind && e.name = id

def removeEntity (a : Agent) (ptr : ℕ) : Agent :=
  { a with entities := a.entities.filter fun e => e.ptr != ptr }

/-- The first record of the given kind whose entity is `ptr`. -/
def findResourceByNative (a : Agent) (kind : ResourceKind) (ptr : ℕ) : Option Resource :=
  (a.resourceKeys.filterMap a.resources.lookup).find? fun r =>
    r.kind = kind && r.native = some ptr

variable {a : Agent} {kind : ResourceKind} {ptr : ℕ}

theorem record_of_findResourceByNative {r : Resource}
    (h : a.findResourceByNative kind ptr = some r) :
    ∃ rid, a.resources.lookup rid = some r ∧ r.kind = kind ∧ r.native = some ptr := by
  obtain ⟨rid, -, hr⟩ := List.mem_filterMap.1 (List.mem_of_find?_eq_some h)
  have hfound := List.find?_some h
  obtain ⟨hk, hn⟩ := Bool.and_eq_true_iff.1 hfound
  exact ⟨rid, hr, of_decide_eq_true hk, of_decide_eq_true hn⟩

theorem not_native_of_findResourceByNative (h : a.findResourceByNative kind ptr = none)
    {rid : ResourceId} {r : Resource} (hr : a.resources.lookup rid = some r) :
    ¬ (r.kind = kind ∧ r.native = some ptr) := by
  have hkey : rid ∈ a.resourceKeys := by
    rw [resourceKeys, AList.mem_keysBy, ← AList.mem_keys, ← AList.lookup_isSome, hr]
    rfl
  have hno := List.find?_eq_none.1 h r (List.mem_filterMap.2 ⟨rid, hkey, hr⟩)
  rintro ⟨hk, hn⟩
  exact hno (by simp [hk, hn])

end Agent

namespace AgentM

open Prog

/-- The deletion of a topic in `NDDSA_Agent_delete_native_resource_entityEA`. A
topic that cannot be deleted is left behind, which is not an error. -/
def deleteTopicEntity (env : Env) (ptr : ℕ) : AgentM Unit :=
  onlyIf (env.ok (.ddsEntity .deleteEntity .topic ptr)) (modify fun a => a.removeEntity ptr)

/-- `NDDSA_Agent_delete_native_resource_entityEA`, where `contained` deletes a
contained entity together with its resource. -/
def deleteNativeEntityEA (env : Env) (contained : ResourceKind → ℕ → AgentM Unit)
    (kind : ResourceKind) (e : Entity) : AgentM Unit := do
  forEach kind.containedKinds fun k => do
    let a ← read
    ensure (env.ok (.ddsEntity .deleteContained k e.ptr))
    forEach (a.entities.filter fun c => c.kind = k && c.parent = e.ptr) fun c =>
      contained k c.ptr
  if kind = .topic then
    deleteTopicEntity env e.ptr
  else do
    ensure (env.ok (.ddsEntity .deleteEntity kind e.ptr))
    modify fun a => a.removeEntity e.ptr
    onlyIf (kind = .dataReader || kind = .dataWriter) (deleteTopicEntity env e.topic)

/-- The part of `NDDSA_Agent_delete_native_resourceEA` that gives up the reader
or writer state of a record. The flag `nativeDeleted` was clear when the record
was looked up. -/
def releaseUserDataEA (env : Env) (rid : ResourceId) (r : Resource) : AgentM Unit := do
  if r.kind = .dataReader then do
    access rid r.userData.isSome
    let reader ← require r.userData
    let a ← read
    forEach (a.readerAt reader).requests fun q =>
      onReader reader (Reader.requestComplete env q.read)
    onReader reader (Reader.finalize env reader)
    modify fun a => { a with poolReaders := a.poolReaders.giveBack reader }
  else if r.kind = .dataWriter then do
    access rid r.userData.isSome
    let writer ← require r.userData
    modify fun a => { a with poolWriters := a.poolWriters.giveBack writer }
  else pure ()

/-- The body of `NDDSA_Agent_delete_native_resourceEA`, where `contained`
deletes a contained entity together with its resource. -/
def deleteNativeResourceWith (env : Env) (contained : ResourceKind → ℕ → AgentM Unit)
    (rid : ResourceId) : AgentM Unit := do
  let found ← lookupResource env .deleteNative rid
  match found with
  | none => pure ()
  | some r =>
      if r.nativeDeleted then pure ()
      else do
        modify fun a => a.updateResource rid fun r => { r with nativeDeleted := true }
        if r.kind.isGeneric then
          modify fun a => a.updateResource rid Resource.finalize
        else do
          ensure r.kind.isEntity
          ensure (env.ok (.lookupEntity .deleteNative r.id))
          let a ← read
          let entity := a.lookupEntity r.kind r.id
          releaseUserDataEA env rid r
          modify fun a => a.updateResource rid fun r => { r.finalize with userData := none }
          ensure (env.ok (.releaseResource .deleteNative rid))
          match entity with
          | none => pure ()
          | some e => deleteNativeEntityEA env contained r.kind e

/-- `NDDSA_Agent_find_contained_resource_and_deleteEA`: a contained entity is
deleted through its resource record when it has one. -/
def findContainedResourceAndDeleteEA (env : Env) : ℕ → ResourceKind → ℕ → AgentM Unit
  | 0, _, _ => pure ()
  | depth + 1, kind, ptr => do
      let a ← read
      ensure (env.ok (.nextResource .deleteContained))
      match a.findResourceByNative kind ptr with
      | some c => do
          ensure (c.id != .none && env.ok (.copyId .deleteContained c.id))
          ensure (env.ok (.releaseResource .deleteContained c.id))
          deleteNativeResourceWith env (findContainedResourceAndDeleteEA env depth) c.id
      | none =>
          match a.entities.find? fun x => x.kind = kind && x.ptr = ptr with
          | some x =>
              deleteNativeEntityEA env (findContainedResourceAndDeleteEA env depth) kind x
          | none => pure ()

/-- `NDDSA_Agent_delete_native_resourceEA`. Two levels are contained below a
participant. -/
def deleteNativeResourceEA (env : Env) (rid : ResourceId) : AgentM Unit :=
  deleteNativeResourceWith env (findContainedResourceAndDeleteEA env 2) rid

end AgentM

end NanoAgent
