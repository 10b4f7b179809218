import NanoAgent.DdsAgent.Session
import NanoAgent.Foundations.Rounds

/-!
# Shutting down the database

`finalizeDatabase` removes the sessions and then the resources of the agent. A session
is disposed of and its record is removed when the clean-up handler, which runs in a
thread of its own, has given the semaphore of the session; when it never does, the
shutdown waits forever. The resources are deleted natively one by one, always from
the top of the table.

The functions return booleans, but an error of the resources is a return code of DDS,
which is true when it is read as one.
-/

namespace NanoAgent

open Prog

/-- The calls that the shutdown makes itself. -/
inductive ShutdownCall
  | lockSessions
  | unlockSessions
  | nextSession (key : Option ClientSessionKey)
  | waitSession (key : ClientSessionKey)
  | resumeSession (key : ClientSessionKey)
  | deleteSession (key : ClientSessionKey)
  | lockResources
  | unlockResources
  | nextResource (rid : Option ResourceId)
  | copyId (rid : ResourceId)
  | releaseResource (rid : ResourceId)
  | deleteResource (rid : ResourceId)
  deriving DecidableEq, Repr

/-- The answers to these calls, and to those of the functions of the agent. -/
structure ShutdownEnv where
  calls : Env
  ok : ShutdownCall → Bool

/-- Nothing is left in the tables. -/
def Agent.Emptied (a : Agent) : Prop := a.sessions.keys = [] ∧ a.resources.keys = []

instance (a : Agent) : Decidable a.Emptied := inferInstanceAs (Decidable (_ ∧ _))

namespace AgentM

variable (env : ShutdownEnv)

/-- The clean-up handler, which runs when it was triggered. What it returns is lost. -/
def runCleanupHandler : AgentM Unit := do
  let a ← read
  onlyIf a.condCleanupSessions (ignore (onCleanupSessions env.calls))

/-- `NDDSA_Agent_wait_for_semaphoreEA`, up to the point where the semaphore is taken. The
result is whether it was given; nobody gives that of a session whose record is gone. -/
def waitForCleanup (key : ClientSessionKey) : AgentM Bool := do
  ensure (env.ok (.waitSession key))
  runCleanupHandler env
  let a ← read
  match a.sessions.lookup key with
  | none => pure false
  | some s => pure s.semCleanup

/-- The notification of the session that was removed last. -/
def notifyClosed (closed : Option ClientSessionKey) : AgentM Unit :=
  match closed with
  | none => pure ()
  | some key => modify fun a => a.notify (.sessionClosed key)

/-- A round of the loop of `NDDSA_Agent_finalize_database_sessions`, where `keys` is the order
of the table. The result is whether the loop has ended, or else waits forever. -/
def finalizeSessionRound (keys : List ClientSessionKey) (closed : Option ClientSessionKey) :
    AgentM (Bool ⊕ Option ClientSessionKey) := do
  let a ← read
  ensure (env.ok (.nextSession ((a.sessions.first keys).map Prod.fst)))
  notifyClosed closed
  match a.sessions.first keys with
  | none => pure (.inl true)
  | some (key, s) => do
      returnLoans env.calls s.intf key (.sessionTimedOut key)
      disposeSessionEA env.calls key s
      let given ← waitForCleanup env key
      if given then do
        ensure (env.ok (.resumeSession key))
        ensure (env.ok (.deleteSession key))
        modify fun a => a.eraseSession key
        pure (.inr (some key))
      else pure (.inl false)

/-- `NDDSA_Agent_finalize_database_sessions`. The result is whether it returns. -/
def finalizeDatabaseSessions : AgentM Bool := do
  ensure (env.ok .lockSessions)
  let a ← read
  let ended ← rounds (finalizeSessionRound env a.sessionKeys) (a.sessionKeys.length + 1) none
  onlyIf ended (ensure (env.ok .unlockSessions))
  pure ended

/-- The record cannot be deleted: it is still attached, or there is no copy of its
identifier, as when the record was finalized. -/
def holds (r : Resource) : Bool :=
  decide (0 < r.attachedCount) || r.id = .none || !env.ok (.copyId r.id)

/-- A round of the loop of `NDDSA_Agent_finalize_database_resources`. The loop is left with the
record that it holds, if there is one. -/
def finalizeResourceRound (keys : List ResourceId) (_ : Unit) :
    AgentM (Option ResourceId ⊕ Unit) := do
  let a ← read
  ensure (env.ok (.nextResource ((a.resources.first keys).map Prod.fst)))
  match a.resources.first keys with
  | none => pure (.inl none)
  | some (rid, r) =>
      if holds env r then pure (.inl (some rid))
      else do
        ensure (env.ok (.releaseResource rid))
        deleteNativeResourceEA env.calls r.id
        let b ← read
        ensure ((b.resources.lookup r.id).isSome && env.ok (.deleteResource r.id))
        modify fun a => { a with resources := a.resources.erase r.id }
        pure (.inr ())

/-- The value of `retcode` when the loop over the resources was left. It becomes a return code
of DDS when the record that is held is released, and when the table is not unlocked. -/
def resourcesRetcode (left : Option (Option ResourceId)) : Bool :=
  match left with
  | some none => true
  | some (some rid) => env.ok (.releaseResource rid) || !env.ok .unlockResources
  | none => !env.ok .unlockResources

/-- `NDDSA_Agent_finalize_database_resources`. -/
def finalizeDatabaseResources : AgentM Unit := do
  ensure (env.ok .lockResources)
  let a ← read
  let left ← attempt
    (rounds (finalizeResourceRound env a.resourceKeys) (a.resourceKeys.length + 1) ())
  ensure (resourcesRetcode env left)

/-- `NDDSA_Agent_finalize_database`. The result is whether it returns. -/
def finalizeDatabase : AgentM Bool := do
  let ended ← finalizeDatabaseSessions env
  onlyIf ended (finalizeDatabaseResources env)
  pure ended

end AgentM

end NanoAgent
