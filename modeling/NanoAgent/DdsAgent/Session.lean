import NanoAgent.DdsAgent.Creation

/-!
# Sessions and clean-up

A session is opened for a client, reset when its client connects again, and torn
down in two steps: closing it or letting it time out marks it `deleted`, and the
clean-up handler `onCleanupSessions` then finalizes it. The record of a session
that timed out is removed by the handler; that of a closed session by the closer,
once the handler has given `semCleanup`. Two more handlers end completed reads
and detach resources whose entity is gone.
-/

namespace NanoAgent

namespace Agent

/-- The record of a new session. -/
def insertSession (a : Agent) (key : ClientSessionKey) (s : ClientSession) : Agent :=
  { a with sessions := a.sessions.insert key s }

def eraseSession (a : Agent) (key : ClientSessionKey) : Agent :=
  { a with sessions := a.sessions.erase key }

/-- Return the received-data records of a session to the pool of the agent. -/
def drainSamples (a : Agent) (key : ClientSessionKey) : Agent :=
  match a.sessions.lookup key with
  | some s =>
      { a with
        poolSamples := s.rcvdDataPool.foldl (fun p d => p.giveBack d) a.poolSamples
        sessions := a.sessions.insert key { s with rcvdDataPool := [] } }
  | none => a

end Agent

/-- A session as `NDDSA_Agent_open_session` initialises it. -/
def ClientSession.initial (intf timeout : ℕ) (data : Option ℕ) : ClientSession where
  intf := intf
  resources := []
  timeout := timeout
  userData := data
  deleted := false
  timedout := false
  resetting := false
  rcvdDataPool := []
  semCleanup := false

namespace AgentM

open Prog

/-- `D2S2_AgentServerInterface_on_session_reset`. -/
def onSessionReset (env : Env) (src : ℕ) (key : ClientSessionKey) : AgentM Unit := do
  returnLoans env src key (.sessionReset key)
  ensure (env.ok (.onSessionReset key))

theorem onSessionReset_apply (env : Env) (src : ℕ) (key : ClientSessionKey) (a : Agent) :
    onSessionReset env src key a = ensure (env.ok (.onSessionReset key))
      (returnLoans env src key (.sessionReset key) a).2 := by
  rw [onSessionReset, bind_apply, returnLoans_eq]

/-- `NDDSA_Agent_open_session` for a key that has a session already. -/
def resetSession (env : Env) (src : ℕ) (key : ClientSessionKey) (s : ClientSession) :
    AgentM Unit := do
  ensure s.active
  modify fun a => a.updateSession key fun s => { s with resetting := true }
  ensure (s.intf = src)
  onSessionReset env src key
  onlyIf env.sessionData.isSome
    (modify fun a => a.updateSession key fun s => { s with userData := env.sessionData })
  forEach s.resources fun n => do
    let a ← read
    onlyIf (a.attached n).readReq.isSome (cancelReadI env n)
  modify fun a => a.updateSession key fun s => { s with resetting := false }

/-- The part of `NDDSA_Agent_open_session` that runs on the record of a new session. -/
def populateSession (env : Env) (key : ClientSessionKey) : AgentM Unit := do
  ensure (env.ok (.newSemaphore .openSession 0))
  ensure (env.ok (.newSemaphore .openSession 1))
  attachAllResourcesToSessionEA env key
  ensure (env.ok (.onSessionOpened key))

/-- `NDDSA_Agent_open_session` for a new key. When it fails, the record is
removed without detaching what was attached to it. -/
def openNewSession (env : Env) (src : ℕ) (key : ClientSessionKey) (timeout : ℕ)
    (data : Option ℕ) : AgentM Unit := do
  modify fun a => a.insertSession key (.initial src timeout data)
  onFailure (populateSession env key)
    (onlyIf (env.ok (.deleteSession key)) (modify fun a => a.eraseSession key))

/-- The session of `NDDSA_Agent_open_session`, reset or new. -/
def resetOrOpenSession (env : Env) (src : ℕ) (key : ClientSessionKey) (timeout : ℕ)
    (data : Option ℕ) : AgentM Unit := do
  let a ← read
  match a.sessions.lookup key with
  | some s => resetSession env src key s
  | none => openNewSession env src key timeout data

/-- `NDDSA_Agent_open_session`, ending with `NDDSA_Agent_on_session_activityI`. -/
def openSession (env : Env) (src : ℕ) (key : ClientSessionKey) (timeout : ℕ)
    (data : Option ℕ) : AgentM Unit := do
  ensure (env.ok (.insertSession key))
  resetOrOpenSession env src key timeout data
  let a ← read
  let s ← require (a.sessions.lookup key)
  ensure (s.timeout = 0 || env.ok (.postEvent .openSession 0))
  ensure (env.ok (.releaseSession .openSession key))

/-- `NDDSA_Agent_dispose_sessionEA`. -/
def disposeSessionEA (env : Env) (key : ClientSessionKey) (s : ClientSession) : AgentM Unit := do
  if s.deleted then pure ()
  else do
    modify fun a => a.updateSession key fun s => { s with deleted := true }
    ensure (env.ok (.setTrigger .disposeSession))
    modify fun a => { a with condCleanupSessions := true }

/-- `NDDSA_Agent_close_session`, up to the point where it waits for the clean-up
handler. -/
def closeSession (env : Env) (src : ℕ) (key : ClientSessionKey) : AgentM Unit := do
  ensure (env.ok (.lockSessions .closeSession))
  ensure (env.ok (.lookupSession .closeSession key))
  let a ← read
  let s ← require (a.sessions.lookup key)
  ensure s.active
  ensure (s.intf = src)
  disposeSessionEA env key s

/-- `NDDSA_Agent_close_session`, from the point where the clean-up handler has
given `semCleanup`. -/
def finishCloseSession (env : Env) (key : ClientSessionKey) : AgentM Unit := do
  let a ← read
  let s ← require (a.sessions.lookup key)
  ensure s.semCleanup
  ensure (env.ok (.lookupSession .closeSession key))
  modify fun a => a.updateSession key fun s => { s with semCleanup := false }
  ensure (env.ok (.releaseSession .closeSession key))
  ensure (env.ok (.deleteSession key))
  modify fun a => a.eraseSession key
  ensure (env.ok (.unlockSessions .closeSession))
  modify fun a => a.notify (.sessionClosed key)

/-- `NDDSA_Agent_on_session_timeout`, for an event that was not cancelled. The
interface cannot refuse the notification. -/
def onSessionTimeout (env : Env) (key : ClientSessionKey) : AgentM Unit := do
  ensure (env.ok (.lookupSession .onTimeout key))
  let a ← read
  let s ← require (a.sessions.lookup key)
  ensure s.active
  modify fun a => a.updateSession key fun s => { s with timedout := true }
  returnLoans env s.intf key (.sessionTimedOut key)
  disposeSessionEA env key s

/-- The first loop of `NDDSA_Agent_finalize_sessionEA`: the read of an attached
data reader is cancelled, unless its entity is gone. -/
def endReadEA (env : Env) (key : ClientSessionKey) (n : ℕ) : AgentM Unit := do
  let a ← read
  let x := a.attached n
  onlyIf (x.kind = .dataReader && x.readReq.isSome) do
    let found ← lookupResource env .finalizeSession x.resource
    match found with
    | none => pure ()
    | some r =>
        if r.nativeDeleted then
          ensure (env.ok (.releaseResource .finalizeSession x.resource))
        else do
          cancelReadEA env n x.resource
          ensure (env.ok (.releaseResource .finalizeSession x.resource))
          modify fun a => a.notify (.readComplete key x.id)

/-- The second loop of `NDDSA_Agent_finalize_sessionEA`. -/
def detachOnCloseEA (env : Env) (key : ClientSessionKey) (n : ℕ) : AgentM Unit := do
  let a ← read
  let id := (a.attached n).id
  detachResourceEA env key n false true
  modify fun a => a.notify (.resourceDeleted key id)

/-- `NDDSA_Agent_finalize_sessionEA`. -/
def finalizeSessionEA (env : Env) (key : ClientSessionKey) : AgentM Unit := do
  let a ← read
  let s ← require (a.sessions.lookup key)
  ensure s.deleted
  forEach s.resources fun n => endReadEA env key n
  forEach s.resources fun n => detachOnCloseEA env key n
  modify fun a => a.drainSamples key
  onlyIf (s.timeout != 0 && !s.timedout)
    (ensure (env.ok (.postEvent .finalizeSession 0) &&
      env.ok (.waitSemaphore .finalizeSession 0)))

/-- What `NDDSA_Agent_on_cleanup_sessions` does with a session it has finalized: the
record of a session that timed out is removed, and the closer of any other
session is told to go on. -/
def releaseFinalizedEA (env : Env) (key : ClientSessionKey) (timedout : Bool) : AgentM Unit := do
  if timedout then do
    ensure (env.ok (.releaseSession .cleanupSessions key))
    ensure (env.ok (.deleteSession key))
    modify fun a => a.eraseSession key
    modify fun a => a.notify (.sessionClosed key)
  else do
    modify fun a => a.updateSession key fun s => { s with semCleanup := true }
    ensure (env.ok (.releaseSession .cleanupSessions key))

/-- A round of `NDDSA_Agent_on_cleanup_sessions`. -/
def cleanupSessionEA (env : Env) (key : ClientSessionKey) : AgentM Unit := do
  ensure (env.ok (.nextSession .cleanupSessions key))
  let a ← read
  match a.sessions.lookup key with
  | none => pure ()
  | some s =>
      onlyIf s.deleted do
        finalizeSessionEA env key
        releaseFinalizedEA env key s.timedout

/-- `NDDSA_Agent_on_cleanup_sessions`. -/
def onCleanupSessions (env : Env) : AgentM Unit := do
  ensure (env.ok (.lockSessions .cleanupSessions))
  ensure (env.ok (.setTrigger .cleanupSessions))
  modify fun a => { a with condCleanupSessions := false }
  let a ← read
  forEach a.sessionKeys fun key => cleanupSessionEA env key

/-- The body of `NDDSA_Agent_on_cleanup_reads` for an attached resource of the
session `key`: a completed read without pending samples is cancelled, and for
one with pending samples the interface is asked to return them. -/
def cleanupReadEA (env : Env) (src : ℕ) (key : ClientSessionKey) (n : ℕ) : AgentM Unit := do
  let a ← read
  let x := a.attached n
  match x.readReq with
  | none => pure ()
  | some rd =>
      onlyIf (a.readAt rd).complete do
        if (a.readAt rd).hasPendingSamples then
          returnLoans env src key (.releaseReadSamples key x.id)
        else do
          let found ← lookupResource env .cleanupReads x.resource
          let _ ← require found
          cancelReadEA env n x.resource
          ensure (env.ok (.releaseResource .cleanupReads x.resource))

/-- A round of `NDDSA_Agent_on_cleanup_reads`. -/
def cleanupReadsOfEA (env : Env) (key : ClientSessionKey) : AgentM Unit := do
  ensure (env.ok (.nextSession .cleanupReads key))
  let a ← read
  match a.sessions.lookup key with
  | none => pure ()
  | some s => forEach s.resources fun n => cleanupReadEA env s.intf key n

/-- `NDDSA_Agent_on_cleanup_reads`. -/
def onCleanupReads (env : Env) : AgentM Unit := do
  ensure (env.ok (.setTrigger .cleanupReads))
  modify fun a => { a with condCleanupReads := false }
  let a ← read
  forEach a.sessionKeys fun key => cleanupReadsOfEA env key

/-- The body of `NDDSA_Agent_on_cleanup_resources` for an attached resource. -/
def cleanupResourceEA (env : Env) (key : ClientSessionKey) (n : ℕ) : AgentM Unit := do
  let a ← read
  let x := a.attached n
  let found ← lookupResource env .cleanupResources x.resource
  let r ← require found
  ensure (env.ok (.releaseResource .cleanupResources x.resource))
  onlyIf (r.nativeDeleted || (r.pendingDelete && decide (r.attachedCount = 0))) do
    detachResourceEA env key n true true
    modify fun a => a.notify (.resourceDeleted key x.id)

/-- `NDDSA_Agent_on_cleanup_resources`. -/
def onCleanupResources (env : Env) : AgentM Unit := do
  ensure (env.ok (.setTrigger .cleanupResources))
  modify fun a => { a with condCleanupResources := false }
  ensure (env.ok (.lockSessions .cleanupResources))
  let a ← read
  forEach a.sessionKeys fun key => do
    ensure (env.ok (.nextSession .cleanupResources key))
    let a ← read
    match a.sessions.lookup key with
    | none => pure ()
    | some s => do
        forEach s.resources fun n => cleanupResourceEA env key n
        attachAllResourcesToSessionEA env key

end AgentM

end NanoAgent
