import NanoAgent.DdsAgent.Session
import NanoAgent.Foundations.Run

/-!
# Runs of the DDS agent

An `Operation` is a call of the agent's interface, an event of its event
generator, a pass of one of its clean-up handlers, or a change of the cache of a
DDS data reader, which receives samples and drops others as DDS sees fit.
`Agent.step` carries it out in an environment, and the state keeps whatever the
operation did, also when it failed. A clean-up handler runs when its trigger is
set.
-/

namespace NanoAgent

/-- What can happen to the agent. -/
inductive Operation
  | openSession (src : ℕ) (key : ClientSessionKey) (timeout : ℕ) (data : Option ℕ)
  | closeSession (src : ℕ) (key : ClientSessionKey)
  | finishCloseSession (key : ClientSessionKey)
  | sessionTimeout (key : ClientSessionKey)
  | createResource (key : ClientSessionKey) (q : CreateRequest)
  | deleteResource (key : ClientSessionKey) (id : ℕ)
  | readData (key : ClientSessionKey) (id : ℕ) (spec : ReadSpecification)
  | cancelRead (key : ClientSessionKey) (id : ℕ)
  | returnLoan (src : ℕ) (key : ClientSessionKey) (d : ℕ)
  | writeData (key : ClientSessionKey) (id : ℕ)
  | dataEvent (rd : ℕ)
  | changeCache (reader : ℕ) (cache : List Sample)
  | cleanupSessions
  | cleanupReads
  | cleanupResources

/-- An environment in which every call succeeds, with the given factory. -/
def Env.obliging (factory : FactoryOutcome) : Env where
  ok _ := true
  factory := factory
  delivery _ := .accepted true
  serializedSize _ := 4
  writtenLen _ := 4
  cdrHeader _ := (0, 1)
  initialCache := []
  clock _ := 1
  resourceData _ := none
  sessionData := none
  loansReturned _ := []
  loanOk _ _ := true
  loanClock _ _ := 1

/-- A factory that creates the entity of one resource. -/
def FactoryOutcome.one (e : Entity) : FactoryOutcome where
  success := true
  entities := [e]
  created := [(e.kind, e.name)]

namespace Operation

open Prog

/-- The program of an operation. -/
def run (env : Env) : Operation → AgentM Unit
  | openSession src key timeout data => AgentM.openSession env src key timeout data
  | closeSession src key => AgentM.closeSession env src key
  | finishCloseSession key => AgentM.finishCloseSession env key
  | sessionTimeout key => AgentM.onSessionTimeout env key
  | createResource key q => AgentM.createResource env key q
  | deleteResource key id => AgentM.deleteResource env key id
  | readData key id spec => AgentM.readData env key id spec
  | cancelRead key id => AgentM.cancelRead env key id
  | returnLoan src key d => AgentM.returnLoan env src key d
  | writeData key id => AgentM.writeData env key id
  | dataEvent rd => AgentM.onDataOnReader env rd
  | changeCache reader cache =>
      modify fun a => a.updateReader reader fun r => { r with cache := cache }
  | cleanupSessions => do
      let a ← read
      ensure a.condCleanupSessions
      AgentM.onCleanupSessions env
  | cleanupReads => do
      let a ← read
      ensure a.condCleanupReads
      AgentM.onCleanupReads env
  | cleanupResources => do
      let a ← read
      ensure a.condCleanupResources
      AgentM.onCleanupResources env

end Operation

namespace Agent

/-- Carry out an operation. -/
def step (a : Agent) (i : Operation × Env) : Agent := (i.1.run i.2 a).2

/-- The agent as it is started: without sessions, resources or entities. A buffer that
was never handed out holds no read and no request. -/
structure Initial (a : Agent) : Prop where
  resources : a.resources = ∅
  sessions : a.sessions = ∅
  entities : a.entities = []
  attachedNext : a.poolResources.next = 0
  attachedReturned : a.poolResources.returned = []
  readsNext : a.poolReads.next = 0
  readsReturned : a.poolReads.returned = []
  samplesNext : a.poolSamples.next = 0
  samplesReturned : a.poolSamples.returned = []
  readersNext : a.poolReaders.next = 0
  readersReturned : a.poolReaders.returned = []
  writersNext : a.poolWriters.next = 0
  writersReturned : a.poolWriters.returned = []
  readReq : ∀ n, (a.attached n).readReq = none
  requests : ∀ n, (a.readerAt n).requests = []
  samples : ∀ n, (a.readAt n).samples = []
  callbacks : a.callbacks = []
  faults : a.faults = []

/-- An agent that has just been started. -/
def started (autoAttach : Bool) (start : ReadStartPoint) : Agent where
  autoAttachResources := autoAttach
  readStartPoint := start
  autoId _ _ := some 1
  filterMatches _ _ := true
  resources := ∅
  sessions := ∅
  poolResources := .empty (.initial .unknown .none 0 ⟨0, 0⟩)
  poolReads := .empty (.initial ⟨0, 0⟩ 0)
  poolSamples := .empty ⟨none, ⟨0, 0⟩, 0, .unknown, false, none, 0, 0⟩
  poolReaders := .empty (.initial [])
  poolWriters := .empty ()
  entities := []
  condCleanupSessions := false
  condCleanupReads := false
  condCleanupResources := false
  callbacks := []
  retries := []
  faults := []

theorem started_initial (autoAttach : Bool) (start : ReadStartPoint) :
    (started autoAttach start).Initial :=
  ⟨rfl, rfl, rfl, rfl, rfl, rfl, rfl, rfl, rfl, rfl, rfl, rfl, rfl, fun _ => rfl, fun _ => rfl,
    fun _ => rfl, rfl, rfl⟩

/-- The state after a list of operations. -/
def after (a : Agent) (run : List (Operation × Env)) : Agent := run.foldl step a

/-- The states reached by runs whose steps meet `ok`. -/
abbrev ReachedWhen (ok : Agent → Operation × Env → Prop) : Agent → Prop :=
  Reachable Initial step ok

theorem reached_after {a : Agent} (h : a.Initial) (run : List (Operation × Env)) :
    (a.after run).ReachedWhen fun _ _ => True :=
  Reachable.foldl run (.start h)

end Agent

end NanoAgent
