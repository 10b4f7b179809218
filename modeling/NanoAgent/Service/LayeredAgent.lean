import NanoAgent.Service.SessionCalls
import NanoAgent.DdsAgent.Operation

/-!
# The two agents together

The XRCE agent owns a DDS agent and calls it: a message can make it open a session or close
one. The DDS agent calls it back when a session is opened, reset, closed or has timed out.
`LayeredAgent` has both of them. A step of the one that is about a session as a whole is a
step of the other, and what the one answers is what the other comes to.

The session table that the model of the XRCE agent counts on is then the one that the DDS
agent has (`LayeredAgent.agree_of_reached`), whatever the order of the steps.
-/

namespace NanoAgent

open Prog

/-- A call that the XRCE agent makes to the DDS agent about a session as a whole. -/
inductive SessionCall
  | openSession (key : ClientSessionKey) (c : ℕ)
  | closeSession (key : ClientSessionKey)

namespace SessionCall

/-- What the call comes to in the model of the XRCE agent. -/
def run (env : ServiceEnv) : SessionCall → ServiceM Unit
  | openSession key c => ServiceM.openSession env key c
  | closeSession key => ServiceM.closeSession env key

/-- The call as the DDS agent gets it. -/
def operation (b : Service) : SessionCall → Operation
  | openSession key c => .openSession b.intf key b.clientSessionTimeout (some c)
  | closeSession key => .closeSession b.intf key

end SessionCall

namespace ServiceM

/-- `processCreateClient` up to its call of `openSession`. -/
def processCreateClientToCall (env : ServiceEnv) (key sid : ℕ) (m : Message) (src : BindEntry)
    (keyInHeader missingMapping : Bool) : ServiceM SessionCall := do
  let (repr, keyChanged) ← require (deserializeClientRepr env.wire key sid m)
  ensure (env.wire.clientRepresentationValid repr)
  ensure (!(keyChanged && keyInHeader))
  ensure (env.ok .getClient)
  let a ← read
  let c := a.clientsPool.next
  modify fun a => { a with clientsPool := a.clientsPool.take .initializer }
  prepareClient env c repr (missingMapping || keyChanged) src
  pure (.openSession repr.sessionKey c)

/-- `receiveOnSession` up to its call of `closeSession`. -/
def receiveOnSessionToCall (env : ServiceEnv) (key : ClientSessionKey) : ServiceM SessionCall := do
  ensure (env.ok .lookupSession)
  let a ← read
  let s ← require (a.sessions.lookup key)
  ensure s.active
  ensure (s.intf = a.intf)
  onSessionActivity env key
  let c ← require s.userData
  let dispose ← onMessageReceived env c
  ensure dispose
  ensure (env.ok .releaseSession)
  pure (.closeSession key)

/-- `receiveFrom` up to its call of the DDS agent. -/
def receiveFromToCall (env : ServiceEnv) (src : BindEntry) (m : Message) (key : ℕ)
    (missing : Bool) : ServiceM SessionCall :=
  if env.wire.noSession m.sessionId then
    processCreateClientToCall env key m.sessionId m src (env.wire.hasClientKey m.sessionId) missing
  else do
    ensure (env.wire.hasClientKey m.sessionId || !missing)
    receiveOnSessionToCall env ⟨key, m.sessionId⟩

/-- `receiveMessage` up to its call of the DDS agent about a session as a whole. It fails for
a message that makes no such call. -/
def receiveMessageToCall (env : ServiceEnv) (src : BindEntry) (m : Message) :
    ServiceM SessionCall := do
  ensure (env.wire.headerSize m.sessionId ≤ m.bytes.length)
  let sender ← identifySender env m src
  receiveFromToCall env src m sender.1 sender.2

/-- From `b`, the function `x` makes the call that `toCall` comes to, and does nothing else to
the session table. -/
structure MakesCall (env : ServiceEnv) (toCall : ServiceM SessionCall) (x : ServiceM Unit)
    (b : Service) : Prop where
  call : ∀ q b₁, toCall b = (some q, b₁) →
    SameSessions b b₁ ∧ SameSessions (q.run env b₁).2 (x b).2
  noCall : ∀ b₁, toCall b = (none, b₁) → SameSessions b (x b).2

namespace MakesCall

variable {env : ServiceEnv} {b : Service}

theorem ensureThen {c : Bool} {f : PUnit → ServiceM SessionCall} {g : PUnit → ServiceM Unit}
    (h : c = true → MakesCall env (f ⟨⟩) (g ⟨⟩) b) :
    MakesCall env (ensure c >>= f) (ensure c >>= g) b := by
  cases c with
  | false => exact ⟨fun _ _ h => (by cases h), fun _ _ => refl b⟩
  | true => exact h rfl

theorem requireThen {β : Type} {o : Option β} {f : β → ServiceM SessionCall}
    {g : β → ServiceM Unit} (h : ∀ v, o = some v → MakesCall env (f v) (g v) b) :
    MakesCall env (require o >>= f) (require o >>= g) b := by
  cases o with
  | none => exact ⟨fun _ _ h => (by cases h), fun _ _ => refl b⟩
  | some v => exact h v rfl

theorem readThen {f : Service → ServiceM SessionCall} {g : Service → ServiceM Unit}
    (h : MakesCall env (f b) (g b) b) : MakesCall env (read >>= f) (read >>= g) b :=
  ⟨h.call, h.noCall⟩

/-- What both do before the call leaves the session table alone. -/
theorem bind {β : Type} {y : ServiceM β} {f : β → ServiceM SessionCall} {g : β → ServiceM Unit}
    (hy : SameSessions b (y b).2)
    (h : ∀ v b₁, y b = (some v, b₁) → MakesCall env (f v) (g v) b₁) :
    MakesCall env (y >>= f) (y >>= g) b := by
  rcases hrun : y b with ⟨_ | v, b₁⟩ <;> rw [hrun] at hy
  · refine ⟨fun q b₂ hcall => ?_, fun b₂ _ => ?_⟩
    · rw [bind_apply, hrun] at hcall
      cases hcall
    · rw [bind_apply, hrun]
      exact hy
  · obtain ⟨hcall, hno⟩ := h v b₁ hrun
    refine ⟨fun q b₂ hq => ?_, fun b₂ hnone => ?_⟩
    · rw [bind_apply, hrun] at hq
      obtain ⟨hbefore, hafter⟩ := hcall q b₂ hq
      rw [bind_apply, hrun]
      exact ⟨hy.trans' hbefore, hafter⟩
    · rw [bind_apply, hrun] at hnone
      rw [bind_apply, hrun]
      exact hy.trans' (hno b₂ hnone)

/-- The call at the end. -/
theorem pure (q : SessionCall) : MakesCall env (Pure.pure q) (q.run env) b := by
  refine ⟨fun q' b₁ hq => ?_, fun _ h => (by cases h)⟩
  obtain ⟨rfl, rfl⟩ : q = q' ∧ b = b₁ := by simpa using hq
  exact ⟨refl b, refl _⟩

/-- The error exit leaves the session table alone. -/
theorem onFailure {toCall : ServiceM SessionCall} {x y : ServiceM Unit}
    (h : MakesCall env toCall x b) (hy : Within SameSessions y) :
    MakesCall env toCall (Prog.onFailure x y) b := by
  have hexit : SameSessions (x b).2 (Prog.onFailure x y b).2 := by
    unfold Prog.onFailure
    rcases x b with ⟨_ | v, b₁⟩
    · exact hy b₁
    · exact refl b₁
  refine ⟨fun q b₁ hq => ?_, fun b₁ hnone => (h.noCall b₁ hnone).trans' hexit⟩
  obtain ⟨hbefore, hafter⟩ := h.call q b₁ hq
  exact ⟨hbefore, hafter.trans' hexit⟩

end MakesCall

theorem processCreateClient_makesCall (env : ServiceEnv) (key sid : ℕ) (m : Message)
    (src : BindEntry) (keyInHeader missing : Bool) (b : Service) :
    MakesCall env (processCreateClientToCall env key sid m src keyInHeader missing)
      (processCreateClient env key sid m src keyInHeader missing) b := by
  refine .requireThen fun v _ => .ensureThen fun _ => .ensureThen fun _ => .ensureThen fun _ => ?_
  refine .readThen (.bind ⟨rfl, rfl, rfl⟩ fun _ b₁ _ => .onFailure ?_ (.modify fun b₂ => ?_))
  · exact .bind (prepareClient_sameSessions env _ _ _ _ b₁) fun _ b₂ _ => .pure _
  · exact deleteClientSession_sameSessions b₂ _

theorem receiveOnSession_makesCall (env : ServiceEnv) (key : ClientSessionKey) (b : Service) :
    MakesCall env (receiveOnSessionToCall env key) (receiveOnSession env key) b := by
  refine .ensureThen fun _ => .readThen ?_
  cases b.sessions.lookup key with
  | none => exact ⟨fun _ _ h => (by cases h), fun _ _ => refl b⟩
  | some s =>
      refine .ensureThen fun _ => .ensureThen fun _ => ?_
      refine .bind (onSessionActivity_sameSessions env key b) fun _ b₁ _ =>
        .requireThen fun c _ => ?_
      have hwork := within_sameSessions_of_work (onMessageReceived_work env c) b₁
      refine .bind hwork fun dispose b₂ _ => ?_
      cases dispose with
      | false => exact ⟨fun _ _ h => (by cases h), fun _ _ => refl b₂⟩
      | true =>
          exact .ensureThen (f := fun _ => Pure.pure (.closeSession key))
            (g := fun _ => closeSession env key) fun _ => .pure (.closeSession key)

theorem receiveMessage_makesCall (env : ServiceEnv) (src : BindEntry) (m : Message)
    (b : Service) : MakesCall env (receiveMessageToCall env src m)
    (receiveMessage env src m) b := by
  refine .ensureThen fun _ => .bind (identifySender_sameSessions env m src b) fun sender b₁ _ => ?_
  unfold receiveFromToCall receiveFrom
  by_cases hsession : env.wire.noSession m.sessionId = true
  · rw [if_pos hsession, if_pos hsession]
    exact processCreateClient_makesCall env _ _ m src _ _ b₁
  · rw [if_neg hsession, if_neg hsession]
    exact .ensureThen fun _ => receiveOnSession_makesCall env _ b₁

end ServiceM

/-- The XRCE agent with the DDS agent that it owns. -/
structure LayeredAgent where
  dds : Agent
  xrce : Service

/-- What can happen to the two agents. A round of the clean-up of sessions has an environment
of its own for every session. -/
inductive LayeredOperation
  | dds (o : Operation) (env : Env)
  | xrce (o : ServiceOperation) (senv : ServiceEnv)
  | receiveMessage (src : BindEntry) (m : Message) (env : Env) (senv : ServiceEnv)
  | finishCloseSession (key : ClientSessionKey) (env : Env) (senv : ServiceEnv)
  | sessionTimeout (key : ClientSessionKey) (env : Env) (senv : ServiceEnv)
  | cleanupSessions (env : Env) (senv : ClientSessionKey → ServiceEnv)

/-- The operations of the XRCE agent that are about no session as a whole. -/
def ServiceOperation.isOwn : ServiceOperation → Bool
  | deliverSample _ _ _ => true
  | releaseReadSamples _ _ => true
  | acknowledge _ _ => true
  | dispatchEvent _ => true
  | sessionEvent _ => true
  | _ => false

/-- The DDS agent gets the call that a function of the XRCE agent has come to, if it has. -/
def Agent.answerCall (a : Agent) (env : Env) : Option SessionCall × Service → Agent
  | (some q, b) => a.step (q.operation b, env)
  | (none, _) => a

namespace LayeredAgent

/-- The round of the clean-up of sessions in the XRCE agent, if the DDS agent comes to a deleted
session. -/
def cleanupRound (env : Env) (senv : ServiceEnv) (key : ClientSessionKey) (a : Agent)
    (b : Service) : Service :=
  if a.cleansUp env key then b.step (.cleanupSession key, senv) else b

def cleanupRounds (env : Env) (senv : ClientSessionKey → ServiceEnv) :
    List ClientSessionKey → Agent → Service → Service
  | [], _, b => b
  | key :: keys, a, b =>
      match AgentM.cleanupSessionEA env key a with
      | (some _, a') => cleanupRounds env senv keys a' (cleanupRound env (senv key) key a b)
      | (none, _) => cleanupRound env (senv key) key a b

/-- What the rounds of the clean-up come to in the DDS agent. -/
def CleanupAnswered (env : Env) (senv : ClientSessionKey → ServiceEnv) :
    List ClientSessionKey → Agent → Prop
  | [], _ => True
  | key :: keys, a =>
      (a.cleansUp env key = true → CleanupAnswers env (senv key) key a) ∧
        ∀ a', AgentM.cleanupSessionEA env key a = (some (), a') →
          CleanupAnswered env senv keys a'

/-- The clean-up of sessions comes to its loop. -/
def cleans (a : Agent) (env : Env) : Bool :=
  a.condCleanupSessions && env.ok (.lockSessions .cleanupSessions) &&
    env.ok (.setTrigger .cleanupSessions)

/-- Carry out an operation. -/
def step (x : LayeredAgent) : LayeredOperation → LayeredAgent
  | .dds o env => { x with dds := x.dds.step (o, env) }
  | .xrce o senv => { x with xrce := x.xrce.step (o, senv) }
  | .receiveMessage src m env senv =>
      ⟨x.dds.answerCall env (ServiceM.receiveMessageToCall senv src m x.xrce),
        x.xrce.step (.receiveMessage src m, senv)⟩
  | .finishCloseSession key env senv =>
      ⟨x.dds.step (.finishCloseSession key, env), x.xrce.step (.finishCloseSession key, senv)⟩
  | .sessionTimeout key env senv =>
      ⟨x.dds.step (.sessionTimeout key, env), x.xrce.step (.sessionTimeout key, senv)⟩
  | .cleanupSessions env senv =>
      { dds := x.dds.step (.cleanupSessions, env)
        xrce :=
          if cleans x.dds env then
            cleanupRounds env senv x.dds.sessionKeys
              { x.dds with condCleanupSessions := false } x.xrce
          else x.xrce }

/-- What the DDS agent answers a call is what the call comes to in it. -/
def CallAnswers (env : Env) (senv : ServiceEnv) (a : Agent) (b : Service) : SessionCall → Prop
  | .openSession key c => OpenAnswers env senv key c a b
  | .closeSession key => CloseAnswers env senv key

/-- What the one agent answers is what the other comes to. -/
def Answered (x : LayeredAgent) : LayeredOperation → Prop
  | .dds o _ => o.isInner = true
  | .xrce o _ => o.isOwn = true
  | .receiveMessage src m env senv => ∀ q b,
      ServiceM.receiveMessageToCall senv src m x.xrce = (some q, b) →
        CallAnswers env senv x.dds b q
  | .finishCloseSession key env senv => FinishAnswers env senv key
  | .sessionTimeout key env senv => TimeoutAnswers env senv key x.xrce
  | .cleanupSessions env senv => cleans x.dds env = true →
      CleanupAnswered env senv x.dds.sessionKeys { x.dds with condCleanupSessions := false }

/-- Both agents as they are started. -/
def Initial (x : LayeredAgent) : Prop := x.dds.Initial ∧ x.xrce.Initial

/-- The states that the two agents reach together. -/
abbrev Reached : LayeredAgent → Prop := Reachable Initial step Answered

/-- An operation of the XRCE agent on its own. -/
theorem step_sameSessions (b : Service) {o : ServiceOperation} (senv : ServiceEnv)
    (h : o.isOwn = true) : SameSessions b (b.step (o, senv)) := by
  cases o with
  | deliverSample key id d => exact .of_work (ServiceOperation.deliverSample_work senv key id d b)
  | releaseReadSamples key id =>
      exact .of_work (ServiceOperation.releaseReadSamples_work senv key id b)
  | acknowledge key m => exact .of_work (ServiceOperation.acknowledge_work senv key m b)
  | dispatchEvent p =>
      exact Within.read (fun _ => .ensureThen fun _ => .modify fun _ => ⟨rfl, rfl, rfl⟩) b
  | sessionEvent p =>
      refine Within.read (fun _ => .bind (.ensure _) fun _ => .bind (.modify fun _ => ?_) ?_) b
      · exact ⟨rfl, rfl, rfl⟩
      · exact fun _ => ServiceM.onSessionEvent_sameSessions senv p
  | receiveMessage src m => cases h
  | sessionTimeout key => cases h
  | cleanupSession key => cases h
  | finishCloseSession key => cases h

variable {a : Agent} {b b₁ : Service} {env : Env} {senv : ServiceEnv}

/-- The call of the DDS agent, on both sides. -/
theorem agree_call (h : Agree a b₁) {q : SessionCall} (hq : CallAnswers env senv a b₁ q) :
    Agree (a.step (q.operation b₁, env)) (q.run senv b₁).2 := by
  cases q with
  | openSession key c => exact (openSession_lockstep h hq).states
  | closeSession key => exact (closeSession_lockstep h hq).states

/-- The loop of the clean-up, round by round. -/
theorem agree_cleanupRounds {senv : ClientSessionKey → ServiceEnv} (keys : List ClientSessionKey)
    (h : Agree a b) (hanswers : CleanupAnswered env senv keys a) :
    Agree (forEach keys (fun key => AgentM.cleanupSessionEA env key) a).2
      (cleanupRounds env senv keys a b) := by
  induction keys generalizing a b with
  | nil => exact h
  | cons key keys ih =>
      obtain ⟨hround, hrest⟩ := hanswers
      have hstep : Agree (AgentM.cleanupSessionEA env key a).2
          (cleanupRound env (senv key) key a b) := by
        unfold cleanupRound
        cases hclean : a.cleansUp env key with
        | false =>
            rw [cleanupSessionEA_of_not_cleansUp hclean]
            exact h
        | true => exact (cleanupSessionEA_lockstep h (hround hclean) hclean).states
      rw [forEach, bind_apply, cleanupRounds]
      rcases hrun : AgentM.cleanupSessionEA env key a with ⟨_ | v, a'⟩
      · rw [hrun] at hstep
        exact hstep
      · rw [hrun] at hstep
        exact ih hstep (hrest a' hrun)

/-- The clean-up of sessions is its loop, when it comes so far. -/
theorem step_cleanupSessions (a : Agent) (env : Env) : a.step (.cleanupSessions, env) =
    if cleans a env then
      (forEach a.sessionKeys (fun key => AgentM.cleanupSessionEA env key)
        { a with condCleanupSessions := false }).2
    else a := by
  have hrun : a.step (.cleanupSessions, env) = ((ensure a.condCleanupSessions >>= fun _ =>
      AgentM.onCleanupSessions env : AgentM Unit) a).2 := rfl
  rw [hrun, cleans, AgentM.onCleanupSessions]
  cases a.condCleanupSessions with
  | false => rfl
  | true =>
      cases env.ok (.lockSessions .cleanupSessions) with
      | false => rfl
      | true => cases env.ok (.setTrigger .cleanupSessions) <;> rfl

/-- Every step keeps the two tables the same. -/
theorem agree_step {x : LayeredAgent} (h : Agree x.dds x.xrce) {i : LayeredOperation}
    (hi : x.Answered i) : Agree (x.step i).dds (x.step i).xrce := by
  cases i with
  | dds o env => exact h.of_view (x.dds.step_sameView env hi)
  | xrce o senv => exact h.of_sessions (step_sameSessions x.xrce senv hi).sessions
  | receiveMessage src m env senv =>
      have hcall := ServiceM.receiveMessage_makesCall senv src m x.xrce
      change Agree (x.dds.answerCall env (ServiceM.receiveMessageToCall senv src m x.xrce)) _
      rcases hto : ServiceM.receiveMessageToCall senv src m x.xrce with ⟨_ | q, b⟩
      · exact h.of_sessions (hcall.noCall b hto).sessions
      · obtain ⟨hbefore, hafter⟩ := hcall.call q b hto
        have hreached := h.of_sessions hbefore.sessions
        exact (agree_call hreached (hi q b hto)).of_sessions hafter.sessions
  | finishCloseSession key env senv => exact (finishCloseSession_lockstep h hi).states
  | sessionTimeout key env senv => exact (onSessionTimeout_lockstep h hi).states
  | cleanupSessions env senv =>
      change Agree (x.dds.step (.cleanupSessions, env)) (if cleans x.dds env then _ else x.xrce)
      rw [step_cleanupSessions]
      cases hcleans : cleans x.dds env with
      | false => exact h
      | true =>
          have hstart : Agree { x.dds with condCleanupSessions := false } x.xrce :=
            h.of_view (.of_sessions rfl)
          exact agree_cleanupRounds _ hstart (hi hcleans)

/-- Both tables are empty at the start. -/
theorem agree_initial {x : LayeredAgent} (h : x.Initial) : Agree x.dds x.xrce where
  lookup key := by
    rw [h.1.sessions, h.2.sessions]
    rfl
  client key s hs := by
    rw [h.1.sessions] at hs
    cases hs

/-- In every run of the two agents, the DDS agent has the sessions that the XRCE agent counts
on, with the same owner, timeout, user data and flags, and every session has a proxy
client. -/
theorem agree_of_reached {x : LayeredAgent} (h : x.Reached) : Agree x.dds x.xrce :=
  h.invariant (fun _ => agree_initial) fun _ _ hagree hi => agree_step hagree hi

theorem cleanupRounds_reached {senv : ClientSessionKey → ServiceEnv} (keys : List ClientSessionKey)
    (a : Agent) (h : b.ReachedWhen fun _ _ => True) :
    (cleanupRounds env senv keys a b).ReachedWhen fun _ _ => True := by
  induction keys generalizing a b with
  | nil => exact h
  | cons key keys ih =>
      have hround : (cleanupRound env (senv key) key a b).ReachedWhen fun _ _ => True := by
        unfold cleanupRound
        split
        · exact .next _ h trivial
        · exact h
      rw [cleanupRounds]
      rcases AgentM.cleanupSessionEA env key a with ⟨_ | v, a'⟩
      · exact hround
      · exact ih a' hround

/-- A run of the two agents together is a run of each of them. -/
theorem runs_of_reached {x : LayeredAgent} (h : x.Reached) :
    (x.dds.ReachedWhen fun _ _ => True) ∧ x.xrce.ReachedWhen fun _ _ => True := by
  refine Reachable.invariant (I := fun x : LayeredAgent =>
    (x.dds.ReachedWhen fun _ _ => True) ∧ x.xrce.ReachedWhen fun _ _ => True)
    (fun x h₀ => ⟨.start h₀.1, .start h₀.2⟩) (fun x i hx _ => ?_) h
  obtain ⟨hdds, hxrce⟩ := hx
  cases i with
  | dds o env => exact ⟨.next _ hdds trivial, hxrce⟩
  | xrce o senv => exact ⟨hdds, .next _ hxrce trivial⟩
  | receiveMessage src m env senv =>
      refine ⟨?_, .next _ hxrce trivial⟩
      change (x.dds.answerCall env (ServiceM.receiveMessageToCall senv src m x.xrce)).ReachedWhen _
      rcases ServiceM.receiveMessageToCall senv src m x.xrce with ⟨_ | q, b⟩
      · exact hdds
      · exact .next _ hdds trivial
  | finishCloseSession key env senv => exact ⟨.next _ hdds trivial, .next _ hxrce trivial⟩
  | sessionTimeout key env senv => exact ⟨.next _ hdds trivial, .next _ hxrce trivial⟩
  | cleanupSessions env senv =>
      refine ⟨.next _ hdds trivial, ?_⟩
      change (if cleans x.dds env then _ else x.xrce).ReachedWhen _
      split
      · exact cleanupRounds_reached _ _ hxrce
      · exact hxrce

end LayeredAgent

end NanoAgent
