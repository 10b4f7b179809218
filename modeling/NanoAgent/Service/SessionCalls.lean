import NanoAgent.DdsAgent.SessionView
import NanoAgent.Foundations.Lockstep
import NanoAgent.Service.SessionTable

/-!
# The XRCE agent on top of the DDS agent

The model of the XRCE agent has the session table of the DDS agent, and the part of its
functions that an interface can see. Here these are compared with the DDS agent itself.
`Agree a b` says that the two tables are the same as an interface sees them.

When the answers that the model of the XRCE agent gets are those that the functions of the
DDS agent come to, and the calls back to the interface end as the functions of the XRCE agent
do, the functions go in lockstep: they succeed together and the tables agree afterwards.
-/

namespace NanoAgent

open Prog

/-- The sessions of the DDS agent are those that the XRCE agent counts on, and each has a
proxy client. -/
structure Agree (a : Agent) (b : Service) : Prop where
  lookup : ∀ key, b.sessions.lookup key = (a.sessions.lookup key).map ClientSession.bare
  client : ∀ key s, a.sessions.lookup key = some s → s.userData.isSome = true

variable {a a' : Agent} {b b' : Service} {key : ClientSessionKey} {c : ℕ} {env : Env}
  {senv : ServiceEnv}

namespace Agree

theorem of_view (h : Agree a b) (ha : SameView a a') : Agree a' b where
  lookup key := (h.lookup key).trans (ha key).symm
  client key s hs := by
    have hview := ha key
    rw [hs] at hview
    obtain ⟨s', hs', hbare⟩ := Option.map_eq_some_iff.1 hview.symm
    have huser : s'.bare.userData = s.bare.userData := by rw [hbare]
    have hclient := h.client key s' hs'
    rwa [show s'.userData = s.userData from huser] at hclient

theorem of_sessions (h : Agree a b) (hb : b'.sessions = b.sessions) : Agree a b' where
  lookup key := hb ▸ h.lookup key
  client := h.client

/-- The same change of a session on both sides. -/
theorem updateSession (h : Agree a b) (key : ClientSessionKey)
    {f f' : ClientSession → ClientSession} (hf : ∀ s, (f s).bare = f' s.bare)
    (hclient : ∀ s, s.userData.isSome = true → (f s).userData.isSome = true) :
    Agree (a.updateSession key f) (b.updateSession key f') where
  lookup k := by
    rw [Agent.updateSession, Service.updateSession, AList.lookup_modify, AList.lookup_modify,
      h.lookup]
    split
    · rw [Option.map_map, Option.map_map]
      exact congrArg (fun g => (a.sessions.lookup k).map g) (funext fun s => (hf s).symm)
    · rfl
  client k s hs := by
    rw [Agent.updateSession, AList.lookup_modify] at hs
    split at hs
    · obtain ⟨s', hs', rfl⟩ := Option.map_eq_some_iff.1 hs
      exact hclient s' (h.client k s' hs')
    · exact h.client k s hs

theorem insertSession (h : Agree a b) (key : ClientSessionKey) (intf timeout c : ℕ) :
    Agree (a.insertSession key (.initial intf timeout (some c)))
      { b with sessions := b.sessions.insert key (.initial intf timeout (some c)) } where
  lookup k := by
    by_cases hk : k = key
    · subst hk
      simp [Agent.insertSession, ClientSession.initial, ClientSession.bare]
    · simp [Agent.insertSession, AList.lookup_insert_ne hk, h.lookup]
  client k s hs := by
    by_cases hk : k = key
    · subst hk
      rw [Agent.insertSession, AList.lookup_insert] at hs
      rw [← Option.some.inj hs]
      rfl
    · rw [Agent.insertSession, AList.lookup_insert_ne hk] at hs
      exact h.client k s hs

theorem eraseSession (h : Agree a b) (key : ClientSessionKey) :
    Agree (a.eraseSession key) { b with sessions := b.sessions.erase key } where
  lookup k := by
    by_cases hk : k = key
    · subst hk
      simp [Agent.eraseSession]
    · simp [Agent.eraseSession, AList.lookup_erase_ne hk, h.lookup]
  client k s hs := by
    by_cases hk : k = key
    · subst hk
      simp [Agent.eraseSession] at hs
    · rw [Agent.eraseSession, AList.lookup_erase_ne hk] at hs
      exact h.client k s hs

theorem eq_bare (h : Agree a b) {s s' : ClientSession} (hs : a.sessions.lookup key = some s)
    (hs' : b.sessions.lookup key = some s') : s' = s.bare := by
  have hlookup := h.lookup key
  rw [hs, hs'] at hlookup
  exact Option.some.inj hlookup

/-- The tables have a session together. -/
theorem isSome (h : Agree a b) (key : ClientSessionKey) :
    (a.sessions.lookup key).isSome = (b.sessions.lookup key).isSome := by
  rw [h.lookup, Option.isSome_map]

end Agree

/-- The reset callback of the interface, carried out by the XRCE agent on the proxy client `c`,
answers for the environment: it accepts the reset or refuses it, gives the user data, and
returns the loans of the forward requests that it dismisses. -/
structure Env.ResetBy (env : Env) (callee : ServiceEnv) (key : ClientSessionKey) (c : ℕ)
    (b : Service) : Prop where
  accepts : env.ok (.onSessionReset key) = (ServiceM.onSessionReset callee key c b).1.isSome
  data : env.sessionData = (ServiceM.onSessionReset callee key c b).1
  loans : (ServiceM.onSessionReset callee key c b).2.returns =
    b.returns ++ env.loansReturned (.sessionReset key)

/-- What opening a session of the proxy client `c` comes to in the DDS agent, and what the
calls back come to in the XRCE agent. -/
structure OpenAnswers (env : Env) (senv : ServiceEnv) (key : ClientSessionKey) (c : ℕ) (a : Agent)
    (b : Service) : Prop where
  insertSession : senv.ok .insertSession = env.ok (.insertSession key)
  newSemaphore : ∀ n, senv.ok (.newSemaphore n) = env.ok (.newSemaphore .openSession n)
  deleteSession : senv.ok .deleteSession = env.ok (.deleteSession key)
  postActivity : senv.ok .postActivity = env.ok (.postEvent .openSession 0)
  releaseSession : senv.ok .releaseSession = env.ok (.releaseSession .openSession key)
  attachResources : a.sessions.lookup key = none → senv.ok .attachResources =
    (AgentM.attachAllResourcesToSessionEA env key (a.insertSession key
      (.initial b.intf b.clientSessionTimeout (some c)))).1.isSome
  onSessionOpened : a.sessions.lookup key = none → env.ok (.onSessionOpened key) =
    (ServiceM.onSessionOpened senv key c
      { b with sessions := b.sessions.insert key (.initial b.intf b.clientSessionTimeout (some c)) }
      ).1.isSome
  onSessionReset : ∀ s old, a.sessions.lookup key = some s → s.userData = some old →
    env.ResetBy senv key old (b.updateSession key fun s => { s with resetting := true })
  cancelReads : ∀ s, a.sessions.lookup key = some s → senv.ok .cancelReads =
    (forEach s.resources (fun n => do
      let a ← read
      onlyIf (a.attached n).readReq.isSome (AgentM.cancelReadI env n))
      ((a.atResetReturn env b.intf key).updateSession key
        fun s => { s with userData := env.sessionData })).1.isSome

theorem ensure_and_bind {σ α : Type} (x y : Bool) (f : PUnit → Prog σ α) :
    (ensure (x && y) >>= f) = ensure x >>= fun _ => ensure y >>= f := by
  cases x <;> rfl

/-- A new session is opened by both agents, or by none. -/
theorem openNewSession_lockstep (h : Agree a b) (ho : OpenAnswers env senv key c a b)
    (hnone : a.sessions.lookup key = none) :
    Lockstep Agree true (AgentM.openNewSession env b.intf key b.clientSessionTimeout (some c))
      (ServiceM.openNewSession senv key c) a b := by
  have hinsert := h.insertSession key b.intf b.clientSessionTimeout c
  unfold AgentM.openNewSession ServiceM.openNewSession
  refine Lockstep.modifyThen (Lockstep.onFailure ?_ fun hexit => ?_)
  · unfold AgentM.populateSession
    rw [ensure_and_bind]
    refine .ensureThen hinsert (ho.newSemaphore 0).symm fun _ => ?_
    refine .ensureThen hinsert (ho.newSemaphore 1).symm fun _ => ?_
    refine Lockstep.bind ⟨fun _ => ?_, ?_⟩ fun _ a₁ _ b₁ hx hy hagree => ?_
    · rw [← ho.attachResources hnone]
      cases senv.ok .attachResources <;> rfl
    · exact hinsert.of_view (AgentM.attachAllResourcesToSessionEA_sameView env key _)
    · obtain ⟨-, rfl⟩ := ensure_eq_some.1 hy
      have hopened := ServiceM.onSessionOpened_sameSessions senv key c
        { b with sessions :=
            b.sessions.insert key (.initial b.intf b.clientSessionTimeout (some c)) }
      refine ⟨fun _ => ?_, hagree.of_sessions hopened.sessions⟩
      rw [← ho.onSessionOpened hnone]
      cases env.ok (.onSessionOpened key) <;> rfl
  · exact .onlyIf hexit ho.deleteSession.symm fun _ => ⟨fun _ => rfl, hexit.eraseSession key⟩

/-- A session is reset by both agents, or by none. -/
theorem resetSession_lockstep (h : Agree a b) (ho : OpenAnswers env senv key c a b)
    {s : ClientSession} (hs : a.sessions.lookup key = some s) :
    Lockstep Agree true (AgentM.resetSession env b.intf key s)
      (ServiceM.resetSession senv key s.bare) a b := by
  obtain ⟨old, hold⟩ := Option.isSome_iff_exists.1 (h.client key s hs)
  have hresetting : Agree (a.updateSession key fun s => { s with resetting := true })
      (b.updateSession key fun s => { s with resetting := true }) :=
    h.updateSession key (fun _ => rfl) fun _ hclient => hclient
  obtain ⟨hreset, hdata, -⟩ := ho.onSessionReset s old hs hold
  unfold AgentM.resetSession ServiceM.resetSession
  refine .ensureThen h rfl fun _ => .modifyThen ?_
  refine .readThen_right (.ensureThen hresetting rfl fun _ => .requireThen_right hold ?_)
  refine Lockstep.bind ⟨fun _ => ?_, ?_⟩ fun _ a₁ data b₁ hx hy hagree => ?_
  · rw [← hreset, AgentM.onSessionReset_apply]
    cases env.ok (.onSessionReset key) <;> rfl
  · refine Agree.of_view (hresetting.of_sessions
      (ServiceM.onSessionReset_sameSessions senv key old _).sessions) ?_
    refine AgentM.within_sameView_of_frame (.bind ?_ fun _ => .ensure _) _
    exact AgentM.returnLoans_frame env b.intf key _
  rw [AgentM.onSessionReset_apply] at hx
  obtain ⟨-, hx⟩ := ensure_eq_some.1 hx
  obtain rfl : a.atResetReturn env b.intf key = a₁ := hx
  rw [hy] at hdata
  have hdata : env.sessionData = some data := hdata
  rw [hdata, Option.isSome_some, onlyIf_true]
  refine .modifyThen ?_
  have hserved : Agree
      ((a.atResetReturn env b.intf key).updateSession key
        fun s => { s with userData := some data })
      (b₁.updateSession key fun s => { s with userData := some data }) :=
    hagree.updateSession key (fun _ => rfl) fun _ _ => rfl
  refine Lockstep.bind ⟨fun _ => ?_, ?_⟩ fun _ a₂ _ b₂ _ _ hended => ⟨fun _ => rfl, ?_⟩
  · have hcancel := ho.cancelReads s hs
    rw [hdata] at hcancel
    rw [← hcancel]
    cases senv.ok .cancelReads <;> rfl
  · refine hserved.of_view ?_
    have hcancel : Within SameView (forEach s.resources fun n => do
        let a ← read
        onlyIf (a.attached n).readReq.isSome (AgentM.cancelReadI env n)) :=
      .forEach fun n _ => .read fun _ => .onlyIf fun _ =>
        AgentM.within_sameView_of_frame (AgentM.cancelReadI_frame env n)
    exact hcancel _
  · exact hended.updateSession key (fun _ => rfl) fun _ hclient => hclient

theorem resetOrOpenSession_lockstep (h : Agree a b) (ho : OpenAnswers env senv key c a b) :
    Lockstep Agree true (AgentM.resetOrOpenSession env b.intf key b.clientSessionTimeout (some c))
      (ServiceM.resetOrOpenSession senv key c) a b := by
  unfold AgentM.resetOrOpenSession ServiceM.resetOrOpenSession
  refine .readThen ?_
  have hlookup := h.lookup key
  cases hs : a.sessions.lookup key with
  | none =>
      rw [hs] at hlookup
      rw [show b.sessions.lookup key = none from hlookup]
      exact openNewSession_lockstep h ho hs
  | some s =>
      rw [hs] at hlookup
      rw [show b.sessions.lookup key = some s.bare from hlookup]
      exact resetSession_lockstep h ho hs

/-- `NDDSA_Agent_open_session` and what the XRCE agent counts on. -/
theorem openSession_lockstep (h : Agree a b) (ho : OpenAnswers env senv key c a b) :
    Lockstep Agree true (AgentM.openSession env b.intf key b.clientSessionTimeout (some c))
      (ServiceM.openSession senv key c) a b := by
  unfold AgentM.openSession ServiceM.openSession
  refine .ensureThen h ho.insertSession.symm fun _ => ?_
  refine (resetOrOpenSession_lockstep h ho).bind fun _ a₁ _ b₁ _ _ h₁ => ?_
  unfold ServiceM.onSessionActivity
  rw [bind_bind]
  refine .readThen ?_
  rw [bind_bind]
  refine .requireThen h₁ (h₁.isSome key) fun s s' hs hs' => ?_
  obtain rfl : s' = s.bare := h₁.eq_bare hs hs'
  refine .ensureThen h₁ ?_ fun _ => .ensure h₁ ho.releaseSession.symm
  rw [ho.postActivity]
  rfl

/-- What closing a session comes to in the DDS agent. -/
structure CloseAnswers (env : Env) (senv : ServiceEnv) (key : ClientSessionKey) : Prop where
  lockSessions : senv.ok .lockSessions = env.ok (.lockSessions .closeSession)
  lookupSession : senv.ok .lookupSession = env.ok (.lookupSession .closeSession key)
  setTrigger : senv.ok .setTrigger = env.ok (.setTrigger .disposeSession)

theorem disposeSession_lockstep (h : Agree a b) (s : ClientSession)
    (htrigger : senv.ok .setTrigger = env.ok (.setTrigger .disposeSession)) :
    Lockstep Agree true (AgentM.disposeSessionEA env key s)
      (ServiceM.disposeSession senv key s.bare) a b := by
  unfold AgentM.disposeSessionEA ServiceM.disposeSession
  cases hdeleted : s.deleted with
  | true =>
      have hbare : s.bare.deleted = true := hdeleted
      rw [hbare]
      exact ⟨fun _ => rfl, h⟩
  | false =>
      have hbare : s.bare.deleted = false := hdeleted
      rw [hbare]
      have hdisposed : Agree (a.updateSession key fun s => { s with deleted := true })
          (b.updateSession key fun s => { s with deleted := true }) :=
        h.updateSession key (fun _ => rfl) fun _ hclient => hclient
      refine .modifyThen ⟨fun _ => ?_, ?_⟩
      · rw [htrigger]
        cases env.ok (.setTrigger .disposeSession) <;> rfl
      · refine Agree.of_view (a := a.updateSession key fun s => { s with deleted := true }) ?_ ?_
        · exact hdisposed
        · exact Within.bind (.ensure _) (fun _ => .modify fun _ => .of_sessions rfl) _

/-- `NDDSA_Agent_close_session` and what the XRCE agent counts on. -/
theorem closeSession_lockstep (h : Agree a b) (hc : CloseAnswers env senv key) :
    Lockstep Agree true (AgentM.closeSession env b.intf key) (ServiceM.closeSession senv key)
      a b := by
  unfold AgentM.closeSession ServiceM.closeSession
  refine .ensureThen h hc.lockSessions.symm fun _ => ?_
  refine .ensureThen h hc.lookupSession.symm fun _ => ?_
  refine .readThen (.requireThen h (h.isSome key) fun s s' hs hs' => ?_)
  obtain rfl : s' = s.bare := h.eq_bare hs hs'
  refine .ensureThen h rfl fun _ => .ensureThen h rfl fun _ => ?_
  exact disposeSession_lockstep h s hc.setTrigger

/-- What the closer of a session meets in the DDS agent when it goes on. -/
structure FinishAnswers (env : Env) (senv : ServiceEnv) (key : ClientSessionKey) : Prop where
  lookupSession : senv.ok .lookupSession = env.ok (.lookupSession .closeSession key)
  releaseSession : senv.ok .releaseSession = env.ok (.releaseSession .closeSession key)
  deleteSession : senv.ok .deleteSession = env.ok (.deleteSession key)
  unlockSessions : senv.ok .unlockSessions = env.ok (.unlockSessions .closeSession)

theorem finishCloseSession_lockstep (h : Agree a b) (hf : FinishAnswers env senv key) :
    Lockstep Agree false (AgentM.finishCloseSession env key)
      (ServiceM.finishCloseSession senv key) a b := by
  unfold AgentM.finishCloseSession ServiceM.finishCloseSession
  refine .readThen (.requireThen h (h.isSome key) fun s s' hs hs' => ?_)
  obtain rfl : s' = s.bare := h.eq_bare hs hs'
  refine .ensureThen h rfl fun _ => .ensureThen h hf.lookupSession.symm fun _ => .modifyThen ?_
  have hgiven : Agree (a.updateSession key fun s => { s with semCleanup := false })
      (b.updateSession key fun s => { s with semCleanup := false }) :=
    h.updateSession key (fun _ => rfl) fun _ hclient => hclient
  refine .ensureThen hgiven hf.releaseSession.symm fun _ => ?_
  refine .ensureThen hgiven hf.deleteSession.symm fun _ => .modifyThen ?_
  have herased := hgiven.eraseSession key
  refine .ensureThen herased hf.unlockSessions.symm fun _ => ?_
  obtain ⟨c, hclient⟩ := Option.isSome_iff_exists.1 (h.client key s hs)
  refine .requireThen_right hclient ⟨fun h => (by cases h), ?_⟩
  refine Agree.of_sessions ?_ (ServiceM.onSessionClosed_sameSessions senv c _).sessions
  refine Agree.of_view (a := (a.updateSession key fun s =>
    { s with semCleanup := false }).eraseSession key) ?_ (.of_sessions rfl)
  exact herased

/-- What the expiry of a session comes to in the DDS agent, and the loans that the XRCE agent
returns when it is told. -/
structure TimeoutAnswers (env : Env) (senv : ServiceEnv) (key : ClientSessionKey) (b : Service) :
    Prop where
  lookupSession : senv.ok .lookupSession = env.ok (.lookupSession .onTimeout key)
  setTrigger : senv.ok .setTrigger = env.ok (.setTrigger .disposeSession)
  loans : ∀ c, b.clientOf key = some c → (ServiceM.onSessionTimedOut senv c
    (b.updateSession key fun s => { s with timedout := true })).2.returns =
      b.returns ++ env.loansReturned (.sessionTimedOut key)

/-- The interface is told of the expiry and cannot refuse it. -/
theorem onSessionTimeout_lockstep (h : Agree a b) (ht : TimeoutAnswers env senv key b) :
    Lockstep Agree false (AgentM.onSessionTimeout env key) (ServiceM.onSessionTimeout senv key)
      a b := by
  unfold AgentM.onSessionTimeout ServiceM.onSessionTimeout
  refine .ensureThen h ht.lookupSession.symm fun _ => ?_
  refine .readThen (.requireThen h (h.isSome key) fun s s' hs hs' => ?_)
  obtain rfl : s' = s.bare := h.eq_bare hs hs'
  refine .ensureThen h rfl fun _ => .modifyThen ?_
  have hexpired : Agree (a.updateSession key fun s => { s with timedout := true })
      (b.updateSession key fun s => { s with timedout := true }) :=
    h.updateSession key (fun _ => rfl) fun _ hclient => hclient
  obtain ⟨c, hclient⟩ := Option.isSome_iff_exists.1 (h.client key s hs)
  refine .returnsThen_left (AgentM.returnLoans_eq env s.intf key _ _) ?_
  refine .requireThen_right hclient (.ignoreThen_right ?_)
  have htold := hexpired.of_sessions (ServiceM.onSessionTimedOut_sameSessions senv c _).sessions
  have hreturned := AgentM.within_sameView_of_frame
    (AgentM.returnLoans_frame env s.intf key (.sessionTimedOut key))
    (a.updateSession key fun s => { s with timedout := true })
  exact (disposeSession_lockstep (htold.of_view hreturned) s ht.setTrigger).thenEnsure_right

/-- What a round of the clean-up of sessions comes to in the DDS agent when the session is
deleted. -/
structure CleanupAnswers (env : Env) (senv : ServiceEnv) (key : ClientSessionKey) (a : Agent) :
    Prop where
  finalizeSession : senv.ok .finalizeSession = (AgentM.finalizeSessionEA env key a).1.isSome
  releaseSession : senv.ok .releaseSession = env.ok (.releaseSession .cleanupSessions key)
  deleteSession : senv.ok .deleteSession = env.ok (.deleteSession key)

/-- The clean-up of sessions has the record of a deleted session. -/
def Agent.cleansUp (a : Agent) (env : Env) (key : ClientSessionKey) : Bool :=
  env.ok (.nextSession .cleanupSessions key) && (a.sessions.lookup key).any fun s => s.deleted

/-- A round with any other session changes nothing. -/
theorem cleanupSessionEA_of_not_cleansUp (h : a.cleansUp env key = false) :
    (AgentM.cleanupSessionEA env key a).2 = a := by
  unfold AgentM.cleanupSessionEA
  unfold Agent.cleansUp at h
  cases hnext : env.ok (.nextSession .cleanupSessions key) with
  | false => rfl
  | true =>
      rw [ensure_true_bind_apply, read_bind_apply]
      rw [hnext, Bool.true_and] at h
      cases hs : a.sessions.lookup key with
      | none => rfl
      | some s =>
          rw [hs] at h
          have hdeleted : s.deleted = false := h
          simp [hdeleted]

/-- The body of `NDDSA_Agent_on_cleanup_sessions` and what the XRCE agent counts on. -/
theorem cleanupSessionEA_lockstep (h : Agree a b) (hclean : CleanupAnswers env senv key a)
    (hdeleted : a.cleansUp env key = true) :
    Lockstep Agree false (AgentM.cleanupSessionEA env key) (ServiceM.cleanupSession senv key)
      a b := by
  unfold Agent.cleansUp at hdeleted
  rw [Bool.and_eq_true, Option.any_eq_true] at hdeleted
  obtain ⟨hnext, s, hs, hdel⟩ := hdeleted
  have hround : AgentM.cleanupSessionEA env key a = (AgentM.finalizeSessionEA env key >>= fun _ =>
      AgentM.releaseFinalizedEA env key s.timedout) a := by
    unfold AgentM.cleanupSessionEA
    rw [hnext, ensure_true_bind_apply, read_bind_apply, hs]
    simp only [hdel, onlyIf_true]
  refine .congr_left hround ?_
  have hs' : b.sessions.lookup key = some s.bare := by rw [h.lookup, hs]; rfl
  have hbare : s.bare.deleted = true := hdel
  unfold ServiceM.cleanupSession
  refine .readThen_right (.requireThen_right hs' (.ensureThen_right hbare ?_))
  refine Lockstep.bind ⟨fun _ => ?_, ?_⟩ fun _ a₁ _ b₁ _ hy h₁ => ?_
  · rw [← hclean.finalizeSession]
    cases senv.ok .finalizeSession <;> rfl
  · exact h.of_view (.of_outlines (AgentM.finalizeSessionEA_sameOutlines env key a))
  obtain ⟨-, rfl⟩ := ensure_eq_some.1 hy
  unfold AgentM.releaseFinalizedEA
  have htimedout : s.bare.timedout = s.timedout := rfl
  rw [htimedout]
  obtain ⟨c, hclient⟩ := Option.isSome_iff_exists.1 (h.client key s hs)
  cases s.timedout with
  | true =>
      refine .ensureThen h₁ hclean.releaseSession.symm fun _ => ?_
      refine .ensureThen h₁ hclean.deleteSession.symm fun _ => .modifyThen ?_
      have herased := h₁.eraseSession key
      refine .requireThen_right hclient ⟨fun h => (by cases h), ?_⟩
      refine Agree.of_sessions ?_ (ServiceM.onSessionClosed_sameSessions senv c _).sessions
      exact Agree.of_view (a := a₁.eraseSession key) herased (.of_sessions rfl)
  | false =>
      have hgiven : Agree (a₁.updateSession key fun s => { s with semCleanup := true })
          (b.updateSession key fun s => { s with semCleanup := true }) :=
        h₁.updateSession key (fun _ => rfl) fun _ hclient => hclient
      refine ⟨fun h => (by cases h), ?_⟩
      rw [if_neg Bool.false_ne_true, if_neg Bool.false_ne_true]
      exact hgiven.of_view (Within.ensure _ _)

end NanoAgent
