import NanoAgent.DdsAgent.ReadReturns
import NanoAgent.Service.SessionCalls
import NanoAgent.Service.Supersede
import NanoAgent.Service.ClientAccounts

/-!
# Sessions that are opened again

A client that connects again resets its session. `NDDSA_Agent_open_session` marks the
session as resetting, asks the interface, which returns the loans of the session, replaces
the user data and ends the reads of the session one by one; the mark is cleared only after
the last of them. A call that
fails after the mark was set leaves it set, and a session with the mark is not active:
messages, another reset and the timeout are all refused.

`freesAll` says which sequences of reads can be ended. It does not depend on the
session table, since ending a read does not look at it (`Commutes`).
-/

namespace NanoAgent

open Prog

namespace Agent

/-- The agent with another session table. -/
def withSessions (t : AList fun _ : ClientSessionKey => ClientSession) (a : Agent) : Agent :=
  { a with sessions := t }

/-- The attached resource has no read, or its read can be ended. -/
def frees (env : Env) (a : Agent) (n : ℕ) : Bool :=
  match (a.attached n).readReq with
  | none => true
  | some rd => a.locates env .cancelReadI n && a.cancels env (a.attached n).resource rd

end Agent

namespace AgentM

/-- A round of the loop of `NDDSA_Agent_open_session` over the attached resources. -/
def cancelRound (env : Env) (n : ℕ) : AgentM Unit := do
  let a ← read
  onlyIf (a.attached n).readReq.isSome (cancelReadI env n)

theorem cancelRound_isSome (env : Env) (n : ℕ) (a : Agent) :
    (cancelRound env n a).1.isSome = a.frees env n := by
  unfold cancelRound Agent.frees
  rw [read_bind_apply]
  cases hrd : (a.attached n).readReq with
  | none => rfl
  | some rd =>
      simp only [Option.isSome_some, onlyIf_true]
      unfold cancelReadI Agent.locates
      rw [read_bind_apply, bind_apply, lookupResource, bind_apply]
      cases env.ok (.lookupResource .cancelReadI (a.attached n).resource) with
      | false => simp [ensure]
      | true =>
          cases hres : a.resources.lookup (a.attached n).resource with
          | none => simp [ensure, bind_apply, hres]
          | some r =>
              cases hdel : r.nativeDeleted with
              | true => simp [ensure, bind_apply, hres, hdel]
              | false =>
                  simp [ensure, bind_apply, hres, hdel, cancelReadEA_isSome env _ hrd]

variable (t : AList fun _ : ClientSessionKey => ClientSession)

theorem cancelReadEA_commutes (env : Env) (n : ℕ) (rid : ResourceId) :
    Commutes (Agent.withSessions t) (cancelReadEA env n rid) := by
  refine .read (fun _ => rfl) fun a => ?_
  cases (a.attached n).readReq with
  | none => exact .pure _
  | some rd =>
      refine .bind (.ensure _) fun _ => .bind (.require _) fun r => .bind ?_ fun reader => ?_
      · exact .bind (.modify fun b => by dsimp only [Agent.withSessions]; split <;> rfl)
          fun _ => .require _
      · refine .bind (fun _ => rfl) fun _ => .bind (.ensure _) fun _ =>
          .bind (.ensure _) fun _ => ?_
        exact .modify fun _ => rfl

theorem cancelReadI_commutes (env : Env) (n : ℕ) :
    Commutes (Agent.withSessions t) (cancelReadI env n) := by
  refine .read (fun _ => rfl) fun a => .bind ?_ fun found => ?_
  · exact .bind (.ensure _) fun _ => .read (fun _ => rfl) fun _ => .pure _
  · exact .bind (.require _) fun r => .bind (.ensure _) fun _ => cancelReadEA_commutes t env n _

theorem cancelRound_commutes (env : Env) (n : ℕ) :
    Commutes (Agent.withSessions t) (cancelRound env n) :=
  .read (fun _ => rfl) fun _ => .onlyIf (cancelReadI_commutes t env n)

theorem cancelRounds_commutes (env : Env) (l : List ℕ) :
    Commutes (Agent.withSessions t) (forEach l (cancelRound env)) :=
  .forEach (cancelRound_commutes t env)

end AgentM

/-- The reads of a list of attached resources can be ended one after the other. -/
def Agent.freesAll (env : Env) : List ℕ → Agent → Bool
  | [], _ => true
  | n :: l, a => a.frees env n && freesAll env l (AgentM.cancelRound env n a).2

namespace AgentM

variable {a : Agent} {env : Env} {src : ℕ} {key : ClientSessionKey} {s : ClientSession}

theorem cancelRounds_isSome (env : Env) (l : List ℕ) (a : Agent) :
    (forEach l (cancelRound env) a).1.isSome = a.freesAll env l := by
  induction l generalizing a with
  | nil => rfl
  | cons n l ih =>
      rw [Agent.freesAll, forEach, bind_apply, ← cancelRound_isSome]
      rcases cancelRound env n a with ⟨_ | _, b⟩
      · rfl
      · simpa using ih b

/-- What a reset of an active session needs to succeed. -/
def resets (env : Env) (src : ℕ) (key : ClientSessionKey) (s : ClientSession) (a : Agent) : Bool :=
  decide (s.intf = src) && env.ok (.onSessionReset key) &&
    (a.atResetReturn env src key).freesAll env s.resources

/-- Loans that are returned in a callback leave of a session all but its pool of records. -/
theorem returnLoans_session {c : LoanCallback} (hs : a.sessions.lookup key = some s) :
    ∃ l, (returnLoans env src key c a).2.sessions.lookup key =
      some { s with rcvdDataPool := l } := by
  have hframe := (returnLoans_frame env src key c a).session key
  rw [hs, Option.map_some] at hframe
  obtain ⟨s', hs', heq⟩ := Option.map_eq_some_iff.1 hframe
  refine ⟨s'.rcvdDataPool, hs'.trans ?_⟩
  cases s
  cases s'
  simp only [ClientSession.outline, ClientSession.mk.injEq] at heq
  simp [heq]

/-- The last part of a reset, on an agent that differs from `a` in the session table only. -/
theorem finishReset_leaves (env : Env) (a : Agent)
    {t : AList fun _ : ClientSessionKey => ClientSession} {u : Option ℕ} {l : List ℕ}
    (ht : t.lookup key = some { s with userData := u, rcvdDataPool := l, resetting := true }) :
    let x : AgentM Unit := do
      forEach s.resources (cancelRound env)
      modify fun a => a.updateSession key fun s => { s with resetting := false }
    (x (a.withSessions t)).1.isSome = a.freesAll env s.resources ∧
      (x (a.withSessions t)).2.sessions.lookup key =
        some { s with
          userData := u, rcvdDataPool := l, resetting := !a.freesAll env s.resources } := by
  intro x
  have hloop := cancelRounds_commutes t env s.resources a
  rw [← cancelRounds_isSome]
  simp only [x, bind_apply, hloop]
  rcases forEach s.resources (cancelRound env) a with ⟨_ | _, b⟩
  · exact ⟨rfl, ht⟩
  · refine ⟨rfl, ?_⟩
    simp [Agent.updateSession, Agent.withSessions, ht]

/-- The session that a reset leaves: its mark is cleared exactly when the reset succeeds. -/
theorem resetSession_leaves (env : Env) (src : ℕ) (hs : a.sessions.lookup key = some s)
    (hactive : s.active = true) :
    (resetSession env src key s a).1.isSome = resets env src key s a ∧
      ∃ u l, (u = s.userData ∨ s.intf = src ∧ env.ok (.onSessionReset key) = true ∧
          env.sessionData.isSome = true ∧ u = env.sessionData) ∧
        (resetSession env src key s a).2.sessions.lookup key =
          some { s with
            userData := u, rcvdDataPool := l, resetting := !resets env src key s a } := by
  unfold resetSession resets
  rw [hactive, ensure_true_bind_apply, modify_bind_apply]
  have hmarked : (a.updateSession key fun s => { s with resetting := true }).sessions.lookup key =
      some { s with resetting := true } := by
    simp [Agent.updateSession, hs]
  cases hintf : decide (s.intf = src) with
  | false => exact ⟨rfl, s.userData, s.rcvdDataPool, .inl rfl, by simpa [ensure] using hmarked⟩
  | true =>
      rw [ensure_true_bind_apply, Bool.true_and]
      have hreturns : ∃ l, (a.atResetReturn env src key).sessions.lookup key =
          some { s with resetting := true, rcvdDataPool := l } := returnLoans_session hmarked
      obtain ⟨l, hreturned⟩ := hreturns
      have hcallback : onSessionReset env src key
          (a.updateSession key fun s => { s with resetting := true }) =
            ensure (env.ok (.onSessionReset key)) (a.atResetReturn env src key) :=
        onSessionReset_apply env src key _
      rw [bind_apply, hcallback]
      generalize a.atResetReturn env src key = b at hreturned
      cases hreset : env.ok (.onSessionReset key) with
      | false => exact ⟨rfl, s.userData, l, .inl rfl, hreturned⟩
      | true =>
          rw [Bool.true_and]
          cases hdata : env.sessionData with
          | none =>
              obtain ⟨hsome, hlookup⟩ := finishReset_leaves env b hreturned
              exact ⟨hsome, s.userData, l, .inl rfl, hlookup⟩
          | some d =>
              have hgiven :
                  (b.sessions.modify key fun s => { s with userData := some d }).lookup key =
                    some { s with userData := some d, rcvdDataPool := l, resetting := true } := by
                simp [hreturned]
              obtain ⟨hsome, hlookup⟩ := finishReset_leaves env b hgiven
              exact ⟨hsome, some d, l, .inr ⟨by simpa using hintf, rfl, rfl, rfl⟩, hlookup⟩

/-- A call for the key of an active session leaves the session as its reset left it. -/
theorem openSession_leaves (timeout : ℕ) (data : Option ℕ)
    (hs : a.sessions.lookup key = some s) (hinsert : env.ok (.insertSession key) = true) :
    (openSession env src key timeout data a).2 = (resetSession env src key s a).2 ∧
      ((openSession env src key timeout data a).1.isSome = true ↔
        (resetSession env src key s a).1.isSome = true ∧
          ∃ s', (resetSession env src key s a).2.sessions.lookup key = some s' ∧
            (s'.timeout = 0 ∨ env.ok (.postEvent .openSession 0) = true) ∧
            env.ok (.releaseSession .openSession key) = true) := by
  unfold openSession resetOrOpenSession
  rw [hinsert, ensure_true_bind_apply]
  simp only [bind_apply, read_apply, hs]
  rcases resetSession env src key s a with ⟨_ | _, b⟩
  · simp
  · simp only [require_apply]
    cases hb : b.sessions.lookup key with
    | none => simp
    | some s' =>
        by_cases hzero : s'.timeout = 0
        · cases env.ok (.releaseSession .openSession key) <;> simp [ensure, hzero]
        · cases env.ok (.postEvent .openSession 0) <;>
            cases env.ok (.releaseSession .openSession key) <;>
            simp [ensure, hzero]

end AgentM

/-- The XRCE agent after a call of `NDDSA_Agent_open_session` for a session of the interface
`intf`: its reset callback ran on the proxy client `c` if the call came so far. -/
def Service.afterReopen (v : Service) (env : Env) (callee : ServiceEnv) (src intf : ℕ)
    (key : ClientSessionKey) (c : ℕ) : Service :=
  if env.ok (.insertSession key) && decide (intf = src) then
    (ServiceM.onSessionReset callee key c v).2
  else v

/-- The session `s` of `key` is in use: it is active, its user data is a live proxy client,
and messages, its timeout and a further reset are accepted. -/
structure Agent.InUse (a : Agent) (v : Service) (key : ClientSessionKey) (s : ClientSession) :
    Prop where
  session : a.sessions.lookup key = some s
  active : s.active = true
  userData : ∃ c, s.userData = some c ∧ v.clientsPool.Live c
  messages : ∀ id, AgentM.findAttached key id a = (some (a.findAttachedResource s id), a)
  timeout : ∀ env : Env, env.ok (.lookupSession .onTimeout key) = true →
    env.ok (.setTrigger .disposeSession) = true →
    (AgentM.onSessionTimeout env key a).1.isSome = true
  reopen : ∀ (env : Env) (timeout : ℕ) (data : Option ℕ), env.ok (.insertSession key) = true →
    env.ok (.onSessionReset key) = true →
    (a.atResetReturn env s.intf key).freesAll env s.resources = true →
    env.ok (.postEvent .openSession 0) = true → env.ok (.releaseSession .openSession key) = true →
    (AgentM.openSession env s.intf key timeout data a).1.isSome = true

section InUse

variable {a : Agent} {v : Service} {env : Env} {callee : ServiceEnv} {src : ℕ}
  {key : ClientSessionKey} {s : ClientSession} {c : ℕ}

/-- An active session with a live proxy client is in use. -/
theorem Agent.InUse.of_active (hs : a.sessions.lookup key = some s) (hactive : s.active = true)
    (hdata : s.userData = some c) (hlive : v.clientsPool.Live c) : a.InUse v key s where
  session := hs
  active := hactive
  userData := ⟨c, hdata, hlive⟩
  messages id := by
    simp [AgentM.findAttached, bind_apply, hs, hactive, ensure]
  timeout env hlookup htrigger := by
    have hdeleted : s.deleted = false := by
      simp only [ClientSession.active, Bool.not_eq_true', Bool.or_eq_false_iff] at hactive
      exact hactive.1.1
    unfold AgentM.onSessionTimeout
    rw [hlookup, ensure_true_bind_apply, read_bind_apply, bind_apply, require_apply, hs]
    dsimp only
    rw [hactive, ensure_true_bind_apply, modify_bind_apply, bind_apply, AgentM.returnLoans_eq]
    simp [AgentM.disposeSessionEA, hdeleted, htrigger]
  reopen env timeout data hinsert hreset hfree hpost hrelease := by
    obtain ⟨hsome, u, l, -, hlookup⟩ := AgentM.resetSession_leaves env s.intf hs hactive
    have hresets : AgentM.resets env s.intf key s a = true := by
      simp [AgentM.resets, hreset, hfree]
    refine (AgentM.openSession_leaves timeout data hs hinsert).2.2 ⟨hsome.trans hresets, ?_⟩
    exact ⟨_, hlookup, .inr hpost, hrelease⟩

/-- The reset callback keeps the proxy client it is given. -/
theorem onSessionReset_returns (callee : ServiceEnv) (key : ClientSessionKey) (c : ℕ)
    (v : Service) {d : ℕ} (h : (ServiceM.onSessionReset callee key c v).1 = some d) : d = c := by
  unfold ServiceM.onSessionReset at h
  obtain ⟨_, _, -, h⟩ := bind_eq_some.1 (eq_of_fst_eq_some h)
  obtain ⟨_, _, -, h⟩ := bind_eq_some.1 h
  obtain ⟨_, _, -, h⟩ := bind_eq_some.1 h
  obtain ⟨_, _, -, h⟩ := bind_eq_some.1 h
  obtain ⟨_, _, -, h⟩ := bind_eq_some.1 h
  exact (pure_eq_some.1 h).1.symm

theorem afterReopen_live (env : Env) (callee : ServiceEnv) (src intf : ℕ)
    (key : ClientSessionKey) (hlive : v.clientsPool.Live c) :
    (v.afterReopen env callee src intf key c).clientsPool.Live c := by
  unfold Service.afterReopen
  split
  · have htended := ServiceM.onSessionReset_tended (W := fun d => d = c) callee rfl key v
    exact (htended.live_iff c).2 hlive
  · exact hlive

/-- After a call, whether it fails or not, the session is in use exactly when the call did
not come to mark it, or came to clear the mark. -/
theorem openSession_inUse_iff {timeout : ℕ} {data : Option ℕ}
    (hs : a.sessions.lookup key = some s) (hactive : s.active = true)
    (hdata : s.userData = some c) (hlive : v.clientsPool.Live c)
    (hreset : env.ResetBy callee key c v) :
    (∃ s', (AgentM.openSession env src key timeout data a).2.InUse
        (v.afterReopen env callee src s.intf key c) key s') ↔
      (env.ok (.insertSession key) = true →
        s.intf = src ∧ env.ok (.onSessionReset key) = true ∧
          (a.atResetReturn env src key).freesAll env s.resources = true) := by
  have hafter := afterReopen_live env callee src s.intf key hlive
  cases hinsert : env.ok (.insertSession key) with
  | false =>
      have hsame : (AgentM.openSession env src key timeout data a).2 = a := by
        simp [AgentM.openSession, hinsert]
      rw [hsame]
      constructor
      · intro _ h
        cases h
      · intro _
        exact ⟨s, .of_active hs hactive hdata hafter⟩
  | true =>
      obtain ⟨-, u, l, hu, hlookup⟩ := AgentM.resetSession_leaves env src hs hactive
      rw [(AgentM.openSession_leaves timeout data hs hinsert).1]
      have hiff : AgentM.resets env src key s a = true ↔ s.intf = src ∧
          env.ok (.onSessionReset key) = true ∧
            (a.atResetReturn env src key).freesAll env s.resources = true := by
        simp [AgentM.resets, and_assoc]
      constructor
      · rintro ⟨s', hs'⟩ -
        rw [← hiff]
        have hactive' := hs'.active
        rw [Option.some.inj (hs'.session.symm.trans hlookup)] at hactive'
        simp only [ClientSession.active, Bool.not_eq_true', Bool.or_eq_false_iff,
          Bool.not_eq_false'] at hactive'
        exact hactive'.2
      · intro h
        rw [hiff.2 (h rfl)] at hlookup
        have hu' : u = some c := by
          rcases hu with hu | ⟨-, -, hsome, hu⟩
          · rw [hu, hdata]
          · obtain ⟨d, hd⟩ := Option.isSome_iff_exists.1 hsome
            rw [hu, hd, onSessionReset_returns callee key c v (hreset.data.symm.trans hd)]
        refine ⟨_, .of_active hlookup ?_ hu' hafter⟩
        simp only [ClientSession.active, Bool.not_eq_true', Bool.or_eq_false_iff] at hactive ⊢
        exact ⟨hactive.1, rfl⟩

end InUse

/-- A session with a read whose sample has not been returned. -/
def occupiedRun : List (Operation × Env) :=
  [(.openSession 1 ⟨5, 1⟩ 0 (some 0), .obliging (.one ⟨12, .dataReader, .guid 3, 11, 13⟩)),
    (.createResource ⟨5, 1⟩ ⟨7, .dataReader, .xml "", 0, false, false⟩,
      .obliging (.one ⟨12, .dataReader, .guid 3, 11, 13⟩)),
    (.changeCache 0 [⟨1, true, 0⟩], .obliging (.one ⟨12, .dataReader, .guid 3, 11, 13⟩)),
    (.readData ⟨5, 1⟩ 7 ⟨0, 0, 0, none⟩, .obliging (.one ⟨12, .dataReader, .guid 3, 11, 13⟩)),
    (.dataEvent 0, .obliging (.one ⟨12, .dataReader, .guid 3, 11, 13⟩))]

def occupiedAgent : Agent := (Agent.started false .firstCached).after occupiedRun

/-- The session that the run leaves. -/
def occupiedSession : ClientSession := { ClientSession.initial 1 0 (some 0) with resources := [0] }

/-- The XRCE agent when it has sent the sample. -/
def occupiedService : Service :=
  (Service.started true 0 0).after [
    (.receiveMessage .first (.createClient 5 1), .obliging),
    (.receiveMessage .first (Service.messageOn 5 1),
      Service.carrying [Service.createReader 7, Service.readData 7 128]),
    (.deliverSample ⟨5, 1⟩ 7 0, .obliging)]

/-- The environment of a second connection, which takes the sample off its stream. -/
def reconnecting : Env :=
  { Env.obliging (.one ⟨12, .dataReader, .guid 3, 11, 13⟩) with
    sessionData := some 0, loansReturned := fun _ => [0] }

/-- The sample is returned in the callback, and the session is in use again. -/
theorem openSession_inUse_iff_occupied :
    ∃ s', (AgentM.openSession reconnecting 1 ⟨5, 1⟩ 0 (some 0) occupiedAgent).2.InUse
      (occupiedService.afterReopen reconnecting .obliging 1 1 ⟨5, 1⟩ 0) ⟨5, 1⟩ s' :=
  (openSession_inUse_iff (s := occupiedSession) (by decide) (by decide) rfl (by decide)
    ⟨by decide, by decide, by decide⟩).2 fun _ => ⟨rfl, rfl, by decide⟩

/-- The environment of a second connection whose client cannot be answered. -/
def unanswered : Env :=
  { Env.obliging (.one ⟨12, .dataReader, .guid 3, 11, 13⟩) with
    ok := fun call => call ≠ .onSessionReset ⟨5, 1⟩ }

/-- A client that connects again and cannot be answered is locked out: the session stays
marked. -/
theorem not_inUse_of_rejected_reopen :
    ¬ ∀ (a : Agent) (v : Service) (env : Env) (callee : ServiceEnv) (src : ℕ)
        (key : ClientSessionKey) (s : ClientSession) (c timeout : ℕ) (data : Option ℕ),
      a.sessions.lookup key = some s → s.active = true → s.userData = some c →
      v.clientsPool.Live c → env.ResetBy callee key c v →
      (AgentM.openSession env src key timeout data a).1 = none →
      ∃ s', (AgentM.openSession env src key timeout data a).2.InUse
        (v.afterReopen env callee src s.intf key c) key s' := by
  intro hall
  let a := (Agent.started false .firstCached).after
    [(.openSession 1 ⟨5, 1⟩ 0 (some 0), .obliging (.one ⟨12, .dataReader, .guid 3, 11, 13⟩))]
  let callee : ServiceEnv := { ServiceEnv.obliging with ok := fun call => call ≠ .sendReply }
  obtain ⟨s', hs'⟩ := hall a Service.connectedOnce unanswered callee 1 ⟨5, 1⟩
    (.initial 1 0 (some 0)) 0 0 (some 0) (by decide) (by decide) rfl (by decide)
    ⟨by decide, by decide, by decide⟩ (by decide)
  have hmarked : (AgentM.openSession unanswered 1 ⟨5, 1⟩ 0 (some 0) a).2.sessions.lookup ⟨5, 1⟩ =
      some { ClientSession.initial 1 0 (some 0) with resetting := true } := by
    decide
  have hactive := hs'.active
  rw [Option.some.inj (hs'.session.symm.trans hmarked)] at hactive
  cases hactive

end NanoAgent
