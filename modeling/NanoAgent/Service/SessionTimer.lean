import NanoAgent.Service.SessionTable
import Mathlib.Logic.Function.Basic

/-!
# The timer of a session

Every activity on a session posts its timeout event anew, to be due when the timeout of
the session has passed. The event generator runs an event that is due on a thread of its
own, and the handler then waits for the record of the session. `TimedService` has the
clock, the pending timers and the waiting handlers beside the state of the agent, and for
every key the time of the last activity.

A handler that waits is not told of the activity that comes before it has the record.
`marked_after_inactivity` is about the runs in which no activity comes then.
-/

namespace NanoAgent

open Prog

namespace ServiceM

/-- `receiveOnSession` up to its call of `onSessionActivity`. -/
def receiveOnSessionToActivity (env : ServiceEnv) (key : ClientSessionKey) :
    ServiceM (ClientSessionKey × ℕ) := do
  ensure (env.ok .lookupSession)
  let a ← read
  let s ← require (a.sessions.lookup key)
  ensure s.active
  ensure (s.intf = a.intf)
  pure (key, s.timeout)

/-- `processCreateClient` up to the call of `onSessionActivity` in `openSession`. -/
def processCreateClientToActivity (env : ServiceEnv) (key sid : ℕ) (m : Message)
    (src : BindEntry) (keyInHeader missingMapping : Bool) : ServiceM (ClientSessionKey × ℕ) := do
  let (repr, keyChanged) ← require (deserializeClientRepr env.wire key sid m)
  ensure (env.wire.clientRepresentationValid repr)
  ensure (!(keyChanged && keyInHeader))
  ensure (env.ok .getClient)
  let a ← read
  let c := a.clientsPool.next
  modify fun a => { a with clientsPool := a.clientsPool.take .initializer }
  prepareClient env c repr (missingMapping || keyChanged) src
  ensure (env.ok .insertSession)
  resetOrOpenSession env repr.sessionKey c
  let b ← read
  let s ← require (b.sessions.lookup repr.sessionKey)
  pure (repr.sessionKey, s.timeout)

/-- `receiveFrom` up to the call of `onSessionActivity`. -/
def receiveFromToActivity (env : ServiceEnv) (src : BindEntry) (m : Message) (key : ℕ)
    (missing : Bool) : ServiceM (ClientSessionKey × ℕ) :=
  if env.wire.noSession m.sessionId then
    processCreateClientToActivity env key m.sessionId m src (env.wire.hasClientKey m.sessionId)
      missing
  else do
    ensure (env.wire.hasClientKey m.sessionId || !missing)
    receiveOnSessionToActivity env ⟨key, m.sessionId⟩

/-- An operation up to its call of `onSessionActivity`: the key of the session that the call
is for, and the timeout of that session. It fails for an operation that makes no such
call. -/
def toActivity (env : ServiceEnv) : ServiceOperation → ServiceM (ClientSessionKey × ℕ)
  | .receiveMessage src m => do
      ensure (env.wire.headerSize m.sessionId ≤ m.bytes.length)
      let sender ← identifySender env m src
      receiveFromToActivity env src m sender.1 sender.2
  | _ => fail

end ServiceM

/-- The agent with the timers of its sessions. `timers` has the time at which the timer of a
session is due, `stale` the timers that outlived their session, `expired` the sessions whose
handler runs and waits for the record, and `lastActivity` the time of the last call of
`onSessionActivity`. -/
structure TimedService where
  agent : Service
  clock : ℕ
  timers : ClientSessionKey → Option ℕ
  stale : List (ClientSessionKey × ℕ)
  expired : List ClientSessionKey
  lastActivity : ClientSessionKey → Option ℕ

/-- What can happen to the agent and its timers. A handler that has the record of its session
is `timeout`; `cancelTimer` is a clean-up that fails after it has cancelled the timer. -/
inductive TimedOperation
  | elapse (d : ℕ)
  | expire (key : ClientSessionKey)
  | expireStale (key : ClientSessionKey) (due : ℕ)
  | timeout (key : ClientSessionKey) (env : ServiceEnv)
  | cancelTimer (key : ClientSessionKey)
  | operation (o : ServiceOperation) (env : ServiceEnv)

namespace TimedService

/-- The calling of `onSessionActivity` in an operation: the timer is posted anew when the
session has a timeout and the event generator accepts it. -/
def noteActivity (t : TimedService) (o : ServiceOperation) (env : ServiceEnv) : TimedService :=
  match (ServiceM.toActivity env o t.agent).1 with
  | none => t
  | some (key, timeout) =>
      { t with
        lastActivity := Function.update t.lastActivity key (some t.clock)
        timers :=
          if timeout ≠ 0 ∧ env.ok .postActivity = true then
            Function.update t.timers key (some (t.clock + timeout))
          else t.timers }

/-- The end of `NDDSA_Agent_finalize_sessionEA`: the timer of a session that has not timed
out is cancelled. -/
def cancelTimer (t : TimedService) (key : ClientSessionKey) : TimedService :=
  match t.agent.sessions.lookup key with
  | none => t
  | some s =>
      if s.deleted && !s.timedout && s.timeout != 0 then
        { t with timers := Function.update t.timers key none }
      else t

/-- The timers that an operation cancels. -/
def noteCleanup (t : TimedService) (o : ServiceOperation) (env : ServiceEnv) : TimedService :=
  match o with
  | .cleanupSession key => if env.ok .finalizeSession then t.cancelTimer key else t
  | _ => t

/-- A timer stays with the event generator when the record of its session is removed. -/
def dropTimer (t : TimedService) (key : ClientSessionKey) : TimedService :=
  match t.agent.sessions.lookup key, t.timers key with
  | none, some due =>
      { t with
        timers := Function.update t.timers key none
        stale := (key, due) :: t.stale }
  | _, _ => t

/-- The timers that an operation leaves without a session. -/
def noteRemoval (t : TimedService) (o : ServiceOperation) : TimedService :=
  match o.ends with
  | none => t
  | some key => t.dropTimer key

/-- An operation of the agent, with what it means for the timers. -/
def carryOut (t : TimedService) (o : ServiceOperation) (env : ServiceEnv) : TimedService :=
  noteRemoval { (t.noteActivity o env).noteCleanup o env with agent := t.agent.step (o, env) } o

/-- Carry out an operation. -/
def step (t : TimedService) : TimedOperation → TimedService
  | .elapse d => { t with clock := t.clock + d }
  | .expire key =>
      if (t.timers key).any (· ≤ t.clock) then
        { t with timers := Function.update t.timers key none, expired := key :: t.expired }
      else t
  | .expireStale key due =>
      if (key, due) ∈ t.stale ∧ due ≤ t.clock then
        { t with stale := t.stale.erase (key, due), expired := key :: t.expired }
      else t
  | .timeout key env =>
      if key ∈ t.expired then
        { t with
          agent := t.agent.step (.sessionTimeout key, env)
          expired := t.expired.erase key }
      else t
  | .cancelTimer key => t.cancelTimer key
  | .operation (.sessionTimeout _) _ => t
  | .operation o env => t.carryOut o env

/-- The agent as it is started, at any time. -/
structure Initial (t : TimedService) : Prop where
  agent : t.agent.Initial
  timers : t.timers = fun _ => none
  stale : t.stale = []
  expired : t.expired = []
  lastActivity : t.lastActivity = fun _ => none

/-- The step brings activity only on sessions whose timer has not expired, and the event
generator accepts the timer. -/
def Undisturbed (t : TimedService) : TimedOperation → Prop
  | .operation o env =>
      ∀ key timeout, (ServiceM.toActivity env o t.agent).1 = some (key, timeout) →
        key ∉ t.expired ∧ (timeout = 0 ∨ env.ok .postActivity = true)
  | _ => True

/-- The states reached by runs whose steps meet `ok`. -/
abbrev ReachedWhen (ok : TimedService → TimedOperation → Prop) : TimedService → Prop :=
  Reachable Initial step ok

end TimedService

namespace Service

/-- The session of a key is there and its timer may be pending. -/
def Unmarked (a : Service) (key : ClientSessionKey) : Prop :=
  ∃ s, a.sessions.lookup key = some s ∧ s.timedout = false ∧ s.semCleanup = false

theorem Unmarked.mono {a b : Service} {key : ClientSessionKey} {may : ClientSessionKey → Prop}
    (h : a.Unmarked key) (hab : SessionsKept may a b) (hmay : ¬ may key) : b.Unmarked key := by
  obtain ⟨s, hs, ht, hc⟩ := h
  obtain ⟨s', hs', ht', hc'⟩ := hab.kept key s hmay hs
  exact ⟨s', hs', ht'.trans ht, hc'.trans hc⟩

theorem SessionsUniform.unmarked {a : Service} (h : a.SessionsUniform) {key : ClientSessionKey}
    {s : ClientSession} (hs : a.sessions.lookup key = some s) (hactive : s.active = true) :
    a.Unmarked key := by
  simp only [ClientSession.active, Bool.not_eq_true', Bool.or_eq_false_iff] at hactive
  obtain ⟨⟨hdel, htime⟩, -⟩ := hactive
  refine ⟨s, hs, htime, ?_⟩
  by_contra hc
  have := (h key s hs).2 (by simpa using hc)
  simp [hdel] at this

end Service

namespace ServiceM

variable {env : ServiceEnv}

theorem resetOrOpenSession_unmarked {key : ClientSessionKey} {c : ℕ} {a b : Service} {u : Unit}
    (hu : a.SessionsUniform) (h : resetOrOpenSession env key c a = (some u, b)) :
    b.Unmarked key := by
  rw [resetOrOpenSession, read_bind_apply] at h
  cases hs : a.sessions.lookup key with
  | some s =>
      rw [hs] at h
      have hkept : SessionsKept (fun _ => False) a (resetSession env key s a).2 :=
        resetSession_kept env key s a
      obtain ⟨_, _, hactive, -⟩ := bind_eq_some.1 h
      obtain ⟨hactive, -⟩ := ensure_eq_some.1 hactive
      rw [show resetSession env key s a = (some u, b) from h] at hkept
      exact (hu.unmarked hs hactive).mono hkept id
  | none =>
      rw [hs] at h
      simp only [openNewSession, modify_bind_apply, onFailure_eq_some] at h
      obtain ⟨_, _, hsem, h⟩ := bind_eq_some.1 h
      obtain ⟨-, rfl⟩ := ensure_eq_some.1 hsem
      obtain ⟨_, _, hatt, h⟩ := bind_eq_some.1 h
      obtain ⟨-, rfl⟩ := ensure_eq_some.1 hatt
      have hsame := congrArg Prod.snd h ▸ onSessionOpened_sameSessions env key c _
      refine ⟨.initial a.intf a.clientSessionTimeout (some c), ?_, rfl, rfl⟩
      rw [hsame.sessions]
      exact AList.lookup_insert _

/-- The session that activity is noted for, once a message for a session is accepted. -/
theorem receiveOnSessionToActivity_eq_some {key key' : ClientSessionKey} {timeout : ℕ}
    {a b : Service} (h : receiveOnSessionToActivity env key a = (some (key', timeout), b)) :
    key' = key ∧ ∃ s, a.sessions.lookup key = some s ∧ s.active = true ∧ s.timeout = timeout := by
  obtain ⟨_, _, hok, h⟩ := bind_eq_some.1 h
  obtain ⟨-, rfl⟩ := ensure_eq_some.1 hok
  rw [read_bind_apply] at h
  obtain ⟨s, _, hlookup, h⟩ := bind_eq_some.1 h
  obtain ⟨hs, rfl⟩ := require_eq_some.1 hlookup
  obtain ⟨_, _, hensure, h⟩ := bind_eq_some.1 h
  obtain ⟨hactive, rfl⟩ := ensure_eq_some.1 hensure
  obtain ⟨_, _, -, h⟩ := bind_eq_some.1 h
  obtain ⟨heq, -⟩ := pure_eq_some.1 h
  obtain ⟨rfl, rfl⟩ := Prod.mk.inj heq
  exact ⟨rfl, s, hs, hactive, rfl⟩

/-- The session that activity is noted for, once a `CREATE_CLIENT` has opened or reset it. -/
theorem processCreateClientToActivity_eq_some {k sid : ℕ} {m : Message} {src : BindEntry}
    {keyInHeader missing : Bool} {key : ClientSessionKey} {timeout : ℕ} {a b : Service}
    (hu : a.SessionsUniform)
    (h : processCreateClientToActivity env k sid m src keyInHeader missing a
      = (some (key, timeout), b)) :
    timeout = a.clientSessionTimeout ∧
      (processCreateClient env k sid m src keyInHeader missing a).2.Unmarked key := by
  obtain ⟨v, _, hrequire, h⟩ := bind_eq_some.1 h
  obtain ⟨hv, rfl⟩ := require_eq_some.1 hrequire
  obtain ⟨_, _, hensure, h⟩ := bind_eq_some.1 h
  obtain ⟨hvalid, rfl⟩ := ensure_eq_some.1 hensure
  obtain ⟨_, _, hensure₂, h⟩ := bind_eq_some.1 h
  obtain ⟨hheader, rfl⟩ := ensure_eq_some.1 hensure₂
  obtain ⟨_, _, hensure₃, h⟩ := bind_eq_some.1 h
  obtain ⟨hget, rfl⟩ := ensure_eq_some.1 hensure₃
  rw [read_bind_apply, modify_bind_apply] at h
  obtain ⟨_, p, hprepare, h⟩ := bind_eq_some.1 h
  obtain ⟨_, _, hensure₄, h⟩ := bind_eq_some.1 h
  obtain ⟨hinsert, rfl⟩ := ensure_eq_some.1 hensure₄
  obtain ⟨_, d, hopen, h⟩ := bind_eq_some.1 h
  rw [read_bind_apply] at h
  obtain ⟨s, _, hlookup, h⟩ := bind_eq_some.1 h
  obtain ⟨hs, rfl⟩ := require_eq_some.1 hlookup
  obtain ⟨heq, rfl⟩ := pure_eq_some.1 h
  obtain ⟨rfl, rfl⟩ := Prod.mk.inj heq
  have hp : SessionsKept (fun _ => False) a p := by
    have hsame := prepareClient_sameSessions env a.clientsPool.next v.1 (missing || v.2) src
      { a with clientsPool := a.clientsPool.take .initializer }
    rw [hprepare] at hsame
    exact .of_same ⟨hsame.sessions, hsame.intf, hsame.timeout⟩
  have hd : SessionsKept (fun _ => False) p d := by
    have hkept : SessionsKept (fun _ => False) p
        (resetOrOpenSession env v.1.sessionKey a.clientsPool.next p).2 :=
      resetOrOpenSession_kept env v.1.sessionKey a.clientsPool.next p
    rw [hopen] at hkept
    exact hkept
  refine ⟨?_, ?_⟩
  · rw [((hp.trans' hd).uniform hu _ s hs).1, (hp.trans' hd).timeout]
  · -- what follows the activity leaves the session table alone
    have hrun : processCreateClient env k sid m src keyInHeader missing a =
        onFailure (connectClient env a.clientsPool.next v.1 (missing || v.2) src)
          (modify fun b => b.deleteClientSession a.clientsPool.next)
          { a with clientsPool := a.clientsPool.take .initializer } := by
      simp only [processCreateClient, bind_apply, hrequire, hensure, hensure₂, hensure₃,
        read_apply, modify_apply]
    have hconnect : SameSessions d (connectClient env a.clientsPool.next v.1 (missing || v.2) src
        { a with clientsPool := a.clientsPool.take .initializer }).2 := by
      rw [connectClient, bind_apply, hprepare]
      simp only [openSession, hinsert, ensure_true_bind_apply]
      rw [bind_apply, hopen]
      refine Within.bind (R := SameSessions) ?_ (fun _ => .ensure _) d
      exact onSessionActivity_sameSessions env v.1.sessionKey
    have hfinal : SameSessions d (processCreateClient env k sid m src keyInHeader missing a).2 := by
      rw [hrun]
      exact keeps_onFailure hconnect fun _ =>
        hconnect.trans' (deleteClientSession_sameSessions _ _)
    have hkept : SessionsKept (fun _ => False) d _ := .of_same hfinal
    exact (resetOrOpenSession_unmarked (hp.uniform hu) hopen).mono hkept id

/-- The session that an operation notes activity for is there after it, and its timer may be
pending. -/
theorem toActivity_unmarked {o : ServiceOperation} {key : ClientSessionKey} {timeout : ℕ}
    {a : Service} (hu : a.SessionsUniform) (h : (toActivity env o a).1 = some (key, timeout)) :
    timeout = a.clientSessionTimeout ∧ (a.step (o, env)).Unmarked key := by
  cases o with
  | receiveMessage src m =>
      obtain ⟨_, _, hensure, hrest⟩ := bind_eq_some.1 (eq_of_fst_eq_some h)
      obtain ⟨hlength, rfl⟩ := ensure_eq_some.1 hensure
      obtain ⟨sender, b, hsender, hrest⟩ := bind_eq_some.1 hrest
      have hsame : SameSessions a b := by
        have hsame := identifySender_sameSessions env m src a
        rwa [hsender] at hsame
      have hstep : a.step (.receiveMessage src m, env) =
          (receiveFrom env src m sender.1 sender.2 b).2 := by
        simp only [Service.step, ServiceOperation.run, receiveMessage, bind_apply, hensure, hsender]
      have hsender' : SessionsKept (fun _ => False) a b := .of_same hsame
      have hb : b.SessionsUniform := hsender'.uniform hu
      rw [hstep, ← hsame.timeout]
      simp only [receiveFromToActivity] at hrest
      rw [receiveFrom]
      split at hrest
      · rename_i hsid
        rw [if_pos hsid]
        exact processCreateClientToActivity_eq_some hb hrest
      · rename_i hsid
        rw [if_neg hsid]
        obtain ⟨_, _, hensure₂, hrest⟩ := bind_eq_some.1 hrest
        obtain ⟨hknown, rfl⟩ := ensure_eq_some.1 hensure₂
        rw [hknown, ensure_true_bind_apply]
        obtain ⟨rfl, s, hs, hactive, rfl⟩ := receiveOnSessionToActivity_eq_some hrest
        have hkept : SessionsKept (fun _ => False) b
            (receiveOnSession env ⟨sender.1, m.sessionId⟩ b).2 :=
          receiveOnSession_kept env _ b
        exact ⟨(hb _ s hs).1, (hb.unmarked hs hactive).mono hkept id⟩
  | _ => cases h

/-- The clean-up does nothing to a session that is not being deleted, or that cannot be
finalized. -/
theorem cleanupSession_idle {key : ClientSessionKey} {a : Service}
    (h : ∀ s, a.sessions.lookup key = some s → s.deleted = true →
      env.ok .finalizeSession = false) : (cleanupSession env key a).2 = a := by
  rw [cleanupSession, read_bind_apply]
  refine keeps_require (I := fun b => b = a) rfl fun s hs => keeps_ensure (I := fun b => b = a) rfl
    fun hdel => keeps_ensure (I := fun b => b = a) rfl fun hok => ?_
  rw [h s hs hdel] at hok
  cases hok

/-- Nobody waits for the clean-up of a session that was not reported as cleaned up. -/
theorem finishCloseSession_idle {key : ClientSessionKey} {a : Service} (h : a.Unmarked key) :
    (finishCloseSession env key a).2 = a := by
  obtain ⟨s, hs, -, hclean⟩ := h
  rw [finishCloseSession, read_bind_apply, hs]
  refine keeps_require (I := fun b => b = a) rfl fun s' hs' =>
    keeps_ensure (I := fun b => b = a) rfl fun hsem => ?_
  rw [← Option.some.inj hs', hclean] at hsem
  cases hsem

end ServiceM

namespace TimedService

/-- A pending timer is that of a session that is there, and is due no earlier than the timeout
after the last activity; a handler waits only when that time has come. -/
structure TimersSound (t : TimedService) : Prop where
  uniform : t.agent.SessionsUniform
  stale : t.stale = []
  pending : ∀ k due, t.timers k = some due →
    t.agent.Unmarked k ∧ t.agent.clientSessionTimeout ≠ 0 ∧
      ∀ t₀, t.lastActivity k = some t₀ → t₀ + t.agent.clientSessionTimeout ≤ due
  waiting : ∀ k ∈ t.expired, t.timers k = none ∧
    ∀ t₀, t.lastActivity k = some t₀ → t₀ + t.agent.clientSessionTimeout ≤ t.clock

theorem Initial.timersSound {t : TimedService} (h : t.Initial) : t.TimersSound where
  uniform := h.agent.sessionsUniform
  stale := h.stale
  pending k due hk := by
    rw [h.timers] at hk
    cases hk
  waiting k hk := by
    rw [h.expired] at hk
    cases hk

namespace TimersSound

variable {t : TimedService}

theorem elapse (h : t.TimersSound) (d : ℕ) : TimersSound { t with clock := t.clock + d } where
  uniform := h.uniform
  stale := h.stale
  pending := h.pending
  waiting k hk := by
    refine ⟨(h.waiting k hk).1, fun t₀ ht₀ => ?_⟩
    exact Nat.le_trans ((h.waiting k hk).2 t₀ ht₀) (Nat.le_add_right _ _)

/-- A change of the agent that leaves the session of every pending timer. -/
theorem change (h : t.TimersSound) {may : ClientSessionKey → Prop} {b : Service}
    (hkept : SessionsKept may t.agent b)
    (hmay : ∀ k due, may k → t.timers k = some due → b.Unmarked k) :
    TimersSound { t with agent := b } where
  uniform := hkept.uniform h.uniform
  stale := h.stale
  pending k due hk := by
    obtain ⟨hun, hT, hdue⟩ := h.pending k due hk
    have hb : b.Unmarked k := by
      by_cases hm : may k
      · exact hmay k due hm hk
      · exact hun.mono hkept hm
    rw [hkept.timeout]
    exact ⟨hb, hT, hdue⟩
  waiting k hk := by
    rw [hkept.timeout]
    exact h.waiting k hk

/-- A timer is removed. -/
theorem clear (h : t.TimersSound) (key : ClientSessionKey) :
    TimersSound { t with timers := Function.update t.timers key none } where
  uniform := h.uniform
  stale := h.stale
  pending k due hk := by
    by_cases hkey : k = key
    · simp [hkey] at hk
    · exact h.pending k due (by simpa [hkey] using hk)
  waiting k hk := by
    refine ⟨?_, (h.waiting k hk).2⟩
    by_cases hkey : k = key
    · simp [hkey]
    · simpa [hkey] using (h.waiting k hk).1

theorem cancelTimer (h : t.TimersSound) (key : ClientSessionKey) :
    (t.cancelTimer key).TimersSound := by
  unfold TimedService.cancelTimer
  cases t.agent.sessions.lookup key with
  | none => exact h
  | some s =>
      dsimp only
      split
      · exact h.clear key
      · exact h

/-- No timer outlives its session. -/
theorem dropTimer_eq (h : t.TimersSound) (key : ClientSessionKey) : t.dropTimer key = t := by
  unfold dropTimer
  split
  · rename_i due hs hdue
    obtain ⟨⟨s, hs', -⟩, -⟩ := h.pending key due hdue
    rw [hs] at hs'
    cases hs'
  · rfl

theorem expire (h : t.TimersSound) (key : ClientSessionKey) :
    (t.step (.expire key)).TimersSound := by
  change TimersSound (if _ then _ else _)
  split
  · rename_i hany
    obtain ⟨due, hdue, hle⟩ := (Option.any_eq_true _ _).1 hany
    have hclear := h.clear key
    refine ⟨h.uniform, h.stale, hclear.pending, fun k hk => ?_⟩
    rcases List.mem_cons.1 hk with rfl | hk
    · refine ⟨by simp, fun t₀ ht₀ => ?_⟩
      exact Nat.le_trans ((h.pending k due hdue).2.2 t₀ ht₀) (by simpa using hle)
    · exact hclear.waiting k hk
  · exact h

/-- A handler that waited has the record of its session. -/
theorem timeout (h : t.TimersSound) (key : ClientSessionKey) (env : ServiceEnv) :
    (t.step (.timeout key env)).TimersSound := by
  change TimersSound (if _ then _ else _)
  split
  · rename_i hmem
    have hchange := h.change (t.agent.step_kept (.sessionTimeout key) env) fun k due hk hdue => by
      cases hk
      rw [(h.waiting key hmem).1] at hdue
      cases hdue
    refine ⟨hchange.uniform, hchange.stale, hchange.pending, fun k hk => ?_⟩
    exact hchange.waiting k (List.mem_of_mem_erase hk)
  · exact h

theorem cleanupSession (h : t.TimersSound) (key : ClientSessionKey) (env : ServiceEnv) :
    (t.carryOut (.cleanupSession key) env).TimersSound := by
  set t' := t.noteCleanup (.cleanupSession key) env with ht'
  have hagent : t'.agent = t.agent := by
    rw [ht', noteCleanup]
    split
    · unfold TimedService.cancelTimer
      split
      · rfl
      · split <;> rfl
    · rfl
  have hsound : t'.TimersSound := by
    rw [ht', noteCleanup]
    split
    · exact h.cancelTimer key
    · exact h
  have hchange := hsound.change (t'.agent.step_kept (.cleanupSession key) env)
    fun k due hk hdue => by
      cases hk
      obtain ⟨hun, hT, -⟩ := hsound.pending key due hdue
      -- a pending timer that was not cancelled means that the clean-up did nothing
      have hidle : t'.agent.step (.cleanupSession key, env) = t'.agent := by
        refine ServiceM.cleanupSession_idle fun s hs hdel => ?_
        obtain ⟨s', hs', htime, -⟩ := hun
        rw [← (hsound.uniform key s hs).1] at hT
        rw [hs] at hs'
        cases hs'
        by_contra hnot
        have hok : env.ok .finalizeSession = true := by simpa using hnot
        rw [hagent] at hs
        simp [ht', noteCleanup, hok, TimedService.cancelTimer, hs, hdel, htime, hT] at hdue
      rw [hidle]
      exact hun
  have hcarry : t.carryOut (.cleanupSession key) env =
      dropTimer { t' with agent := t'.agent.step (.cleanupSession key, env) } key := by
    rw [hagent]
    rfl
  rw [hcarry, hchange.dropTimer_eq]
  exact hchange

theorem finishCloseSession (h : t.TimersSound) (key : ClientSessionKey) (env : ServiceEnv) :
    (t.carryOut (.finishCloseSession key) env).TimersSound := by
  have hchange := h.change (t.agent.step_kept (.finishCloseSession key) env)
    fun k due hk hdue => by
      cases hk
      obtain ⟨hun, -⟩ := h.pending key due hdue
      have hidle : t.agent.step (.finishCloseSession key, env) = t.agent :=
        ServiceM.finishCloseSession_idle hun
      rw [hidle]
      exact hun
  have hcarry : t.carryOut (.finishCloseSession key) env =
      dropTimer { t with agent := t.agent.step (.finishCloseSession key, env) } key := rfl
  rw [hcarry, hchange.dropTimer_eq]
  exact hchange

/-- Activity on a session whose timer has not expired posts the timer anew. -/
theorem noteActivity (h : t.TimersSound) {o : ServiceOperation} {env : ServiceEnv}
    (hends : o.ends = none) (hok : t.Undisturbed (.operation o env)) :
    TimersSound { t.noteActivity o env with agent := t.agent.step (o, env) } := by
  have hkept := t.agent.step_kept o env
  rw [hends] at hkept
  have hchange := h.change hkept fun k due hk _ => by cases hk
  unfold TimedService.noteActivity
  cases hact : (ServiceM.toActivity env o t.agent).1 with
  | none => exact hchange
  | some v =>
      obtain ⟨key, timeout⟩ := v
      obtain ⟨hwait, hpost⟩ := hok key timeout hact
      obtain ⟨rfl, hun⟩ := ServiceM.toActivity_unmarked h.uniform hact
      refine ⟨hchange.uniform, hchange.stale, fun k due hk => ?_, fun k hk => ?_⟩
      · by_cases hkey : k = key
        · subst hkey
          dsimp only at hk ⊢
          rw [hkept.timeout]
          split at hk
          · rename_i hcond
            simp only [Function.update_self, Option.some.injEq] at hk ⊢
            refine ⟨hun, hcond.1, fun t₀ ht₀ => ?_⟩
            omega
          · rename_i hcond
            obtain ⟨-, hT, -⟩ := h.pending k due hk
            exact absurd ⟨hT, hpost.resolve_left hT⟩ hcond
        · have hk' : t.timers k = some due := by
            dsimp only at hk
            split at hk
            · simpa [hkey] using hk
            · exact hk
          obtain ⟨hun', hT, hdue⟩ := hchange.pending k due hk'
          exact ⟨hun', hT, fun t₀ ht₀ => hdue t₀ (by simpa [hkey] using ht₀)⟩
      · have hkey : k ≠ key := fun hkey => hwait (hkey ▸ hk)
        obtain ⟨hnone, hdue⟩ := hchange.waiting k hk
        refine ⟨?_, fun t₀ ht₀ => hdue t₀ (by simpa [hkey] using ht₀)⟩
        dsimp only
        split
        · simpa [hkey] using hnone
        · exact hnone

theorem step (h : t.TimersSound) (i : TimedOperation) (hok : t.Undisturbed i) :
    (t.step i).TimersSound := by
  cases i with
  | elapse d => exact h.elapse d
  | expire key => exact h.expire key
  | expireStale key due =>
      change TimersSound (if _ then _ else _)
      rw [if_neg (by simp [h.stale])]
      exact h
  | timeout key env => exact h.timeout key env
  | cancelTimer key => exact h.cancelTimer key
  | operation o env =>
      cases o with
      | sessionTimeout key => exact h
      | cleanupSession key => exact h.cleanupSession key env
      | finishCloseSession key => exact h.finishCloseSession key env
      | receiveMessage src m => exact h.noteActivity rfl hok
      | deliverSample key id d => exact h.noteActivity rfl hok
      | releaseReadSamples key id => exact h.noteActivity rfl hok
      | acknowledge key m => exact h.noteActivity rfl hok
      | dispatchEvent p => exact h.noteActivity rfl hok
      | sessionEvent p => exact h.noteActivity rfl hok

end TimersSound

/-- Without its timers, a run is a run of the agent. -/
theorem agent_reached {ok : TimedService → TimedOperation → Prop} {t : TimedService}
    (h : t.ReachedWhen ok) : t.agent.ReachedWhen fun _ _ => True := by
  have hcancel : ∀ (t : TimedService) key, (t.cancelTimer key).agent = t.agent := by
    intro t key
    unfold cancelTimer
    split
    · rfl
    · split <;> rfl
  have hdrop : ∀ (t : TimedService) key, (t.dropTimer key).agent = t.agent := by
    intro t key
    unfold dropTimer
    split <;> rfl
  have hcarry : ∀ (t : TimedService) o env, (t.carryOut o env).agent = t.agent.step (o, env) := by
    intro t o env
    unfold carryOut noteRemoval
    split
    · rfl
    · rw [hdrop]
  refine Reachable.invariant (I := fun t => t.agent.ReachedWhen fun _ _ => True)
    (fun s hs => .start hs.agent) (fun s i hs _ => ?_) h
  cases i with
  | elapse d => exact hs
  | expire key =>
      change (if _ then _ else _ : TimedService).agent.ReachedWhen _
      split <;> exact hs
  | expireStale key due =>
      change (if _ then _ else _ : TimedService).agent.ReachedWhen _
      split <;> exact hs
  | timeout key env =>
      change (if _ then _ else _ : TimedService).agent.ReachedWhen _
      split
      · exact .next _ hs trivial
      · exact hs
  | cancelTimer key =>
      change (s.cancelTimer key).agent.ReachedWhen _
      rw [hcancel]
      exact hs
  | operation o env =>
      cases o with
      | sessionTimeout key => exact hs
      | _ =>
          change (s.carryOut _ env).agent.ReachedWhen _
          rw [hcarry]
          exact .next _ hs trivial

theorem timersSound_of_reached {t : TimedService} (h : t.ReachedWhen Undisturbed) :
    t.TimersSound :=
  h.invariant (fun _ => Initial.timersSound) fun _ i hs hok => hs.step i hok

/-- A handler marks the session of its key as timed out. -/
def Marks (t : TimedService) (key : ClientSessionKey) (env : ServiceEnv) : Prop :=
  (t.agent.sessions.lookup key).any (fun s => !s.timedout) = true ∧
    ((t.step (.timeout key env)).agent.sessions.lookup key).any (fun s => s.timedout) = true

instance (t : TimedService) (key : ClientSessionKey) (env : ServiceEnv) :
    Decidable (t.Marks key env) :=
  inferInstanceAs (Decidable (_ ∧ _))

/-- In a run without activity on a session whose expired timer waits for its record, a
session is marked as timed out only when its timeout has passed since the last
activity. -/
theorem marked_after_inactivity {t : TimedService} (h : t.ReachedWhen Undisturbed)
    {key : ClientSessionKey} {env : ServiceEnv} (hmarks : t.Marks key env) {s : ClientSession}
    (hs : t.agent.sessions.lookup key = some s) {t₀ : ℕ} (ht₀ : t.lastActivity key = some t₀) :
    t₀ + s.timeout ≤ t.clock := by
  have hsound := timersSound_of_reached h
  have hexpired : key ∈ t.expired := by
    by_contra hnot
    obtain ⟨hbefore, hafter⟩ := hmarks
    simp only [TimedService.step, if_neg hnot, hs, Option.any_some] at hbefore hafter
    rw [hafter] at hbefore
    cases hbefore
  rw [(hsound.uniform key s hs).1]
  exact (hsound.waiting key hexpired).2 t₀ ht₀

/-- The agent that has just been started, with a timeout of 5 for its sessions. -/
def started : TimedService where
  agent := .started true 0 5
  clock := 0
  timers _ := none
  stale := []
  expired := []
  lastActivity _ := none

theorem started_initial : started.Initial :=
  ⟨Service.started_initial true 0 5, rfl, rfl, rfl, rfl⟩

/-- The key that the client connects with. -/
def sessionKey : ClientSessionKey := ⟨7, 1⟩

/-- A client connects, and its timer expires. -/
def lapsed : TimedService :=
  ((started.step (.operation (.receiveMessage .first (.createClient 7 1)) .obliging)).step
    (.elapse 5)).step (.expire sessionKey)

/-- A message on the session of the client. -/
def onSession : TimedOperation :=
  .operation (.receiveMessage .first ⟨[1, 0, 0, 0, 7, 0, 0, 0]⟩) .obliging

theorem lapsed_reached : lapsed.ReachedWhen Undisturbed := by
  refine .next _ (.next _ (.next _ (.start started_initial) ?_) trivial) trivial
  intro key timeout _
  exact ⟨by simp [started], .inr rfl⟩

theorem marked_after_inactivity_lapsed :
    lapsed.Marks sessionKey .obliging ∧ 0 + 5 ≤ lapsed.clock := by
  have hmarks : lapsed.Marks sessionKey .obliging := by decide
  have hs : lapsed.agent.sessions.lookup sessionKey = some (.initial 1 5 (some 0)) := by decide
  have hlast : lapsed.lastActivity sessionKey = some 0 := by decide
  exact ⟨hmarks, marked_after_inactivity lapsed_reached hmarks hs hlast⟩

/-- A message that arrives when the handler is already waiting posts the timer anew, and the
handler still marks the session. -/
theorem marked_despite_activity :
    ¬ ∀ (t : TimedService), t.ReachedWhen (fun _ _ => True) → ∀ key env, t.Marks key env →
      ∀ s, t.agent.sessions.lookup key = some s → s.timeout ≠ 0 →
        ∀ t₀, t.lastActivity key = some t₀ → t₀ + s.timeout ≤ t.clock := by
  intro hall
  have hreached : (lapsed.step onSession).ReachedWhen fun _ _ => True :=
    .next _ (.next _ (.next _ (.next _ (.start started_initial) trivial) trivial) trivial) trivial
  have hle := hall _ hreached sessionKey .obliging (by decide) (.initial 1 5 (some 0)) (by decide)
    (by decide) 5 (by decide)
  exact absurd hle (by decide)

end TimedService

end NanoAgent
