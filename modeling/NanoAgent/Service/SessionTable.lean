import NanoAgent.Service.Operation

/-!
# The session table

The functions that the DDS agent calls back work on proxy clients, on the mapping table
and on session events, and not on the session table. `SessionsKept may a b` says what the
other functions do to it: no session is removed, marked as timed out or reported as
cleaned up, except the sessions of the keys that `may` be.
-/

namespace NanoAgent

open Prog

/-- From `a` to `b` the session table and the settings it depends on stay. -/
structure SameSessions (a b : Service) : Prop where
  sessions : b.sessions = a.sessions
  intf : b.intf = a.intf
  timeout : b.clientSessionTimeout = a.clientSessionTimeout

namespace SameSessions

theorem of_work {a b : Service} (h : ClientWork a b) : SameSessions a b where
  sessions := h.sessions
  intf := congrArg Service.Registry.intf h.registry
  timeout := congrArg Service.Registry.clientSessionTimeout h.registry

theorem trans' {a b d : Service} (h : SameSessions a b) (h' : SameSessions b d) :
    SameSessions a d where
  sessions := h'.sessions.trans h.sessions
  intf := h'.intf.trans h.intf
  timeout := h'.timeout.trans h.timeout

instance : IsPreorder Service SameSessions where
  refl _ := ⟨rfl, rfl, rfl⟩
  trans _ _ _ := trans'

end SameSessions

namespace ServiceM

variable (env : ServiceEnv)

theorem within_sameSessions_of_work {α : Type} {x : ServiceM α} (h : Within ClientWork x) :
    Within SameSessions x :=
  fun a => .of_work (h a)

theorem sameSessions_updateClient (c : ℕ) (f : ProxyClient → ProxyClient) :
    Within SameSessions (modify fun a : Service => a.updateClient c f) :=
  .modify fun _ => ⟨rfl, rfl, rfl⟩

theorem prepareClient_sameSessions (c : ℕ) (repr : ClientRepresentation) (cache : Bool)
    (src : BindEntry) : Within SameSessions (prepareClient env c repr cache src) := by
  intro a
  have h := prepareClient_preparing env c repr cache src a
  exact ⟨h.sessions, congrArg Service.Registry.intf h.registry,
    congrArg Service.Registry.clientSessionTimeout h.registry⟩

theorem recordMapping_sameSessions (c : ℕ) : Within SameSessions (recordMapping env c) := by
  have hstore : ∀ i, Within SameSessions (storeMapping env c i) := by
    intro i
    refine .bind (.modify fun _ => ⟨rfl, rfl, rfl⟩) fun _ => .bind (.onFailure (.ensure _) ?_) ?_
    · exact .modify fun _ => ⟨rfl, rfl, rfl⟩
    · refine fun _ => .bind (.modify fun _ => ⟨rfl, rfl, rfl⟩) fun _ => ?_
      exact .modify fun _ => ⟨rfl, rfl, rfl⟩
  refine .read fun a => ?_
  cases a.findClientLocatorMapping (a.client c).bindEntry.locator with
  | some i => exact hstore i
  | none =>
      refine .bind (.bind (.onFailure (.ensure _) ?_) fun _ => ?_) fun _ => hstore _
      · exact .modify fun _ => ⟨rfl, rfl, rfl⟩
      · exact .modify fun _ => ⟨rfl, rfl, rfl⟩

theorem scheduleHeartbeat_sameSessions (key : ClientSessionKey) (c : ℕ) :
    Within SameSessions (scheduleHeartbeat env key c) := by
  refine .bind ?_ fun e => .bind (sameSessions_updateClient c _) fun _ => ?_
  · refine .read fun a => .bind (.require _) fun s => .ensureThen fun _ => .ensureThen fun _ => ?_
    exact .bind (.modify fun _ => ⟨rfl, rfl, rfl⟩) fun _ => .pure _
  · exact .ensureThen fun _ => .modify fun _ => ⟨rfl, rfl, rfl⟩

theorem onSessionOpened_sameSessions (key : ClientSessionKey) (c : ℕ) :
    Within SameSessions (onSessionOpened env key c) := by
  refine .bind (sameSessions_updateClient c _) fun _ => .read fun a =>
    .bind (.onlyIf fun _ => ?_) ?_
  · refine .bind (sameSessions_updateClient c _) fun _ => ?_
    exact .bind (.modify fun _ => ⟨rfl, rfl, rfl⟩) fun _ => recordMapping_sameSessions env c
  · refine fun _ => .bind (sameSessions_updateClient c _) fun _ => .bind ?_ fun _ => ?_
    · exact within_sameSessions_of_work (replyToConnection_work env c)
    · exact .onlyIf fun _ => scheduleHeartbeat_sameSessions env key c

theorem onSessionReset_sameSessions (key : ClientSessionKey) (old : ℕ) :
    Within SameSessions (onSessionReset env key old) := by
  refine .bind (sameSessions_updateClient old _) fun _ => .bind ?_ fun _ => ?_
  · exact within_sameSessions_of_work (dismissClientFwdDataRequests_work env old none _)
  · refine .bind (sameSessions_updateClient old _) fun _ => .bind ?_ fun _ => ?_
    · exact within_sameSessions_of_work (replyToConnection_work env old)
    · exact .bind (sameSessions_updateClient old _) fun _ => .pure _

theorem onSessionTimedOut_sameSessions (c : ℕ) :
    Within SameSessions (onSessionTimedOut env c) := by
  refine .read fun a => .bind (.onlyIf fun _ => .ensureThen fun _ => ?_) fun _ => ?_
  · exact .bind (.modify fun _ => ⟨rfl, rfl, rfl⟩) fun _ => .modify fun _ => ⟨rfl, rfl, rfl⟩
  · exact within_sameSessions_of_work (disposeClientSession_work env c none)

theorem deleteClientSession_sameSessions (a : Service) (c : ℕ) :
    SameSessions a (a.deleteClientSession c) := by
  have h : SameSessions a (a.finalizeProxyClient c) := .of_work (.finalizeProxyClient a c)
  exact ⟨h.sessions, h.intf, h.timeout⟩

theorem onSessionClosed_sameSessions (c : ℕ) : Within SameSessions (onSessionClosed env c) := by
  refine .read fun a => .bind (sameSessions_updateClient c _) fun _ => ?_
  refine .bind (.onlyIf fun _ => ?_) fun _ => .modify fun b => deleteClientSession_sameSessions b c
  refine .bind (sameSessions_updateClient c _) fun _ => ?_
  refine .bind (.onFailure ?_ (sameSessions_updateClient c _)) fun _ =>
    sameSessions_updateClient c _
  exact within_sameSessions_of_work (replyToOperation_work env c _ true)

theorem onSessionEvent_sameSessions (p : Posting) :
    Within SameSessions (onSessionEvent env p) := by
  refine .read fun a => .ensureThen fun _ => .bind (.require _) fun s => .ensureThen fun _ => ?_
  refine .ensureThen fun _ => .ensureThen fun _ => .bind (.read fun b => ?_) fun _ => ?_
  · refine .ite (fun _ => .pure _) fun _ => .bind (.modify fun d => ?_) fun _ => .pure _
    exact ⟨rfl, rfl, rfl⟩
  · exact .onlyIf fun _ => .ensureThen fun _ => .modify fun _ => ⟨rfl, rfl, rfl⟩

variable {c : ℕ} {key : ClientSessionKey} {a b : Service}

/-- A session that could be opened is in the table, as it was inserted. -/
theorem openNewSession_lookup (h : openNewSession env key c a = (some (), b)) :
    b.sessions.lookup key = some (.initial a.intf a.clientSessionTimeout (some c)) := by
  rw [openNewSession, modify_bind_apply, onFailure_eq_some] at h
  obtain ⟨_, _, hsem, h⟩ := bind_eq_some.1 h
  obtain ⟨-, rfl⟩ := ensure_eq_some.1 hsem
  obtain ⟨_, _, hattach, h⟩ := bind_eq_some.1 h
  obtain ⟨-, rfl⟩ := ensure_eq_some.1 hattach
  have hsame := onSessionOpened_sameSessions env key c
    { a with sessions := a.sessions.insert key (.initial a.intf a.clientSessionTimeout (some c)) }
  rw [h] at hsame
  rw [hsame.sessions, AList.lookup_insert]

/-- A new session that was opened stays open when its timer can be posted and its record
released. -/
theorem openSession_returns (hnone : a.sessions.lookup key = none)
    (hinsert : env.ok .insertSession = true) (hopen : openNewSession env key c a = (some (), b))
    (htimeout : a.clientSessionTimeout = 0 ∨ env.ok .postActivity = true)
    (hrelease : env.ok .releaseSession = true) : openSession env key c a = (some (), b) := by
  have hlookup : b.sessions.lookup key =
      some (.initial a.intf a.clientSessionTimeout (some c)) := openNewSession_lookup env hopen
  have hactivity : onSessionActivity env key b = (some (), b) := by
    have hposted : (decide ((ClientSession.initial a.intf a.clientSessionTimeout
        (some c)).timeout = 0) || env.ok .postActivity) = true := by
      rw [Bool.or_eq_true, decide_eq_true_eq]
      exact htimeout
    rw [onSessionActivity, read_bind_apply, bind_apply, require_apply, hlookup]
    dsimp only
    rw [hposted]
    rfl
  have hreset : resetOrOpenSession env key c a = (some (), b) := by
    rw [resetOrOpenSession, read_bind_apply, hnone]
    exact hopen
  rw [openSession, hinsert, ensure_true_bind_apply]
  refine bind_eq_some.2 ⟨_, b, hreset, bind_eq_some.2 ⟨_, b, hactivity, ?_⟩⟩
  rw [hrelease]
  rfl

end ServiceM

/-- Every session has the configured timeout, and only sessions that are being deleted are
reported as cleaned up. -/
def Service.SessionsUniform (a : Service) : Prop :=
  ∀ k s, a.sessions.lookup k = some s →
    s.timeout = a.clientSessionTimeout ∧ (s.semCleanup = true → s.deleted = true)

/-- From `a` to `b` no session is removed, marked as timed out or reported as cleaned up,
except those of keys that `may` be. -/
structure SessionsKept (may : ClientSessionKey → Prop) (a b : Service) : Prop where
  timeout : b.clientSessionTimeout = a.clientSessionTimeout
  kept : ∀ k s, ¬ may k → a.sessions.lookup k = some s →
    ∃ s', b.sessions.lookup k = some s' ∧ s'.timedout = s.timedout ∧ s'.semCleanup = s.semCleanup
  uniform : a.SessionsUniform → b.SessionsUniform

namespace SessionsKept

variable {may : ClientSessionKey → Prop} {a b d : Service}

theorem of_same (h : SameSessions a b) : SessionsKept may a b where
  timeout := h.timeout
  kept k s _ hs := ⟨s, h.sessions ▸ hs, rfl, rfl⟩
  uniform hu k s hs := by
    rw [h.sessions] at hs
    rw [h.timeout]
    exact hu k s hs

theorem rfl' (a : Service) : SessionsKept may a a := of_same ⟨rfl, rfl, rfl⟩

theorem trans' (h : SessionsKept may a b) (h' : SessionsKept may b d) : SessionsKept may a d where
  timeout := h'.timeout.trans h.timeout
  kept k s hk hs := by
    obtain ⟨s', hs', ht, hc⟩ := h.kept k s hk hs
    obtain ⟨s'', hs'', ht', hc'⟩ := h'.kept k s' hk hs'
    exact ⟨s'', hs'', ht'.trans ht, hc'.trans hc⟩
  uniform := h'.uniform ∘ h.uniform

instance : IsPreorder Service (SessionsKept may) where
  refl := rfl'
  trans _ _ _ := trans'

/-- A change of a session that leaves its flags alone, unless they may change. -/
theorem updateSession (a : Service) (key : ClientSessionKey) {f : ClientSession → ClientSession}
    (hflags : ¬ may key → ∀ s, (f s).timedout = s.timedout ∧ (f s).semCleanup = s.semCleanup)
    (htimeout : ∀ s, (f s).timeout = s.timeout)
    (hclean : ∀ s, a.sessions.lookup key = some s → (s.semCleanup = true → s.deleted = true) →
      (f s).semCleanup = true → (f s).deleted = true) :
    SessionsKept may a (a.updateSession key f) where
  timeout := rfl
  kept k s hk hs := by
    simp only [Service.updateSession, AList.lookup_modify]
    by_cases hkey : k = key
    · subst hkey
      exact ⟨f s, by simp [hs], hflags hk s⟩
    · exact ⟨s, by simp [hkey, hs], rfl, rfl⟩
  uniform h k s hs := by
    simp only [Service.updateSession, AList.lookup_modify] at hs
    by_cases hkey : k = key
    · subst hkey
      simp only [if_true, Option.map_eq_some_iff] at hs
      obtain ⟨s₀, hs₀, rfl⟩ := hs
      exact ⟨(htimeout s₀).trans (h k s₀ hs₀).1, hclean s₀ hs₀ (h k s₀ hs₀).2⟩
    · rw [if_neg hkey] at hs
      exact h k s hs

/-- The removal of a session that may be removed, or was not there. -/
theorem eraseSession (h : SessionsKept may a b) (key : ClientSessionKey)
    (hmay : may key ∨ a.sessions.lookup key = none) :
    SessionsKept may a { b with sessions := b.sessions.erase key } where
  timeout := h.timeout
  kept k s hk hs := by
    have hne : k ≠ key := by
      rintro rfl
      rcases hmay with hmay | hmay
      · exact hk hmay
      · rw [hmay] at hs
        cases hs
    obtain ⟨s', hs', hflags⟩ := h.kept k s hk hs
    exact ⟨s', by simpa [AList.lookup_erase_ne hne] using hs', hflags⟩
  uniform hu k s hs := by
    by_cases hkey : k = key
    · subst hkey
      simp at hs
    · rw [AList.lookup_erase_ne hkey] at hs
      exact h.uniform hu k s hs

/-- The insertion of a session that is not there. -/
theorem insertSession (a : Service) (key : ClientSessionKey) (c : Option ℕ)
    (hnone : a.sessions.lookup key = none) :
    SessionsKept may a
      { a with sessions := a.sessions.insert key (.initial a.intf a.clientSessionTimeout c) } where
  timeout := rfl
  kept k s _ hs := by
    have hne : k ≠ key := by
      rintro rfl
      rw [hnone] at hs
      cases hs
    exact ⟨s, by simpa [AList.lookup_insert_ne hne] using hs, rfl, rfl⟩
  uniform hu k s hs := by
    by_cases hkey : k = key
    · subst hkey
      rw [AList.lookup_insert] at hs
      rw [← Option.some.inj hs]
      exact ⟨rfl, fun h => by cases h⟩
    · rw [AList.lookup_insert_ne hkey] at hs
      exact hu k s hs

end SessionsKept

namespace ServiceM

variable (env : ServiceEnv) {may : ClientSessionKey → Prop}

theorem within_kept_of_same {α : Type} {x : ServiceM α} (h : Within SameSessions x) :
    Within (SessionsKept may) x :=
  fun a => .of_same (h a)

/-- The flags that the timer of a session depends on stay when `resetting`, `deleted` or the
user data are written. -/
theorem resetSession_kept (key : ClientSessionKey) (s : ClientSession) :
    Within (SessionsKept may) (resetSession env key s) := by
  have hflag : ∀ v, Within (SessionsKept may)
      (modify fun a : Service => a.updateSession key fun s => { s with resetting := v }) :=
    fun v => .modify fun a => .updateSession a key (fun _ _ => ⟨rfl, rfl⟩) (fun _ => rfl)
      fun _ _ h => h
  refine .ensureThen fun _ => .bind (hflag true) fun _ => .read fun a => .ensureThen fun _ => ?_
  refine .bind (.require _) fun old => .bind ?_ fun data => .bind (.modify fun a => ?_) fun _ => ?_
  · exact within_kept_of_same (onSessionReset_sameSessions env key old)
  · exact .updateSession a key (fun _ _ => ⟨rfl, rfl⟩) (fun _ => rfl) fun _ _ h => h
  · exact .ensureThen fun _ => hflag false

theorem openNewSession_kept {key : ClientSessionKey} {c : ℕ} {a : Service}
    (hnone : a.sessions.lookup key = none) :
    SessionsKept may a (openNewSession env key c a).2 := by
  rw [openNewSession, modify_bind_apply]
  set b : Service :=
    { a with sessions := a.sessions.insert key (.initial a.intf a.clientSessionTimeout (some c)) }
  have hb : SessionsKept may a b := .insertSession a key (some c) hnone
  have hopened : Within (SessionsKept may) (do
      ensure (env.ok (.newSemaphore 0) && env.ok (.newSemaphore 1))
      ensure (env.ok .attachResources)
      onSessionOpened env key c) :=
    .ensureThen fun _ => .ensureThen fun _ =>
      within_kept_of_same (onSessionOpened_sameSessions env key c)
  have hab := hb.trans' (hopened b)
  refine keeps_onFailure hab fun _ => keeps_onlyIf hab fun _ => ?_
  exact hab.eraseSession key (.inr hnone)

theorem onSessionActivity_sameSessions (key : ClientSessionKey) :
    Within SameSessions (onSessionActivity env key) :=
  .read fun _ => .bind (.require _) fun _ => .ensure _

theorem resetOrOpenSession_kept (key : ClientSessionKey) (c : ℕ) :
    Within (SessionsKept may) (resetOrOpenSession env key c) := by
  intro a
  rw [resetOrOpenSession, read_bind_apply]
  cases hs : a.sessions.lookup key with
  | some s => exact resetSession_kept env key s a
  | none => exact openNewSession_kept env hs

theorem openSession_kept (key : ClientSessionKey) (c : ℕ) :
    Within (SessionsKept may) (openSession env key c) := by
  refine .ensureThen fun _ => .bind (resetOrOpenSession_kept env key c) fun _ => ?_
  exact .bind (within_kept_of_same (onSessionActivity_sameSessions env key)) fun _ => .ensure _

theorem processCreateClient_kept (k sid : ℕ) (m : Message) (src : BindEntry)
    (keyInHeader missing : Bool) :
    Within (SessionsKept may) (processCreateClient env k sid m src keyInHeader missing) := by
  refine .bind (.require _) fun v => .ensureThen fun _ => .ensureThen fun _ => ?_
  refine .ensureThen fun _ => .read fun a => .bind (.modify fun _ => .of_same ⟨rfl, rfl, rfl⟩) ?_
  refine fun _ => .onFailure (.bind ?_ fun _ => openSession_kept env _ _) ?_
  · exact within_kept_of_same (prepareClient_sameSessions env _ _ _ _)
  · exact .modify fun b => .of_same (deleteClientSession_sameSessions b _)

theorem disposeSession_kept (key : ClientSessionKey) (s : ClientSession) :
    Within (SessionsKept may) (disposeSession env key s) := by
  refine .onlyIf fun _ => .bind (.modify fun a => ?_) fun _ => .ensure _
  exact .updateSession a key (fun _ _ => ⟨rfl, rfl⟩) (fun _ => rfl) fun _ _ _ _ => rfl

theorem closeSession_kept (key : ClientSessionKey) :
    Within (SessionsKept may) (closeSession env key) := by
  refine .ensureThen fun _ => .ensureThen fun _ => .read fun a => .bind (.require _) fun s => ?_
  exact .ensureThen fun _ => .ensureThen fun _ => disposeSession_kept env key s

theorem serveSession_kept (key : ClientSessionKey) (s : ClientSession) :
    Within (SessionsKept may) (do
      let c ← require s.userData
      let dispose ← onMessageReceived env c
      onlyIf dispose do
        ensure (env.ok .releaseSession)
        closeSession env key) := by
  refine .bind (.require _) fun c => .bind ?_ fun _ => .onlyIf fun _ => .ensureThen fun _ => ?_
  · exact within_kept_of_same (within_sameSessions_of_work (onMessageReceived_work env c))
  · exact closeSession_kept env key

theorem receiveOnSession_kept (key : ClientSessionKey) :
    Within (SessionsKept may) (receiveOnSession env key) := by
  refine .ensureThen fun _ => .read fun a => ?_
  cases a.sessions.lookup key with
  | none => exact .pure _
  | some s =>
      refine .ensureThen fun _ => .ensureThen fun _ => .bind ?_ fun _ => serveSession_kept env key s
      exact within_kept_of_same (onSessionActivity_sameSessions env key)

theorem identifySender_sameSessions (m : Message) (src : BindEntry) :
    Within SameSessions (identifySender env m src) := by
  intro a
  obtain ⟨mutex, hmutex⟩ := identifySender_eq env m src a
  rw [hmutex]
  exact ⟨rfl, rfl, rfl⟩

theorem receiveMessage_kept (src : BindEntry) (m : Message) :
    Within (SessionsKept may) (receiveMessage env src m) := by
  refine .ensureThen fun _ => .bind ?_ fun sender => ?_
  · exact within_kept_of_same (identifySender_sameSessions env m src)
  · rw [receiveFrom]
    refine .ite (fun _ => ?_) fun _ => .ensureThen fun _ => ?_
    · exact processCreateClient_kept env _ _ _ _ _ _
    · exact receiveOnSession_kept env _

theorem onSessionTimeout_kept {key : ClientSessionKey} (hmay : may key) :
    Within (SessionsKept may) (onSessionTimeout env key) := by
  refine .ensureThen fun _ => .read fun a => .bind (.require _) fun s => .ensureThen fun _ => ?_
  refine .bind (.modify fun b => ?_) fun _ => .bind (.require _) fun c => .bind (.ignore ?_) ?_
  · exact .updateSession b key (fun h => absurd hmay h) (fun _ => rfl) fun _ _ h => h
  · exact within_kept_of_same (onSessionTimedOut_sameSessions env c)
  · exact fun _ => .bind (disposeSession_kept env key s) fun _ => .ensure _

theorem cleanupSession_kept {key : ClientSessionKey} (hmay : may key) :
    Within (SessionsKept may) (cleanupSession env key) := by
  intro a
  rw [cleanupSession, read_bind_apply]
  refine keeps_require (.rfl' a) fun s hs => keeps_ensure (.rfl' a) fun hdel =>
    keeps_ensure (.rfl' a) fun _ => ?_
  split
  · refine keeps_ensure (.rfl' a) fun _ => keeps_ensure (.rfl' a) fun _ => ?_
    rw [modify_bind_apply]
    have herase : SessionsKept may a { a with sessions := a.sessions.erase key } :=
      (SessionsKept.rfl' a).eraseSession key (.inl hmay)
    refine keeps_require herase fun c _ => herase.trans' ?_
    exact within_kept_of_same (onSessionClosed_sameSessions env c) _
  · refine .updateSession a key (fun h => absurd hmay h) (fun _ => rfl) fun s' hs' _ _ => ?_
    rw [hs] at hs'
    rw [← Option.some.inj hs']
    exact hdel

theorem finishCloseSession_kept {key : ClientSessionKey} (hmay : may key) :
    Within (SessionsKept may) (finishCloseSession env key) := by
  refine .read fun a => .bind (.require _) fun s => .ensureThen fun _ => .ensureThen fun _ => ?_
  refine .bind (.modify fun b => ?_) fun _ => .ensureThen fun _ => .ensureThen fun _ => ?_
  · exact .updateSession b key (fun h => absurd hmay h) (fun _ => rfl) fun _ _ _ h => by cases h
  · refine .bind (.modify fun b => (SessionsKept.rfl' b).eraseSession key (.inl hmay)) fun _ => ?_
    refine .ensureThen fun _ => .bind (.require _) fun c => ?_
    exact within_kept_of_same (onSessionClosed_sameSessions env c)

end ServiceM

/-- The key of the session that an operation may mark as timed out, report as cleaned up or
remove. -/
def ServiceOperation.ends : ServiceOperation → Option ClientSessionKey
  | sessionTimeout key => some key
  | cleanupSession key => some key
  | finishCloseSession key => some key
  | _ => none

/-- An operation ends at most the session it is about. -/
theorem Service.step_kept (a : Service) (o : ServiceOperation) (env : ServiceEnv) :
    SessionsKept (fun k => o.ends = some k) a (a.step (o, env)) := by
  cases o with
  | receiveMessage src m => exact ServiceM.receiveMessage_kept env src m a
  | deliverSample key id d =>
      exact .of_same (.of_work (ServiceOperation.deliverSample_work env key id d a))
  | releaseReadSamples key id =>
      exact .of_same (.of_work (ServiceOperation.releaseReadSamples_work env key id a))
  | acknowledge key m => exact .of_same (.of_work (ServiceOperation.acknowledge_work env key m a))
  | sessionTimeout key =>
      refine ServiceM.onSessionTimeout_kept env ?_ a
      rfl
  | cleanupSession key =>
      refine ServiceM.cleanupSession_kept env ?_ a
      rfl
  | finishCloseSession key =>
      refine ServiceM.finishCloseSession_kept env ?_ a
      rfl
  | dispatchEvent p => exact keeps_ensure (.rfl' a) fun _ => .of_same ⟨rfl, rfl, rfl⟩
  | sessionEvent p =>
      refine keeps_ensure (.rfl' a) fun _ => ?_
      refine Within.bind (.modify fun _ => .of_same ⟨rfl, rfl, rfl⟩) (fun _ => ?_) a
      exact ServiceM.within_kept_of_same (ServiceM.onSessionEvent_sameSessions env p)

theorem Service.Initial.sessionsUniform {a : Service} (h : a.Initial) : a.SessionsUniform := by
  intro k s hs
  rw [h.sessions] at hs
  cases hs

end NanoAgent
