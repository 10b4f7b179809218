import NanoAgent.Service.ClientAccounts
import NanoAgent.Service.Disposal

/-!
# Proxy clients over whole runs

A `CREATE_CLIENT` takes a proxy client and hands it over to a new session, and the end of a
session takes it back and returns it to the pool. Along the way a client can be lost: when
the session exists already, when something fails after the session was opened, and when the
last reply of a session cannot be sent. Runs that are `Careful` avoid this.

The session storage record of a client is never returned. It is accounted for as long as no
client that has one is finalized, in runs that are `Sparing`.
-/

namespace NanoAgent

open Prog

namespace Service

/-- A session storage record is taken for a client. -/
def takeSessionStorage (a : Service) (c : ℕ) : Service :=
  { a with poolStorageSession := a.poolStorageSession.take () }.updateClient c fun p =>
    { p with storage := some a.poolStorageSession.next }

theorem client_takeSessionStorage (a : Service) (c d : ℕ) :
    (a.takeSessionStorage c).client d =
      if d = c then { a.client d with storage := some a.poolStorageSession.next }
      else a.client d :=
  client_updateClient _ c d _

end Service

/-- The session storage records are held by one client each, or were returned once. -/
structure SessionStorageKept (a : Service) : Prop where
  accounted : a.poolStorageSession.Accounted a.HoldsSession
  sound : a.poolStorageSession.Sound
  listed : ∀ c r, a.HoldsSession c r → r < a.poolStorageSession.next

namespace SessionStorageKept

variable {a b : Service} {c : ℕ}

/-- A change of the pool and of the clients that leaves the records alone. -/
theorem of_same (h : SessionStorageKept a) (hpool : b.poolStorageSession = a.poolStorageSession)
    (hholds : ∀ d r, b.HoldsSession d r ↔ a.HoldsSession d r) : SessionStorageKept b where
  accounted := h.accounted.congr (by rw [hpool]) (by rw [hpool]) fun d r _ => hholds d r
  sound := by
    rw [hpool]
    exact h.sound
  listed d r hd := by
    rw [hpool]
    exact h.listed d r ((hholds d r).1 hd)

theorem tended (h : SessionStorageKept a) {W : ℕ → Prop} (hab : Tended W a b) :
    SessionStorageKept b := by
  refine h.of_same hab.storageSession fun d r => ?_
  rw [Service.HoldsSession, Service.HoldsSession, hab.live_iff, hab.storage]

theorem takeClient (h : SessionStorageKept a) :
    SessionStorageKept { a with clientsPool := a.clientsPool.take .initializer } := by
  refine h.of_same rfl fun d r => ?_
  change (a.clientsPool.take _).Live d ∧ ((a.clientsPool.take _).content d).storage = _ ↔ _
  by_cases hd : d = a.clientsPool.next
  · subst hd
    rw [BufferPool.content_take_self]
    refine iff_of_false (fun hr => by cases hr.2) fun hr => ?_
    exact Nat.lt_irrefl _ hr.1.1
  · rw [BufferPool.content_take_of_ne _ _ hd]
    refine and_congr_left fun _ => ⟨fun hlive => ⟨?_, hlive.2⟩, fun hlive => hlive.take _⟩
    have hlt : d < a.clientsPool.next + 1 := hlive.1
    omega

theorem takeSessionStorage (h : SessionStorageKept a) (hc : a.clientsPool.Live c)
    (hnone : (a.client c).storage = none) : SessionStorageKept (a.takeSessionStorage c) := by
  have hself : ∀ r, (a.takeSessionStorage c).HoldsSession c r ↔ r = a.poolStorageSession.next := by
    intro r
    change a.clientsPool.Live c ∧ _ ↔ _
    rw [Service.client_takeSessionStorage, if_pos rfl]
    exact ⟨fun hr => (Option.some.inj hr.2).symm, fun hr => ⟨hc, by rw [hr]⟩⟩
  have hothers : ∀ d r, d ≠ c →
      ((a.takeSessionStorage c).HoldsSession d r ↔ a.HoldsSession d r) := by
    intro d r hd
    change a.clientsPool.Live d ∧ _ ↔ _
    rw [Service.client_takeSessionStorage, if_neg hd, Service.HoldsSession]
  refine ⟨h.accounted.take (i := c) h.sound rfl rfl (fun d r hr => ?_) fun d => ?_,
    h.sound.take (), fun d r hd => ?_⟩
  · by_cases hd : d = c
    · subst hd
      rw [hself]
      refine iff_of_false (by omega) fun hold => ?_
      rw [hold.2] at hnone
      cases hnone
    · exact hothers d r hd
  · by_cases hd : d = c
    · subst hd
      rw [hself]
      simp
    · rw [hothers d _ hd]
      refine iff_of_false (fun hold => ?_) hd
      exact Nat.lt_irrefl _ (h.listed d _ hold)
  · change r < a.poolStorageSession.next + 1
    by_cases hdc : d = c
    · subst hdc
      rw [(hself r).1 hd]
      exact Nat.lt_succ_self _
    · exact Nat.lt_succ_of_lt (h.listed d r ((hothers d r hdc).1 hd))

/-- A client without a record is finalized. -/
theorem deleteClientSession (h : SessionStorageKept a) (hnone : (a.client c).storage = none) :
    SessionStorageKept (a.deleteClientSession c) := by
  have hwork : ClientWork a (a.finalizeProxyClient c) := .finalizeProxyClient a c
  have hstorage : ∀ d, ((a.finalizeProxyClient c).client d).storage = (a.client d).storage :=
    fun d => congrArg ProxyClient.Connection.storage (hwork.connection d)
  refine h.of_same hwork.storageSession fun d r => ?_
  change ((a.finalizeProxyClient c).clientsPool.giveBack c).Live d ∧
    ((a.finalizeProxyClient c).client d).storage = some r ↔ _
  rw [BufferPool.live_giveBack_iff, hstorage, BufferPool.Live, hwork.clientsNext,
    hwork.clientsReturned]
  refine ⟨fun hr => ⟨hr.1.1, hr.2⟩, fun hr => ⟨⟨hr.1, ?_⟩, hr.2⟩⟩
  rintro rfl
  rw [hr.2] at hnone
  cases hnone

end SessionStorageKept

/-- The calls made to set up a proxy client and to find the record of its session. -/
def setUpCalls : List ServiceCall :=
  [.getSessionStorage, .getStreamStorage 0, .getStreamStorage 1, .newPool 0, .newPool 1,
    .newPool 2, .initializeSession, .copyBindLocator, .insertSession]

/-- The calls of a `CREATE_CLIENT` that resets a session. -/
def resetCalls (timeout : ℕ) : List ServiceCall :=
  setUpCalls ++ [.allocateReply, .sendReply, .cancelReads, .releaseSession] ++
    if timeout = 0 then [] else [.postActivity]

/-- The calls of a `CREATE_CLIENT` that opens a session. -/
def openingCalls : List ServiceCall :=
  setUpCalls ++ [.newSemaphore 0, .newSemaphore 1, .attachResources, .reallocateMappings,
    .copyMappingLocator, .allocateReply, .sendReply, .getEvent, .postEvent, .postActivity,
    .releaseSession]

namespace ServiceM

variable (env : ServiceEnv) {W : ℕ → Prop} {c : ℕ} {a : Service}

/-- Setting up a client fails at once when there is no session storage record, and otherwise
takes one. -/
theorem prepareClient_cases (repr : ClientRepresentation) (cache : Bool) (src : BindEntry)
    (hc : W c) (hinit : a.client c = .initializer) :
    (env.ok .getSessionStorage = false ∧ prepareClient env c repr cache src a = (none, a)) ∨
      (env.ok .getSessionStorage = true ∧
        Tended W (a.takeSessionStorage c) (prepareClient env c repr cache src a).2) := by
  have hsame : (a.updateClient c fun _ => .initializer) = a := by
    have hcontent : Function.update a.clientsPool.content c ProxyClient.initializer =
        a.clientsPool.content := by
      rw [← hinit]
      exact Function.update_eq_self c _
    unfold Service.updateClient BufferPool.update
    rw [hcontent]
  cases hget : env.ok .getSessionStorage with
  | false =>
      refine .inl ⟨rfl, ?_⟩
      rw [prepareClient, initializeProxyClient, bind_bind, modify_bind_apply, hsame, hget]
      rfl
  | true =>
      have hupdate : ∀ f : ProxyClient → ProxyClient, (∀ p, (f p).storage = p.storage) →
          (∀ p, (f p).streamStorage = p.streamStorage) →
          Within (Tended W) (modify fun a : Service => a.updateClient c f) :=
        fun f => tended_updateClient c
      have hstream : ∀ n, Within (Tended W) (allocateStreamStorage env c n) :=
        fun n => tended_of_serving (allocateStreamStorage_serving env c n) hc
      have hset : Within (Tended W) (do
          modify fun a : Service => a.updateClient c fun p => { p with cacheMapping := cache }
          setBindEntry env c src) := by
        refine .bind (hupdate _ (fun _ => rfl) fun _ => rfl) fun _ => ?_
        refine .bind (hupdate _ (fun _ => rfl) fun _ => rfl) fun _ => .ensureThen fun _ => ?_
        exact hupdate _ (fun _ => rfl) fun _ => rfl
      have hrest : Within (Tended W) (do
          let _ ← allocateStreamStorage env c 0
          let _ ← allocateStreamStorage env c 1
          ensure (env.ok (.newPool 0) && env.ok (.newPool 1) && env.ok (.newPool 2))
          ensure (env.ok .initializeSession)
          modify fun a : Service => a.updateClient c fun p =>
            { p with key := repr.clientKey, sessionId := repr.sessionId }
          modify fun a : Service => a.updateClient c fun p => { p with cacheMapping := cache }
          setBindEntry env c src) := by
        refine .bind (hstream 0) fun _ => .bind (hstream 1) fun _ => .ensureThen fun _ => ?_
        exact .ensureThen fun _ => .bind (hupdate _ (fun _ => rfl) fun _ => rfl) fun _ => hset
      refine .inr ⟨rfl, ?_⟩
      have hrun : prepareClient env c repr cache src a = (do
          let _ ← allocateStreamStorage env c 0
          let _ ← allocateStreamStorage env c 1
          ensure (env.ok (.newPool 0) && env.ok (.newPool 1) && env.ok (.newPool 2))
          ensure (env.ok .initializeSession)
          modify fun a : Service => a.updateClient c fun p =>
            { p with key := repr.clientKey, sessionId := repr.sessionId }
          modify fun a : Service => a.updateClient c fun p => { p with cacheMapping := cache }
          setBindEntry env c src : ServiceM Unit) (a.takeSessionStorage c) := by
        rw [prepareClient, initializeProxyClient, bind_bind, modify_bind_apply, hsame]
        simp only [bind_bind, hget]
        rfl
      rw [hrun]
      exact hrest _

theorem replyToConnection_returns (hallocate : env.ok .allocateReply = true)
    (hsend : env.ok .sendReply = true) : Returns (replyToConnection env c) :=
  .bind (.ensure hallocate) fun _ => .bind (.ensure hsend) fun _ => .modify _

theorem cacheClientMapping_returns (hgrow : env.ok .reallocateMappings = true)
    (hcopy : env.ok .copyMappingLocator = true) : Returns (cacheClientMapping env c) := by
  have hstore : ∀ i, Returns (storeMapping env c i) := by
    intro i
    refine .bind (.modify _) fun _ => .bind (.onFailure (.ensure hcopy)) fun _ => ?_
    exact .bind (.modify _) fun _ => .modify _
  refine .bind (.modify _) fun _ => .bind (.modify _) fun _ => .read fun b => ?_
  cases b.findClientLocatorMapping (b.client c).bindEntry.locator with
  | some i => exact hstore i
  | none =>
      refine .bind (.bind (.onFailure (.ensure hgrow)) fun _ => .modify _) fun _ => hstore _

/-- The heartbeat of a session that is in the table can be scheduled. -/
theorem scheduleHeartbeat_returns {key : ClientSessionKey} {s : ClientSession}
    (hs : a.sessions.lookup key = some s) (hintf : s.intf = a.intf)
    (hget : env.ok .getEvent = true) (hpost : env.ok .postEvent = true) :
    ∃ b, scheduleHeartbeat env key c a = (some (), b) := by
  have hrest : ∀ e, Returns (do
      modify fun a : Service => a.updateClient c fun p => { p with eventHb := some e }
      fireSessionEvent env e) :=
    fun e => .bind (.modify _) fun _ => .bind (.ensure hpost) fun _ => .modify _
  have hcreate : createSessionEvent env key c a = (some a.poolEventsSession.next,
      { a with poolEventsSession := a.poolEventsSession.take ⟨a.intf, key, c⟩ }) := by
    rw [createSessionEvent, read_bind_apply, bind_apply, require_apply, hs]
    simp only [decide_eq_true hintf, hget, ensure_true_bind_apply, modify_bind_apply, pure_apply]
  obtain ⟨_, b, hb⟩ := hrest a.poolEventsSession.next
    { a with poolEventsSession := a.poolEventsSession.take ⟨a.intf, key, c⟩ }
  exact ⟨b, bind_eq_some.2 ⟨_, _, hcreate, hb⟩⟩

/-- When every call succeeds, the callback of a new session returns. -/
theorem onSessionOpened_returns {key : ClientSessionKey} {s : ClientSession}
    (hs : a.sessions.lookup key = some s) (hintf : s.intf = a.intf)
    (hok : ∀ call ∈ openingCalls, env.ok call = true) :
    ∃ b, onSessionOpened env key c a = (some (), b) := by
  rw [onSessionOpened, modify_bind_apply, read_bind_apply]
  set b := a.updateClient c fun p => { p with ddsSession := some key }
  have hcache : Returns (onlyIf (b.client c).cacheMapping (cacheClientMapping env c)) :=
    .onlyIf fun _ => cacheClientMapping_returns env (hok _ (by decide)) (hok _ (by decide))
  have hsame : Within SameSessions (onlyIf (b.client c).cacheMapping
    (cacheClientMapping env c)) := by
    refine .onlyIf fun _ => .bind (sameSessions_updateClient c _) fun _ => ?_
    exact .bind (.modify fun _ => ⟨rfl, rfl, rfl⟩) fun _ => recordMapping_sameSessions env c
  have hsame' := hsame b
  obtain ⟨_, d, hd⟩ := hcache b
  rw [hd] at hsame'
  set f := d.updateClient c fun p => { p with connected := true }
  obtain ⟨_, g, hg⟩ := replyToConnection_returns (c := c) env (hok _ (by decide))
    (hok _ (by decide)) f
  have hsent := within_sameSessions_of_work (replyToConnection_work env c) f
  rw [hg] at hsent
  have hlookup : g.sessions.lookup key = some s := by
    rw [hsent.sessions]
    change d.sessions.lookup key = some s
    rw [hsame'.sessions]
    exact hs
  have hgintf : s.intf = g.intf := by
    rw [hsent.intf]
    change s.intf = d.intf
    rw [hsame'.intf]
    exact hintf
  have hbeat : ∃ h, onlyIf (b.heartbeatPeriod != 0) (scheduleHeartbeat env key c) g =
      (some (), h) := by
    cases b.heartbeatPeriod != 0 with
    | false => exact ⟨g, rfl⟩
    | true =>
        exact scheduleHeartbeat_returns env hlookup hgintf (hok _ (by decide)) (hok _ (by decide))
  obtain ⟨h, hh⟩ := hbeat
  refine ⟨h, bind_eq_some.2 ⟨_, d, hd, ?_⟩⟩
  rw [modify_bind_apply]
  exact bind_eq_some.2 ⟨_, g, hg, hh⟩

/-- When every call succeeds, a new session is opened. -/
theorem openNewSession_returns (hok : ∀ call ∈ openingCalls, env.ok call = true)
    (key : ClientSessionKey) (c : ℕ) (a : Service) :
    ∃ b, openNewSession env key c a = (some (), b) := by
  have hsem : (env.ok (.newSemaphore 0) && env.ok (.newSemaphore 1)) = true := by
    rw [hok (.newSemaphore 0) (by decide), hok (.newSemaphore 1) (by decide)]
    rfl
  set b : Service :=
    { a with sessions := a.sessions.insert key (.initial a.intf a.clientSessionTimeout (some c)) }
    with hb
  have hlookup : b.sessions.lookup key =
      some (.initial a.intf a.clientSessionTimeout (some c)) := by
    rw [hb, AList.lookup_insert]
  obtain ⟨d, hd⟩ := onSessionOpened_returns (c := c) env hlookup rfl hok
  refine ⟨d, ?_⟩
  rw [openNewSession, modify_bind_apply, onFailure_eq_some, hsem, hok .attachResources (by decide)]
  exact hd

theorem prepareClient_calls {repr : ClientRepresentation} {cache : Bool} {src : BindEntry}
    {b : Service} (h : prepareClient env c repr cache src a = (some (), b)) :
    ∀ call ∈ setUpCalls, call = .insertSession ∨ env.ok call = true := by
  have hstream : ∀ {n r : ℕ} {d f : Service}, allocateStreamStorage env c n d = (some r, f) →
      env.ok (.getStreamStorage n) = true := by
    intro n r d f h
    obtain ⟨_, _, hget, -⟩ := bind_eq_some.1 h
    exact (ensure_eq_some.1 hget).1
  obtain ⟨_, _, hinit, h⟩ := bind_eq_some.1 h
  obtain ⟨_, _, -, h⟩ := bind_eq_some.1 h
  obtain ⟨_, _, -, h⟩ := bind_eq_some.1 h
  obtain ⟨_, _, hcopy, -⟩ := bind_eq_some.1 h
  obtain ⟨_, _, -, hinit⟩ := bind_eq_some.1 hinit
  obtain ⟨_, _, hget, hinit⟩ := bind_eq_some.1 hinit
  obtain ⟨_, _, -, hinit⟩ := bind_eq_some.1 hinit
  obtain ⟨_, _, -, hinit⟩ := bind_eq_some.1 hinit
  obtain ⟨_, _, -, hinit⟩ := bind_eq_some.1 hinit
  obtain ⟨_, _, hstream₀, hinit⟩ := bind_eq_some.1 hinit
  obtain ⟨_, _, hstream₁, hinit⟩ := bind_eq_some.1 hinit
  obtain ⟨_, _, hpools, hinit⟩ := bind_eq_some.1 hinit
  obtain ⟨_, _, hsession, -⟩ := bind_eq_some.1 hinit
  have hpools := (ensure_eq_some.1 hpools).1
  rw [Bool.and_eq_true, Bool.and_eq_true] at hpools
  obtain ⟨⟨hpool₀, hpool₁⟩, hpool₂⟩ := hpools
  have hget := (ensure_eq_some.1 hget).1
  have hsession := (ensure_eq_some.1 hsession).1
  have hcopy := (ensure_eq_some.1 hcopy).1
  have hstream₀ := hstream hstream₀
  have hstream₁ := hstream hstream₁
  intro call hcall
  simp only [setUpCalls, List.mem_cons, List.not_mem_nil, or_false] at hcall
  rcases hcall with rfl | rfl | rfl | rfl | rfl | rfl | rfl | rfl | rfl <;> simp [*]

/-- A session that was reset was active, and its client was told. -/
theorem resetSession_calls {key : ClientSessionKey} {s : ClientSession} {b : Service}
    (hs : a.sessions.lookup key = some s) (h : resetSession env key s a = (some (), b)) :
    s.active = true ∧ env.ok .allocateReply = true ∧ env.ok .sendReply = true ∧
      env.ok .cancelReads = true ∧
        ∃ s', b.sessions.lookup key = some s' ∧ s'.timeout = s.timeout := by
  obtain ⟨_, _, hcheck, h⟩ := bind_eq_some.1 h
  obtain ⟨hactive, rfl⟩ := ensure_eq_some.1 hcheck
  rw [modify_bind_apply, read_bind_apply] at h
  obtain ⟨_, _, hintf, h⟩ := bind_eq_some.1 h
  obtain ⟨-, rfl⟩ := ensure_eq_some.1 hintf
  obtain ⟨old, _, hrequire, h⟩ := bind_eq_some.1 h
  obtain ⟨-, rfl⟩ := require_eq_some.1 hrequire
  obtain ⟨v, d, hreset, h⟩ := bind_eq_some.1 h
  rw [modify_bind_apply] at h
  obtain ⟨_, _, hreads, h⟩ := bind_eq_some.1 h
  obtain ⟨hcancel, rfl⟩ := ensure_eq_some.1 hreads
  have hsame := onSessionReset_sameSessions env key old
    (a.updateSession key fun s => { s with resetting := true })
  rw [hreset] at hsame
  obtain ⟨_, _, -, hreset⟩ := bind_eq_some.1 hreset
  obtain ⟨_, _, -, hreset⟩ := bind_eq_some.1 hreset
  obtain ⟨_, _, -, hreset⟩ := bind_eq_some.1 hreset
  obtain ⟨_, _, hreply, -⟩ := bind_eq_some.1 hreset
  obtain ⟨_, _, hallocate, hreply⟩ := bind_eq_some.1 hreply
  obtain ⟨_, _, hsend, -⟩ := bind_eq_some.1 hreply
  refine ⟨hactive, (ensure_eq_some.1 hallocate).1, (ensure_eq_some.1 hsend).1, hcancel, ?_⟩
  have hds : d.sessions.lookup key = some { s with resetting := true } := by
    rw [hsame.sessions, Service.updateSession, AList.lookup_modify_self, hs]
    rfl
  rw [← modify_eq_some.1 h, Service.updateSession, AList.lookup_modify_self,
    Service.updateSession, AList.lookup_modify_self, hds]
  exact ⟨_, rfl, rfl⟩

/-- A `CREATE_CLIENT` that resets a session has made all its calls. -/
theorem connectClient_reset {repr : ClientRepresentation} {cache : Bool} {src : BindEntry}
    {b : Service} {s : ClientSession} (h : connectClient env c repr cache src a = (some (), b))
    (hs : a.sessions.lookup repr.sessionKey = some s) :
    s.active = true ∧ ∀ call ∈ resetCalls s.timeout, env.ok call = true := by
  obtain ⟨_, d, hprepare, h⟩ := bind_eq_some.1 h
  have hds : d.sessions.lookup repr.sessionKey = some s := by
    have hframe := prepareClient_preparing env c repr cache src a
    rw [hprepare] at hframe
    rw [hframe.sessions]
    exact hs
  obtain ⟨_, _, hrecord, h⟩ := bind_eq_some.1 h
  obtain ⟨hinsert, rfl⟩ := ensure_eq_some.1 hrecord
  obtain ⟨_, f, hreset, h⟩ := bind_eq_some.1 h
  obtain ⟨_, g, hactivity, h⟩ := bind_eq_some.1 h
  have hrelease := (ensure_eq_some.1 h).1
  rw [resetOrOpenSession, read_bind_apply, hds] at hreset
  obtain ⟨hactive, hallocate, hsend, hcancel, s', hs', htimeout⟩ :=
    resetSession_calls env hds hreset
  rw [onSessionActivity, read_bind_apply, bind_apply, require_apply, hs'] at hactivity
  have hpost := (ensure_eq_some.1 hactivity).1
  rw [htimeout, Bool.or_eq_true, decide_eq_true_eq] at hpost
  refine ⟨hactive, fun call hcall => ?_⟩
  rw [resetCalls, List.append_assoc, List.mem_append, List.mem_append] at hcall
  rcases hcall with hcall | hcall | hcall
  · rcases prepareClient_calls env hprepare call hcall with rfl | hok
    · exact hinsert
    · exact hok
  · simp only [List.mem_cons, List.not_mem_nil, or_false] at hcall
    rcases hcall with rfl | rfl | rfl | rfl
    · exact hallocate
    · exact hsend
    · exact hcancel
    · exact hrelease
  · by_cases hzero : s.timeout = 0
    · rw [if_pos hzero] at hcall
      cases hcall
    · rw [if_neg hzero, List.mem_singleton] at hcall
      rw [hcall]
      exact hpost.resolve_left hzero

/-- The record of a new session is inserted, its callback works on the client and, when
something fails, the record is removed again. -/
theorem openNewSession_cases (key : ClientSessionKey) :
    ∃ d, Tended (· = c)
        { a with
          sessions := a.sessions.insert key (.initial a.intf a.clientSessionTimeout (some c)) } d ∧
      (openNewSession env key c a = (some (), d) ∨ openNewSession env key c a = (none,
        if env.ok .deleteSession then { d with sessions := d.sessions.erase key } else d)) := by
  set b : Service :=
    { a with sessions := a.sessions.insert key (.initial a.intf a.clientSessionTimeout (some c)) }
  have hwithin : Within (Tended (· = c)) (do
      ensure (env.ok (.newSemaphore 0) && env.ok (.newSemaphore 1))
      ensure (env.ok .attachResources)
      onSessionOpened env key c) :=
    .ensureThen fun _ => .ensureThen fun _ => onSessionOpened_tended (W := (· = c)) env rfl key
  have hbody := hwithin b
  rcases hx : (do
      ensure (env.ok (.newSemaphore 0) && env.ok (.newSemaphore 1))
      ensure (env.ok .attachResources)
      onSessionOpened env key c : ServiceM Unit) b with ⟨_ | _, d⟩
  · rw [hx] at hbody
    refine ⟨d, hbody, .inr ?_⟩
    rw [openNewSession, modify_bind_apply, onFailure, hx]
    cases env.ok .deleteSession <;> rfl
  · rw [hx] at hbody
    refine ⟨d, hbody, .inl ?_⟩
    rw [openNewSession, modify_bind_apply, onFailure_eq_some]
    exact hx

/-- What the opening of a session with the client of a handler leaves: the client is that of
the session when it succeeds, and of the handler otherwise. -/
def HandedOver (c : ℕ) (res : Option Unit) (b : Service) : Prop :=
  Accounts (if res.isSome then none else some c) b

theorem openNewSession_accounts {key : ClientSessionKey} (h : Accounts (some c) a)
    (hnone : a.sessions.lookup key = none)
    (hends : env.ok .deleteSession = true ∨ ∀ call ∈ openingCalls, env.ok call = true) :
    HandedOver c (openNewSession env key c a).1 (openNewSession env key c a).2 := by
  obtain ⟨d, htended, hcases⟩ := openNewSession_cases (c := c) (a := a) env key
  have hinsert := h.insertSession hnone
    (s := .initial a.intf a.clientSessionTimeout (some c)) rfl
  have huser : Service.clientOf { a with
      sessions := a.sessions.insert key (.initial a.intf a.clientSessionTimeout (some c)) } key =
      some c := by
    rw [Service.clientOf, AList.lookup_insert]
    rfl
  have hd : Accounts none d := by
    refine hinsert.tended htended fun e he => ⟨some key, ?_⟩
    rw [he]
    exact huser
  rcases hcases with hret | hfail
  · rw [hret]
    exact hd
  · rcases hends with hdelete | hok
    · rw [hfail, hdelete]
      exact hd.eraseSession ((htended.users key).trans huser)
    · obtain ⟨b, hb⟩ := openNewSession_returns env hok key c a
      rw [hfail] at hb
      cases congrArg Prod.fst hb

theorem openSession_accounts {key : ClientSessionKey} (h : Accounts (some c) a)
    (hnone : a.sessions.lookup key = none)
    (hends : env.ok .deleteSession = true ∨ ∀ call ∈ openingCalls, env.ok call = true)
    (htimeout : a.clientSessionTimeout = 0 ∨ env.ok .postActivity = true)
    (hrelease : env.ok .releaseSession = true) :
    HandedOver c (openSession env key c a).1 (openSession env key c a).2 := by
  cases hinsert : env.ok .insertSession with
  | false =>
      rw [openSession, hinsert]
      exact h
  | true =>
      have hnew := openNewSession_accounts env h hnone hends
      rcases hx : openNewSession env key c a with ⟨_ | _, b⟩
      · rw [hx] at hnew
        have hfail : openSession env key c a = (none, b) := by
          rw [openSession, hinsert, ensure_true_bind_apply, bind_apply, resetOrOpenSession,
            read_bind_apply, hnone]
          dsimp only
          rw [hx]
        rw [hfail]
        exact hnew
      · rw [hx] at hnew
        rw [openSession_returns env hnone hinsert hx htimeout hrelease]
        exact hnew

/-- A session that exists already is only worked on. -/
theorem openSession_tended {key : ClientSessionKey} {s : ClientSession}
    (hs : a.sessions.lookup key = some s) (hW : ∀ e, s.userData = some e → W e) :
    Tended W a (openSession env key c a).2 := by
  have hreset := resetSession_tended env hs hW
  refine keeps_ensure (.rfl' a) fun _ => ?_
  rw [bind_apply, resetOrOpenSession, read_bind_apply, hs]
  dsimp only
  have hrest : Within (Tended W) (do
      onSessionActivity env key
      ensure (env.ok .releaseSession)) :=
    .bind (.read fun _ => .bind (.require _) fun _ => .ensure _) fun _ => .ensure _
  rcases hx : resetSession env key s a with ⟨_ | _, b⟩
  · rw [hx] at hreset
    exact hreset
  · rw [hx] at hreset
    exact hreset.trans' (hrest b)

end ServiceM

namespace Service

/-- A `CREATE_CLIENT` for the key loses no proxy client, once the client is set up: a reset
fails, and a new session stays open when its callback succeeds and is removed otherwise. -/
def CarefulOpening (a : Service) (env : ServiceEnv) (key : ClientSessionKey) : Prop :=
  (∃ call ∈ setUpCalls, env.ok call = false) ∨
    match a.sessions.lookup key with
    | some s => s.active = false ∨ ∃ call ∈ resetCalls s.timeout, env.ok call = false
    | none => (a.clientSessionTimeout = 0 ∨ env.ok .postActivity = true) ∧
        env.ok .releaseSession = true ∧
          (env.ok .deleteSession = true ∨ ∀ call ∈ openingCalls, env.ok call = true)

end Service

namespace ServiceM

variable (env : ServiceEnv) {c : ℕ} {a : Service}

theorem takeSessionStorage_accounts (h : Accounts (some c) a) :
    Accounts (some c) (a.takeSessionStorage c) := by
  refine h.of_same rfl rfl (fun _ => rfl) (h.streams.of_same rfl (fun _ => Iff.rfl) fun d _ => ?_)
  rw [Service.client_takeSessionStorage]
  by_cases hd : d = c
  · rw [if_pos hd]
  · rw [if_neg hd]

theorem connectClient_accounts {repr : ClientRepresentation} (cache : Bool) (src : BindEntry)
    (h : Accounts (some c) a) (hinit : a.client c = .initializer)
    (hcareful : a.CarefulOpening env repr.sessionKey) :
    HandedOver c (connectClient env c repr cache src a).1
      (connectClient env c repr cache src a).2 := by
  rcases prepareClient_cases (W := (· = c)) env repr cache src rfl hinit with
    ⟨-, hfail⟩ | ⟨-, htended⟩
  · rw [connectClient, bind_apply, hfail]
    exact h
  have hframe := prepareClient_preparing env c repr cache src a
  have hd : Accounts (some c) (prepareClient env c repr cache src a).2 := by
    refine (takeSessionStorage_accounts h).tended htended fun e he => ⟨none, ?_⟩
    exact congrArg some he.symm
  rcases hx : prepareClient env c repr cache src a with ⟨_ | _, d⟩
  · rw [hx] at hd
    rw [connectClient, bind_apply, hx]
    exact hd
  · rw [hx] at hd hframe
    have hrun : connectClient env c repr cache src a = openSession env repr.sessionKey c d := by
      rw [connectClient, bind_apply, hx]
    rw [hrun]
    rcases hcareful with ⟨call, hmem, hfail⟩ | hcareful
    · -- the client is set up, so it was the record of the session that failed
      have hinsert : env.ok .insertSession = false := by
        rcases prepareClient_calls env hx call hmem with rfl | hok
        · exact hfail
        · rw [hok] at hfail
          cases hfail
      rw [openSession, hinsert]
      exact hd
    cases hs : a.sessions.lookup repr.sessionKey with
    | none =>
        rw [hs] at hcareful
        obtain ⟨htimeout, hrelease, hends⟩ := hcareful
        rw [← hframe.sessions] at hs
        refine openSession_accounts env hd hs hends ?_ hrelease
        rw [show d.clientSessionTimeout = a.clientSessionTimeout from
          congrArg Service.Registry.clientSessionTimeout hframe.registry]
        exact htimeout
    | some s =>
        rw [hs] at hcareful
        have hds : d.sessions.lookup repr.sessionKey = some s := by
          rw [hframe.sessions]
          exact hs
        have hkept := hd.tended (openSession_tended (W := fun e => s.userData = some e)
          (c := c) env hds fun _ he => he) fun e he =>
            ⟨some repr.sessionKey, Service.clientOf_eq_some.2 ⟨s, hds, he⟩⟩
        rcases hy : openSession env repr.sessionKey c d with ⟨_ | _, b⟩
        · rw [hy] at hkept
          exact hkept
        · -- a reset that succeeds is excluded
          obtain ⟨hactive, hcalls⟩ := connectClient_reset env (hrun.trans hy) hs
          rcases hcareful with hinactive | ⟨call, hmem, hfail⟩
          · rw [hactive] at hinactive
            cases hinactive
          · rw [hcalls call hmem] at hfail
            cases hfail

end ServiceM

/-- A last reply can be sent, whatever its stream. -/
def ServiceEnv.Replies (env : ServiceEnv) : Prop :=
  env.ok .allocateReply = true ∧ env.ok .sendReply = true ∧
    ∀ n, env.ok (.getStreamStorage n) = true ∧ env.ok (.registerStream n) = true

namespace Service

/-- The clean-up handler removes the session of the key, which has timed out. -/
def RemovedByCleanup (a : Service) (env : ServiceEnv) (key : ClientSessionKey) : Prop :=
  ∃ s, a.sessions.lookup key = some s ∧ s.deleted = true ∧ s.timedout = true ∧
    env.ok .finalizeSession = true ∧ env.ok .releaseSession = true ∧
      env.ok .deleteSession = true

/-- The closer of the session of the key, which was cleaned up, removes it. -/
def RemovedByCloser (a : Service) (env : ServiceEnv) (key : ClientSessionKey) : Prop :=
  ∃ s, a.sessions.lookup key = some s ∧ s.semCleanup = true ∧ env.ok .lookupSession = true ∧
    env.ok .releaseSession = true ∧ env.ok .deleteSession = true

end Service

namespace ServiceM

variable {env : ServiceEnv} {c : ℕ} {a : Service} {key : ClientSessionKey}

theorem replyToOperation_returns (h : env.Replies) (r : ℕ) (success : Bool) :
    Returns (replyToOperation env c r success) := by
  obtain ⟨hallocate, hsend, hstream⟩ := h
  have hlookup : ∀ stream, Returns (lookupStream env c stream) := by
    intro stream
    refine .read fun b => ?_
    split
    · exact .pure _
    · refine .bind ?_ fun _ => .bind (.onFailure (.ensure (hstream stream).2)) fun _ => .modify _
      refine .bind (.ensure (hstream _).1) fun _ => .read fun d => ?_
      exact .bind (.modify _) fun _ => .bind (.modify _) fun _ => .pure _
  refine .read fun b => .bind ?_ fun _ => .bind (.modify _) fun _ => ?_
  · unfold prepareReply
    split
    · exact hlookup _
    · exact .bind (hlookup _) fun _ => .ensure hallocate
  · exact .bind (.ensure hsend) fun _ => .modify _

/-- The client of a removed session is returned when the last reply can be sent. -/
theorem onSessionClosed_accounts (h : Accounts (some c) a)
    (hreply : (a.client c).disposeRequest = none ∨ env.Replies) :
    Accounts none (onSessionClosed env c a).2 := by
  rw [onSessionClosed, read_bind_apply, modify_bind_apply]
  set b := a.updateClient c fun p => { p with disposeRequest := none }
  have hab : Tended (· = c) a b := .updateClient a c rfl rfl
  have hself : ∀ e, e = c → ∃ x, a.Holds (some c) x e := fun e he => ⟨none, congrArg some he.symm⟩
  have hbody : Within (Tended (· = c)) (onlyIf (a.client c).disposeRequest.isSome do
      let r := (a.client c).disposeRequest.getD 0
      modify fun a => a.updateRequest c r fun q => { q with reply := true }
      onFailure (replyToOperation env c r true) (modify fun a => a.returnClientRequest c r)
      modify fun a => a.returnClientRequest c r) := by
    have hrequest : ∀ f : ProxyClient → ProxyClient, (∀ p, (f p).storage = p.storage) →
        (∀ p, (f p).streamStorage = p.streamStorage) →
        Within (Tended (· = c)) (modify fun a : Service => a.updateClient c f) :=
      fun f => tended_updateClient c
    have hreturn : ∀ r, Within (Tended (· = c))
        (modify fun a : Service => a.returnClientRequest c r) :=
      fun r => hrequest _ (fun _ => rfl) fun _ => rfl
    refine .onlyIf fun _ => .bind ?_ fun _ => .bind ?_ fun _ => hreturn _
    · exact hrequest _ (fun _ => rfl) fun _ => rfl
    · exact .onFailure (tended_of_serving (replyToOperation_serving env c _ true) rfl) (hreturn _)
  have hreturns : Returns (onlyIf (a.client c).disposeRequest.isSome do
      let r := (a.client c).disposeRequest.getD 0
      modify fun a => a.updateRequest c r fun q => { q with reply := true }
      onFailure (replyToOperation env c r true) (modify fun a => a.returnClientRequest c r)
      modify fun a => a.returnClientRequest c r) := by
    refine .onlyIf fun hsome => .bind (.modify _) fun _ => .bind (.onFailure ?_) fun _ => .modify _
    rcases hreply with hnone | hreplies
    · rw [hnone] at hsome
      cases hsome
    · exact replyToOperation_returns hreplies _ true
  have hbd := hbody b
  obtain ⟨_, d, hd⟩ := hreturns b
  rw [hd] at hbd
  rw [bind_apply, hd]
  exact (h.tended (hab.trans' hbd) hself).deleteClientSession

/-- A session is removed, and its client told. -/
theorem endSession_accounts (h : Accounts none a) {u : Option ℕ} (hu : a.clientOf key = u)
    (hreply : ∀ c, u = some c → (a.client c).disposeRequest = none ∨ env.Replies) :
    Accounts none ((do
      let c ← require u
      onSessionClosed env c : ServiceM Unit) { a with sessions := a.sessions.erase key }).2 := by
  cases u with
  | none =>
      change Accounts none { a with sessions := a.sessions.erase key }
      refine h.of_same rfl rfl (fun k => ?_)
        (h.streams.of_same rfl (fun _ => Iff.rfl) fun _ _ => rfl)
      by_cases hk : k = key
      · subst hk
        rw [hu, Service.clientOf, AList.lookup_erase]
        rfl
      · rw [Service.clientOf, AList.lookup_erase_ne hk, Service.clientOf]
  | some c => exact onSessionClosed_accounts (h.eraseSession hu) (hreply c rfl)

theorem cleanupSession_accounts (h : Accounts none a)
    (hreply : a.RemovedByCleanup env key → ∀ c, a.clientOf key = some c →
      (a.client c).disposeRequest = none ∨ env.Replies) :
    Accounts none (cleanupSession env key a).2 := by
  rw [cleanupSession, read_bind_apply]
  refine keeps_require h fun s hs => keeps_ensure h fun hdel => keeps_ensure h fun hfin => ?_
  split
  · rename_i htimedout
    refine keeps_ensure h fun hrel => keeps_ensure h fun herase => ?_
    rw [modify_bind_apply]
    refine endSession_accounts h ?_ fun c hc =>
      hreply ⟨s, hs, hdel, htimedout, hfin, hrel, herase⟩ c
        (Service.clientOf_eq_some.2 ⟨s, hs, hc⟩)
    rw [Service.clientOf, hs]
    rfl
  · refine h.tended (W := fun _ => False) ?_ fun c hc => hc.elim
    exact .updateSession a key fun _ _ => rfl

theorem finishCloseSession_accounts (h : Accounts none a)
    (hreply : a.RemovedByCloser env key → env.ok .unlockSessions = true ∧
      ∀ c, a.clientOf key = some c → (a.client c).disposeRequest = none ∨ env.Replies) :
    Accounts none (finishCloseSession env key a).2 := by
  rw [finishCloseSession, read_bind_apply]
  refine keeps_require h fun s hs => keeps_ensure h fun hsem => keeps_ensure h fun hlook => ?_
  rw [modify_bind_apply]
  set b := a.updateSession key fun s => { s with semCleanup := false } with hb
  have huser : b.clientOf key = s.userData := by
    rw [hb, Service.clientOf, Service.updateSession, AList.lookup_modify_self, hs]
    rfl
  have hkept : Accounts none b := by
    refine h.tended (W := fun _ => False) ?_ fun c hc => hc.elim
    exact .updateSession a key fun _ _ => rfl
  refine keeps_ensure hkept fun hrel => keeps_ensure hkept fun herase => ?_
  obtain ⟨hunlock, hends⟩ := hreply ⟨s, hs, hsem, hlook, hrel, herase⟩
  rw [modify_bind_apply, hunlock, ensure_true_bind_apply]
  exact endSession_accounts hkept huser fun c hc =>
    hends c (Service.clientOf_eq_some.2 ⟨s, hs, hc⟩)

theorem processCreateClient_accounts (k sid : ℕ) (m : Message) (src : BindEntry)
    (keyInHeader missing : Bool) (h : Accounts none a)
    (hcareful : ∀ v, deserializeClientRepr env.wire k sid m = some v →
      env.wire.clientRepresentationValid v.1 = true → (v.2 && keyInHeader) = false →
        env.ok .getClient = true → a.CarefulOpening env v.1.sessionKey) :
    Accounts none (processCreateClient env k sid m src keyInHeader missing a).2 := by
  refine keeps_require h fun v hv => keeps_ensure h fun hvalid => keeps_ensure h fun hkey =>
    keeps_ensure h fun hget => ?_
  rw [read_bind_apply, modify_bind_apply]
  have hconnect := connectClient_accounts env (missing || v.2) src
    h.takeClient (BufferPool.content_take_self _ _)
    (hcareful v hv hvalid (by rwa [Bool.not_eq_true'] at hkey) hget)
  unfold onFailure
  rcases hx : connectClient env a.clientsPool.next v.1 (missing || v.2) src
    { a with clientsPool := a.clientsPool.take .initializer } with ⟨_ | _, b⟩
  · rw [hx] at hconnect
    have hheld : Accounts (some a.clientsPool.next) b := hconnect
    exact hheld.deleteClientSession
  · rw [hx] at hconnect
    exact hconnect

end ServiceM

namespace Service

/-- A message is a `CREATE_CLIENT` that passes the checks made before a proxy client is
taken. -/
structure Admits (a : Service) (env : ServiceEnv) (src : BindEntry) (m : Message)
    (repr : ClientRepresentation) : Prop where
  size : env.wire.headerSize m.sessionId ≤ m.bytes.length
  kind : env.wire.noSession m.sessionId = true
  decoded : ∃ sender keyChanged, (ServiceM.identifySender env m src a).1 = some sender ∧
    deserializeClientRepr env.wire sender.1 m.sessionId m = some (repr, keyChanged) ∧
      (keyChanged && env.wire.hasClientKey m.sessionId) = false
  valid : env.wire.clientRepresentationValid repr = true
  client : env.ok .getClient = true

/-- A step that loses no proxy client: a `CREATE_CLIENT` resets no session and nothing fails
once it opened one, and when a session is removed its last reply can be sent. -/
def Careful (a : Service) (i : ServiceOperation × ServiceEnv) : Prop :=
  match i.1 with
  | .receiveMessage src m =>
      ∀ repr, a.Admits i.2 src m repr → a.CarefulOpening i.2 repr.sessionKey
  | .cleanupSession key => a.RemovedByCleanup i.2 key →
      ∀ c, a.clientOf key = some c → (a.client c).disposeRequest = none ∨ i.2.Replies
  | .finishCloseSession key => a.RemovedByCloser i.2 key → i.2.ok .unlockSessions = true ∧
      ∀ c, a.clientOf key = some c → (a.client c).disposeRequest = none ∨ i.2.Replies
  | _ => True

end Service

namespace ServiceM

variable {env : ServiceEnv} {a : Service}

/-- An invariant that does not see the mutex is kept by the reception of a message when it is
kept by what the message asks for. -/
theorem receiveMessage_keeps {I : Service → Prop} (src : BindEntry) (m : Message)
    (hmutex : ∀ mutex, I { a with mappingsMutex := mutex })
    (hcreate : ∀ mutex sender, env.wire.headerSize m.sessionId ≤ m.bytes.length →
      env.wire.noSession m.sessionId = true → (identifySender env m src a).1 = some sender →
        I (processCreateClient env sender.1 m.sessionId m src
          (env.wire.hasClientKey m.sessionId) sender.2 { a with mappingsMutex := mutex }).2)
    (hsession : ∀ mutex key, I (receiveOnSession env key { a with mappingsMutex := mutex }).2) :
    I (receiveMessage env src m a).2 := by
  refine keeps_ensure (hmutex a.mappingsMutex) fun hsize => ?_
  obtain ⟨mutex, hstate⟩ := identifySender_eq env m src a
  refine keeps_bind (fun _ => ?_) fun sender hsender => ?_
  · rw [hstate]
    exact hmutex mutex
  · rw [hstate, receiveFrom]
    split
    · rename_i hkind
      exact hcreate mutex sender (of_decide_eq_true hsize) hkind hsender
    · exact keeps_ensure (hmutex mutex) fun _ => hsession mutex _

end ServiceM

namespace Service

variable {a : Service}

/-- The clients that are the user data of a session. -/
def Used (a : Service) (c : ℕ) : Prop := ∃ key, a.clientOf key = some c

theorem Used.holds {c : ℕ} (h : a.Used c) : ∃ x, a.Holds none x c := by
  obtain ⟨key, hkey⟩ := h
  exact ⟨some key, hkey⟩

/-- The operations that neither open nor remove a session work on clients of sessions. -/
theorem step_tended (o : ServiceOperation) (env : ServiceEnv)
    (hreceive : ∀ src m, o ≠ .receiveMessage src m) (hclean : ∀ key, o ≠ .cleanupSession key)
    (hfinish : ∀ key, o ≠ .finishCloseSession key) : Tended a.Used a (a.step (o, env)) := by
  cases o with
  | receiveMessage src m => exact absurd rfl (hreceive src m)
  | cleanupSession key => exact absurd rfl (hclean key)
  | finishCloseSession key => exact absurd rfl (hfinish key)
  | deliverSample key id d =>
      refine keeps_require (.rfl' a) fun c hc => ?_
      exact ServiceM.tended_of_serving (ServiceM.deliverSample_serving env c id d) ⟨key, hc⟩ a
  | releaseReadSamples key id =>
      refine keeps_require (.rfl' a) fun c hc => ?_
      exact ServiceM.tended_of_serving (ServiceM.onReleaseReadSamples_serving env c id)
        ⟨key, hc⟩ a
  | acknowledge key m =>
      refine keeps_require (.rfl' a) fun c hc => keeps_ensure (.rfl' a) fun _ => ?_
      rw [modify_bind_apply]
      set b := a.updateClient c fun p => { p with sendQueue := p.sendQueue.erase m }
      have hab : Tended a.Used a b := .updateClient a c rfl rfl
      refine hab.trans' ?_
      exact ServiceM.tended_of_serving (ServiceM.onSendComplete_serving env c m) ⟨key, hc⟩ b
  | sessionTimeout key => exact ServiceM.onSessionTimeout_tended env fun c hc => ⟨key, hc⟩
  | dispatchEvent p => exact keeps_ensure (.rfl' a) fun _ => .of_eq rfl rfl rfl fun _ => rfl
  | sessionEvent p =>
      refine keeps_ensure (.rfl' a) fun _ => ?_
      rw [modify_bind_apply]
      refine Tended.trans' (b := { a with dispatched := a.dispatched.erase p }) ?_ ?_
      · exact .of_eq rfl rfl rfl fun _ => rfl
      · exact ServiceM.onSessionEvent_tended env p _

theorem step_accounts (h : Accounts none a) (i : ServiceOperation × ServiceEnv)
    (hok : a.Careful i) : Accounts none (a.step i) := by
  obtain ⟨o, env⟩ := i
  have hquiet : Tended a.Used a (a.step (o, env)) → Accounts none (a.step (o, env)) :=
    fun ht => h.tended ht fun c hc => hc.holds
  cases o with
  | receiveMessage src m =>
      have hmutex : ∀ mutex, Accounts none { a with mappingsMutex := mutex } := by
        intro mutex
        refine h.tended (W := fun _ => False) ?_ fun c hc => hc.elim
        exact .of_eq rfl rfl rfl fun _ => rfl
      refine ServiceM.receiveMessage_keeps (I := Accounts none) src m hmutex ?_ ?_
      · intro mutex sender hsize hkind hsender
        refine ServiceM.processCreateClient_accounts _ _ m src _ _ (hmutex mutex) ?_
        intro v hv hvalid hkey hget
        exact hok v.1 ⟨hsize, hkind, ⟨sender, v.2, hsender, hv, hkey⟩, hvalid, hget⟩
      · intro mutex key
        exact (hmutex mutex).tended (ServiceM.receiveOnSession_tended (W := a.Used) env
          fun c hc => ⟨key, hc⟩) fun c hc => hc.holds
  | cleanupSession key => exact ServiceM.cleanupSession_accounts h hok
  | finishCloseSession key => exact ServiceM.finishCloseSession_accounts h hok
  | _ => exact hquiet (step_tended _ env (by simp) (by simp) (by simp))

theorem Initial.accounts (h : a.Initial) : Accounts none a where
  clients := .empty h.clientsNext
  known x c hc := by
    cases x with
    | none => cases hc
    | some key =>
        obtain ⟨s, hs, -⟩ := clientOf_eq_some.1 hc
        rw [h.sessions] at hs
        cases hs
  sound c hc := by
    rw [h.clientsReturned] at hc
    cases hc
  streams := by
    have hlive : ∀ c, ¬ a.clientsPool.Live c := by
      intro c hc
      have hlt := hc.1
      rw [h.clientsNext] at hlt
      exact Nat.not_lt_zero c hlt
    refine ⟨?_, fun r hr => ?_, fun c hc => absurd hc (hlive c), fun c hc => absurd hc (hlive c),
      fun c d hc => absurd hc (hlive c), fun r hr => ?_⟩
    · rw [h.storageStreamReturned]
      exact List.nodup_nil
    · rw [h.storageStreamReturned] at hr
      cases hr
    · have hlt := hr.1
      rw [h.storageStreamNext] at hlt
      exact absurd hlt (Nat.not_lt_zero r)

theorem accounted_of_accounts (h : Accounts none a) :
    a.clientsPool.Accounted fun key c => a.clientOf key = some c := by
  intro c hc
  rcases h.clients c hc with ⟨⟨x, hx, honly⟩, hmem⟩ | ⟨hno, hcount⟩
  · cases x with
    | none => cases hx
    | some key =>
        refine .inl ⟨⟨key, hx, fun k hk => ?_⟩, hmem⟩
        exact Option.some.inj (honly (some k) hk)
  · exact .inr ⟨fun key => hno (some key), hcount⟩

/-- In every run whose steps are careful, whatever sessions are opened and closed, the proxy
clients and their stream storage records are accounted for. -/
theorem accounted_of_careful (h : a.ReachedWhen Careful) :
    (a.clientsPool.Accounted fun key c => a.clientOf key = some c) ∧
      a.poolStorageStream.Accounted a.HoldsStream := by
  have haccounts : Accounts none a :=
    h.invariant (I := Accounts none) (fun _ => Initial.accounts) fun _ i hs => step_accounts hs i
  exact ⟨accounted_of_accounts haccounts, haccounts.streams.accounted⟩

end Service

end NanoAgent
