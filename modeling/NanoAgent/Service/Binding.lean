import NanoAgent.Service.Operation

/-!
# The peer a session is served through

A proxy client is bound once, while it is not yet known to the DDS agent, and a
session keeps the proxy client it was opened with. `Rebinding n u key fresh a b`
collects what this means from `a` to `b`: the proxy clients below `n` are bound as
before, whatever they sent left through that binding, and the session of `key` has
the user data it had, unless it is new (`fresh`) and has `u`.

So a `CREATE_CLIENT` that resets a session leaves it bound to the peer it was opened
from. `reconnection_bound_iff` says when this is the peer the message came from.
-/

namespace NanoAgent

open Prog

/-- From `a` to `b` bindings and the user data of a session stay. -/
structure Rebinding (n u : ℕ) (key : ClientSessionKey) (fresh : Prop) (a b : Service) : Prop where
  next : a.clientsPool.next ≤ b.clientsPool.next
  bound : ∀ c < n, (b.client c).bindEntry = (a.client c).bindEntry
  sent : ∃ l, b.sent = a.sent ++ l ∧
    ∀ m ∈ l, m.client < n → m.via = (a.client m.client).bindEntry
  users : ∀ s', b.sessions.lookup key = some s' →
    (∃ s, a.sessions.lookup key = some s ∧ s'.userData = s.userData) ∨
      (fresh ∧ s'.userData = some u ∧ u < b.clientsPool.next)

namespace Rebinding

variable {n u : ℕ} {key : ClientSessionKey} {fresh : Prop} {a b d : Service}

theorem of_same_sessions (h : b.sessions = a.sessions) {s' : ClientSession}
    (hs : b.sessions.lookup key = some s') :
    (∃ s, a.sessions.lookup key = some s ∧ s'.userData = s.userData) ∨
      (fresh ∧ s'.userData = some u ∧ u < b.clientsPool.next) := by
  rw [h] at hs
  exact .inl ⟨s', hs, rfl⟩

theorem of_work (h : ClientWork a b) : Rebinding n u key fresh a b where
  next := Nat.le_of_eq h.clientsNext.symm
  bound c _ := h.bindEntry c
  sent := by
    obtain ⟨l, hl, hvia⟩ := h.sent
    exact ⟨l, hl, fun m hm _ => hvia m hm⟩
  users _ hs := of_same_sessions h.sessions hs

theorem rfl' (a : Service) : Rebinding n u key fresh a a := of_work (.rfl' a)

theorem trans' (h : Rebinding n u key fresh a b) (h' : Rebinding n u key fresh b d) :
    Rebinding n u key fresh a d where
  next := Nat.le_trans h.next h'.next
  bound c hc := (h'.bound c hc).trans (h.bound c hc)
  sent := by
    obtain ⟨l, hl, hvia⟩ := h.sent
    obtain ⟨l', hl', hvia'⟩ := h'.sent
    refine ⟨l ++ l', by rw [hl', hl, List.append_assoc], ?_⟩
    intro m hm hlt
    rcases List.mem_append.1 hm with hm | hm
    · exact hvia m hm hlt
    · rw [hvia' m hm hlt, h.bound _ hlt]
  users := by
    intro s'' hs''
    rcases h'.users s'' hs'' with ⟨s', hs', heq⟩ | hnew
    · rcases h.users s' hs' with ⟨s, hs, heq'⟩ | ⟨hfresh, hu, hlt⟩
      · exact .inl ⟨s, hs, heq.trans heq'⟩
      · exact .inr ⟨hfresh, heq.trans hu, Nat.lt_of_lt_of_le hlt h'.next⟩
    · exact .inr hnew

instance : IsPreorder Service (Rebinding n u key fresh) where
  refl := rfl'
  trans _ _ _ := trans'

/-- A change of a proxy client that is not below `n`, or of no binding. -/
theorem updateClient (a : Service) (c : ℕ) {f : ProxyClient → ProxyClient}
    (hf : c < n → ∀ p, (f p).bindEntry = p.bindEntry) :
    Rebinding n u key fresh a (a.updateClient c f) where
  next := le_rfl
  bound d hd := by
    rw [Service.client_updateClient]
    by_cases hdc : d = c
    · rw [if_pos hdc]
      exact hf (hdc ▸ hd) _
    · rw [if_neg hdc]
  sent := ⟨[], by simp [Service.updateClient], by simp⟩
  users _ hs := of_same_sessions rfl hs

/-- A change that leaves the proxy clients, the sessions and what was sent alone. -/
theorem of_eq (hc : b.clientsPool = a.clientsPool) (hs : b.sessions = a.sessions)
    (hsent : b.sent = a.sent) : Rebinding n u key fresh a b where
  next := by rw [hc]
  bound c _ := by rw [Service.client, hc, Service.client]
  sent := ⟨[], by rw [hsent, List.append_nil], by simp⟩
  users _ hs' := of_same_sessions hs hs'

/-- A change of the session table that keeps the user data. -/
theorem of_sessions (hc : b.clientsPool = a.clientsPool) (hsent : b.sent = a.sent)
    (hs : ∀ s', b.sessions.lookup key = some s' →
      (∃ s, a.sessions.lookup key = some s ∧ s'.userData = s.userData) ∨
        (fresh ∧ s'.userData = some u ∧ u < b.clientsPool.next)) : Rebinding n u key fresh a b where
  next := by rw [hc]
  bound c _ := by rw [Service.client, hc, Service.client]
  sent := ⟨[], by rw [hsent, List.append_nil], by simp⟩
  users := hs

theorem updateSession (a : Service) (key' : ClientSessionKey) {f : ClientSession → ClientSession}
    (hf : ∀ s, (f s).userData = s.userData) :
    Rebinding n u key fresh a (a.updateSession key' f) := by
  refine of_sessions rfl rfl fun s' hs' => .inl ?_
  rw [Service.updateSession, AList.lookup_modify] at hs'
  split at hs'
  · obtain ⟨s, hs, rfl⟩ := Option.map_eq_some_iff.1 hs'
    exact ⟨s, hs, hf s⟩
  · exact ⟨s', hs', rfl⟩

theorem eraseSession (a : Service) (key' : ClientSessionKey) :
    Rebinding n u key fresh a { a with sessions := a.sessions.erase key' } :=
  of_sessions rfl rfl fun s' hs' => .inl ⟨s', AList.lookup_of_lookup_erase hs', rfl⟩

theorem takeClient (a : Service) (v : ProxyClient) (hn : n ≤ a.clientsPool.next) :
    Rebinding n u key fresh a { a with clientsPool := a.clientsPool.take v } where
  next := Nat.le_succ _
  bound c hc := by
    have hne : c ≠ a.clientsPool.next := by omega
    rw [Service.client, BufferPool.content_take_of_ne _ _ hne, Service.client]
  sent := ⟨[], by simp, by simp⟩
  users _ hs := of_same_sessions rfl hs

theorem deleteClientSession (a : Service) (c : ℕ) :
    Rebinding n u key fresh a (a.deleteClientSession c) := by
  refine (of_work (.finalizeProxyClient a c)).trans' ?_
  exact ⟨le_rfl, fun _ _ => rfl, ⟨[], by simp [Service.deleteClientSession,
    Service.finalizeProxyClient], by simp⟩, fun _ hs => of_same_sessions rfl hs⟩

end Rebinding

namespace ServiceM

variable (env : ServiceEnv) {n u : ℕ} {key : ClientSessionKey} {fresh : Prop}

theorem within_rebinding_of_work {α : Type} {x : ServiceM α} (h : Within ClientWork x) :
    Within (Rebinding n u key fresh) x :=
  fun a => .of_work (h a)

theorem prepareClient_rebinding {c : ℕ} (hn : n ≤ c) (repr : ClientRepresentation) (cache : Bool)
    (src : BindEntry) :
    Within (Rebinding n u key fresh) (prepareClient env c repr cache src) := by
  intro a
  have h := prepareClient_preparing env c repr cache src a
  refine ⟨Nat.le_of_eq h.clientsNext.symm, fun d hd => ?_, ⟨[], ?_, by simp⟩, fun s' hs' => ?_⟩
  · rw [h.others d (by omega)]
  · rw [h.sent, List.append_nil]
  · exact Rebinding.of_same_sessions h.sessions hs'

theorem recordMapping_rebinding (c : ℕ) :
    Within (Rebinding n u key fresh) (recordMapping env c) := by
  have hstore : ∀ i, Within (Rebinding n u key fresh) (storeMapping env c i) := by
    intro i
    refine .bind (.modify fun _ => .of_eq rfl rfl rfl) fun _ => .bind (.onFailure (.ensure _) ?_) ?_
    · exact .modify fun _ => .of_eq rfl rfl rfl
    · refine fun _ => .bind (.modify fun _ => .of_eq rfl rfl rfl) fun _ => ?_
      exact .modify fun _ => .of_eq rfl rfl rfl
  refine .read fun a => ?_
  cases a.findClientLocatorMapping (a.client c).bindEntry.locator with
  | some i => exact hstore i
  | none =>
      refine .bind (.bind (.onFailure (.ensure _) ?_) fun _ => ?_) fun _ => hstore _
      · exact .modify fun _ => .of_eq rfl rfl rfl
      · exact .modify fun _ => .of_eq rfl rfl rfl

theorem cacheClientMapping_rebinding (c : ℕ) :
    Within (Rebinding n u key fresh) (cacheClientMapping env c) := by
  refine .bind (.modify fun b => .updateClient b c fun _ _ => rfl) fun _ => ?_
  exact .bind (.modify fun _ => .of_eq rfl rfl rfl) fun _ => recordMapping_rebinding env c

theorem scheduleHeartbeat_rebinding (key' : ClientSessionKey) (c : ℕ) :
    Within (Rebinding n u key fresh) (scheduleHeartbeat env key' c) := by
  refine .bind ?_ fun e => .bind (.modify fun a => .updateClient a c fun _ _ => rfl) fun _ => ?_
  · refine .read fun a => .bind (.require _) fun s => .ensureThen fun _ => .ensureThen fun _ => ?_
    exact .bind (.modify fun _ => .of_eq rfl rfl rfl) fun _ => .pure _
  · exact .ensureThen fun _ => .modify fun _ => .of_eq rfl rfl rfl

theorem onSessionOpened_rebinding (key' : ClientSessionKey) (c : ℕ) :
    Within (Rebinding n u key fresh) (onSessionOpened env key' c) := by
  have hclient : ∀ f : ProxyClient → ProxyClient, (∀ p, (f p).bindEntry = p.bindEntry) →
      Within (Rebinding n u key fresh) (modify fun a : Service => a.updateClient c f) :=
    fun f hf => .modify fun a => .updateClient a c fun _ => hf
  refine .bind (hclient _ fun _ => rfl) fun _ => .read fun a => .bind (.onlyIf fun _ => ?_) ?_
  · exact cacheClientMapping_rebinding env c
  · refine fun _ => .bind (hclient _ fun _ => rfl) fun _ => .bind ?_ fun _ => .onlyIf fun _ => ?_
    · exact within_rebinding_of_work (replyToConnection_work env c)
    · exact scheduleHeartbeat_rebinding env key' c

theorem onSessionReset_rebinding (key' : ClientSessionKey) (old : ℕ) :
    Within (Rebinding n u key fresh) (onSessionReset env key' old) := by
  have hclient : ∀ f : ProxyClient → ProxyClient, (∀ p, (f p).bindEntry = p.bindEntry) →
      Within (Rebinding n u key fresh) (modify fun a : Service => a.updateClient old f) :=
    fun f hf => .modify fun a => .updateClient a old fun _ => hf
  refine .bind (hclient _ fun _ => rfl) fun _ => .bind ?_ fun _ => .bind (hclient _ fun _ => rfl) ?_
  · exact within_rebinding_of_work (dismissClientFwdDataRequests_work env old none _)
  · refine fun _ => .bind ?_ fun _ => .bind (hclient _ fun _ => rfl) fun _ => .pure _
    exact within_rebinding_of_work (replyToConnection_work env old)

/-- The user data that the reset callback returns is the proxy client of the
session. -/
theorem onSessionReset_eq_some {key' : ClientSessionKey} {old v : ℕ} {a : Service}
    (h : (onSessionReset env key' old a).1 = some v) : v = old := by
  have hret := eq_of_fst_eq_some h
  obtain ⟨_, _, -, hret⟩ := bind_eq_some.1 hret
  obtain ⟨_, _, -, hret⟩ := bind_eq_some.1 hret
  obtain ⟨_, _, -, hret⟩ := bind_eq_some.1 hret
  obtain ⟨_, _, -, hret⟩ := bind_eq_some.1 hret
  obtain ⟨_, _, -, hret⟩ := bind_eq_some.1 hret
  exact (pure_eq_some.1 hret).1.symm

/-- A session that is reset keeps its user data. -/
theorem resetSession_rebinding {key' : ClientSessionKey} {s : ClientSession} {a : Service}
    (hs : a.sessions.lookup key' = some s) :
    Rebinding n u key fresh a (resetSession env key' s a).2 := by
  refine keeps_ensure (.rfl' a) fun _ => ?_
  rw [modify_bind_apply, read_bind_apply]
  set b := a.updateSession key' fun s => { s with resetting := true } with hb
  have hab : Rebinding n u key fresh a b := .updateSession a key' fun _ => rfl
  refine keeps_ensure hab fun _ => keeps_require hab fun old hold => ?_
  have hbreset : Rebinding n u key fresh a (onSessionReset env key' old b).2 :=
    hab.trans' (onSessionReset_rebinding env key' old b)
  refine keeps_bind (fun _ => hbreset) fun v hv => ?_
  rw [onSessionReset_eq_some env hv, modify_bind_apply]
  set d := (onSessionReset env key' old b).2 with hd
  -- the user data written back is the one the session has
  have hkeep : Rebinding 0 0 key' False b d := onSessionReset_rebinding env key' old b
  have huser : ∀ t, d.sessions.lookup key' = some t → t.userData = some old := by
    intro t ht
    rcases hkeep.users t ht with ⟨t', ht', heq⟩ | ⟨hf, -⟩
    · rw [hb, Service.updateSession, AList.lookup_modify_self, hs] at ht'
      rw [heq, ← Option.some.inj ht']
      exact hold
    · exact hf.elim
  have hdata : Rebinding n u key fresh d
      (d.updateSession key' fun s => { s with userData := some old }) := by
    refine .of_sessions rfl rfl fun t ht => .inl ?_
    rw [Service.updateSession, AList.lookup_modify] at ht
    split at ht
    · rename_i hkey
      obtain ⟨t', ht', rfl⟩ := Option.map_eq_some_iff.1 ht
      exact ⟨t', ht', (huser t' (hkey ▸ ht')).symm⟩
    · exact ⟨t, ht, rfl⟩
  have hall := hbreset.trans' hdata
  refine keeps_ensure hall fun _ => hall.trans' ?_
  exact .updateSession _ key' fun _ => rfl

theorem openNewSession_rebinding {key' : ClientSessionKey} {c : ℕ} {a : Service}
    (hc : c < a.clientsPool.next) (hu : key' = key → fresh ∧ c = u) :
    Rebinding n u key fresh a (openNewSession env key' c a).2 := by
  rw [openNewSession, modify_bind_apply]
  have hinsert : Rebinding n u key fresh a
      { a with
        sessions := a.sessions.insert key' (.initial a.intf a.clientSessionTimeout (some c)) } := by
    refine .of_sessions rfl rfl fun s' hs' => ?_
    by_cases hkey : key' = key
    · subst hkey
      rw [AList.lookup_insert] at hs'
      obtain ⟨hfresh, rfl⟩ := hu rfl
      rw [← Option.some.inj hs']
      exact .inr ⟨hfresh, rfl, hc⟩
    · rw [AList.lookup_insert_ne (Ne.symm hkey)] at hs'
      exact .inl ⟨s', hs', rfl⟩
  refine hinsert.trans' ?_
  refine Within.onFailure (R := Rebinding n u key fresh) ?_ ?_ _
  · refine .ensureThen fun _ => .ensureThen fun _ => onSessionOpened_rebinding env key' c
  · exact .onlyIf fun _ => .modify fun b => .eraseSession b key'

theorem openSession_rebinding {key' : ClientSessionKey} {c : ℕ} {a : Service}
    (hc : c < a.clientsPool.next)
    (hu : key' = key → a.sessions.lookup key = none → fresh ∧ c = u) :
    Rebinding n u key fresh a (openSession env key' c a).2 := by
  refine keeps_ensure (.rfl' a) fun _ => ?_
  have hopen : Rebinding n u key fresh a (resetOrOpenSession env key' c a).2 := by
    rw [resetOrOpenSession, read_bind_apply]
    cases hs : a.sessions.lookup key' with
    | some s => exact resetSession_rebinding env hs
    | none => exact openNewSession_rebinding env hc fun hkey => hu hkey (hkey ▸ hs)
  refine keeps_bind (fun _ => hopen) fun _ _ => hopen.trans' ?_
  have hrest : Within (Rebinding n u key fresh) (do
      onSessionActivity env key'
      ensure (env.ok .releaseSession)) :=
    .bind (.read fun _ => .bind (.require _) fun _ => .ensure _) fun _ => .ensure _
  exact hrest _

theorem processCreateClient_rebinding (k sid : ℕ) (m : Message) (src : BindEntry)
    (keyInHeader missing : Bool) {a : Service} (hn : n ≤ a.clientsPool.next)
    (hu : ∀ v, deserializeClientRepr env.wire k sid m = some v →
      v.1.sessionKey = key → a.sessions.lookup key = none → fresh ∧ a.clientsPool.next = u) :
    Rebinding n u key fresh a
      (processCreateClient env k sid m src keyInHeader missing a).2 := by
  refine keeps_require (.rfl' a) fun v hv => keeps_ensure (.rfl' a) fun _ =>
    keeps_ensure (.rfl' a) fun _ => keeps_ensure (.rfl' a) fun _ => ?_
  rw [read_bind_apply, modify_bind_apply]
  set b : Service := { a with clientsPool := a.clientsPool.take .initializer } with hb
  have hab : Rebinding n u key fresh a b := .takeClient a _ hn
  have hconnect : Rebinding n u key fresh b
      (connectClient env a.clientsPool.next v.1 (missing || v.2) src b).2 := by
    have hprepare : Rebinding n u key fresh b
        (prepareClient env a.clientsPool.next v.1 (missing || v.2) src b).2 :=
      prepareClient_rebinding env hn v.1 (missing || v.2) src b
    have hframe := prepareClient_preparing env a.clientsPool.next v.1 (missing || v.2) src b
    refine keeps_bind (fun _ => hprepare) fun _ _ => hprepare.trans' ?_
    refine openSession_rebinding env ?_ fun hkey hnone => ?_
    · rw [hframe.clientsNext]
      exact Nat.lt_succ_self _
    · rw [hframe.sessions] at hnone
      exact hu v hv hkey hnone
  refine hab.trans' (keeps_onFailure hconnect fun _ => hconnect.trans' ?_)
  exact .deleteClientSession _ _

theorem closeSession_rebinding (key' : ClientSessionKey) :
    Within (Rebinding n u key fresh) (closeSession env key') := by
  refine .ensureThen fun _ => .ensureThen fun _ => .read fun a => .bind (.require _) fun s => ?_
  refine .ensureThen fun _ => .ensureThen fun _ => .onlyIf fun _ => .bind ?_ fun _ => .ensure _
  exact .modify fun a => .updateSession a key' fun _ => rfl

theorem receiveOnSession_rebinding (key' : ClientSessionKey) :
    Within (Rebinding n u key fresh) (receiveOnSession env key') := by
  refine .ensureThen fun _ => .read fun a => ?_
  cases a.sessions.lookup key' with
  | none => exact .pure _
  | some s =>
      refine .ensureThen fun _ => .ensureThen fun _ => .bind ?_ fun _ => ?_
      · exact .read fun a => .bind (.require _) fun s => .ensure _
      · refine .bind (.require _) fun c => .bind ?_ fun _ => .onlyIf fun _ => ?_
        · exact within_rebinding_of_work (onMessageReceived_work env c)
        · exact .ensureThen fun _ => closeSession_rebinding env key'

theorem onSessionClosed_rebinding (c : ℕ) :
    Within (Rebinding n u key fresh) (onSessionClosed env c) := by
  refine .read fun a => .bind (.modify fun b => .updateClient b c fun _ _ => rfl) fun _ => ?_
  refine .bind (.onlyIf fun _ => ?_) fun _ => .modify fun b => .deleteClientSession b c
  refine within_rebinding_of_work (.bind
    (.modify fun b => .updateClient b c fun _ => rfl) fun _ => ?_)
  refine .bind (.onFailure (replyToOperation_work env c _ true) ?_) fun _ => ?_
  · exact .modify fun b => .updateClient b c fun _ => rfl
  · exact .modify fun b => .updateClient b c fun _ => rfl

theorem finishCloseSession_rebinding (key' : ClientSessionKey) :
    Within (Rebinding n u key fresh) (finishCloseSession env key') := by
  refine .read fun a => .bind (.require _) fun s => .ensureThen fun _ => .ensureThen fun _ => ?_
  refine .bind (.modify fun b => .updateSession b key' fun _ => rfl) fun _ => ?_
  refine .ensureThen fun _ => .ensureThen fun _ => .bind (.modify fun b => ?_) fun _ => ?_
  · exact .eraseSession b key'
  · exact .ensureThen fun _ => .bind (.require _) fun c => onSessionClosed_rebinding env c

theorem onSessionTimeout_rebinding (key' : ClientSessionKey) :
    Within (Rebinding n u key fresh) (onSessionTimeout env key') := by
  refine .ensureThen fun _ => .read fun a => .bind (.require _) fun s => .ensureThen fun _ => ?_
  refine .bind (.modify fun b => .updateSession b key' fun _ => rfl) fun _ => ?_
  refine .bind (.require _) fun c => .bind (.ignore (.read fun b => ?_)) fun _ => ?_
  · refine .bind (.onlyIf fun _ => .ensureThen fun _ => ?_) fun _ => ?_
    · exact .bind (.modify fun _ => .of_eq rfl rfl rfl) fun _ => .modify fun _ => .of_eq rfl rfl rfl
    · exact within_rebinding_of_work (disposeClientSession_work env c none)
  · refine .bind (.onlyIf fun _ => .bind (.modify fun b => ?_) fun _ => .ensure _)
      fun _ => .ensure _
    exact .updateSession b key' fun _ => rfl

theorem cleanupSession_rebinding (key' : ClientSessionKey) :
    Within (Rebinding n u key fresh) (cleanupSession env key') := by
  refine .read fun a => .bind (.require _) fun s => .ensureThen fun _ => .ensureThen fun _ => ?_
  refine .ite (fun _ => .ensureThen fun _ => .ensureThen fun _ => ?_) fun _ => .modify fun b => ?_
  · refine .bind (.modify fun b => .eraseSession b key') fun _ => ?_
    exact .bind (.require _) fun c => onSessionClosed_rebinding env c
  · exact .updateSession b key' fun _ => rfl

theorem onSessionEvent_rebinding (p : Posting) :
    Within (Rebinding n u key fresh) (onSessionEvent env p) := by
  refine .read fun a => .ensureThen fun _ => .bind (.require _) fun s => .ensureThen fun _ => ?_
  refine .ensureThen fun _ => .ensureThen fun _ => .bind (.read fun b => ?_) fun _ => ?_
  · refine .ite (fun _ => .pure _) fun _ => .bind (.modify fun d => ?_) fun _ => .pure _
    exact .of_work (.send d _ _)
  · exact .onlyIf fun _ => .ensureThen fun _ => .modify fun _ => .of_eq rfl rfl rfl

theorem receiveMessage_rebinding (src : BindEntry) (m : Message) {a : Service}
    (hn : n ≤ a.clientsPool.next)
    (hu : ∀ r, env.wire.noSession m.sessionId = true → m.clientRepr env.wire = some r →
      r.sessionKey = key → a.sessions.lookup key = none → fresh ∧ a.clientsPool.next = u) :
    Rebinding n u key fresh a (receiveMessage env src m a).2 := by
  refine keeps_ensure (.rfl' a) fun _ => ?_
  obtain ⟨mutex, hmutex⟩ := identifySender_eq env m src a
  have hsender : Rebinding n u key fresh a (identifySender env m src a).2 := by
    rw [hmutex]
    exact .of_eq rfl rfl rfl
  refine keeps_bind (fun _ => hsender) fun sender _ => hsender.trans' ?_
  rw [hmutex, receiveFrom]
  split
  · rename_i hsid
    refine processCreateClient_rebinding env _ _ _ _ _ _ hn fun v hv hkey hnone => ?_
    exact hu v.1 hsid (deserializeClientRepr_eq_some hv).1 hkey hnone
  · exact keeps_ensure (.rfl' _) fun _ => receiveOnSession_rebinding env _ _

end ServiceM

/-- A step that receives a `CREATE_CLIENT` for the session of `key`. -/
def Service.Creates (key : ClientSessionKey) (i : ServiceOperation × ServiceEnv) : Prop :=
  ∃ src m r, i.1 = .receiveMessage src m ∧ i.2.wire.noSession m.sessionId = true ∧
    m.clientRepr i.2.wire = some r ∧ r.sessionKey = key

/-- What a step does to the session of a key, which is new only when the step
receives a `CREATE_CLIENT` for it. -/
theorem Service.step_rebinding (a : Service) (i : ServiceOperation × ServiceEnv)
    (key : ClientSessionKey) :
    Rebinding a.clientsPool.next a.clientsPool.next key
      (a.sessions.lookup key = none ∧ Creates key i) a (a.step i) := by
  obtain ⟨o, env⟩ := i
  cases o with
  | receiveMessage src m =>
      refine ServiceM.receiveMessage_rebinding env src m le_rfl fun r hsid hr hkey hnone => ?_
      exact ⟨⟨hnone, src, m, r, rfl, hsid, hr, hkey⟩, rfl⟩
  | deliverSample key' id d => exact .of_work (ServiceOperation.deliverSample_work env key' id d a)
  | releaseReadSamples key' id =>
      exact .of_work (ServiceOperation.releaseReadSamples_work env key' id a)
  | acknowledge key' m => exact .of_work (ServiceOperation.acknowledge_work env key' m a)
  | sessionTimeout key' => exact ServiceM.onSessionTimeout_rebinding env key' a
  | cleanupSession key' => exact ServiceM.cleanupSession_rebinding env key' a
  | finishCloseSession key' => exact ServiceM.finishCloseSession_rebinding env key' a
  | dispatchEvent p => exact keeps_ensure (.rfl' a) fun _ => .of_eq rfl rfl rfl
  | sessionEvent p =>
      refine keeps_ensure (.rfl' a) fun _ => ?_
      refine Within.bind (.modify fun _ => .of_eq rfl rfl rfl) (fun _ => ?_) a
      exact ServiceM.onSessionEvent_rebinding env p

namespace Service

/-- The proxy clients of sessions were handed out. -/
def UsersKnown (a : Service) : Prop :=
  ∀ key c, a.clientOf key = some c → c < a.clientsPool.next

theorem clientOf_eq_some {a : Service} {key : ClientSessionKey} {c : ℕ} :
    a.clientOf key = some c ↔ ∃ s, a.sessions.lookup key = some s ∧ s.userData = some c := by
  simp [clientOf, Option.bind_eq_some_iff]

theorem Initial.usersKnown {a : Service} (h : a.Initial) : a.UsersKnown := by
  intro key c hc
  obtain ⟨s, hs, -⟩ := clientOf_eq_some.1 hc
  rw [h.sessions] at hs
  cases hs

theorem usersKnown_of_rebinding {a b : Service} {n u : ℕ} {fresh : ClientSessionKey → Prop}
    (ha : a.UsersKnown) (h : ∀ key, Rebinding n u key (fresh key) a b) : b.UsersKnown := by
  intro key c hc
  obtain ⟨s', hs', hu'⟩ := clientOf_eq_some.1 hc
  rcases (h key).users s' hs' with ⟨s, hs, heq⟩ | ⟨-, hu, hlt⟩
  · exact Nat.lt_of_lt_of_le (ha key c (clientOf_eq_some.2 ⟨s, hs, heq ▸ hu'⟩)) (h key).next
  · rw [hu] at hu'
    rw [← Option.some.inj hu']
    exact hlt

theorem usersKnown_of_reached {a : Service} (h : a.ReachedWhen fun _ _ => True) : a.UsersKnown :=
  Reachable.invariant (fun _ h => h.usersKnown)
    (fun a i ha _ => usersKnown_of_rebinding ha fun key => a.step_rebinding i key) h

/-- The session of `key` is served through `src`: its proxy client is bound to it,
and what that client sent from the `n`-th message on left through it. -/
def ServedThrough (key : ClientSessionKey) (src : BindEntry) (n : ℕ) (a : Service) : Prop :=
  ∃ c, a.clientOf key = some c ∧ (a.client c).bindEntry = src ∧
    ∀ m ∈ a.sent.drop n, m.client = c → m.via = src

/-- A step that accepts a `CREATE_CLIENT` for the session of `key`. -/
def AcceptsCreate (key : ClientSessionKey) (a : Service) (i : ServiceOperation × ServiceEnv) :
    Prop :=
  Creates key i ∧ (i.1.run i.2 a).1 = some ()

/-- A step after which the session of `key` is still there, and which does not accept
a new `CREATE_CLIENT` for it. -/
def Continues (key : ClientSessionKey) (a : Service) (i : ServiceOperation × ServiceEnv) : Prop :=
  ¬ AcceptsCreate key a i ∧ (a.step i).clientOf key ≠ none

/-- A session that is served through a peer stays so as long as it lasts. -/
theorem servedThrough_of_continues {key : ClientSessionKey} {src : BindEntry} {n : ℕ}
    {a : Service} (hknown : a.UsersKnown) (hn : n ≤ a.sent.length)
    (ha : ServedThrough key src n a) {b : Service}
    (h : Reachable (· = a) step (Continues key) b) : ServedThrough key src n b := by
  refine (Reachable.invariant (I := fun b => b.UsersKnown ∧ n ≤ b.sent.length ∧
    ServedThrough key src n b) ?_ ?_ h).2.2
  · rintro _ rfl
    exact ⟨hknown, hn, ha⟩
  · rintro d i ⟨hknown, hn, c, hc, hbound, hvia⟩ ⟨-, hstill⟩
    have hstep := d.step_rebinding i key
    have hlt : c < d.clientsPool.next := hknown key c hc
    obtain ⟨l, hl, hlvia⟩ := hstep.sent
    refine ⟨usersKnown_of_rebinding hknown fun key => d.step_rebinding i key, ?_, c, ?_, ?_, ?_⟩
    · rw [hl, List.length_append]
      omega
    · obtain ⟨c', hc'⟩ := Option.ne_none_iff_exists'.1 hstill
      obtain ⟨s', hs', hu'⟩ := clientOf_eq_some.1 hc'
      obtain ⟨s, hs, hu⟩ := clientOf_eq_some.1 hc
      rcases hstep.users s' hs' with ⟨t, ht, heq⟩ | ⟨⟨hnone, -⟩, -⟩
      · rw [hs] at ht
        cases ht
        exact clientOf_eq_some.2 ⟨s', hs', heq.trans hu⟩
      · rw [hs] at hnone
        cases hnone
    · rw [hstep.bound c hlt, hbound]
    · intro m hm hmc
      rw [hl, List.drop_append_of_le_length hn] at hm
      rcases List.mem_append.1 hm with hm | hm
      · exact hvia m hm hmc
      · rw [hlvia m hm (hmc ▸ hlt), hmc, hbound]

/-- The client sent a `STATUS_AGENT` message, from the `n`-th message on. -/
def Announced (c n : ℕ) (a : Service) : Prop :=
  ∃ via, ⟨c, .statusAgent, via⟩ ∈ a.sent.drop n

theorem Announced.mono {c n : ℕ} {a b : Service} (h : Announced c n a)
    (hsent : ∃ l, b.sent = a.sent ++ l) : Announced c n b := by
  obtain ⟨via, hvia⟩ := h
  obtain ⟨l, hl⟩ := hsent
  refine ⟨via, ?_⟩
  rw [hl, List.drop_append]
  exact List.mem_append_left _ hvia

end Service

namespace ServiceM

open Service

variable {env : ServiceEnv}

theorem sent_append {α : Type} {x : ServiceM α} {n : ℕ} {key : ClientSessionKey} {a b : Service}
    {v : α} (h : Within (Rebinding n 0 key False) x) (hx : x a = (some v, b)) :
    ∃ l, b.sent = a.sent ++ l := by
  have hsent := (h a).sent
  rw [hx] at hsent
  obtain ⟨l, hl, -⟩ := hsent
  exact ⟨l, hl⟩

theorem replyToConnection_announced {c n : ℕ} {a b : Service} (hn : n ≤ a.sent.length)
    (h : replyToConnection env c a = (some (), b)) : Announced c n b := by
  obtain ⟨_, _, hallocate, h⟩ := bind_eq_some.1 h
  obtain ⟨_, _, hsend, h⟩ := bind_eq_some.1 h
  obtain ⟨-, rfl⟩ := ensure_eq_some.1 hallocate
  obtain ⟨-, rfl⟩ := ensure_eq_some.1 hsend
  rw [← modify_eq_some.1 h]
  refine ⟨(a.client c).bindEntry, ?_⟩
  rw [Service.send, List.drop_append_of_le_length hn]
  simp

theorem onSessionOpened_announced {key : ClientSessionKey} {c : ℕ} {a b : Service}
    (h : onSessionOpened env key c a = (some (), b)) : Announced c a.sent.length b := by
  obtain ⟨_, a₁, hsession, h⟩ := bind_eq_some.1 h
  rw [read_bind_apply] at h
  obtain ⟨_, a₃, hcache, h⟩ := bind_eq_some.1 h
  obtain ⟨_, a₄, hconnected, h⟩ := bind_eq_some.1 h
  obtain ⟨_, a₅, hreply, h⟩ := bind_eq_some.1 h
  have hcaching : Within (Rebinding 0 0 key False)
      (onlyIf (a₁.client c).cacheMapping (cacheClientMapping env c)) :=
    .onlyIf fun _ => cacheClientMapping_rebinding env c
  obtain ⟨l, hl⟩ := sent_append hcaching hcache
  have hlen : a.sent.length ≤ a₄.sent.length := by
    have h₁ : a₁.sent = a.sent := by rw [← modify_eq_some.1 hsession]; rfl
    have h₄ : a₄.sent = a₃.sent := by rw [← modify_eq_some.1 hconnected]; rfl
    rw [h₄, hl, h₁, List.length_append]
    omega
  have hheartbeat : Within (Rebinding 0 0 key False)
      (onlyIf (a₁.heartbeatPeriod != 0) (scheduleHeartbeat env key c)) :=
    .onlyIf fun _ => scheduleHeartbeat_rebinding env key c
  exact (replyToConnection_announced hlen hreply).mono (sent_append hheartbeat h)

theorem onSessionReset_announced {key : ClientSessionKey} {old v : ℕ} {a b : Service}
    (h : onSessionReset env key old a = (some v, b)) : Announced old a.sent.length b := by
  obtain ⟨_, a₁, hsession, h⟩ := bind_eq_some.1 h
  obtain ⟨_, a₂, hdismiss, h⟩ := bind_eq_some.1 h
  obtain ⟨_, a₃, hreset, h⟩ := bind_eq_some.1 h
  obtain ⟨_, a₄, hreply, h⟩ := bind_eq_some.1 h
  obtain ⟨_, a₅, hconnected, h⟩ := bind_eq_some.1 h
  obtain ⟨-, rfl⟩ := pure_eq_some.1 h
  have hdismissing : Within (Rebinding 0 0 key False)
      (dismissClientFwdDataRequests env old none attachedResourceIdInvalid) :=
    within_rebinding_of_work (dismissClientFwdDataRequests_work env old none _)
  obtain ⟨l, hl⟩ := sent_append hdismissing hdismiss
  have hlen : a.sent.length ≤ a₃.sent.length := by
    have h₁ : a₁.sent = a.sent := by rw [← modify_eq_some.1 hsession]; rfl
    have h₃ : a₃.sent = a₂.sent := by rw [← modify_eq_some.1 hreset]; rfl
    rw [h₃, hl, h₁, List.length_append]
    omega
  refine (replyToConnection_announced hlen hreply).mono ⟨[], ?_⟩
  rw [← modify_eq_some.1 hconnected, List.append_nil]
  rfl

/-- A session that `openSession` reports as open is in the table, and the client that
serves it announced itself. -/
theorem openSession_announced {key : ClientSessionKey} {c : ℕ} {a b : Service}
    (h : openSession env key c a = (some (), b)) :
    (∃ s, b.sessions.lookup key = some s) ∧
      ∃ d, Announced d a.sent.length b ∧ (a.sessions.lookup key = none → d = c) ∧
        ∀ s, a.sessions.lookup key = some s → s.userData = some d := by
  obtain ⟨_, a₁, hinsert, h⟩ := bind_eq_some.1 h
  obtain ⟨-, rfl⟩ := ensure_eq_some.1 hinsert
  obtain ⟨_, a₂, hopen, h⟩ := bind_eq_some.1 h
  obtain ⟨_, a₃, hactivity, h⟩ := bind_eq_some.1 h
  obtain ⟨-, rfl⟩ := ensure_eq_some.1 h
  rw [onSessionActivity, read_bind_apply] at hactivity
  obtain ⟨s', _, hrequire, hactivity⟩ := bind_eq_some.1 hactivity
  obtain ⟨hs', rfl⟩ := require_eq_some.1 hrequire
  obtain ⟨-, rfl⟩ := ensure_eq_some.1 hactivity
  refine ⟨⟨s', hs'⟩, ?_⟩
  rw [resetOrOpenSession, read_bind_apply] at hopen
  cases hs : a.sessions.lookup key with
  | none =>
      rw [hs] at hopen
      obtain ⟨_, a₄, hnew, hopen⟩ := bind_eq_some.1 hopen
      rw [onFailure_eq_some] at hopen
      obtain ⟨_, _, hsem, hopen⟩ := bind_eq_some.1 hopen
      obtain ⟨-, rfl⟩ := ensure_eq_some.1 hsem
      obtain ⟨_, _, hattach, hopen⟩ := bind_eq_some.1 hopen
      obtain ⟨-, rfl⟩ := ensure_eq_some.1 hattach
      have hsent : a₄.sent = a.sent := by rw [← modify_eq_some.1 hnew]
      refine ⟨c, ?_, fun _ => rfl, fun s h => by cases h⟩
      rw [← hsent]
      exact onSessionOpened_announced hopen
  | some s =>
      rw [hs] at hopen
      obtain ⟨_, _, hactive, hopen⟩ := bind_eq_some.1 hopen
      obtain ⟨-, rfl⟩ := ensure_eq_some.1 hactive
      rw [modify_bind_apply, read_bind_apply] at hopen
      obtain ⟨_, a₄, hintf, hopen⟩ := bind_eq_some.1 hopen
      obtain ⟨-, rfl⟩ := ensure_eq_some.1 hintf
      obtain ⟨old, a₅, hrequire, hopen⟩ := bind_eq_some.1 hopen
      obtain ⟨hold, rfl⟩ := require_eq_some.1 hrequire
      obtain ⟨v, a₆, hreset, hopen⟩ := bind_eq_some.1 hopen
      obtain ⟨_, a₇, hdata, hopen⟩ := bind_eq_some.1 hopen
      obtain ⟨_, a₈, hcancel, hopen⟩ := bind_eq_some.1 hopen
      obtain ⟨-, rfl⟩ := ensure_eq_some.1 hcancel
      refine ⟨old, (onSessionReset_announced hreset).mono ⟨[], ?_⟩, (fun h => by cases h), ?_⟩
      · rw [← modify_eq_some.1 hopen, ← modify_eq_some.1 hdata, List.append_nil]
        rfl
      · intro t ht
        rw [← Option.some.inj ht]
        exact hold

/-- What an accepted `CREATE_CLIENT` did: the client was set up and the session
opened with it. -/
theorem processCreateClient_eq_some {k sid : ℕ} {m : Message} {src : BindEntry}
    {keyInHeader missing : Bool} {a b : Service} {v : ClientRepresentation × Bool}
    (hv : deserializeClientRepr env.wire k sid m = some v)
    (h : processCreateClient env k sid m src keyInHeader missing a = (some (), b)) :
    ∃ d, prepareClient env a.clientsPool.next v.1 (missing || v.2) src
        { a with clientsPool := a.clientsPool.take .initializer } = (some (), d) ∧
      openSession env v.1.sessionKey a.clientsPool.next d = (some (), b) := by
  obtain ⟨w, _, hrepr, h⟩ := bind_eq_some.1 h
  obtain ⟨hw, rfl⟩ := require_eq_some.1 hrepr
  obtain rfl : v = w := Option.some.inj (hv.symm.trans hw)
  obtain ⟨_, _, hvalid, h⟩ := bind_eq_some.1 h
  obtain ⟨-, rfl⟩ := ensure_eq_some.1 hvalid
  obtain ⟨_, _, hkeys, h⟩ := bind_eq_some.1 h
  obtain ⟨-, rfl⟩ := ensure_eq_some.1 hkeys
  obtain ⟨_, _, hget, h⟩ := bind_eq_some.1 h
  obtain ⟨-, rfl⟩ := ensure_eq_some.1 hget
  rw [read_bind_apply, modify_bind_apply, onFailure_eq_some] at h
  obtain ⟨_, d, hprepare, h⟩ := bind_eq_some.1 h
  exact ⟨d, hprepare, h⟩

end ServiceM

namespace Service

/-- After an accepted `CREATE_CLIENT` the session of its key is in the table, and it is
served through the peer when it is new or was bound to that peer before. -/
theorem servedThrough_of_accepted {env : ServiceEnv} {k sid : ℕ} {m : Message} {src : BindEntry}
    {keyInHeader missing : Bool} {a b : Service} {v : ClientRepresentation × Bool}
    (ha : a.UsersKnown) (hv : deserializeClientRepr env.wire k sid m = some v)
    (h : ServiceM.processCreateClient env k sid m src keyInHeader missing a = (some (), b))
    (hsrc : a.sessions.lookup v.1.sessionKey = none ∨
      ∃ c, a.clientOf v.1.sessionKey = some c ∧ (a.client c).bindEntry = src) :
    (∃ c, b.clientOf v.1.sessionKey = some c ∧ Announced c a.sent.length b) ∧
      ServedThrough v.1.sessionKey src a.sent.length b := by
  obtain ⟨d, hprepare, hopen⟩ := ServiceM.processCreateClient_eq_some hv h
  have hframe := ServiceM.prepareClient_preparing env a.clientsPool.next v.1 (missing || v.2) src
    { a with clientsPool := a.clientsPool.take .initializer }
  rw [hprepare] at hframe
  obtain ⟨⟨s', hs'⟩, e, hannounced, hnew, hold⟩ := ServiceM.openSession_announced hopen
  have hsessions : d.sessions = a.sessions := hframe.sessions
  have hsent : d.sent = a.sent := hframe.sent
  have hnext : d.clientsPool.next = a.clientsPool.next + 1 := hframe.clientsNext
  rw [hsessions] at hnew hold
  rw [hsent] at hannounced
  have hkeep : Rebinding (a.clientsPool.next + 1) a.clientsPool.next v.1.sessionKey
      (a.sessions.lookup v.1.sessionKey = none) d b := by
    have hstep := ServiceM.openSession_rebinding (n := a.clientsPool.next + 1)
      (u := a.clientsPool.next) env (c := a.clientsPool.next) (a := d) (by omega)
      (fun hkey : v.1.sessionKey = v.1.sessionKey => fun hnone => ⟨hsessions ▸ hnone, rfl⟩)
    rw [hopen] at hstep
    exact hstep
  -- the proxy client of the session is the one that announced itself, bound to the peer
  have hclient : b.clientOf v.1.sessionKey = some e ∧ e < a.clientsPool.next + 1 ∧
      (d.client e).bindEntry = src := by
    rcases hkeep.users s' hs' with ⟨s, hs, heq⟩ | ⟨hnone, hu, -⟩
    · rw [hsessions] at hs
      have hue := hold s hs
      have hlt : e < a.clientsPool.next := ha _ _ (clientOf_eq_some.2 ⟨s, hs, hue⟩)
      refine ⟨clientOf_eq_some.2 ⟨s', hs', heq.trans hue⟩, by omega, ?_⟩
      rcases hsrc with hnone | ⟨c, hc, hbound⟩
      · rw [hs] at hnone
        cases hnone
      · obtain ⟨t, ht, htu⟩ := clientOf_eq_some.1 hc
        rw [hs] at ht
        cases ht
        obtain rfl : e = c := Option.some.inj (hue.symm.trans htu)
        rw [hframe.others e (by omega), Service.client,
          BufferPool.content_take_of_ne _ _ (by omega)]
        exact hbound
    · obtain rfl := hnew hnone
      refine ⟨clientOf_eq_some.2 ⟨s', hs', hu⟩, Nat.lt_succ_self _, ?_⟩
      exact (ServiceM.prepareClient_eq_some env _ hprepare).1
  obtain ⟨hclient, hlt, hbound⟩ := hclient
  refine ⟨⟨e, hclient, hannounced⟩, e, hclient, (hkeep.bound e hlt).trans hbound, ?_⟩
  obtain ⟨l, hl, hvia⟩ := hkeep.sent
  intro msg hmsg hmc
  rw [hl, hsent, List.drop_left] at hmsg
  rw [hvia msg hmsg (hmc ▸ hlt), hmc, hbound]

/-- **Reconnection.** Whatever happened before, an accepted `CREATE_CLIENT` that arrived
from `src` leaves its session served through `src`, with the `STATUS_AGENT` reply sent
there, until it ends or the next one is accepted, exactly when there was no session
of that key or its proxy client was bound to `src` already. -/
theorem reconnection_bound_iff {a : Service} (ha : a.ReachedWhen fun _ _ => True)
    (env : ServiceEnv) (k sid : ℕ) (m : Message) (src : BindEntry) (keyInHeader missing : Bool)
    (v : ClientRepresentation × Bool) (hv : deserializeClientRepr env.wire k sid m = some v)
    (b : Service)
    (h : ServiceM.processCreateClient env k sid m src keyInHeader missing a = (some (), b)) :
    ((∃ c, b.clientOf v.1.sessionKey = some c ∧
        ⟨c, .statusAgent, src⟩ ∈ b.sent.drop a.sent.length) ∧
      ∀ d, Reachable (· = b) step (Continues v.1.sessionKey) d →
        ServedThrough v.1.sessionKey src a.sent.length d) ↔
      (a.sessions.lookup v.1.sessionKey = none ∨
        ∃ c, a.clientOf v.1.sessionKey = some c ∧ (a.client c).bindEntry = src) := by
  have hknown := usersKnown_of_reached ha
  have hkeep : ∀ key, Rebinding a.clientsPool.next a.clientsPool.next key
      (a.sessions.lookup key = none) a b := by
    intro key
    have hstep := ServiceM.processCreateClient_rebinding (n := a.clientsPool.next)
      (u := a.clientsPool.next) env k sid m src keyInHeader missing (a := a) le_rfl
      (fun _ _ _ (hnone : a.sessions.lookup key = none) => ⟨hnone, rfl⟩)
    rw [h] at hstep
    exact hstep
  constructor
  · rintro ⟨-, hserved⟩
    obtain ⟨c, hc, hbound, -⟩ := hserved b (.start rfl)
    obtain ⟨s', hs', hu'⟩ := clientOf_eq_some.1 hc
    rcases (hkeep v.1.sessionKey).users s' hs' with ⟨s, hs, heq⟩ | ⟨hnone, -⟩
    · have hca : a.clientOf v.1.sessionKey = some c :=
        clientOf_eq_some.2 ⟨s, hs, heq.symm.trans hu'⟩
      refine .inr ⟨c, hca, ?_⟩
      rw [← (hkeep v.1.sessionKey).bound c (hknown _ _ hca), hbound]
    · exact .inl hnone
  · intro hsrc
    obtain ⟨⟨c, hc, via, hvia⟩, hserved⟩ := servedThrough_of_accepted hknown hv h hsrc
    refine ⟨⟨c, hc, ?_⟩, fun d hd => ?_⟩
    · obtain ⟨e, he, -, hall⟩ := hserved
      obtain rfl : c = e := Option.some.inj (hc.symm.trans he)
      rw [← hall _ hvia rfl]
      exact hvia
    · obtain ⟨l, hl, -⟩ := (hkeep v.1.sessionKey).sent
      refine servedThrough_of_continues (usersKnown_of_rebinding hknown hkeep) ?_ hserved hd
      rw [hl, List.length_append]
      omega

/-- The agent after a client connected from its first peer. -/
def connectedOnce : Service :=
  (started true 0 0).after [(.receiveMessage .first (.createClient 5 1), .obliging)]

/-- A client that connects again from its first peer is served through it. -/
theorem reconnection_bound_started :
    (∃ c, (ServiceM.processCreateClient .obliging 5 128 (.createClient 5 1) .first false false
        connectedOnce).2.clientOf ⟨5, 1⟩ = some c ∧
      ⟨c, .statusAgent, .first⟩ ∈ (ServiceM.processCreateClient .obliging 5 128
        (.createClient 5 1) .first false false connectedOnce).2.sent.drop 1) ∧
    ∀ d, Reachable (· = (ServiceM.processCreateClient .obliging 5 128 (.createClient 5 1) .first
        false false connectedOnce).2) step (Continues ⟨5, 1⟩) d →
      ServedThrough ⟨5, 1⟩ .first 1 d :=
  (reconnection_bound_iff (reached_after (started_initial true 0 0) _) .obliging 5 128
    (.createClient 5 1) .first false false (⟨88, 1, 5, 1⟩, false) (by decide) _
    (eq_of_fst_eq_some (by decide))).2 (.inr ⟨0, by decide, by decide⟩)

/-- A client that connects again from another peer is still served through the first
one. -/
theorem reconnection_keeps_old_peer :
    ¬ ∀ (a : Service), a.ReachedWhen (fun _ _ => True) → ∀ env k sid m src inHeader missing v,
      deserializeClientRepr env.wire k sid m = some v →
        ∀ b, ServiceM.processCreateClient env k sid m src inHeader missing a = (some (), b) →
          ServedThrough v.1.sessionKey src a.sent.length b := by
  intro hall
  obtain ⟨c, hc, hbound, -⟩ := hall connectedOnce (reached_after (started_initial true 0 0) _)
    .obliging 0 128 (.createClient 5 1) .second false true (⟨88, 1, 5, 1⟩, false) (by decide) _
    (eq_of_fst_eq_some (by decide))
  obtain rfl : 0 = c := Option.some.inj (Eq.trans (by decide) hc)
  exact absurd hbound (by decide)

end Service

end NanoAgent
