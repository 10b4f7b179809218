import NanoAgent.Service.SessionTable
import NanoAgent.Service.Binding

/-!
# Who owns a proxy client

A proxy client is owned by the handler that took it from the pool, or that closes its
session, or else by one session, whose user data it is. When it is finalized it is returned
to the pool. Its stream storage records are its own until then.

`Accounts owner a` says that this holds of every client taken so far, when a running
handler has the client `owner`. `Tended W a b` says what work on the clients of `W` leaves
alone of it.
-/

namespace NanoAgent

open Prog

namespace Service

/-- A client is held by a running handler, which is `none` here, or by a session. -/
def Holds (a : Service) (owner : Option ℕ) (h : Option ClientSessionKey) (c : ℕ) : Prop :=
  match h with
  | none => owner = some c
  | some key => a.clientOf key = some c

/-- A stream storage record is held by a client in use. -/
def HoldsStream (a : Service) (c r : ℕ) : Prop :=
  a.clientsPool.Live c ∧ r ∈ (a.client c).streamStorage

/-- A session storage record is held by a client in use. -/
def HoldsSession (a : Service) (c r : ℕ) : Prop :=
  a.clientsPool.Live c ∧ (a.client c).storage = some r

end Service

namespace StorageKept

variable {a : Service}

/-- The stream storage records are held by one client each, or were returned once. -/
theorem accounted (h : StorageKept a) : a.poolStorageStream.Accounted a.HoldsStream := by
  intro r hr
  by_cases hmem : r ∈ a.poolStorageStream.returned
  · refine .inr ⟨fun c hc => ?_, List.count_eq_one_of_mem h.returned hmem⟩
    exact (h.listed c hc.1 r hc.2).2 hmem
  · obtain ⟨c, hc, hrc⟩ := h.held r ⟨hr, hmem⟩
    refine .inl ⟨⟨c, ⟨hc, hrc⟩, fun d hd => ?_⟩, hmem⟩
    exact h.disjoint d c hd.1 hc r hd.2 hrc

/-- A client is taken, without records. -/
theorem takeClient (h : StorageKept a) {v : ProxyClient} (hv : v.streamStorage = []) :
    StorageKept { a with clientsPool := a.clientsPool.take v } := by
  -- a client that has a record was there before
  have hold : ∀ c, (a.clientsPool.take v).Live c → c ≠ a.clientsPool.next →
      a.clientsPool.Live c := by
    intro c hc hne
    have hlt : c < a.clientsPool.next + 1 := hc.1
    exact ⟨by omega, hc.2⟩
  have hlist : ∀ c r, (a.clientsPool.take v).Live c →
      r ∈ ((a.clientsPool.take v).content c).streamStorage →
      a.clientsPool.Live c ∧ r ∈ (a.client c).streamStorage := by
    intro c r hc hr
    by_cases hne : c = a.clientsPool.next
    · subst hne
      rw [BufferPool.content_take_self, hv] at hr
      cases hr
    · rw [BufferPool.content_take_of_ne _ _ hne] at hr
      exact ⟨hold c hc hne, hr⟩
  refine ⟨h.returned, h.sound, fun c hc r hr => ?_, fun c hc => ?_, ?_, fun r hr => ?_⟩
  · obtain ⟨hc, hr⟩ := hlist c r hc hr
    exact h.listed c hc r hr
  · by_cases hne : c = a.clientsPool.next
    · subst hne
      change ((a.clientsPool.take v).content _).streamStorage.Nodup
      rw [BufferPool.content_take_self, hv]
      exact List.nodup_nil
    · change ((a.clientsPool.take v).content _).streamStorage.Nodup
      rw [BufferPool.content_take_of_ne _ _ hne]
      exact h.distinct c (hold c hc hne)
  · intro c d hc hd r hr hr'
    obtain ⟨hc, hr⟩ := hlist c r hc hr
    obtain ⟨hd, hr'⟩ := hlist d r hd hr'
    exact h.disjoint c d hc hd r hr hr'
  · obtain ⟨c, hc, hrc⟩ := h.held r hr
    refine ⟨c, hc.take v, ?_⟩
    change r ∈ ((a.clientsPool.take v).content c).streamStorage
    rw [BufferPool.content_take_of_ne _ _ (Nat.ne_of_lt hc.1)]
    exact hrc

/-- A client without records is given back. -/
theorem giveBackClient (h : StorageKept a) {c : ℕ} (hnil : (a.client c).streamStorage = []) :
    StorageKept { a with clientsPool := a.clientsPool.giveBack c } := by
  have hold : ∀ d, (a.clientsPool.giveBack c).Live d → a.clientsPool.Live d :=
    fun d hd => ((BufferPool.live_giveBack_iff _ _ _).1 hd).1
  refine ⟨h.returned, h.sound, fun d hd => h.listed d (hold d hd),
    fun d hd => h.distinct d (hold d hd), fun d e hd he => h.disjoint d e (hold d hd) (hold e he),
    fun r hr => ?_⟩
  obtain ⟨d, hd, hrd⟩ := h.held r hr
  refine ⟨d, hd.giveBack ?_, hrd⟩
  rintro rfl
  rw [hnil] at hrd
  cases hrd

/-- The finalization of a client returns its records. -/
theorem finalize (h : StorageKept a) {c : ℕ} (hc : a.clientsPool.Live c) :
    StorageKept (a.finalizeProxyClient c) ∧
      ((a.finalizeProxyClient c).client c).streamStorage = [] := by
  -- the induction is on the records left, which are those that the client still lists
  have hrelease : ∀ (l : List ℕ) (b : Service), StorageKept b → b.clientsPool.Live c →
      (b.client c).streamStorage = l →
      StorageKept (l.foldl (fun b r => b.releaseStreamStorage c r) b) ∧
        ((l.foldl (fun b r => b.releaseStreamStorage c r) b).client c).streamStorage = [] := by
    intro l
    induction l with
    | nil => exact fun b hb _ hlist => ⟨hb, hlist⟩
    | cons r l ih =>
        intro b hb hcb hlist
        refine ih _ (hb.release hcb (by rw [hlist]; exact List.mem_cons_self)) hcb ?_
        have hclient := Service.client_updateClient_self b c
          fun p => { p with streamStorage := p.streamStorage.erase r }
        have herase := congrArg ProxyClient.streamStorage hclient
        refine Eq.trans herase ?_
        rw [hlist, List.erase_cons_head]
  exact hrelease _ a h hc rfl

end StorageKept

/-- From `a` to `b` work was done on some clients: no client is taken or returned, the
sessions keep their user data, and the storage records are accounted for when the clients
are live. -/
structure Tended (W : ℕ → Prop) (a b : Service) : Prop where
  clientsNext : b.clientsPool.next = a.clientsPool.next
  clientsReturned : b.clientsPool.returned = a.clientsPool.returned
  users : ∀ key, b.clientOf key = a.clientOf key
  storageSession : b.poolStorageSession = a.poolStorageSession
  storage : ∀ d, (b.client d).storage = (a.client d).storage
  streams : (∀ c, W c → a.clientsPool.Live c) → StorageKept a → StorageKept b

namespace Tended

variable {W : ℕ → Prop} {a b d : Service}

theorem live_iff (h : Tended W a b) (e : ℕ) : b.clientsPool.Live e ↔ a.clientsPool.Live e := by
  rw [BufferPool.Live, BufferPool.Live, h.clientsNext, h.clientsReturned]

theorem of_workOn {may : Prop} {c : ℕ} (h : WorkOn may c a b) (hc : W c) :
    Tended W a b where
  clientsNext := h.clientsNext
  clientsReturned := h.clientsReturned
  users key := by rw [Service.clientOf, h.sessions, Service.clientOf]
  storageSession := h.storageSession
  storage d := congrArg ProxyClient.Connection.storage (h.connection d)
  streams hlive := h.storage (hlive c hc)

theorem rfl' (a : Service) : Tended W a a :=
  ⟨rfl, rfl, fun _ => rfl, rfl, fun _ => rfl, fun _ h => h⟩

theorem trans' (h : Tended W a b) (h' : Tended W b d) : Tended W a d where
  clientsNext := h'.clientsNext.trans h.clientsNext
  clientsReturned := h'.clientsReturned.trans h.clientsReturned
  users key := (h'.users key).trans (h.users key)
  storageSession := h'.storageSession.trans h.storageSession
  storage e := (h'.storage e).trans (h.storage e)
  streams hlive hkept :=
    h'.streams (fun c hc => (h.live_iff c).2 (hlive c hc)) (h.streams hlive hkept)

instance : IsPreorder Service (Tended W) where
  refl := rfl'
  trans _ _ _ := trans'

/-- A change of a proxy client that leaves its storage alone. -/
theorem updateClient (a : Service) (e : ℕ) {f : ProxyClient → ProxyClient}
    (hstorage : (f (a.client e)).storage = (a.client e).storage)
    (hstreams : (f (a.client e)).streamStorage = (a.client e).streamStorage) :
    Tended W a (a.updateClient e f) where
  clientsNext := rfl
  clientsReturned := rfl
  users _ := rfl
  storageSession := rfl
  storage d := by
    rw [Service.client_updateClient]
    by_cases hd : d = e
    · rw [if_pos hd, hd, hstorage]
    · rw [if_neg hd]
  streams _ hkept := by
    refine hkept.of_same rfl (fun _ => Iff.rfl) fun d _ => ?_
    rw [Service.client_updateClient]
    by_cases hd : d = e
    · rw [if_pos hd, hd, hstreams]
    · rw [if_neg hd]

/-- A change that leaves the clients, the storage pools and the user data of the sessions
alone. -/
theorem of_eq (hclients : b.clientsPool = a.clientsPool)
    (hsession : b.poolStorageSession = a.poolStorageSession)
    (hstream : b.poolStorageStream = a.poolStorageStream)
    (husers : ∀ key, b.clientOf key = a.clientOf key) : Tended W a b where
  clientsNext := by rw [hclients]
  clientsReturned := by rw [hclients]
  users := husers
  storageSession := hsession
  storage d := by rw [Service.client, hclients, Service.client]
  streams _ hkept := by
    refine hkept.of_same hstream (fun d => by rw [hclients]) fun d _ => ?_
    rw [Service.client, hclients, Service.client]

theorem updateSession (a : Service) (key : ClientSessionKey) {f : ClientSession → ClientSession}
    (hf : ∀ s, a.sessions.lookup key = some s → (f s).userData = s.userData) :
    Tended W a (a.updateSession key f) := by
  refine of_eq rfl rfl rfl fun k => ?_
  rw [Service.clientOf, Service.updateSession, AList.lookup_modify, Service.clientOf]
  by_cases hk : k = key
  · subst hk
    rw [if_pos rfl]
    cases hs : a.sessions.lookup k with
    | none => rfl
    | some s => exact hf s hs
  · rw [if_neg hk]

end Tended

namespace ServiceM

variable (env : ServiceEnv) {W : ℕ → Prop} {c : ℕ}

theorem tended_of_serving {α : Type} {x : ServiceM α} (h : Within (Serving True c) x)
    (hc : W c) : Within (Tended W) x :=
  fun a => .of_workOn (h a).toWorkOn hc

theorem tended_updateClient (e : ℕ) {f : ProxyClient → ProxyClient}
    (hstorage : ∀ p, (f p).storage = p.storage)
    (hstreams : ∀ p, (f p).streamStorage = p.streamStorage) :
    Within (Tended W) (modify fun a : Service => a.updateClient e f) :=
  .modify fun a => .updateClient a e (hstorage _) (hstreams _)

theorem tended_modify {f : Service → Service}
    (hf : ∀ a, (f a).clientsPool = a.clientsPool ∧ (f a).poolStorageSession = a.poolStorageSession ∧
      (f a).poolStorageStream = a.poolStorageStream ∧ (f a).sessions = a.sessions) :
    Within (Tended W) (modify f) := by
  refine .modify fun a => ?_
  obtain ⟨hclients, hsession, hstream, hs⟩ := hf a
  refine .of_eq hclients hsession hstream fun key => ?_
  rw [Service.clientOf, hs, Service.clientOf]

theorem recordMapping_tended (e : ℕ) : Within (Tended W) (recordMapping env e) := by
  have hstore : ∀ i, Within (Tended W) (storeMapping env e i) := by
    intro i
    refine .bind (tended_modify fun _ => ⟨rfl, rfl, rfl, rfl⟩) fun _ => .bind ?_ fun _ => ?_
    · exact .onFailure (.ensure _) (tended_modify fun _ => ⟨rfl, rfl, rfl, rfl⟩)
    · refine .bind (tended_modify fun _ => ⟨rfl, rfl, rfl, rfl⟩) fun _ => ?_
      exact tended_modify fun _ => ⟨rfl, rfl, rfl, rfl⟩
  refine .read fun a => ?_
  cases a.findClientLocatorMapping (a.client e).bindEntry.locator with
  | some i => exact hstore i
  | none =>
      refine .bind (.bind (.onFailure (.ensure _) ?_) fun _ => ?_) fun _ => hstore _
      · exact tended_modify fun _ => ⟨rfl, rfl, rfl, rfl⟩
      · exact tended_modify fun _ => ⟨rfl, rfl, rfl, rfl⟩

theorem scheduleHeartbeat_tended (key : ClientSessionKey) (e : ℕ) :
    Within (Tended W) (scheduleHeartbeat env key e) := by
  refine .bind ?_ fun _ => .bind (tended_updateClient e (fun _ => rfl) fun _ => rfl) fun _ => ?_
  · refine .read fun a => .bind (.require _) fun s => .ensureThen fun _ => .ensureThen fun _ => ?_
    exact .bind (tended_modify fun _ => ⟨rfl, rfl, rfl, rfl⟩) fun _ => .pure _
  · exact .ensureThen fun _ => tended_modify fun _ => ⟨rfl, rfl, rfl, rfl⟩

theorem onSessionOpened_tended (hc : W c) (key : ClientSessionKey) :
    Within (Tended W) (onSessionOpened env key c) := by
  have hclient : ∀ f : ProxyClient → ProxyClient, (∀ p, (f p).storage = p.storage) →
      (∀ p, (f p).streamStorage = p.streamStorage) →
      Within (Tended W) (modify fun a : Service => a.updateClient c f) :=
    fun f => tended_updateClient c
  refine .bind (hclient _ (fun _ => rfl) fun _ => rfl) fun _ => .read fun a => ?_
  refine .bind (.onlyIf fun _ => .bind (hclient _ (fun _ => rfl) fun _ => rfl) fun _ => ?_) ?_
  · exact .bind (tended_modify fun _ => ⟨rfl, rfl, rfl, rfl⟩) fun _ => recordMapping_tended env c
  · refine fun _ => .bind (hclient _ (fun _ => rfl) fun _ => rfl) fun _ => .bind ?_ fun _ => ?_
    · exact tended_of_serving (replyToConnection_serving env c) hc
    · exact .onlyIf fun _ => scheduleHeartbeat_tended env key c

theorem onSessionReset_tended (hc : W c) (key : ClientSessionKey) :
    Within (Tended W) (onSessionReset env key c) := by
  refine .bind (tended_updateClient c (fun _ => rfl) fun _ => rfl) fun _ => .bind ?_ fun _ => ?_
  · exact tended_of_serving (dismissClientFwdDataRequests_serving env c none _) hc
  · refine .bind (tended_updateClient c (fun _ => rfl) fun _ => rfl) fun _ => .bind ?_ fun _ => ?_
    · exact tended_of_serving (replyToConnection_serving env c) hc
    · exact .bind (tended_updateClient c (fun _ => rfl) fun _ => rfl) fun _ => .pure _

theorem disposeSession_tended (key : ClientSessionKey) (s : ClientSession) :
    Within (Tended W) (disposeSession env key s) := by
  refine .onlyIf fun _ => .bind (.modify fun a => ?_) fun _ => .ensure _
  exact .updateSession a key fun _ _ => rfl

theorem closeSession_tended (key : ClientSessionKey) :
    Within (Tended W) (closeSession env key) := by
  refine .ensureThen fun _ => .ensureThen fun _ => .read fun a => .bind (.require _) fun s => ?_
  exact .ensureThen fun _ => .ensureThen fun _ => disposeSession_tended env key s

theorem onSessionTimedOut_tended (hc : W c) : Within (Tended W) (onSessionTimedOut env c) := by
  refine .read fun a => .bind (.onlyIf fun _ => .ensureThen fun _ => ?_) fun _ => ?_
  · refine .bind (tended_modify fun _ => ⟨rfl, rfl, rfl, rfl⟩) fun _ => ?_
    exact tended_modify fun _ => ⟨rfl, rfl, rfl, rfl⟩
  · exact tended_of_serving (disposeClientSession_serving env c trivial none) hc

theorem onSessionEvent_tended (p : Posting) : Within (Tended W) (onSessionEvent env p) := by
  refine .read fun a => .ensureThen fun _ => .bind (.require _) fun s => .ensureThen fun _ => ?_
  refine .ensureThen fun _ => .ensureThen fun _ => .bind (.read fun b => ?_) fun _ => ?_
  · refine .ite (fun _ => .pure _) fun _ => .bind ?_ fun _ => .pure _
    exact tended_modify fun _ => ⟨rfl, rfl, rfl, rfl⟩
  · refine .onlyIf fun _ => .ensureThen fun _ => ?_
    exact tended_modify fun _ => ⟨rfl, rfl, rfl, rfl⟩

/-- A session that is reset keeps its user data, on which the work is done. -/
theorem resetSession_tended {key : ClientSessionKey} {s : ClientSession} {a : Service}
    (hs : a.sessions.lookup key = some s) (hW : ∀ e, s.userData = some e → W e) :
    Tended W a (resetSession env key s a).2 := by
  refine keeps_ensure (.rfl' a) fun _ => ?_
  rw [modify_bind_apply, read_bind_apply]
  set b := a.updateSession key fun s => { s with resetting := true }
  have hab : Tended W a b := .updateSession a key fun _ _ => rfl
  refine keeps_ensure hab fun _ => keeps_require hab fun old hold => ?_
  have hcall : Tended W a (onSessionReset env key old b).2 :=
    hab.trans' (onSessionReset_tended env (hW old hold) key b)
  refine keeps_bind (fun _ => hcall) fun v hv => ?_
  rw [onSessionReset_eq_some env hv, modify_bind_apply]
  set d := (onSessionReset env key old b).2
  have hdata : Tended W a (d.updateSession key fun s => { s with userData := some old }) := by
    refine hcall.trans' (.updateSession d key fun t ht => ?_)
    have huser : d.clientOf key = some old := by
      rw [hcall.users, Service.clientOf, hs]
      exact hold
    rw [Service.clientOf, ht] at huser
    exact huser.symm
  exact keeps_ensure hdata fun _ => hdata.trans' (.updateSession _ key fun _ _ => rfl)

/-- What is done on a session is work on its client. -/
theorem receiveOnSession_tended {key : ClientSessionKey} {a : Service}
    (hW : ∀ c, a.clientOf key = some c → W c) :
    Tended W a (receiveOnSession env key a).2 := by
  refine keeps_ensure (.rfl' a) fun _ => ?_
  rw [read_bind_apply]
  cases hs : a.sessions.lookup key with
  | none => exact .rfl' a
  | some s =>
      have hserve : Within (Tended W) (do
          onSessionActivity env key
          let c ← require s.userData
          let dispose ← onMessageReceived env c
          onlyIf dispose do
            ensure (env.ok .releaseSession)
            closeSession env key) := by
        refine .bind (.read fun _ => .bind (.require _) fun _ => .ensure _) fun _ => ?_
        refine .requireThen fun c hc => .bind ?_ fun _ => .onlyIf fun _ => .ensureThen fun _ => ?_
        · refine tended_of_serving (onMessageReceived_serving env c) (hW c ?_)
          exact Service.clientOf_eq_some.2 ⟨s, hs, hc⟩
        · exact closeSession_tended env key
      exact keeps_ensure (.rfl' a) fun _ => keeps_ensure (.rfl' a) fun _ => hserve a

theorem onSessionTimeout_tended {key : ClientSessionKey} {a : Service}
    (hW : ∀ c, a.clientOf key = some c → W c) :
    Tended W a (onSessionTimeout env key a).2 := by
  refine keeps_ensure (.rfl' a) fun _ => ?_
  rw [read_bind_apply]
  refine keeps_require (.rfl' a) fun s hs => keeps_ensure (.rfl' a) fun _ => ?_
  have hrest : Within (Tended W) (do
      modify fun a : Service => a.updateSession key fun s => { s with timedout := true }
      let c ← require s.userData
      ignore (onSessionTimedOut env c)
      disposeSession env key s
      ensure (env.ok .releaseSession)) := by
    refine .bind (.modify fun b => .updateSession b key fun _ _ => rfl) fun _ => ?_
    refine .requireThen fun c hc => .bind (.ignore ?_) fun _ => .bind ?_ fun _ => .ensure _
    · exact onSessionTimedOut_tended env (hW c (Service.clientOf_eq_some.2 ⟨s, hs, hc⟩))
    · exact disposeSession_tended env key s
  exact hrest a

end ServiceM

/-- Every client taken so far is held by one session or by the running handler, which has
`owner`, or was returned once, and the stream storage records are accounted for. -/
structure Accounts (owner : Option ℕ) (a : Service) : Prop where
  clients : a.clientsPool.Accounted (a.Holds owner)
  known : ∀ h c, a.Holds owner h c → c < a.clientsPool.next
  sound : a.clientsPool.Sound
  streams : StorageKept a

namespace Accounts

variable {owner : Option ℕ} {a b : Service} {c : ℕ} {key : ClientSessionKey}

/-- A client that is held is live. -/
theorem live (h : Accounts owner a) {x : Option ClientSessionKey} (hc : a.Holds owner x c) :
    a.clientsPool.Live c :=
  h.clients.live (h.known x c hc) hc

/-- A change that takes and returns no client and keeps the user data of the sessions. -/
theorem of_same (h : Accounts owner a) (hnext : b.clientsPool.next = a.clientsPool.next)
    (hreturned : b.clientsPool.returned = a.clientsPool.returned)
    (husers : ∀ key, b.clientOf key = a.clientOf key) (hstreams : StorageKept b) :
    Accounts owner b := by
  have hholds : ∀ x d, b.Holds owner x d ↔ a.Holds owner x d := by
    intro x d
    cases x with
    | none => exact Iff.rfl
    | some key => simp only [Service.Holds, husers]
  refine ⟨h.clients.congr hnext hreturned fun x d _ => hholds x d, fun x d hd => ?_, ?_, hstreams⟩
  · rw [hnext]
    exact h.known x d ((hholds x d).1 hd)
  · intro d hd
    rw [hreturned] at hd
    rw [hnext]
    exact h.sound d hd

theorem tended (h : Accounts owner a) {W : ℕ → Prop} (hab : Tended W a b)
    (hW : ∀ c, W c → ∃ x, a.Holds owner x c) : Accounts owner b := by
  refine h.of_same hab.clientsNext hab.clientsReturned hab.users (hab.streams ?_ h.streams)
  intro c hc
  obtain ⟨x, hx⟩ := hW c hc
  exact h.live hx

/-- A handler takes a client. -/
theorem takeClient (h : Accounts none a) :
    Accounts (some a.clientsPool.next)
      { a with clientsPool := a.clientsPool.take .initializer } where
  clients := by
    refine h.clients.take (i := none) h.sound rfl rfl (fun x d hd => ?_) fun x => ?_
    · cases x with
      | none =>
          have hne : a.clientsPool.next ≠ d := by omega
          simp [Service.Holds, hne]
      | some key => exact Iff.rfl
    · cases x with
      | none => simp [Service.Holds]
      | some key =>
          refine iff_of_false (fun hu => ?_) (by simp)
          exact Nat.lt_irrefl _ (h.known (some key) _ hu)
  known x d hd := by
    cases x with
    | none =>
        obtain rfl : a.clientsPool.next = d := Option.some.inj hd
        exact Nat.lt_succ_self _
    | some key => exact Nat.lt_succ_of_lt (h.known (some key) d hd)
  sound := h.sound.take _
  streams := h.streams.takeClient rfl

/-- The client of the handler becomes that of a session. -/
theorem insertSession (h : Accounts (some c) a) (hnone : a.sessions.lookup key = none)
    {s : ClientSession} (hs : s.userData = some c) :
    Accounts none { a with sessions := a.sessions.insert key s } := by
  have hself : Service.clientOf { a with sessions := a.sessions.insert key s } key = some c := by
    rw [Service.clientOf, AList.lookup_insert]
    exact hs
  have hothers : ∀ k, k ≠ key →
      Service.clientOf { a with sessions := a.sessions.insert key s } k = a.clientOf k := by
    intro k hk
    rw [Service.clientOf, AList.lookup_insert_ne hk, Service.clientOf]
  have hempty : a.clientOf key = none := by
    rw [Service.clientOf, hnone]
    rfl
  have howned : ∀ k, a.clientOf k ≠ some c := by
    intro k hk
    have heq := h.clients.eq_of_holds (i := none) (j := some k) (h.known none c rfl) rfl hk
    cases heq
  refine ⟨fun d hd => ?_, fun x d hd => ?_, h.sound, ?_⟩
  · rcases h.clients d hd with ⟨⟨x, hx, honly⟩, hmem⟩ | ⟨hno, hcount⟩
    · cases x with
      | none =>
          obtain rfl : c = d := Option.some.inj hx
          refine .inl ⟨⟨some key, hself, fun y hy => ?_⟩, hmem⟩
          cases y with
          | none => cases hy
          | some k =>
              by_cases hk : k = key
              · rw [hk]
              · exact absurd ((hothers k hk).symm.trans hy) (howned k)
      | some k =>
          have hk : k ≠ key := by
            rintro rfl
            exact absurd (hempty.symm.trans hx) (by simp)
          refine .inl ⟨⟨some k, (hothers k hk).trans hx, fun y hy => ?_⟩, hmem⟩
          cases y with
          | none => cases hy
          | some k' =>
              by_cases hk' : k' = key
              · subst hk'
                obtain rfl : c = d := Option.some.inj (hself.symm.trans hy)
                exact absurd hx (howned k)
              · exact honly (some k') ((hothers k' hk').symm.trans hy)
    · refine .inr ⟨fun y hy => ?_, hcount⟩
      cases y with
      | none => cases hy
      | some k =>
          by_cases hk : k = key
          · subst hk
            exact hno none (hself.symm.trans hy)
          · exact hno (some k) ((hothers k hk).symm.trans hy)
  · cases x with
    | none => cases hd
    | some k =>
        by_cases hk : k = key
        · subst hk
          exact h.known none d (hself.symm.trans hd)
        · exact h.known (some k) d ((hothers k hk).symm.trans hd)
  · exact h.streams.of_same rfl (fun _ => Iff.rfl) fun _ _ => rfl

/-- The client of a session becomes that of the handler that removes the session. -/
theorem eraseSession (h : Accounts none a) (hc : a.clientOf key = some c) :
    Accounts (some c) { a with sessions := a.sessions.erase key } := by
  have hself : Service.clientOf { a with sessions := a.sessions.erase key } key = none := by
    rw [Service.clientOf, AList.lookup_erase]
    rfl
  have hothers : ∀ k, k ≠ key →
      Service.clientOf { a with sessions := a.sessions.erase key } k = a.clientOf k := by
    intro k hk
    rw [Service.clientOf, AList.lookup_erase_ne hk, Service.clientOf]
  have hlt : c < a.clientsPool.next := h.known (some key) c hc
  have hheld : ∀ x d, Service.Holds { a with sessions := a.sessions.erase key } (some c) x d →
      d = c ∧ x = none ∨ ∃ k, x = some k ∧ k ≠ key ∧ a.clientOf k = some d := by
    intro x d hx
    cases x with
    | none => exact .inl ⟨(Option.some.inj hx).symm, rfl⟩
    | some k =>
        have hk : k ≠ key := by
          rintro rfl
          exact absurd (hself.symm.trans hx) (by simp)
        exact .inr ⟨k, rfl, hk, (hothers k hk).symm.trans hx⟩
  refine ⟨fun d hd => ?_, fun x d hx => ?_, h.sound, ?_⟩
  · rcases h.clients d hd with ⟨⟨x, hx, honly⟩, hmem⟩ | ⟨hno, hcount⟩
    · cases x with
      | none => cases hx
      | some k =>
          by_cases hk : k = key
          · subst hk
            obtain rfl : c = d := Option.some.inj (hc.symm.trans hx)
            refine .inl ⟨⟨none, rfl, fun y hy => ?_⟩, hmem⟩
            rcases hheld y c hy with ⟨-, hnone⟩ | ⟨k', rfl, hk', hu⟩
            · exact hnone
            · exact absurd (Option.some.inj (honly (some k') hu)) hk'
          · refine .inl ⟨⟨some k, (hothers k hk).trans hx, fun y hy => ?_⟩, hmem⟩
            rcases hheld y d hy with ⟨rfl, -⟩ | ⟨k', rfl, -, hu⟩
            · exact absurd (Option.some.inj (honly (some key) hc)).symm hk
            · exact honly (some k') hu
    · refine .inr ⟨fun y hy => ?_, hcount⟩
      rcases hheld y d hy with ⟨rfl, -⟩ | ⟨k, -, -, hu⟩
      · exact hno (some key) hc
      · exact hno (some k) hu
  · rcases hheld x d hx with ⟨rfl, -⟩ | ⟨k, -, -, hu⟩
    · exact hlt
    · exact h.known (some k) d hu
  · exact h.streams.of_same rfl (fun _ => Iff.rfl) fun _ _ => rfl

/-- The handler finalizes its client and returns it. -/
theorem deleteClientSession (h : Accounts (some c) a) :
    Accounts none (a.deleteClientSession c) := by
  have hwork : ClientWork a (a.finalizeProxyClient c) := .finalizeProxyClient a c
  obtain ⟨hstreams, hnil⟩ := h.streams.finalize (h.live (x := none) rfl)
  set b := a.finalizeProxyClient c
  have husers : ∀ k, Service.clientOf { b with clientsPool := b.clientsPool.giveBack c } k =
      a.clientOf k := by
    intro k
    change (b.sessions.lookup k).bind _ = _
    rw [hwork.sessions, Service.clientOf]
  have hlt : c < a.clientsPool.next := h.known none c rfl
  refine ⟨h.clients.giveBack (i := none) rfl hwork.clientsNext ?_ fun x d hd => ?_,
    fun x d hd => ?_, fun d hd => ?_, hstreams.giveBackClient hnil⟩
  · change b.clientsPool.returned ++ [c] = _
    rw [hwork.clientsReturned]
  · cases x with
    | none =>
        refine iff_of_false (fun hno => by cases hno) ?_
        rintro ⟨heq, hne⟩
        exact hne (Option.some.inj heq).symm
    | some k =>
        refine ⟨fun hk => ?_, fun hk => (husers k).trans hk.1⟩
        have hold : a.clientOf k = some d := (husers k).symm.trans hk
        refine ⟨hold, ?_⟩
        rintro rfl
        have heq := h.clients.eq_of_holds (i := none) (j := some k) hlt rfl hold
        cases heq
  · cases x with
    | none => cases hd
    | some k =>
        change d < b.clientsPool.next
        rw [hwork.clientsNext]
        exact h.known (some k) d ((husers k).symm.trans hd)
  · change d < b.clientsPool.next
    rw [hwork.clientsNext]
    change d ∈ b.clientsPool.returned ++ [c] at hd
    rw [hwork.clientsReturned] at hd
    rcases List.mem_append.1 hd with hd | hd
    · exact h.sound d hd
    · rw [List.mem_singleton.1 hd]
      exact hlt

end Accounts

end NanoAgent
