import NanoAgent.Service.Connection
import NanoAgent.Service.SendQueue

/-!
# What work on proxy clients leaves alone

Handling a submessage, sending a reply, forwarding or dismissing a sample work on
the streams, requests and forward requests of proxy clients. `ClientWork a b`
says that from `a` to `b` nothing else has changed: the sessions, the mapping
table and its mutex, the session events and, of every proxy client, what belongs
to its connection. What was sent left through the transport the sender is bound
to.

`WorkOn may c` refines it for work on the client `c`: the other clients stay as they
are, no stream of `c` is lost, `c` is disposed only when it `may` be, and the stream
storage records are accounted for. `Serving may c` is such work that leaves the send
queues of `c` and its forward requests in order.
-/

namespace NanoAgent

open Prog

/-- What of a proxy client belongs to its connection. -/
structure ProxyClient.Connection where
  key : ℕ
  sessionId : ℕ
  bindEntry : BindEntry
  storage : Option ℕ
  eventHb : Option ℕ
  cacheMapping : Bool

def ProxyClient.connection (p : ProxyClient) : ProxyClient.Connection :=
  ⟨p.key, p.sessionId, p.bindEntry, p.storage, p.eventHb, p.cacheMapping⟩

/-- The settings of the agent, its mapping table and its sessions. -/
structure Service.Registry where
  intf : ℕ
  autoClientMapping : Bool
  confirmAllRequests : Bool
  heartbeatPeriod : ℕ
  clientSessionTimeout : ℕ
  mappingsMutex : Mutex
  clientMappings : List ClientLocatorMapping
  clientMappingsLen : ℕ
  poolEventsSession : BufferPool SessionEvent
  sessions : AList (fun _ : ClientSessionKey => ClientSession)
  posted : List Posting
  dispatched : List Posting

def Service.registry (a : Service) : Service.Registry :=
  ⟨a.intf, a.autoClientMapping, a.confirmAllRequests, a.heartbeatPeriod, a.clientSessionTimeout,
    a.mappingsMutex, a.clientMappings, a.clientMappingsLen, a.poolEventsSession, a.sessions,
    a.posted, a.dispatched⟩

/-- From `a` to `b` only streams, requests and forward requests of proxy clients
have changed. -/
structure ClientWork (a b : Service) : Prop where
  registry : b.registry = a.registry
  storageSession : b.poolStorageSession = a.poolStorageSession
  clientsNext : b.clientsPool.next = a.clientsPool.next
  clientsReturned : b.clientsPool.returned = a.clientsPool.returned
  connection : ∀ c, (b.client c).connection = (a.client c).connection
  sent : ∃ l, b.sent = a.sent ++ l ∧ ∀ m ∈ l, m.via = (a.client m.client).bindEntry

namespace ClientWork

theorem bindEntry {a b : Service} (h : ClientWork a b) (c : ℕ) :
    (b.client c).bindEntry = (a.client c).bindEntry :=
  congrArg ProxyClient.Connection.bindEntry (h.connection c)

theorem sessions {a b : Service} (h : ClientWork a b) : b.sessions = a.sessions :=
  congrArg Service.Registry.sessions h.registry

theorem mappingsMutex {a b : Service} (h : ClientWork a b) : b.mappingsMutex = a.mappingsMutex :=
  congrArg Service.Registry.mappingsMutex h.registry

theorem rfl' (a : Service) : ClientWork a a :=
  ⟨rfl, rfl, rfl, rfl, fun _ => rfl, [], by simp, by simp⟩

theorem trans' {a b d : Service} (h : ClientWork a b) (h' : ClientWork b d) : ClientWork a d where
  registry := h'.registry.trans h.registry
  storageSession := h'.storageSession.trans h.storageSession
  clientsNext := h'.clientsNext.trans h.clientsNext
  clientsReturned := h'.clientsReturned.trans h.clientsReturned
  connection c := (h'.connection c).trans (h.connection c)
  sent := by
    obtain ⟨l, hl, hvia⟩ := h.sent
    obtain ⟨l', hl', hvia'⟩ := h'.sent
    refine ⟨l ++ l', by rw [hl', hl, List.append_assoc], ?_⟩
    intro m hm
    rcases List.mem_append.1 hm with hm | hm
    · exact hvia m hm
    · rw [hvia' m hm, h.bindEntry]

instance : IsPreorder Service ClientWork where
  refl := rfl'
  trans _ _ _ := trans'

/-- A change of a proxy client that leaves its connection alone. -/
theorem updateClient (a : Service) (c : ℕ) {f : ProxyClient → ProxyClient}
    (hf : ∀ p, (f p).connection = p.connection) : ClientWork a (a.updateClient c f) where
  registry := rfl
  storageSession := rfl
  clientsNext := rfl
  clientsReturned := rfl
  connection d := by
    rw [Service.client_updateClient]
    by_cases hd : d = c
    · simp [hd, hf]
    · simp [hd]
  sent := ⟨[], by simp [Service.updateClient], by simp⟩

/-- A change of the loans, and of the calls with which they are returned. -/
theorem ofLoans (a : Service) (l : List Loan) (r : List ℕ) :
    ClientWork a { a with loans := l, returns := r } :=
  ⟨rfl, rfl, rfl, rfl, fun _ => rfl, [], by simp, by simp⟩

/-- A change of the stream storage pool. -/
theorem ofPool (a : Service) (p : BufferPool Unit) :
    ClientWork a { a with poolStorageStream := p } :=
  ⟨rfl, rfl, rfl, rfl, fun _ => rfl, [], by simp, by simp⟩

theorem send (a : Service) (c : ℕ) (kind : OutputKind) : ClientWork a (a.send c kind) :=
  ⟨rfl, rfl, rfl, rfl, fun _ => rfl, [⟨c, kind, (a.client c).bindEntry⟩], rfl, by simp⟩

theorem releaseStreamStorage (a : Service) (c r : ℕ) :
    ClientWork a (a.releaseStreamStorage c r) :=
  (updateClient a c (f := fun p => { p with streamStorage := p.streamStorage.erase r })
    fun _ => rfl).trans' (ofPool _ _)

theorem finalizeProxyClient (a : Service) (c : ℕ) : ClientWork a (a.finalizeProxyClient c) := by
  have hrelease : ∀ (l : List ℕ) (b : Service), ClientWork a b →
      ClientWork a (l.foldl (fun b r => b.releaseStreamStorage c r) b) := by
    intro l
    induction l with
    | nil => exact fun b hab => hab
    | cons r l ih => exact fun b hab => ih _ (hab.trans' (releaseStreamStorage b c r))
  exact hrelease _ a (rfl' a)

end ClientWork

/-- What of a proxy client serving a submessage changes rarely: what belongs to its
connection, its streams and their storage, what it has sent, and whether it is
disposed. -/
structure ProxyClient.Standing where
  connection : ProxyClient.Connection
  disposed : Bool
  streams : List ℕ
  streamStorage : List ℕ
  traffic : ProxyClient.Traffic

def ProxyClient.standing (p : ProxyClient) : ProxyClient.Standing :=
  ⟨p.connection, p.disposed, p.streams, p.streamStorage, p.traffic⟩

/-- The stream storage records that were taken belong to one client each, or were
returned, once. -/
structure StorageKept (a : Service) : Prop where
  returned : a.poolStorageStream.returned.Nodup
  sound : a.poolStorageStream.Sound
  listed : ∀ c, a.clientsPool.Live c → ∀ r ∈ (a.client c).streamStorage, a.poolStorageStream.Live r
  distinct : ∀ c, a.clientsPool.Live c → (a.client c).streamStorage.Nodup
  disjoint : ∀ c d, a.clientsPool.Live c → a.clientsPool.Live d →
    ∀ r ∈ (a.client c).streamStorage, r ∈ (a.client d).streamStorage → c = d
  held : ∀ r, a.poolStorageStream.Live r →
    ∃ c, a.clientsPool.Live c ∧ r ∈ (a.client c).streamStorage

namespace StorageKept

theorem of_same {a b : Service} (h : StorageKept a)
    (hpool : b.poolStorageStream = a.poolStorageStream)
    (hlive : ∀ c, b.clientsPool.Live c ↔ a.clientsPool.Live c)
    (hlist : ∀ c, a.clientsPool.Live c →
      (b.client c).streamStorage = (a.client c).streamStorage) : StorageKept b where
  returned := by rw [hpool]; exact h.returned
  sound := by rw [hpool]; exact h.sound
  listed c hc r hr := by
    rw [hlive] at hc
    rw [hlist c hc] at hr
    rw [hpool]
    exact h.listed c hc r hr
  distinct c hc := by
    rw [hlive] at hc
    rw [hlist c hc]
    exact h.distinct c hc
  disjoint c d hc hd r hr hr' := by
    rw [hlive] at hc hd
    rw [hlist c hc] at hr
    rw [hlist d hd] at hr'
    exact h.disjoint c d hc hd r hr hr'
  held r hr := by
    rw [hpool] at hr
    obtain ⟨c, hc, hmem⟩ := h.held r hr
    exact ⟨c, (hlive c).2 hc, by rw [hlist c hc]; exact hmem⟩

/-- A record is taken for a live client. -/
theorem take {a b : Service} (h : StorageKept a) {c : ℕ} (hc : a.clientsPool.Live c)
    (hpool : b.poolStorageStream = a.poolStorageStream.take ())
    (hlive : ∀ d, b.clientsPool.Live d ↔ a.clientsPool.Live d)
    (hself : (b.client c).streamStorage = (a.client c).streamStorage ++ [a.poolStorageStream.next])
    (hothers : ∀ d, d ≠ c → (b.client d).streamStorage = (a.client d).streamStorage) :
    StorageKept b := by
  -- the records of the clients are those they had, and the new one
  have hmem : ∀ d r, r ∈ (b.client d).streamStorage ↔
      r ∈ (a.client d).streamStorage ∨ d = c ∧ r = a.poolStorageStream.next := by
    intro d r
    by_cases hd : d = c
    · subst hd
      rw [hself]
      simp
    · rw [hothers d hd]
      simp [hd]
  have hfresh : ∀ d, a.clientsPool.Live d →
      a.poolStorageStream.next ∉ (a.client d).streamStorage :=
    fun d hd hr => Nat.lt_irrefl _ (h.listed d hd _ hr).1
  refine ⟨?_, ?_, fun d hd r hr => ?_, fun d hd => ?_, fun d e hd he r hr hr' => ?_, fun r hr => ?_⟩
  · rw [hpool]
    exact h.returned
  · rw [hpool]
    exact h.sound.take ()
  · rw [hlive] at hd
    rw [hpool]
    rcases (hmem d r).1 hr with hr | ⟨-, rfl⟩
    · exact (h.listed d hd r hr).take ()
    · exact h.sound.live_take ()
  · rw [hlive] at hd
    by_cases hdc : d = c
    · subst hdc
      rw [hself, List.nodup_append]
      refine ⟨h.distinct d hd, List.nodup_singleton _, fun r hr r' hr' heq => hfresh d hd ?_⟩
      rw [← List.mem_singleton.1 hr', ← heq]
      exact hr
    · rw [hothers d hdc]
      exact h.distinct d hd
  · rw [hlive] at hd he
    rcases (hmem d r).1 hr with hr | ⟨rfl, rfl⟩
    · rcases (hmem e r).1 hr' with hr' | ⟨-, rfl⟩
      · exact h.disjoint d e hd he r hr hr'
      · exact absurd hr (hfresh d hd)
    · rcases (hmem e _).1 hr' with hr' | ⟨he, -⟩
      · exact absurd hr' (hfresh e he)
      · exact he.symm
  · rw [hpool] at hr
    by_cases hnew : r = a.poolStorageStream.next
    · exact ⟨c, (hlive c).2 hc, (hmem c r).2 (.inr ⟨rfl, hnew⟩)⟩
    · have hlt : r < a.poolStorageStream.next := by
        have := hr.1
        rw [BufferPool.next_take] at this
        omega
      obtain ⟨d, hd, hmemd⟩ := h.held r ⟨hlt, hr.2⟩
      exact ⟨d, (hlive d).2 hd, (hmem d r).2 (.inl hmemd)⟩

/-- A record of a live client is returned. -/
theorem release {a : Service} (h : StorageKept a) {c r : ℕ} (hc : a.clientsPool.Live c)
    (hr : r ∈ (a.client c).streamStorage) : StorageKept (a.releaseStreamStorage c r) := by
  set b := a.releaseStreamStorage c r with hb
  have hlive : ∀ d, b.clientsPool.Live d ↔ a.clientsPool.Live d := fun _ => Iff.rfl
  have hpool : b.poolStorageStream = a.poolStorageStream.giveBack r := rfl
  have hself : (b.client c).streamStorage = (a.client c).streamStorage.erase r := by
    have hclient := Service.client_updateClient_self a c
      fun p => { p with streamStorage := p.streamStorage.erase r }
    exact congrArg ProxyClient.streamStorage hclient
  have hothers : ∀ d, d ≠ c → b.client d = a.client d := by
    intro d hd
    have hclient := Service.client_updateClient a c d
      fun p => { p with streamStorage := p.streamStorage.erase r }
    rw [if_neg hd] at hclient
    exact hclient
  -- no client has the record any more
  have hmem : ∀ d, a.clientsPool.Live d → ∀ r', r' ∈ (b.client d).streamStorage ↔
      r' ∈ (a.client d).streamStorage ∧ r' ≠ r := by
    intro d hd r'
    by_cases hdc : d = c
    · subst hdc
      rw [hself, (h.distinct d hd).mem_erase_iff, and_comm]
    · rw [hothers d hdc]
      refine ⟨fun hr' => ⟨hr', ?_⟩, fun hr' => hr'.1⟩
      rintro rfl
      exact hdc (h.disjoint d c hd hc _ hr' hr)
  refine ⟨?_, ?_, fun d hd r' hr' => ?_, fun d hd => ?_, fun d e hd he r' hr' hr'' => ?_, ?_⟩
  · rw [hpool, BufferPool.returned_giveBack, List.nodup_append]
    refine ⟨h.returned, List.nodup_singleton _, fun r' hr' r'' hr'' heq => ?_⟩
    rw [List.mem_singleton.1 hr''] at heq
    exact (h.listed c hc r hr).2 (heq ▸ hr')
  · rw [hpool]
    exact h.sound.giveBack (h.listed c hc r hr).1
  · obtain ⟨hold, hne⟩ := (hmem d hd r').1 hr'
    rw [hpool]
    exact (h.listed d hd r' hold).giveBack hne
  · by_cases hdc : d = c
    · rw [hdc, hself]
      exact (h.distinct c hc).erase r
    · rw [hothers d hdc]
      exact h.distinct d hd
  · exact h.disjoint d e hd he r' ((hmem d hd r').1 hr').1 ((hmem e he r').1 hr'').1
  · intro r' hr'
    rw [hpool, BufferPool.live_giveBack_iff] at hr'
    obtain ⟨d, hd, hold⟩ := h.held r' hr'.1
    exact ⟨d, hd, (hmem d hd r').2 ⟨hold, hr'.2⟩⟩

end StorageKept

/-- From `a` to `b` work was done on the client `c`. -/
structure WorkOn (may : Prop) (c : ℕ) (a b : Service) : Prop extends ClientWork a b where
  others : ∀ d, d ≠ c → b.client d = a.client d
  disposed : may ∨ (b.client c).disposed = (a.client c).disposed
  streams : ∀ s ∈ (a.client c).streams, s ∈ (b.client c).streams
  storage : a.clientsPool.Live c → StorageKept a → StorageKept b

namespace WorkOn

variable {may : Prop} {c : ℕ}

theorem live_iff {a b : Service} (h : WorkOn may c a b) (d : ℕ) :
    b.clientsPool.Live d ↔ a.clientsPool.Live d := by
  rw [BufferPool.Live, BufferPool.Live, h.clientsNext, h.clientsReturned]

theorem rfl' (a : Service) : WorkOn may c a a :=
  ⟨.rfl' a, fun _ _ => rfl, .inr rfl, fun _ h => h, fun _ h => h⟩

theorem trans' {a b d : Service} (h : WorkOn may c a b) (h' : WorkOn may c b d) :
    WorkOn may c a d where
  toClientWork := h.toClientWork.trans' h'.toClientWork
  others e he := (h'.others e he).trans (h.others e he)
  disposed := by
    rcases h.disposed with hmay | hab
    · exact .inl hmay
    · rcases h'.disposed with hmay | hbd
      · exact .inl hmay
      · exact .inr (hbd.trans hab)
  streams s hs := h'.streams s (h.streams s hs)
  storage hc hkept := h'.storage ((h.live_iff c).2 hc) (h.storage hc hkept)

instance : IsPreorder Service (WorkOn may c) where
  refl := rfl'
  trans _ _ _ := trans'

/-- A change of the client that leaves its connection and the storage alone. -/
theorem change (a : Service) {f : ProxyClient → ProxyClient}
    (hconnection : ∀ p, (f p).connection = p.connection)
    (hdisposed : may ∨ ∀ p, (f p).disposed = p.disposed)
    (hstreams : ∀ p, ∀ s ∈ p.streams, s ∈ (f p).streams)
    (hstorage : ∀ p, (f p).streamStorage = p.streamStorage) :
    WorkOn may c a (a.updateClient c f) where
  toClientWork := .updateClient a c hconnection
  others d hd := by rw [Service.client_updateClient, if_neg hd]
  disposed := by
    rw [Service.client_updateClient_self]
    exact hdisposed.imp_right fun h => h _
  streams := by
    rw [Service.client_updateClient_self]
    exact hstreams _
  storage _ hkept := by
    refine hkept.of_same rfl (fun _ => Iff.rfl) fun d _ => ?_
    rw [Service.client_updateClient]
    by_cases hd : d = c
    · rw [if_pos hd, hstorage]
    · rw [if_neg hd]

/-- A change of the stream storage of the client, together with the pool. -/
theorem changeStorage (a : Service) (q : BufferPool Unit) (f : List ℕ → List ℕ)
    (hstorage : a.clientsPool.Live c → StorageKept a →
      StorageKept (({ a with poolStorageStream := q } : Service).updateClient c fun p =>
        { p with streamStorage := f p.streamStorage })) :
    WorkOn may c a (({ a with poolStorageStream := q } : Service).updateClient c fun p =>
      { p with streamStorage := f p.streamStorage }) where
  toClientWork := (ClientWork.ofPool a q).trans' (.updateClient _ c fun _ => rfl)
  others d hd := by
    rw [Service.client_updateClient, if_neg hd]
    rfl
  disposed := by
    rw [Service.client_updateClient_self]
    exact .inr rfl
  streams s hs := by
    rw [Service.client_updateClient_self]
    exact hs
  storage := hstorage

theorem takeStorage (a : Service) :
    WorkOn may c a (({ a with poolStorageStream := a.poolStorageStream.take () } :
      Service).updateClient c fun p =>
        { p with streamStorage := p.streamStorage ++ [a.poolStorageStream.next] }) := by
  refine changeStorage a _ (fun l => l ++ [a.poolStorageStream.next]) fun hc hkept => ?_
  refine hkept.take hc rfl (fun _ => Iff.rfl) ?_ fun d hd => ?_
  · rw [Service.client_updateClient_self]
    rfl
  · rw [Service.client_updateClient, if_neg hd]
    rfl

theorem releaseStorage (a : Service) {r : ℕ} (hr : r ∈ (a.client c).streamStorage) :
    WorkOn may c a (a.releaseStreamStorage c r) :=
  changeStorage a (a.poolStorageStream.giveBack r) (fun l => l.erase r) fun hc hkept =>
    hkept.release hc hr

theorem ofLoans (a : Service) (l : List Loan) (r : List ℕ) :
    WorkOn may c a { a with loans := l, returns := r } :=
  ⟨.ofLoans a l r, fun _ _ => rfl, .inr rfl, fun _ h => h,
    fun _ h => h.of_same rfl (fun _ => Iff.rfl) fun _ _ => rfl⟩

theorem send (a : Service) (kind : OutputKind) : WorkOn may c a (a.send c kind) :=
  ⟨.send a c kind, fun _ _ => rfl, .inr rfl, fun _ h => h,
    fun _ h => h.of_same rfl (fun _ => Iff.rfl) fun _ _ => rfl⟩

end WorkOn

/-- From `a` to `b` the client `c` was served. -/
structure Serving (may : Prop) (c : ℕ) (a b : Service) : Prop extends WorkOn may c a b where
  queued : QueueInv (a.client c) → QueueInv (b.client c)

namespace Serving

variable {may : Prop} {c : ℕ}

theorem rfl' (a : Service) : Serving may c a a := ⟨.rfl' a, fun h => h⟩

theorem trans' {a b d : Service} (h : Serving may c a b) (h' : Serving may c b d) :
    Serving may c a d :=
  ⟨h.toWorkOn.trans' h'.toWorkOn, fun hq => h'.queued (h.queued hq)⟩

instance : IsPreorder Service (Serving may c) where
  refl := rfl'
  trans _ _ _ := trans'

theorem change (a : Service) {f : ProxyClient → ProxyClient}
    (hconnection : ∀ p, (f p).connection = p.connection)
    (hdisposed : may ∨ ∀ p, (f p).disposed = p.disposed)
    (hstreams : ∀ p, ∀ s ∈ p.streams, s ∈ (f p).streams)
    (hstorage : ∀ p, (f p).streamStorage = p.streamStorage)
    (hqueued : ∀ p, QueueInv p → QueueInv (f p)) : Serving may c a (a.updateClient c f) where
  toWorkOn := .change a hconnection hdisposed hstreams hstorage
  queued := by
    rw [Service.client_updateClient_self]
    exact hqueued _

theorem updateClient (a : Service) {f : ProxyClient → ProxyClient}
    (hf : ∀ p, (f p).standing = p.standing) : Serving may c a (a.updateClient c f) := by
  refine change a (fun p => congrArg ProxyClient.Standing.connection (hf p))
    (.inr fun p => congrArg ProxyClient.Standing.disposed (hf p)) (fun p s hs => ?_)
    (fun p => congrArg ProxyClient.Standing.streamStorage (hf p))
    fun p hp => hp.of_traffic (congrArg ProxyClient.Standing.traffic (hf p))
  rw [show (f p).streams = p.streams from congrArg ProxyClient.Standing.streams (hf p)]
  exact hs

theorem takeStorage (a : Service) :
    Serving may c a (({ a with poolStorageStream := a.poolStorageStream.take () } :
      Service).updateClient c fun p =>
        { p with streamStorage := p.streamStorage ++ [a.poolStorageStream.next] }) where
  toWorkOn := .takeStorage a
  queued h := by
    rw [Service.client_updateClient_self]
    exact h.of_traffic rfl

theorem releaseStorage (a : Service) {r : ℕ} (hr : r ∈ (a.client c).streamStorage) :
    Serving may c a (a.releaseStreamStorage c r) where
  toWorkOn := .releaseStorage a hr
  queued h := by
    have hclient := Service.client_updateClient_self a c
      fun p => { p with streamStorage := p.streamStorage.erase r }
    have htraffic := congrArg ProxyClient.traffic hclient
    exact h.of_traffic htraffic

theorem ofLoans (a : Service) (l : List Loan) (r : List ℕ) :
    Serving may c a { a with loans := l, returns := r } :=
  ⟨.ofLoans a l r, fun h => h⟩

theorem send (a : Service) (kind : OutputKind) : Serving may c a (a.send c kind) :=
  ⟨.send a kind, fun h => h⟩

theorem sendOnStream (a : Service) (wire : Wire) (stream : ℕ) (kind : OutputKind) :
    Serving may c a (a.sendOnStream wire c stream kind) := by
  refine (send a kind).trans' (change _ (fun _ => rfl) (.inr fun _ => rfl) (fun _ _ h => h)
    (fun _ => rfl) fun p hp => ?_)
  cases hreliable : wire.streamReliable stream with
  | true => exact hp.push stream kind rfl rfl rfl
  | false => exact hp.skip stream rfl rfl rfl

theorem returnClientRequest (a : Service) (r : ℕ) :
    Serving may c a (a.returnClientRequest c r) :=
  updateClient a fun _ => rfl

theorem updateRequest (a : Service) (r : ℕ) (f : ProxyClientRequest → ProxyClientRequest) :
    Serving may c a (a.updateRequest c r f) :=
  updateClient a fun _ => rfl

theorem updateReaderState (a : Service) (id : ℕ) (f : ReaderState → ReaderState) :
    Serving may c a (a.updateReaderState c id f) :=
  updateClient a fun _ => rfl

end Serving

/-- A submessage that asks to delete the client itself. -/
def Submessage.DeletesClient (m : Submessage) : Prop :=
  m.id = .delete ∧ m.objectId.kind = .client

instance (m : Submessage) : Decidable m.DeletesClient := inferInstanceAs (Decidable (_ ∧ _))

namespace ServiceM

variable (env : ServiceEnv) {may : Prop} (c : ℕ)

theorem allocateStreamStorage_serving (n : ℕ) :
    Within (Serving may c) (allocateStreamStorage env c n) :=
  .ensureThen fun _ a => .takeStorage a

theorem allocateStreamStorage_eq_some {n r : ℕ} {a b : Service}
    (h : allocateStreamStorage env c n a = (some r, b)) : r ∈ (b.client c).streamStorage := by
  obtain ⟨_, _, hget, h⟩ := bind_eq_some.1 h
  obtain ⟨-, rfl⟩ := ensure_eq_some.1 hget
  rw [read_bind_apply, modify_bind_apply, modify_bind_apply] at h
  obtain ⟨rfl, rfl⟩ := pure_eq_some.1 h
  rw [Service.client_updateClient_self]
  simp

theorem registerUserStream_serving (stream : ℕ) :
    Within (Serving may c) (registerUserStream env c stream) := by
  intro a
  have hallocate : Serving may c a (allocateStreamStorage env c (stream + 2) a).2 :=
    allocateStreamStorage_serving env c (stream + 2) a
  refine keeps_bind (fun _ => hallocate) fun r hr => ?_
  have hlisted := allocateStreamStorage_eq_some env c (eq_of_fst_eq_some hr)
  set b := (allocateStreamStorage env c (stream + 2) a).2 with hb
  refine hallocate.trans' ?_
  have hregister : Serving may c b (onFailure (ensure (env.ok (.registerStream stream)))
      (modify fun a => a.releaseStreamStorage c r) b).2 :=
    keeps_onFailure (.rfl' b) fun _ => .releaseStorage b hlisted
  refine keeps_bind (fun _ => hregister) fun _ _ => hregister.trans' ?_
  refine .change _ (fun _ => rfl) (.inr fun _ => rfl) (fun p s hs => ?_) (fun _ => rfl) ?_
  · exact List.mem_append_left _ hs
  · exact fun p hp => hp.of_traffic rfl

theorem lookupStream_serving (stream : ℕ) : Within (Serving may c) (lookupStream env c stream) :=
  .read fun _ => .ite (fun _ => .pure _) fun _ => registerUserStream_serving env c stream

theorem allocateReplyMessage_serving (stream : ℕ) :
    Within (Serving may c) (allocateReplyMessage env c stream) :=
  .bind (lookupStream_serving env c stream) fun _ => .ensure _

theorem newClientRequest_serving (stream : ℕ) (m : Submessage) (reply : Bool) :
    Within (Serving may c) (newClientRequest env c stream m reply) := by
  refine .ensureThen fun _ => .read fun a => .bind (.modify fun b => ?_) fun _ =>
    .bind ?_ fun _ => ?_
  · exact .updateClient b fun _ => rfl
  · refine .onlyIf fun _ => .bind (.onFailure (allocateReplyMessage_serving env c stream) ?_)
      fun _ => ?_
    · exact .modify fun a => .returnClientRequest a _
    · exact .modify fun a => .updateRequest a _ _
  · exact .pure _

theorem prepareReply_serving (stream : ℕ) : Within (Serving may c) (prepareReply env c stream) :=
  .ite (fun _ => lookupStream_serving env c stream) fun _ =>
    allocateReplyMessage_serving env c stream

theorem replyToOperation_serving (r : ℕ) (success : Bool) :
    Within (Serving may c) (replyToOperation env c r success) := by
  refine .read fun a => .bind (prepareReply_serving env c _) fun _ => ?_
  refine .bind (.modify fun a => .updateRequest a r _) fun _ => .ensureThen fun _ => ?_
  exact .modify fun a => .sendOnStream a env.wire _ _

theorem replyToConnection_serving : Within (Serving may c) (replyToConnection env c) :=
  .ensureThen fun _ => .ensureThen fun _ => .modify fun a => .send a _

theorem returnLoan_serving (d : ℕ) : Within (Serving may c) (returnLoan env d) :=
  .bind (.modify fun a => .ofLoans a _ _) fun _ => .ensureThen fun _ =>
    .bind (.modify fun a => .ofLoans a _ _) fun _ => .ensure _

theorem dismissForwardRequest_serving (stream sn : ℕ) :
    Within (Serving may c) (dismissForwardRequest env c stream sn) := by
  refine .read fun a => ?_
  cases (a.client c).forwards.find? fun f => f.streamId = stream && f.sn = sn with
  | none => exact .pure _
  | some f =>
      refine .bind (.modify fun b => ?_) fun _ => returnLoan_serving env c f.rcvdData
      refine .change b (fun _ => rfl) (.inr fun _ => rfl) (fun _ _ h => h) (fun _ => rfl) ?_
      exact fun p hp => hp.of_sublist List.erase_sublist rfl rfl

theorem onSendComplete_serving (m : QueuedMessage) :
    Within (Serving may c) (onSendComplete env c m) :=
  .onlyIf fun _ => .ignore (dismissForwardRequest_serving env c _ _)

theorem workOn_of_serving {α : Type} {x : ServiceM α} (h : Within (Serving may c) x) :
    Within (WorkOn may c) x :=
  fun a => (h a).toWorkOn

theorem dismissSendQueueUpTo_serving (stream sn : ℕ) :
    Within (Serving may c) (dismissSendQueueUpTo env c stream sn) := by
  have hwork : Within (WorkOn may c) (dismissSendQueueUpTo env c stream sn) := by
    refine .read fun a => .bind (.modify fun b => ?_) fun _ => .bind (.forEach fun m _ => ?_) ?_
    · exact .change b (fun _ => rfl) (.inr fun _ => rfl) (fun _ _ h => h) fun _ => rfl
    · exact workOn_of_serving c (onSendComplete_serving env c m)
    · exact fun _ => .pure _
  refine fun a => ⟨hwork a, fun h => ?_⟩
  obtain ⟨b, hb, -, hinv, -⟩ := dismissSendQueueUpTo_spec env c h stream sn
  rw [hb]
  exact hinv

theorem dismissChosen_serving (stream : Option ℕ) (reader n : ℕ) :
    Within (Serving may c) (dismissChosen env c stream reader n) := by
  induction n with
  | zero => exact .pure _
  | succ n ih =>
      refine .read fun a => ?_
      cases (a.client c).forwards.find? (ForwardDataRequest.chosen stream reader) with
      | none => exact .pure _
      | some f =>
          refine .bind (.ignore (lookupStream_serving env c f.streamId)) fun _ => ?_
          refine .bind (dismissSendQueueUpTo_serving env c f.streamId f.sn) fun removed => ?_
          exact .ite (fun _ => .pure _) fun _ => ih

theorem dismissClientFwdDataRequests_serving (stream : Option ℕ) (reader : ℕ) :
    Within (Serving may c) (dismissClientFwdDataRequests env c stream reader) :=
  .read fun _ => dismissChosen_serving env c stream reader _

theorem disposeClientSession_serving (hmay : may) (request : Option ℕ) :
    Within (Serving may c) (disposeClientSession env c request) := by
  refine .read fun a => .onlyIf fun _ => .bind (.modify fun b => ?_) fun _ => .bind ?_ fun _ => ?_
  · refine .change b (fun _ => rfl) (.inl hmay) (fun _ _ h => h) (fun _ => rfl) ?_
    exact fun p hp => hp.of_traffic rfl
  · exact .onlyIf fun _ => .modify fun b => .updateRequest b _ _
  · exact dismissClientFwdDataRequests_serving env c none _

theorem onSubmsgCreate_serving (r : ℕ) (m : Submessage) :
    Within (Serving may c) (onSubmsgCreate env c r m) := by
  refine .ensureThen fun _ => .ensureThen fun _ => .bind (replyToOperation_serving env c r true) ?_
  exact fun _ => .onlyIf fun _ => .modify fun a => .updateClient a fun _ => rfl

theorem onSubmsgDelete_serving (r : ℕ) {m : Submessage} (hmay : m.objectId.kind = .client → may) :
    Within (Serving may c) (onSubmsgDelete env c r m) := by
  have hdelete : Within (Serving may c) (do
      ensure (env.ok .operation)
      ignore (replyToOperation env c r true)) :=
    .ensureThen fun _ => .ignore (replyToOperation_serving env c r true)
  unfold onSubmsgDelete
  cases hkind : m.objectId.kind with
  | invalid => exact .fail
  | agent => exact .fail
  | client => exact disposeClientSession_serving env c (hmay hkind) (some r)
  | dataReader =>
      refine .bind (dismissClientFwdDataRequests_serving env c none _) fun _ =>
        .ensureThen fun _ => .bind (.modify fun a => .updateClient a fun _ => rfl) fun _ => ?_
      exact .ignore (replyToOperation_serving env c r true)
  | participant => exact hdelete
  | topic => exact hdelete
  | publisher => exact hdelete
  | subscriber => exact hdelete
  | type => exact hdelete
  | qosProfile => exact hdelete
  | application => exact hdelete
  | domain => exact hdelete
  | dataWriter => exact hdelete

theorem writeData_serving (r : ℕ) (m : Submessage) :
    Within (Serving may c) (writeData env c r m) := by
  unfold writeData
  cases m.format with
  | invalid => exact .fail
  | data =>
      refine .ensureThen fun _ => .read fun a => .onlyIf fun _ => ?_
      exact .ignore (replyToOperation_serving env c r true)
  | dataSeq => exact .pure _
  | sample => exact .pure _
  | sampleSeq => exact .pure _
  | packedSamples => exact .pure _

theorem onSubmsgWrite_serving (r : ℕ) (m : Submessage) :
    Within (Serving may c) (onSubmsgWrite env c r m) := by
  refine .ensureThen fun _ => .bind (writeData_serving env c r m) fun _ => ?_
  exact .modify fun a => .returnClientRequest a r

theorem prepareRead_serving (r : ℕ) (m : Submessage) :
    Within (Serving may c) (prepareRead env c r m) := by
  refine .ensureThen fun _ => .ensureThen fun _ => .ensureThen fun _ => .read fun a => ?_
  refine .bind (.require _) fun state => .bind ?_ fun _ => .bind ?_ fun _ => ?_
  · exact .onlyIf fun _ => .modify fun b => .returnClientRequest b _
  · exact .modify fun b => .updateReaderState b _ _
  · refine .bind (lookupStream_serving env c _) fun _ => .bind (.onlyIf fun _ => ?_) fun _ => ?_
    · exact dismissClientFwdDataRequests_serving env c _ _
    · exact .modify fun b => .updateReaderState b _ _

theorem onReadCreated_serving (r id : ℕ) : Within (Serving may c) (onReadCreated env c r id) := by
  refine .bind (.modify fun b => .updateReaderState b _ _) fun _ => .read fun a => ?_
  refine .onlyIf fun _ => .onFailure (replyToOperation_serving env c r true) ?_
  exact .modify fun b => .updateReaderState b _ _

theorem onReleaseReadSamples_serving (id : ℕ) :
    Within (Serving may c) (onReleaseReadSamples env c id) :=
  .read fun _ => .bind (.require _) fun _ => .bind (lookupStream_serving env c _) fun _ =>
    dismissClientFwdDataRequests_serving env c _ _

theorem onSubmsgRead_serving (r : ℕ) (m : Submessage) :
    Within (Serving may c) (onSubmsgRead env c r m) :=
  .bind (prepareRead_serving env c r m) fun _ => .read fun _ => .ensureThen fun _ =>
    .ensureThen fun _ => onReadCreated_serving env c r _

theorem serveRequest_serving (r : ℕ) {m : Submessage} (hmay : m.DeletesClient → may) :
    Within (Serving may c) (serveRequest env c r m) := by
  unfold serveRequest
  cases hid : m.id with
  | create => exact onSubmsgCreate_serving env c r m
  | delete => exact onSubmsgDelete_serving env c r fun hkind => hmay ⟨hid, hkind⟩
  | writeData => exact onSubmsgWrite_serving env c r m
  | readData => exact onSubmsgRead_serving env c r m
  | getInfo => exact .pure _
  | other => exact .pure _

theorem completeRequest_serving (r : ℕ) (m : Submessage) (success : Bool) :
    Within (Serving may c) (completeRequest env c r m success) := by
  refine .read fun a => .bind (.onlyIf fun _ => ?_) fun _ => .onlyIf fun _ => ?_
  · exact .ignore (replyToOperation_serving env c r success)
  · exact .modify fun b => .returnClientRequest b r

theorem onRequest_serving (stream : ℕ) {m : Submessage} (hmay : m.DeletesClient → may)
    (reply : Bool) : Within (Serving may c) (onRequest env c stream m reply) := by
  refine .ensureThen fun _ => .bind (newClientRequest_serving env c stream m reply) fun r => ?_
  refine .bind (.attempt (serveRequest_serving env c r hmay)) fun res => .bind ?_ fun _ => .ensure _
  exact .onlyIf fun _ => completeRequest_serving env c r m _

theorem onSubmsg_serving (stream : ℕ) {m : Submessage} (hmay : m.DeletesClient → may) :
    Within (Serving may c) (onSubmsg env c stream m) := by
  refine .read fun a => ?_
  cases m.id with
  | create => exact onRequest_serving env c stream hmay _
  | delete => exact onRequest_serving env c stream hmay _
  | writeData => exact onRequest_serving env c stream hmay _
  | readData => exact onRequest_serving env c stream hmay _
  | getInfo => exact .ensure _
  | other => exact .pure _

theorem dispatchSubmsg_serving (stream : ℕ) {m : Submessage × (ServiceCall → Bool)}
    (hmay : m.1.DeletesClient → may) : Within (Serving may c) (dispatchSubmsg env c stream m) :=
  .ignore (onSubmsg_serving _ c stream hmay)

theorem receiveInSession_serving (stream : ℕ) :
    Within (Serving True c) (receiveInSession env c stream) :=
  .bind (.forEach fun _ _ => dispatchSubmsg_serving env c stream fun _ => trivial) fun _ =>
    .ensure _

theorem onMessageReceived_serving : Within (Serving True c) (onMessageReceived env c) := by
  refine .read fun a => .ite (fun _ => .pure _) fun _ => ?_
  cases env.stream with
  | none => exact .pure _
  | some stream =>
      refine .bind (.attempt (lookupStream_serving env c stream)) fun found => ?_
      cases found with
      | none => exact .pure _
      | some _ =>
          refine .bind (.attempt (receiveInSession_serving env c stream)) fun res => ?_
          cases res with
          | none => exact .pure _
          | some _ => exact .read fun _ => .pure _

theorem forwardData_serving (id stream d n : ℕ) :
    Within (Serving may c) (forwardData env c id stream d n) := by
  refine .ensureThen fun _ => .ensureThen fun _ a => ?_
  have hsend : Serving may c a (a.sendOnStream env.wire c stream (.data id)) :=
    .sendOnStream a env.wire stream _
  rw [modify_bind_apply]
  cases hreliable : env.wire.streamReliable stream with
  | false => exact hsend
  | true =>
      refine ⟨hsend.toWorkOn.trans' (.change _ (fun _ => rfl) (.inr fun _ => rfl)
        (fun _ _ h => h) fun _ => rfl), fun h => ?_⟩
      refine h.forward stream d id ?_ ?_ ?_
      · simp [Service.sendOnStream]
      · simp [Service.sendOnStream, hreliable]
      · simp [Service.sendOnStream]

theorem onDataReceived_serving (id d : ℕ) : Within (Serving may c) (onDataReceived env c id d) := by
  refine .read fun a => .bind (.require _) fun state => .ite (fun _ => .pure _) fun _ => ?_
  refine .bind (lookupStream_serving env c _) fun _ => .ensureThen fun _ => ?_
  refine .ite (fun _ => .pure _) fun _ => .bind (.forEach fun n _ => ?_) fun _ => .pure _
  exact forwardData_serving env c id _ d n

theorem deliverSample_serving (id d : ℕ) : Within (Serving may c) (deliverSample env c id d) :=
  .bind (onDataReceived_serving env c id d) fun _ => .onlyIf fun _ => .modify fun a =>
    .ofLoans a _ _

theorem work_of_serving {α : Type} {x : ServiceM α} (h : Within (Serving True c) x) :
    Within ClientWork x :=
  fun a => (h a).toClientWork

theorem replyToOperation_work (r : ℕ) (success : Bool) :
    Within ClientWork (replyToOperation env c r success) :=
  work_of_serving c (replyToOperation_serving env c r success)

theorem replyToConnection_work : Within ClientWork (replyToConnection env c) :=
  work_of_serving c (replyToConnection_serving env c)

theorem onSendComplete_work (m : QueuedMessage) : Within ClientWork (onSendComplete env c m) :=
  work_of_serving c (onSendComplete_serving env c m)

theorem dismissClientFwdDataRequests_work (stream : Option ℕ) (reader : ℕ) :
    Within ClientWork (dismissClientFwdDataRequests env c stream reader) :=
  work_of_serving c (dismissClientFwdDataRequests_serving env c stream reader)

theorem disposeClientSession_work (request : Option ℕ) :
    Within ClientWork (disposeClientSession env c request) :=
  work_of_serving c (disposeClientSession_serving env c trivial request)

theorem onMessageReceived_work : Within ClientWork (onMessageReceived env c) :=
  work_of_serving c (onMessageReceived_serving env c)

theorem onReleaseReadSamples_work (id : ℕ) :
    Within ClientWork (onReleaseReadSamples env c id) :=
  work_of_serving c (onReleaseReadSamples_serving env c id)

theorem deliverSample_work (id d : ℕ) : Within ClientWork (deliverSample env c id d) :=
  work_of_serving c (deliverSample_serving env c id d)

end ServiceM

/-- From `a` to `b` only the proxy client `c` and the storage pools have changed. -/
structure Preparing (c : ℕ) (a b : Service) : Prop where
  registry : b.registry = a.registry
  loans : b.loans = a.loans
  sent : b.sent = a.sent
  clientsNext : b.clientsPool.next = a.clientsPool.next
  clientsReturned : b.clientsPool.returned = a.clientsPool.returned
  others : ∀ d, d ≠ c → b.client d = a.client d

namespace Preparing

variable {c : ℕ}

theorem sessions {a b : Service} (h : Preparing c a b) : b.sessions = a.sessions :=
  congrArg Service.Registry.sessions h.registry

instance : IsPreorder Service (Preparing c) where
  refl _ := ⟨rfl, rfl, rfl, rfl, rfl, fun _ _ => rfl⟩
  trans _ _ _ h h' :=
    ⟨h'.registry.trans h.registry, h'.loans.trans h.loans, h'.sent.trans h.sent,
      h'.clientsNext.trans h.clientsNext, h'.clientsReturned.trans h.clientsReturned,
      fun d hd => (h'.others d hd).trans (h.others d hd)⟩

theorem updateClient (a : Service) (f : ProxyClient → ProxyClient) :
    Preparing c a (a.updateClient c f) :=
  ⟨rfl, rfl, rfl, rfl, rfl, fun d hd => by rw [Service.client_updateClient, if_neg hd]⟩

theorem ofPools (a : Service) (p q : BufferPool Unit) :
    Preparing c a { a with poolStorageSession := p, poolStorageStream := q } :=
  ⟨rfl, rfl, rfl, rfl, rfl, fun _ _ => rfl⟩

end Preparing

namespace ServiceM

variable (env : ServiceEnv) (c : ℕ)

theorem allocateStreamStorage_preparing (n : ℕ) :
    Within (Preparing c) (allocateStreamStorage env c n) := by
  refine .ensureThen fun _ => .read fun a => .bind (.modify fun b => ?_) fun _ => ?_
  · exact .ofPools b b.poolStorageSession _
  · exact .bind (.modify fun b => .updateClient b _) fun _ => .pure _

theorem initializeProxyClient_preparing (repr : ClientRepresentation) :
    Within (Preparing c) (initializeProxyClient env c repr) := by
  refine .bind (.modify fun b => .updateClient b _) fun _ => .ensureThen fun _ => .read fun a => ?_
  refine .bind (.modify fun b => .ofPools b _ b.poolStorageStream) fun _ => ?_
  refine .bind (.modify fun b => .updateClient b _) fun _ => ?_
  refine .bind (allocateStreamStorage_preparing env c 0) fun _ => ?_
  refine .bind (allocateStreamStorage_preparing env c 1) fun _ => ?_
  exact .ensureThen fun _ => .ensureThen fun _ => .modify fun b => .updateClient b _

theorem setBindEntry_preparing (src : BindEntry) : Within (Preparing c) (setBindEntry env c src) :=
  .bind (.modify fun b => .updateClient b _) fun _ => .ensureThen fun _ => .modify fun b =>
    .updateClient b _

theorem prepareClient_preparing (repr : ClientRepresentation) (cache : Bool) (src : BindEntry) :
    Within (Preparing c) (prepareClient env c repr cache src) :=
  .bind (initializeProxyClient_preparing env c repr) fun _ =>
    .bind (.modify fun b => .updateClient b _) fun _ => setBindEntry_preparing env c src

/-- A proxy client that is set up is bound to the peer, for the client of the
representation. -/
theorem prepareClient_eq_some {repr : ClientRepresentation} {cache : Bool} {src : BindEntry}
    {a b : Service} (h : prepareClient env c repr cache src a = (some (), b)) :
    (b.client c).bindEntry = src ∧ (b.client c).key = repr.clientKey ∧
      (b.client c).cacheMapping = cache := by
  obtain ⟨_, s₁, hinit, h⟩ := bind_eq_some.1 h
  obtain ⟨_, s₂, hcache, h⟩ := bind_eq_some.1 h
  obtain ⟨_, s₃, htransport, h⟩ := bind_eq_some.1 h
  obtain ⟨_, s₄, hcopy, h⟩ := bind_eq_some.1 h
  rw [modify_eq_some] at hcache htransport h
  rw [ensure_eq_some] at hcopy
  obtain ⟨-, rfl⟩ := hcopy
  have hkey : (s₁.client c).key = repr.clientKey := by
    obtain ⟨_, _, -, hinit⟩ := bind_eq_some.1 hinit
    obtain ⟨_, _, -, hinit⟩ := bind_eq_some.1 hinit
    obtain ⟨_, _, -, hinit⟩ := bind_eq_some.1 hinit
    obtain ⟨_, _, -, hinit⟩ := bind_eq_some.1 hinit
    obtain ⟨_, _, -, hinit⟩ := bind_eq_some.1 hinit
    obtain ⟨_, _, -, hinit⟩ := bind_eq_some.1 hinit
    obtain ⟨_, _, -, hinit⟩ := bind_eq_some.1 hinit
    obtain ⟨_, _, -, hinit⟩ := bind_eq_some.1 hinit
    obtain ⟨_, _, -, hinit⟩ := bind_eq_some.1 hinit
    rw [modify_eq_some] at hinit
    rw [← hinit]
    simp
  rw [← h, ← htransport, ← hcache]
  simp [hkey]

/-- Finding the sender of a message touches the mutex only. -/
theorem identifySender_eq (m : Message) (src : BindEntry) (a : Service) :
    ∃ mutex, (identifySender env m src a).2 = { a with mappingsMutex := mutex } := by
  unfold identifySender
  cases env.wire.hasClientKey m.sessionId with
  | true =>
      rw [if_pos rfl]
      refine keeps_ensure (I := fun b => ∃ mutex, b = { a with mappingsMutex := mutex }) ?_ ?_
      · exact ⟨_, rfl⟩
      · exact fun _ => ⟨_, rfl⟩
  | false =>
      rw [if_neg (by simp), modify_bind_apply, read_bind_apply]
      refine keeps_ensure (I := fun b => ∃ mutex, b = { a with mappingsMutex := mutex }) ?_ ?_
      · exact ⟨_, rfl⟩
      · exact fun _ => ⟨_, rfl⟩

end ServiceM

/-- The key in the header does not matter for what a `CREATE_CLIENT` decodes to, only for
whether the key changed. -/
theorem deserializeClientRepr_eq_some {w : Wire} {k : ℕ} {m : Message}
    {v : ClientRepresentation × Bool} (h : deserializeClientRepr w k m.sessionId m = some v) :
    m.clientRepr w = some v.1 ∧ v.2 = (k != w.clientKeyInvalid && k != v.1.clientKey) := by
  unfold Message.clientRepr
  unfold deserializeClientRepr at h ⊢
  dsimp only at h ⊢
  split at h
  · cases h
  · rename_i hlen
    rw [if_neg hlen]
    split at h
    · cases h
    · rename_i hfit
      rw [if_neg hfit]
      obtain ⟨r, hr, h⟩ := Option.bind_eq_some_iff.1 h
      rw [hr, Option.bind_some]
      split at h
      · rename_i hok
        cases h
        simp [hok]
      · cases h

end NanoAgent
