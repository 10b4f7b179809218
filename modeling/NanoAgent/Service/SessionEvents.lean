import NanoAgent.Service.Binding

/-!
# Session events

An event is made for a session, with the key of the session and its proxy client, and is
posted to the event generator. When it fires, its handler finds the session by the key.
`SameEvents` says what most functions leave alone of this: the events and their postings
stay, and no session gets another proxy client.
-/

namespace NanoAgent

open Prog

namespace Service

/-- The postings that the generator has, and those whose handler is about to run. -/
def pending (a : Service) : List Posting := a.posted ++ a.dispatched

/-- The event of a posting. -/
def event (a : Service) (p : Posting) : SessionEvent := a.poolEventsSession.content p.event

/-- An event made for the key is pending. -/
def EventPending (a : Service) (key : ClientSessionKey) : Prop :=
  ∃ p ∈ a.pending, (a.event p).sessionKey = key

/-- No pending event finds a session of the client. -/
def Unheard (a : Service) (c : ℕ) : Prop :=
  ∀ p ∈ a.pending, ∀ s, a.sessions.lookup (a.event p).sessionKey = some s → s.userData ≠ some c

/-- The client is not that of a session. -/
def Unused (a : Service) (c : ℕ) : Prop :=
  ∀ key s, a.sessions.lookup key = some s → s.userData ≠ some c

theorem Unused.unheard {a : Service} {c : ℕ} (h : a.Unused c) : a.Unheard c :=
  fun _ _ s hs => h _ s hs

end Service

/-- From `a` to `b` the session events and their postings stay, no session is added and
none changes its user data. -/
structure SameEvents (a b : Service) : Prop where
  events : b.poolEventsSession = a.poolEventsSession
  posted : b.posted = a.posted
  dispatched : b.dispatched = a.dispatched
  clientsNext : a.clientsPool.next ≤ b.clientsPool.next
  clientsReturned : b.clientsPool.returned = a.clientsPool.returned
  eventHb : ∀ c < b.clientsPool.next, ∀ e, (b.client c).eventHb = some e →
    c < a.clientsPool.next ∧ (a.client c).eventHb = some e
  users : ∀ key s, b.sessions.lookup key = some s →
    ∃ s', a.sessions.lookup key = some s' ∧ s.userData = s'.userData

namespace SameEvents

variable {a b d : Service}

theorem of_work (h : ClientWork a b) : SameEvents a b where
  events := congrArg Service.Registry.poolEventsSession h.registry
  posted := congrArg Service.Registry.posted h.registry
  dispatched := congrArg Service.Registry.dispatched h.registry
  clientsNext := Nat.le_of_eq h.clientsNext.symm
  clientsReturned := h.clientsReturned
  eventHb c hc e he := by
    rw [← he]
    exact ⟨h.clientsNext ▸ hc, (congrArg ProxyClient.Connection.eventHb (h.connection c)).symm⟩
  users key s hs := ⟨s, h.sessions ▸ hs, rfl⟩

theorem rfl' (a : Service) : SameEvents a a := of_work (.rfl' a)

theorem trans' (h : SameEvents a b) (h' : SameEvents b d) : SameEvents a d where
  events := h'.events.trans h.events
  posted := h'.posted.trans h.posted
  dispatched := h'.dispatched.trans h.dispatched
  clientsNext := Nat.le_trans h.clientsNext h'.clientsNext
  clientsReturned := h'.clientsReturned.trans h.clientsReturned
  eventHb c hc e he := by
    obtain ⟨hlt, he'⟩ := h'.eventHb c hc e he
    exact h.eventHb c hlt e he'
  users key s hs := by
    obtain ⟨s', hs', heq⟩ := h'.users key s hs
    obtain ⟨s'', hs'', heq'⟩ := h.users key s' hs'
    exact ⟨s'', hs'', heq.trans heq'⟩

instance : IsPreorder Service SameEvents where
  refl := rfl'
  trans _ _ _ := trans'

/-- A change of a proxy client that does not give it an event. -/
theorem updateClient (a : Service) (c : ℕ) {f : ProxyClient → ProxyClient}
    (hf : ∀ p e, (f p).eventHb = some e → p.eventHb = some e) :
    SameEvents a (a.updateClient c f) where
  events := rfl
  posted := rfl
  dispatched := rfl
  clientsNext := le_rfl
  clientsReturned := rfl
  eventHb d hlt e he := by
    rw [Service.client_updateClient] at he
    by_cases hd : d = c
    · rw [if_pos hd] at he
      exact ⟨hlt, hf _ e he⟩
    · rw [if_neg hd] at he
      exact ⟨hlt, he⟩
  users key s hs := ⟨s, hs, rfl⟩

/-- A change of the session table that keeps the user data. -/
theorem ofSessions (a : Service) (t : AList (fun _ : ClientSessionKey => ClientSession))
    (h : ∀ key s, t.lookup key = some s →
      ∃ s', a.sessions.lookup key = some s' ∧ s.userData = s'.userData) :
    SameEvents a { a with sessions := t } :=
  ⟨rfl, rfl, rfl, le_rfl, rfl, fun _ hc _ he => ⟨hc, he⟩, h⟩

theorem updateSession (a : Service) (key : ClientSessionKey) {f : ClientSession → ClientSession}
    (hf : ∀ s, a.sessions.lookup key = some s → (f s).userData = s.userData) :
    SameEvents a (a.updateSession key f) := by
  refine ofSessions a _ fun k s hs => ?_
  rw [AList.lookup_modify] at hs
  split at hs
  · rename_i hk
    obtain ⟨s', hs', rfl⟩ := Option.map_eq_some_iff.1 hs
    exact ⟨s', hs', hf s' (hk ▸ hs')⟩
  · exact ⟨s, hs, rfl⟩

theorem eraseSession (a : Service) (key : ClientSessionKey) :
    SameEvents a { a with sessions := a.sessions.erase key } :=
  ofSessions a _ fun _ s hs => ⟨s, AList.lookup_of_lookup_erase hs, rfl⟩

theorem takeClient (a : Service) :
    SameEvents a { a with clientsPool := a.clientsPool.take .initializer } where
  events := rfl
  posted := rfl
  dispatched := rfl
  clientsNext := Nat.le_succ _
  clientsReturned := rfl
  eventHb c hlt e he := by
    by_cases hc : c = a.clientsPool.next
    · subst hc
      rw [Service.client, BufferPool.content_take_self] at he
      cases he
    · rw [Service.client, BufferPool.content_take_of_ne _ _ hc] at he
      have hle : c < a.clientsPool.next + 1 := hlt
      exact ⟨by omega, he⟩
  users key s hs := ⟨s, hs, rfl⟩

theorem pending_eq (h : SameEvents a b) : b.pending = a.pending := by
  rw [Service.pending, h.posted, h.dispatched, Service.pending]

theorem event_eq (h : SameEvents a b) (p : Posting) : b.event p = a.event p := by
  rw [Service.event, h.events, Service.event]

theorem eventPending_iff (h : SameEvents a b) (key : ClientSessionKey) :
    b.EventPending key ↔ a.EventPending key := by
  simp only [Service.EventPending, h.pending_eq, h.event_eq]

theorem live (h : SameEvents a b) {c : ℕ} (hc : a.clientsPool.Live c) : b.clientsPool.Live c := by
  refine ⟨Nat.lt_of_lt_of_le hc.1 h.clientsNext, ?_⟩
  rw [h.clientsReturned]
  exact hc.2

theorem unheard (h : SameEvents a b) {c : ℕ} (hc : a.Unheard c) : b.Unheard c := by
  intro p hp s hs
  rw [h.pending_eq] at hp
  rw [h.event_eq] at hs
  obtain ⟨s', hs', heq⟩ := h.users _ s hs
  rw [heq]
  exact hc p hp s' hs'

theorem unused (h : SameEvents a b) {c : ℕ} (hc : a.Unused c) : b.Unused c := by
  intro key s hs
  obtain ⟨s', hs', heq⟩ := h.users key s hs
  rw [heq]
  exact hc key s' hs'

end SameEvents

namespace ServiceM

variable (env : ServiceEnv)

theorem within_sameEvents_of_work {α : Type} {x : ServiceM α} (h : Within ClientWork x) :
    Within SameEvents x :=
  fun a => .of_work (h a)

theorem sameEvents_updateClient (c : ℕ) {f : ProxyClient → ProxyClient}
    (hf : ∀ p, (f p).eventHb = p.eventHb) :
    Within SameEvents (modify fun a : Service => a.updateClient c f) :=
  .modify fun a => .updateClient a c fun p _ he => hf p ▸ he

theorem sameEvents_updateSession (key : ClientSessionKey) {f : ClientSession → ClientSession}
    (hf : ∀ s, (f s).userData = s.userData) :
    Within SameEvents (modify fun a : Service => a.updateSession key f) :=
  .modify fun a => .updateSession a key fun s _ => hf s

/-- A change of the mapping table, its mutex, the storage pools, the loans or what was sent. -/
theorem sameEvents_modify {f : Service → Service}
    (hf : ∀ a, (f a).poolEventsSession = a.poolEventsSession ∧ (f a).posted = a.posted ∧
      (f a).dispatched = a.dispatched ∧ (f a).clientsPool = a.clientsPool ∧
      (f a).sessions = a.sessions) : Within SameEvents (modify f) := by
  refine .modify fun a => ?_
  obtain ⟨he, hp, hd, hc, hs⟩ := hf a
  refine ⟨he, hp, hd, by rw [hc], by rw [hc], ?_, fun key s h => ⟨s, hs ▸ h, rfl⟩⟩
  intro c hlt e h
  rw [hc] at hlt
  rw [Service.client, hc] at h
  exact ⟨hlt, h⟩

theorem allocateStreamStorage_sameEvents (c n : ℕ) :
    Within SameEvents (allocateStreamStorage env c n) := by
  refine .ensureThen fun _ => .read fun a => .bind ?_ fun _ => ?_
  · exact sameEvents_modify fun _ => ⟨rfl, rfl, rfl, rfl, rfl⟩
  · exact .bind (sameEvents_updateClient c fun _ => rfl) fun _ => .pure _

theorem prepareClient_sameEvents (c : ℕ) (repr : ClientRepresentation) (cache : Bool)
    (src : BindEntry) : Within SameEvents (prepareClient env c repr cache src) := by
  refine .bind (.bind (.modify fun a => .updateClient a c fun _ _ he => by cases he) ?_) ?_
  · refine fun _ => .ensureThen fun _ => .read fun a => .bind ?_ fun _ => ?_
    · exact sameEvents_modify fun _ => ⟨rfl, rfl, rfl, rfl, rfl⟩
    · refine .bind (sameEvents_updateClient c fun _ => rfl) fun _ => ?_
      refine .bind (allocateStreamStorage_sameEvents env c 0) fun _ => ?_
      refine .bind (allocateStreamStorage_sameEvents env c 1) fun _ => ?_
      exact .ensureThen fun _ => .ensureThen fun _ => sameEvents_updateClient c fun _ => rfl
  · refine fun _ => .bind (sameEvents_updateClient c fun _ => rfl) fun _ => ?_
    refine .bind (sameEvents_updateClient c fun _ => rfl) fun _ => .ensureThen fun _ => ?_
    exact sameEvents_updateClient c fun _ => rfl

theorem recordMapping_sameEvents (c : ℕ) : Within SameEvents (recordMapping env c) := by
  have hstore : ∀ i, Within SameEvents (storeMapping env c i) := by
    intro i
    refine .bind (sameEvents_modify fun _ => ⟨rfl, rfl, rfl, rfl, rfl⟩) fun _ =>
      .bind ?_ fun _ => ?_
    · exact .onFailure (.ensure _) (sameEvents_modify fun _ => ⟨rfl, rfl, rfl, rfl, rfl⟩)
    · refine .bind (sameEvents_modify fun _ => ⟨rfl, rfl, rfl, rfl, rfl⟩) fun _ => ?_
      exact sameEvents_modify fun _ => ⟨rfl, rfl, rfl, rfl, rfl⟩
  refine .read fun a => ?_
  cases a.findClientLocatorMapping (a.client c).bindEntry.locator with
  | some i => exact hstore i
  | none =>
      refine .bind (.bind (.onFailure (.ensure _) ?_) fun _ => ?_) fun _ => hstore _
      · exact sameEvents_modify fun _ => ⟨rfl, rfl, rfl, rfl, rfl⟩
      · exact sameEvents_modify fun _ => ⟨rfl, rfl, rfl, rfl, rfl⟩

theorem cacheClientMapping_sameEvents (c : ℕ) : Within SameEvents (cacheClientMapping env c) := by
  refine .bind (sameEvents_updateClient c fun _ => rfl) fun _ => .bind ?_ fun _ => ?_
  · exact sameEvents_modify fun _ => ⟨rfl, rfl, rfl, rfl, rfl⟩
  · exact recordMapping_sameEvents env c

theorem onSessionReset_sameEvents (key : ClientSessionKey) (old : ℕ) :
    Within SameEvents (onSessionReset env key old) := by
  refine .bind (sameEvents_updateClient old fun _ => rfl) fun _ => .bind ?_ fun _ => ?_
  · exact within_sameEvents_of_work (dismissClientFwdDataRequests_work env old none _)
  · refine .bind (sameEvents_updateClient old fun _ => rfl) fun _ => .bind ?_ fun _ => ?_
    · exact within_sameEvents_of_work (replyToConnection_work env old)
    · exact .bind (sameEvents_updateClient old fun _ => rfl) fun _ => .pure _

/-- A session that is reset keeps its user data. -/
theorem resetSession_sameEvents {key : ClientSessionKey} {s : ClientSession} {a : Service}
    (hs : a.sessions.lookup key = some s) : SameEvents a (resetSession env key s a).2 := by
  refine keeps_ensure (.rfl' a) fun _ => ?_
  rw [modify_bind_apply, read_bind_apply]
  set b := a.updateSession key fun s => { s with resetting := true } with hb
  have hab : SameEvents a b := .updateSession a key fun _ _ => rfl
  refine keeps_ensure hab fun _ => keeps_require hab fun old hold => ?_
  have hreset : SameEvents a (onSessionReset env key old b).2 :=
    hab.trans' (onSessionReset_sameEvents env key old b)
  refine keeps_bind (fun _ => hreset) fun v hv => ?_
  rw [onSessionReset_eq_some env hv, modify_bind_apply]
  set d := (onSessionReset env key old b).2
  have hdata : SameEvents a (d.updateSession key fun s => { s with userData := some old }) := by
    refine hreset.trans' (.updateSession d key fun t ht => ?_)
    obtain ⟨t', ht', heq⟩ := hreset.users key t ht
    rw [hs] at ht'
    rw [heq, ← Option.some.inj ht']
    exact hold.symm
  exact keeps_ensure hdata fun _ => hdata.trans' (.updateSession _ key fun _ _ => rfl)

theorem disposeSession_sameEvents (key : ClientSessionKey) (s : ClientSession) :
    Within SameEvents (disposeSession env key s) :=
  .onlyIf fun _ => .bind (sameEvents_updateSession key fun _ => rfl) fun _ => .ensure _

theorem closeSession_sameEvents (key : ClientSessionKey) :
    Within SameEvents (closeSession env key) := by
  refine .ensureThen fun _ => .ensureThen fun _ => .read fun a => .bind (.require _) fun s => ?_
  exact .ensureThen fun _ => .ensureThen fun _ => disposeSession_sameEvents env key s

theorem onSessionActivity_sameEvents (key : ClientSessionKey) :
    Within SameEvents (onSessionActivity env key) :=
  .read fun _ => .bind (.require _) fun _ => .ensure _

theorem receiveOnSession_sameEvents (key : ClientSessionKey) :
    Within SameEvents (receiveOnSession env key) := by
  refine .ensureThen fun _ => .read fun a => ?_
  cases a.sessions.lookup key with
  | none => exact .pure _
  | some s =>
      refine .ensureThen fun _ => .ensureThen fun _ => .bind ?_ fun _ => ?_
      · exact onSessionActivity_sameEvents env key
      · refine .bind (.require _) fun c => .bind ?_ fun _ => .onlyIf fun _ => ?_
        · exact within_sameEvents_of_work (onMessageReceived_work env c)
        · exact .ensureThen fun _ => closeSession_sameEvents env key

end ServiceM

end NanoAgent
