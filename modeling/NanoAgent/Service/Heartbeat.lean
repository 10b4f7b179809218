import NanoAgent.Service.Disposal
import NanoAgent.Service.SessionEvents
import NanoAgent.Service.SessionTable

/-!
# The heartbeat of a session

When a session is opened and a heartbeat period is configured, an event is made for it and
posted. When it fires, its handler looks the session up, calls `onPeriodicHeartbeat` for the
client of the event and posts the event again.

`EventsSound` is the invariant: an event that is pending finds either no session or the one
it was made for. It is kept by runs that are `Steady`: no timeout deletes an event, no
session is opened under the key of a pending event, and no opening fails after the event was
posted.
-/

namespace NanoAgent

open Prog

/-- What holds of the session events: no record was returned, an event that is pending finds
no session but that of its listener, which is live, and no two of them are for one key. A
client belongs to one session. -/
structure EventsSound (a : Service) : Prop where
  returned : a.poolEventsSession.returned = []
  handedOut : ∀ p ∈ a.pending, p.event < a.poolEventsSession.next
  eventHb : ∀ c < a.clientsPool.next, ∀ e, (a.client c).eventHb = some e →
    e < a.poolEventsSession.next
  current : ∀ p ∈ a.pending, ∀ s, a.sessions.lookup (a.event p).sessionKey = some s →
    s.userData = some (a.event p).listener ∧ a.clientsPool.Live (a.event p).listener
  single : ∀ p ∈ a.pending, ∀ q ∈ a.pending,
    (a.event p).sessionKey = (a.event q).sessionKey → p.event = q.event
  distinct : ∀ k k' s s' c, a.sessions.lookup k = some s → a.sessions.lookup k' = some s' →
    s.userData = some c → s'.userData = some c → k = k'
  known : ∀ k s c, a.sessions.lookup k = some s → s.userData = some c → c < a.clientsPool.next
  sound : a.clientsPool.Sound

namespace EventsSound

variable {a b : Service} {key : ClientSessionKey} {c e : ℕ}

theorem of_same (h : EventsSound a) (hab : SameEvents a b) : EventsSound b where
  returned := by rw [hab.events, h.returned]
  handedOut p hp := by
    rw [hab.pending_eq] at hp
    rw [hab.events]
    exact h.handedOut p hp
  eventHb c hc e he := by
    obtain ⟨hlt, he'⟩ := hab.eventHb c hc e he
    rw [hab.events]
    exact h.eventHb c hlt e he'
  current p hp s hs := by
    rw [hab.pending_eq] at hp
    rw [hab.event_eq] at hs ⊢
    obtain ⟨s', hs', heq⟩ := hab.users _ s hs
    obtain ⟨hu, hlive⟩ := h.current p hp s' hs'
    exact ⟨heq.trans hu, hab.live hlive⟩
  single p hp q hq hkey := by
    rw [hab.pending_eq] at hp hq
    rw [hab.event_eq, hab.event_eq] at hkey
    exact h.single p hp q hq hkey
  distinct k k' s s' c hs hs' hu hu' := by
    obtain ⟨t, ht, heq⟩ := hab.users k s hs
    obtain ⟨t', ht', heq'⟩ := hab.users k' s' hs'
    exact h.distinct k k' t t' c ht ht' (heq ▸ hu) (heq' ▸ hu')
  known k s c hs hu := by
    obtain ⟨t, ht, heq⟩ := hab.users k s hs
    exact Nat.lt_of_lt_of_le (h.known k t c ht (heq ▸ hu)) hab.clientsNext
  sound c hc := by
    rw [hab.clientsReturned] at hc
    exact Nat.lt_of_lt_of_le (h.sound c hc) hab.clientsNext

/-- A client that no pending event finds is given back. -/
theorem giveBack (h : EventsSound a) (hc : a.Unheard c) (hlt : c < a.clientsPool.next) :
    EventsSound { a with clientsPool := a.clientsPool.giveBack c } where
  returned := h.returned
  handedOut := h.handedOut
  eventHb := h.eventHb
  current p hp s hs := by
    obtain ⟨hu, hlive⟩ := h.current p hp s hs
    refine ⟨hu, hlive.giveBack ?_⟩
    rintro rfl
    exact hc p hp s hs hu
  single := h.single
  distinct := h.distinct
  known := h.known
  sound := h.sound.giveBack hlt

/-- A session is added for a client that has none, under a key without pending events. -/
theorem insertSession (h : EventsSound a) (hkey : ¬ a.EventPending key) (hc : a.Unused c)
    (hlt : c < a.clientsPool.next) {s₀ : ClientSession} (hs₀ : s₀.userData = some c) :
    EventsSound { a with sessions := a.sessions.insert key s₀ } := by
  -- the sessions after the insertion
  have hcases : ∀ k s, (a.sessions.insert key s₀).lookup k = some s →
      k = key ∧ s = s₀ ∨ k ≠ key ∧ a.sessions.lookup k = some s := by
    intro k s hs
    by_cases hk : k = key
    · subst hk
      rw [AList.lookup_insert] at hs
      exact .inl ⟨rfl, (Option.some.inj hs).symm⟩
    · rw [AList.lookup_insert_ne hk] at hs
      exact .inr ⟨hk, hs⟩
  refine ⟨h.returned, h.handedOut, h.eventHb, ?_, h.single, ?_, ?_, h.sound⟩
  · intro p hp s hs
    rcases hcases _ s hs with ⟨hk, -⟩ | ⟨-, hs⟩
    · exact absurd ⟨p, hp, hk⟩ hkey
    · exact h.current p hp s hs
  · intro k k' s s' d hs hs' hu hu'
    rcases hcases k s hs with ⟨hk, heq⟩ | ⟨-, hold⟩
    · rcases hcases k' s' hs' with ⟨hk', -⟩ | ⟨-, hold'⟩
      · exact hk.trans hk'.symm
      · obtain rfl : c = d := Option.some.inj (hs₀.symm.trans (heq ▸ hu))
        exact absurd hu' (hc k' s' hold')
    · rcases hcases k' s' hs' with ⟨-, heq'⟩ | ⟨-, hold'⟩
      · obtain rfl : c = d := Option.some.inj (hs₀.symm.trans (heq' ▸ hu'))
        exact absurd hu (hc k s hold)
      · exact h.distinct k k' s s' d hold hold' hu hu'
  · intro k s d hs hu
    rcases hcases k s hs with ⟨-, rfl⟩ | ⟨-, hs⟩
    · obtain rfl : c = d := Option.some.inj (hs₀.symm.trans hu)
      exact hlt
    · exact h.known k s d hs hu

/-- An event is posted that finds no session but that of its listener, when it is the only
one for its key. -/
theorem post (h : EventsSound a) (he : e < a.poolEventsSession.next) {cancelled : Bool}
    (hcurrent : ∀ s, a.sessions.lookup (a.poolEventsSession.content e).sessionKey = some s →
      s.userData = some (a.poolEventsSession.content e).listener ∧
        a.clientsPool.Live (a.poolEventsSession.content e).listener)
    (hsingle : ∀ p ∈ a.pending,
      (a.event p).sessionKey = (a.poolEventsSession.content e).sessionKey → p.event = e) :
    EventsSound (a.postSessionEvent ⟨e, cancelled⟩) := by
  have hpending : ∀ p ∈ (a.postSessionEvent ⟨e, cancelled⟩).pending,
      p = ⟨e, cancelled⟩ ∨ p ∈ a.pending := by
    intro p hp
    simp only [Service.postSessionEvent, Service.pending, List.mem_append, List.mem_filter,
      List.mem_singleton] at hp ⊢
    tauto
  refine ⟨h.returned, ?_, h.eventHb, ?_, ?_, h.distinct, h.known, h.sound⟩
  · intro p hp
    rcases hpending p hp with rfl | hp
    · exact he
    · exact h.handedOut p hp
  · intro p hp
    rcases hpending p hp with rfl | hp
    · exact hcurrent
    · exact h.current p hp
  · intro p hp q hq hkey
    rcases hpending p hp with rfl | hp
    · rcases hpending q hq with rfl | hq
      · rfl
      · exact (hsingle q hq hkey.symm).symm
    · rcases hpending q hq with rfl | hq
      · exact hsingle p hp hkey
      · exact h.single p hp q hq hkey

/-- Fewer postings. -/
theorem of_subset (h : EventsSound a) {posted dispatched : List Posting}
    (hsub : ∀ p, p ∈ posted ++ dispatched → p ∈ a.pending) :
    EventsSound { a with posted := posted, dispatched := dispatched } where
  returned := h.returned
  handedOut p hp := h.handedOut p (hsub p hp)
  eventHb := h.eventHb
  current p hp := h.current p (hsub p hp)
  single p hp q hq := h.single p (hsub p hp) q (hsub q hq)
  distinct := h.distinct
  known := h.known
  sound := h.sound

end EventsSound

namespace ServiceM

variable (env : ServiceEnv) {a : Service} {key : ClientSessionKey} {c : ℕ}

theorem deleteClientSession_sound (h : EventsSound a) (hc : a.Unheard c)
    (hlt : c < a.clientsPool.next) : EventsSound (a.deleteClientSession c) := by
  have hsame : SameEvents a (a.finalizeProxyClient c) := .of_work (.finalizeProxyClient a c)
  exact (h.of_same hsame).giveBack (hsame.unheard hc) (Nat.lt_of_lt_of_le hlt hsame.clientsNext)

theorem onSessionClosed_sound (h : EventsSound a) (hc : a.Unheard c)
    (hlt : c < a.clientsPool.next) : EventsSound (onSessionClosed env c a).2 := by
  rw [onSessionClosed, read_bind_apply, modify_bind_apply]
  set b := a.updateClient c fun p => { p with disposeRequest := none }
  have hab : SameEvents a b := .updateClient a c fun _ _ he => he
  have hreply : Within SameEvents (onlyIf (a.client c).disposeRequest.isSome do
      let r := (a.client c).disposeRequest.getD 0
      modify fun a => a.updateRequest c r fun q => { q with reply := true }
      onFailure (replyToOperation env c r true) (modify fun a => a.returnClientRequest c r)
      modify fun a => a.returnClientRequest c r) := by
    refine .onlyIf fun _ => .bind (sameEvents_updateClient c fun _ => rfl) fun _ => ?_
    refine .bind (.onFailure ?_ ?_) fun _ => sameEvents_updateClient c fun _ => rfl
    · exact within_sameEvents_of_work (replyToOperation_work env c _ true)
    · exact sameEvents_updateClient c fun _ => rfl
  have had := hab.trans' (hreply b)
  refine keeps_bind (fun _ => h.of_same had) fun _ _ => ?_
  exact deleteClientSession_sound (h.of_same had) (had.unheard hc)
    (Nat.lt_of_lt_of_le hlt had.clientsNext)

/-- The session of a key is removed, and its client told. -/
theorem eraseSession_sound (h : EventsSound a) {s : ClientSession}
    (hs : a.sessions.lookup key = some s) (hc : s.userData = some c) :
    EventsSound (onSessionClosed env c { a with sessions := a.sessions.erase key }).2 := by
  have herase : SameEvents a { a with sessions := a.sessions.erase key } := .eraseSession a key
  refine onSessionClosed_sound env (h.of_same herase) (Service.Unused.unheard ?_)
    (Nat.lt_of_lt_of_le (h.known key s c hs hc) herase.clientsNext)
  intro k s' hs' hu'
  have hold : a.sessions.lookup k = some s' := AList.lookup_of_lookup_erase hs'
  obtain rfl := h.distinct k key s' s c hold hs hu' hc
  simp at hs'

theorem cleanupSession_sound (h : EventsSound a) : EventsSound (cleanupSession env key a).2 := by
  rw [cleanupSession, read_bind_apply]
  refine keeps_require h fun s hs => keeps_ensure h fun _ => keeps_ensure h fun _ => ?_
  split
  · refine keeps_ensure h fun _ => keeps_ensure h fun _ => ?_
    rw [modify_bind_apply]
    refine keeps_require (h.of_same (.eraseSession a key)) fun c hc => ?_
    exact eraseSession_sound env h hs hc
  · exact h.of_same (.updateSession a key fun _ _ => rfl)

theorem finishCloseSession_sound (h : EventsSound a) :
    EventsSound (finishCloseSession env key a).2 := by
  rw [finishCloseSession, read_bind_apply]
  refine keeps_require h fun s hs => keeps_ensure h fun _ => keeps_ensure h fun _ => ?_
  rw [modify_bind_apply]
  set b := a.updateSession key fun s => { s with semCleanup := false } with hb
  have hsound : EventsSound b := h.of_same (.updateSession a key fun _ _ => rfl)
  have hbs : b.sessions.lookup key = some { s with semCleanup := false } := by
    rw [hb, Service.updateSession, AList.lookup_modify_self, hs]
    rfl
  refine keeps_ensure hsound fun _ => keeps_ensure hsound fun _ => ?_
  rw [modify_bind_apply]
  have herased := hsound.of_same (.eraseSession b key)
  refine keeps_ensure herased fun _ => keeps_require herased fun c hc => ?_
  exact eraseSession_sound env hsound hbs hc

/-- The timeout of a session whose event is not deleted. -/
theorem onSessionTimeout_sound (h : EventsSound a)
    (hok : ∀ s c, a.sessions.lookup key = some s → s.active = true → s.userData = some c →
      (a.client c).eventHb = none ∨ env.ok .postEvent = false) :
    EventsSound (onSessionTimeout env key a).2 := by
  refine keeps_ensure h fun _ => ?_
  rw [read_bind_apply]
  refine keeps_require h fun s hs => keeps_ensure h fun hactive => ?_
  rw [modify_bind_apply]
  set b := a.updateSession key fun s => { s with timedout := true }
  have hab : SameEvents a b := .updateSession a key fun _ _ => rfl
  refine keeps_require (h.of_same hab) fun c hc => ?_
  have htimed : SameEvents b (onSessionTimedOut env c b).2 := by
    rw [onSessionTimedOut, read_bind_apply]
    have hevent := hok s c hs hactive hc
    change (b.client c).eventHb = none ∨ _ at hevent
    rcases hevent with hnone | hfail
    · rw [hnone]
      exact within_sameEvents_of_work (disposeClientSession_work env c none) b
    · have hdelete : SameEvents b (onlyIf (b.client c).eventHb.isSome
          (deleteSessionEvent env ((b.client c).eventHb.getD 0)) b).2 := by
        refine keeps_onlyIf (.rfl' b) fun _ => ?_
        rw [deleteSessionEvent, hfail]
        exact .rfl' b
      refine keeps_bind (I := fun d => SameEvents b d) (fun _ => hdelete) fun _ _ => ?_
      exact hdelete.trans' (within_sameEvents_of_work (disposeClientSession_work env c none) _)
  have hrest : Within SameEvents (do
      disposeSession env key s
      ensure (env.ok .releaseSession)) :=
    .bind (disposeSession_sameEvents env key s) fun _ => .ensure _
  refine h.of_same (hab.trans' (htimed.trans' ?_))
  exact hrest _

/-- The event of a new session is made, and is not pending yet. -/
theorem createSessionEvent_sound (h : EventsSound a) (hkey : ¬ a.EventPending key)
    (hc : a.Unheard c) (i : ℕ) :
    let b := { a with poolEventsSession := a.poolEventsSession.take ⟨i, key, c⟩ }.updateClient c
      fun p => { p with eventHb := some a.poolEventsSession.next }
    EventsSound b ∧ ¬ b.EventPending key ∧ b.Unheard c := by
  intro b
  have hevent : ∀ p ∈ a.pending, b.event p = a.event p := by
    intro p hp
    have hlt := h.handedOut p hp
    change (a.poolEventsSession.take ⟨i, key, c⟩).content p.event = _
    exact BufferPool.content_take_of_ne _ _ (by omega)
  refine ⟨⟨h.returned, ?_, ?_, ?_, ?_, h.distinct, h.known, h.sound⟩, ?_, ?_⟩
  · intro p hp
    exact Nat.lt_succ_of_lt (h.handedOut p hp)
  · intro d hd e he
    rw [Service.client_updateClient] at he
    split at he
    · rw [← Option.some.inj he]
      exact Nat.lt_succ_self _
    · exact Nat.lt_succ_of_lt (h.eventHb d hd e he)
  · intro p hp
    rw [hevent p hp]
    exact h.current p hp
  · intro p hp q hq
    rw [hevent p hp, hevent q hq]
    exact h.single p hp q hq
  · rintro ⟨p, hp, hk⟩
    rw [hevent p hp] at hk
    exact hkey ⟨p, hp, hk⟩
  · intro p hp
    rw [hevent p hp]
    exact hc p hp

theorem scheduleHeartbeat_sound (h : EventsSound a) (hkey : ¬ a.EventPending key)
    (hc : a.Unheard c) (hlive : a.clientsPool.Live c)
    (huser : ∀ s, a.sessions.lookup key = some s → s.userData = some c) :
    EventsSound (scheduleHeartbeat env key c a).2 ∧
      ((scheduleHeartbeat env key c a).1 = none → (scheduleHeartbeat env key c a).2.Unheard c) := by
  rcases hx : createSessionEvent env key c a with ⟨_ | e, b⟩
  · -- nothing has happened when there is no event
    have hb : b = a := by
      have hsame : (createSessionEvent env key c a).1 = none →
          (createSessionEvent env key c a).2 = a := by
        rw [createSessionEvent, read_bind_apply]
        cases a.sessions.lookup key with
        | none => exact fun _ => rfl
        | some s =>
            change ((ensure _ >>= _ : ServiceM ℕ) a).1 = none →
              ((ensure _ >>= _ : ServiceM ℕ) a).2 = a
            cases decide (s.intf = a.intf) with
            | false => exact fun _ => rfl
            | true =>
                rw [ensure_true_bind_apply]
                cases env.ok .getEvent with
                | false => exact fun _ => rfl
                | true => exact fun hnone => by cases hnone
      rw [hx] at hsame
      exact hsame rfl
    rw [scheduleHeartbeat, bind_apply, hx, hb]
    exact ⟨h, fun _ => hc⟩
  · have hnew := hx
    rw [createSessionEvent, read_bind_apply] at hnew
    obtain ⟨s, _, hrequire, hnew⟩ := bind_eq_some.1 hnew
    obtain ⟨-, rfl⟩ := require_eq_some.1 hrequire
    obtain ⟨_, _, hintf, hnew⟩ := bind_eq_some.1 hnew
    obtain ⟨-, rfl⟩ := ensure_eq_some.1 hintf
    obtain ⟨_, _, hget, hnew⟩ := bind_eq_some.1 hnew
    obtain ⟨-, rfl⟩ := ensure_eq_some.1 hget
    rw [modify_bind_apply] at hnew
    obtain ⟨rfl, rfl⟩ := pure_eq_some.1 hnew
    rw [scheduleHeartbeat, bind_apply, hx]
    dsimp only
    rw [modify_bind_apply]
    obtain ⟨hsound, hnone, hunheard⟩ := createSessionEvent_sound h hkey hc a.intf
    rw [fireSessionEvent]
    cases env.ok .postEvent with
    | false => exact ⟨hsound, fun _ => hunheard⟩
    | true =>
        rw [ensure_true_bind_apply]
        refine ⟨hsound.post (Nat.lt_succ_self _) ?_ ?_, fun hfail => by cases hfail⟩
        · intro s hs
          rw [show (_ : Service).poolEventsSession.content _ = (⟨a.intf, key, c⟩ : SessionEvent)
            from BufferPool.content_take_self _ _] at hs ⊢
          exact ⟨huser s hs, hlive⟩
        · intro p hp hk
          rw [show (_ : Service).poolEventsSession.content _ = (⟨a.intf, key, c⟩ : SessionEvent)
            from BufferPool.content_take_self _ _] at hk
          exact absurd ⟨p, hp, hk⟩ hnone

/-- How the opening of a session for the client `c` ends, with a heartbeat of the given
period: the events are in order and, when it fails or there is no heartbeat, no pending
event finds a session of the client. -/
def OpeningSound (period c : ℕ) (res : Option Unit) (b : Service) : Prop :=
  EventsSound b ∧ (res = none ∨ period = 0 → b.Unheard c)

theorem OpeningSound.of_same (h : EventsSound a) (hc : a.Unheard c) {b : Service}
    (hab : SameEvents a b) (period : ℕ) (res : Option Unit) : OpeningSound period c res b :=
  ⟨h.of_same hab, fun _ => hab.unheard hc⟩

theorem onSessionOpened_sound (h : EventsSound a) (hkey : ¬ a.EventPending key)
    (hc : a.Unheard c) (hlive : a.clientsPool.Live c)
    (huser : ∀ s, a.sessions.lookup key = some s → s.userData = some c) :
    OpeningSound a.heartbeatPeriod c (onSessionOpened env key c a).1
      (onSessionOpened env key c a).2 := by
  rw [onSessionOpened, modify_bind_apply, read_bind_apply]
  set b := a.updateClient c fun p => { p with ddsSession := some key }
  have hab : SameEvents a b := .updateClient a c fun _ _ he => he
  have hcache : SameEvents a (onlyIf (b.client c).cacheMapping (cacheClientMapping env c) b).2 :=
    hab.trans' (keeps_onlyIf (I := fun d => SameEvents b d) (.rfl' b) fun _ =>
      cacheClientMapping_sameEvents env c b)
  refine exits_bind (K := OpeningSound a.heartbeatPeriod c) (fun _ => ?_) fun _ _ => ?_
  · exact .of_same h hc hcache _ _
  rw [modify_bind_apply]
  set d := (onlyIf (b.client c).cacheMapping (cacheClientMapping env c) b).2
  have hconnected : SameEvents a (d.updateClient c fun p => { p with connected := true }) :=
    hcache.trans' (.updateClient d c fun _ _ he => he)
  have hreply : SameEvents a
      (replyToConnection env c (d.updateClient c fun p => { p with connected := true })).2 :=
    hconnected.trans' (within_sameEvents_of_work (replyToConnection_work env c) _)
  refine exits_bind (K := OpeningSound a.heartbeatPeriod c) (fun _ => ?_) fun _ _ => ?_
  · exact .of_same h hc hreply _ _
  set f := (replyToConnection env c (d.updateClient c fun p => { p with connected := true })).2
  by_cases hperiod : a.heartbeatPeriod = 0
  · have hskip : (b.heartbeatPeriod != 0) = false := bne_eq_false_iff_eq.2 hperiod
    rw [hskip]
    exact .of_same h hc hreply _ _
  · have hrun : (b.heartbeatPeriod != 0) = true := bne_iff_ne.2 hperiod
    rw [hrun, onlyIf_true]
    have huser' : ∀ s, f.sessions.lookup key = some s → s.userData = some c := by
      intro s hs
      obtain ⟨s', hs', heq⟩ := hreply.users key s hs
      rw [heq]
      exact huser s' hs'
    obtain ⟨hsound, hfail⟩ := scheduleHeartbeat_sound env (h.of_same hreply)
      (fun hp => hkey ((hreply.eventPending_iff key).1 hp)) (hreply.unheard hc) (hreply.live hlive)
      huser'
    exact ⟨hsound, fun hor => hfail (hor.resolve_right hperiod)⟩

theorem openNewSession_sound (h : EventsSound a) (hkey : ¬ a.EventPending key)
    (hc : a.Unused c) (hlive : a.clientsPool.Live c) :
    OpeningSound a.heartbeatPeriod c (openNewSession env key c a).1
      (openNewSession env key c a).2 := by
  rw [openNewSession, modify_bind_apply]
  set b : Service :=
    { a with sessions := a.sessions.insert key (.initial a.intf a.clientSessionTimeout (some c)) }
    with hb
  have hsound : EventsSound b := h.insertSession hkey hc hlive.1 rfl
  have hunheard : b.Unheard c := by
    intro p hp s hs
    have hne : (a.event p).sessionKey ≠ key := fun hk => hkey ⟨p, hp, hk⟩
    change (a.sessions.insert key _).lookup (a.event p).sessionKey = some s at hs
    rw [AList.lookup_insert_ne hne] at hs
    exact hc _ s hs
  have huser : ∀ s, b.sessions.lookup key = some s → s.userData = some c := by
    intro s hs
    rw [hb, AList.lookup_insert] at hs
    rw [← Option.some.inj hs]
    rfl
  have hstays : ∀ res, OpeningSound a.heartbeatPeriod c res b :=
    fun _ => ⟨hsound, fun _ => hunheard⟩
  have hbody : ∀ body : ServiceM Unit, body = (do
        ensure (env.ok (.newSemaphore 0) && env.ok (.newSemaphore 1))
        ensure (env.ok .attachResources)
        onSessionOpened env key c) → OpeningSound a.heartbeatPeriod c (body b).1 (body b).2 := by
    rintro _ rfl
    refine exits_ensure (K := OpeningSound a.heartbeatPeriod c) (hstays none) fun _ => ?_
    refine exits_ensure (K := OpeningSound a.heartbeatPeriod c) (hstays none) fun _ => ?_
    exact onSessionOpened_sound env hsound hkey hunheard hlive huser
  have hopened := hbody _ rfl
  refine exits_onFailure (K := OpeningSound a.heartbeatPeriod c) (fun v hv => ?_) fun hfail => ?_
  · exact ⟨hopened.1, fun hor => hopened.2 (.inr (hor.resolve_left (by simp)))⟩
  · have hend := hopened.2 (.inl hfail)
    refine keeps_onlyIf (I := fun d => OpeningSound a.heartbeatPeriod c none d) ?_ fun _ => ?_
    · exact ⟨hopened.1, fun _ => hend⟩
    · exact .of_same hopened.1 hend (.eraseSession _ key) _ _

/-- What the opening of a session, new or reset, leaves. A new session must have no pending
event under its key, and with a heartbeat nothing may fail after it was opened. -/
theorem openSession_sound (h : EventsSound a) (hc : a.Unused c) (hlive : a.clientsPool.Live c)
    (hnew : a.sessions.lookup key = none → ¬ a.EventPending key ∧ (a.heartbeatPeriod = 0 ∨
      ((a.clientSessionTimeout = 0 ∨ env.ok .postActivity = true) ∧
        env.ok .releaseSession = true))) :
    OpeningSound 1 c (openSession env key c a).1 (openSession env key c a).2 := by
  refine exits_ensure (K := OpeningSound 1 c) ⟨h, fun _ => hc.unheard⟩ fun _ => ?_
  rw [bind_apply, resetOrOpenSession, read_bind_apply]
  have hrest : Within SameEvents (do
      onSessionActivity env key
      ensure (env.ok .releaseSession)) :=
    .bind (onSessionActivity_sameEvents env key) fun _ => .ensure _
  cases hs : a.sessions.lookup key with
  | some s =>
      have hreset : SameEvents a (resetSession env key s a).2 := resetSession_sameEvents env hs
      dsimp only
      rcases hx : resetSession env key s a with ⟨_ | _, b⟩
      · rw [hx] at hreset
        exact .of_same h hc.unheard hreset _ _
      · rw [hx] at hreset
        exact .of_same h hc.unheard (hreset.trans' (hrest b)) _ _
  | none =>
      obtain ⟨hkey, hends⟩ := hnew hs
      have hopen := openNewSession_sound env h hkey hc hlive
      dsimp only
      rcases hx : openNewSession env key c a with ⟨_ | _, b⟩
      · rw [hx] at hopen
        exact ⟨hopen.1, fun _ => hopen.2 (.inl rfl)⟩
      · rw [hx] at hopen
        rcases hends with hperiod | ⟨htimeout, hrelease⟩
        · exact .of_same hopen.1 (hopen.2 (.inr hperiod)) (hrest b) _ _
        · -- nothing fails from here on
          have hlookup := openNewSession_lookup env hx
          have hposted : (decide ((ClientSession.initial a.intf a.clientSessionTimeout
              (some c)).timeout = 0) || env.ok .postActivity) = true := by
            rw [Bool.or_eq_true, decide_eq_true_eq]
            exact htimeout
          dsimp only
          rw [onSessionActivity, hrelease]
          simp only [bind_apply, read_apply, hlookup, require_apply, hposted, ensure, if_true]
          exact ⟨hopen.1, fun hor => by rcases hor with hor | hor <;> cases hor⟩

theorem processCreateClient_sound (k sid : ℕ) (m : Message) (src : BindEntry)
    (keyInHeader missing : Bool) (h : EventsSound a)
    (hnew : ∀ v, deserializeClientRepr env.wire k sid m = some v →
      a.sessions.lookup v.1.sessionKey = none → ¬ a.EventPending v.1.sessionKey ∧
        (a.heartbeatPeriod = 0 ∨ ((a.clientSessionTimeout = 0 ∨ env.ok .postActivity = true) ∧
          env.ok .releaseSession = true))) :
    EventsSound (processCreateClient env k sid m src keyInHeader missing a).2 := by
  refine keeps_require h fun v hv => keeps_ensure h fun _ => keeps_ensure h fun _ =>
    keeps_ensure h fun _ => ?_
  rw [read_bind_apply, modify_bind_apply]
  set c := a.clientsPool.next
  set b : Service := { a with clientsPool := a.clientsPool.take .initializer }
  have hab : SameEvents a b := .takeClient a
  have hprepare : SameEvents a (prepareClient env c v.1 (missing || v.2) src b).2 :=
    hab.trans' (prepareClient_sameEvents env c v.1 (missing || v.2) src b)
  have hframe := prepareClient_preparing env c v.1 (missing || v.2) src b
  set d := (prepareClient env c v.1 (missing || v.2) src b).2
  have hunused : d.Unused c := by
    refine hprepare.unused fun key s hs hu => ?_
    exact Nat.lt_irrefl _ (h.known key s c hs hu)
  have hlive : d.clientsPool.Live c := by
    obtain ⟨hlt, hmem⟩ := h.sound.live_take ProxyClient.initializer
    refine ⟨hframe.clientsNext ▸ hlt, ?_⟩
    rw [hframe.clientsReturned]
    exact hmem
  have hconnect : OpeningSound 1 c (connectClient env c v.1 (missing || v.2) src b).1
      (connectClient env c v.1 (missing || v.2) src b).2 := by
    refine exits_bind (K := OpeningSound 1 c) (fun _ => ?_) fun _ _ => ?_
    · exact ⟨h.of_same hprepare, fun _ => hunused.unheard⟩
    · refine openSession_sound env (h.of_same hprepare) hunused hlive fun hnone => ?_
      have hregistry := hframe.registry
      rw [hframe.sessions] at hnone
      obtain ⟨hkey, hends⟩ := hnew v hv hnone
      refine ⟨fun hp => hkey ((hprepare.eventPending_iff _).1 hp), ?_⟩
      rw [show d.heartbeatPeriod = a.heartbeatPeriod from
          congrArg Service.Registry.heartbeatPeriod hregistry,
        show d.clientSessionTimeout = a.clientSessionTimeout from
          congrArg Service.Registry.clientSessionTimeout hregistry]
      exact hends
  have hlt : c < (connectClient env c v.1 (missing || v.2) src b).2.clientsPool.next := by
    refine Nat.lt_of_lt_of_le (m := b.clientsPool.next) (Nat.lt_succ_self c) ?_
    have hkeep : Rebinding 0 c v.1.sessionKey True b
        (connectClient env c v.1 (missing || v.2) src b).2 := by
      have hset : Rebinding 0 c v.1.sessionKey True b d :=
        prepareClient_rebinding env (Nat.zero_le c) v.1 _ src b
      refine keeps_bind (fun _ => hset) fun _ _ => hset.trans' ?_
      exact openSession_rebinding env hlive.1 fun _ _ => ⟨trivial, rfl⟩
    exact hkeep.next
  refine keeps_onFailure hconnect.1 fun hfail => ?_
  exact deleteClientSession_sound hconnect.1 (hconnect.2 (.inl hfail)) hlt

theorem receiveMessage_sound (src : BindEntry) (m : Message) (h : EventsSound a)
    (hnew : ∀ r, env.wire.noSession m.sessionId = true → m.clientRepr env.wire = some r →
      a.sessions.lookup r.sessionKey = none → ¬ a.EventPending r.sessionKey ∧
        (a.heartbeatPeriod = 0 ∨ ((a.clientSessionTimeout = 0 ∨ env.ok .postActivity = true) ∧
          env.ok .releaseSession = true))) :
    EventsSound (receiveMessage env src m a).2 := by
  refine keeps_ensure h fun _ => ?_
  obtain ⟨mutex, hmutex⟩ := identifySender_eq env m src a
  have hsame : SameEvents a { a with mappingsMutex := mutex } :=
    ⟨rfl, rfl, rfl, le_rfl, rfl, fun _ hc _ he => ⟨hc, he⟩, fun _ s hs => ⟨s, hs, rfl⟩⟩
  refine keeps_bind (fun _ => ?_) fun sender _ => ?_
  · rw [hmutex]
    exact h.of_same hsame
  · rw [hmutex, receiveFrom]
    split
    · rename_i hsid
      refine processCreateClient_sound env _ _ _ _ _ _ (h.of_same hsame) fun v hv hnone => ?_
      exact hnew v.1 hsid (deserializeClientRepr_eq_some hv).1 hnone
    · refine keeps_ensure (h.of_same hsame) fun _ => ?_
      exact (h.of_same hsame).of_same (receiveOnSession_sameEvents env _ _)

/-- `NDDSA_Agent_on_session_event`, up to the call of `onPeriodicHeartbeat`. The result is
the client it is called for. -/
def toHeartbeat (p : Posting) : ServiceM ℕ := do
  let a ← read
  ensure (env.ok .lookupSession)
  let s ← require (a.sessions.lookup (a.event p).sessionKey)
  ensure s.active
  ensure (s.intf = (a.event p).intf)
  ensure (!p.cancelled)
  pure (a.event p).listener

theorem onSessionEvent_eq (p : Posting) :
    onSessionEvent env p = (do
      let c ← toHeartbeat env p
      let reschedule ← onPeriodicHeartbeat env c
      onlyIf reschedule (fireSessionEvent env p.event)) := by
  simp only [onSessionEvent, toHeartbeat, bind_bind, pure_then, Service.event]
  rfl

/-- The client that the heartbeat of an event is sent for is that of its session. -/
theorem toHeartbeat_eq_some {p : Posting} (h : (toHeartbeat env p a).1 = some c) :
    c = (a.event p).listener ∧
      ∃ s, a.sessions.lookup (a.event p).sessionKey = some s ∧ s.active = true := by
  have hret := eq_of_fst_eq_some h
  rw [toHeartbeat, read_bind_apply] at hret
  obtain ⟨_, _, hlookup, hret⟩ := bind_eq_some.1 hret
  obtain ⟨-, rfl⟩ := ensure_eq_some.1 hlookup
  obtain ⟨s, _, hrequire, hret⟩ := bind_eq_some.1 hret
  obtain ⟨hs, rfl⟩ := require_eq_some.1 hrequire
  obtain ⟨_, _, hensure, hret⟩ := bind_eq_some.1 hret
  obtain ⟨hactive, rfl⟩ := ensure_eq_some.1 hensure
  obtain ⟨_, _, hintf, hret⟩ := bind_eq_some.1 hret
  obtain ⟨_, _, hcancelled, hret⟩ := bind_eq_some.1 hret
  obtain ⟨rfl, -⟩ := pure_eq_some.1 hret
  exact ⟨rfl, s, hs, hactive⟩

/-- The handler of an event that was dispatched posts it again, or does not. -/
theorem onSessionEvent_sound {p : Posting} (h : EventsSound a) (hp : p ∈ a.pending)
    {dispatched : List Posting} (hsub : ∀ q ∈ a.posted ++ dispatched, q ∈ a.pending) :
    EventsSound (onSessionEvent env p { a with dispatched := dispatched }).2 := by
  have hb : EventsSound { a with dispatched := dispatched } := h.of_subset hsub
  set b : Service := { a with dispatched := dispatched }
  rw [onSessionEvent, read_bind_apply]
  refine keeps_ensure hb fun _ => keeps_require hb fun s hs => keeps_ensure hb fun _ => ?_
  refine keeps_ensure hb fun _ => keeps_ensure hb fun _ => ?_
  have hbeat : Within ClientWork (onPeriodicHeartbeat env (b.event p).listener) := by
    refine .read fun d => .ite (fun _ => .pure _) fun _ => .bind (.modify fun d => ?_) fun _ => ?_
    · exact .send d _ _
    · exact .pure _
  have hsame : SameEvents b (onPeriodicHeartbeat env (b.event p).listener b).2 :=
    .of_work (hbeat b)
  refine keeps_bind (fun _ => hb.of_same hsame) fun _ _ => ?_
  refine keeps_onlyIf (hb.of_same hsame) fun _ => keeps_ensure (hb.of_same hsame) fun _ => ?_
  have hcontent := hsame.event_eq p
  refine (hb.of_same hsame).post ?_ ?_ ?_
  · rw [hsame.events]
    exact h.handedOut p hp
  · intro t ht
    rw [show (_ : Service).poolEventsSession.content p.event = a.event p from hcontent] at ht ⊢
    obtain ⟨t', ht', heq⟩ := hsame.users _ t ht
    obtain ⟨hu, hlive⟩ := h.current p hp t' ht'
    exact ⟨heq.trans hu, hsame.live hlive⟩
  · intro q hq hkey
    rw [hsame.pending_eq] at hq
    rw [hsame.event_eq, show (_ : Service).poolEventsSession.content p.event = a.event p
      from hcontent] at hkey
    exact h.single q (hsub q hq) p hp hkey

end ServiceM

namespace Service

/-- A step that keeps the events of sessions in order. A message does not open a session
under the key of a pending event and, when there is a heartbeat, nothing fails once the
session is open; a timeout is not that of a session whose event it deletes. -/
def Steady (a : Service) (i : ServiceOperation × ServiceEnv) : Prop :=
  match i.1 with
  | .receiveMessage _ m => ∀ r, i.2.wire.noSession m.sessionId = true →
      m.clientRepr i.2.wire = some r → a.sessions.lookup r.sessionKey = none →
        ¬ a.EventPending r.sessionKey ∧ (a.heartbeatPeriod = 0 ∨
          ((a.clientSessionTimeout = 0 ∨ i.2.ok .postActivity = true) ∧
            i.2.ok .releaseSession = true))
  | .sessionTimeout key => ∀ s c, a.sessions.lookup key = some s → s.active = true →
      s.userData = some c → (a.client c).eventHb = none ∨ i.2.ok .postEvent = false
  | _ => True

theorem Initial.eventsSound {a : Service} (h : a.Initial) : EventsSound a where
  returned := h.eventsReturned
  handedOut p hp := by
    rw [pending, h.posted, h.dispatched] at hp
    cases hp
  eventHb c hc := by
    rw [h.clientsNext] at hc
    exact absurd hc (Nat.not_lt_zero c)
  current p hp := by
    rw [pending, h.posted, h.dispatched] at hp
    cases hp
  single p hp := by
    rw [pending, h.posted, h.dispatched] at hp
    cases hp
  distinct k k' s s' c hs := by
    rw [h.sessions] at hs
    cases hs
  known k s c hs := by
    rw [h.sessions] at hs
    cases hs
  sound c hc := by
    rw [h.clientsReturned] at hc
    cases hc

theorem step_eventsSound {a : Service} (h : EventsSound a) (i : ServiceOperation × ServiceEnv)
    (hok : a.Steady i) : EventsSound (a.step i) := by
  obtain ⟨o, env⟩ := i
  cases o with
  | receiveMessage src m => exact ServiceM.receiveMessage_sound env src m h hok
  | deliverSample key id d =>
      exact h.of_same (.of_work (ServiceOperation.deliverSample_work env key id d a))
  | releaseReadSamples key id =>
      exact h.of_same (.of_work (ServiceOperation.releaseReadSamples_work env key id a))
  | acknowledge key m => exact h.of_same (.of_work (ServiceOperation.acknowledge_work env key m a))
  | sessionTimeout key => exact ServiceM.onSessionTimeout_sound env h hok
  | cleanupSession key => exact ServiceM.cleanupSession_sound env h
  | finishCloseSession key => exact ServiceM.finishCloseSession_sound env h
  | dispatchEvent p =>
      refine keeps_ensure h fun hp => h.of_subset fun q hq => ?_
      have hmem : p ∈ a.posted := of_decide_eq_true hp
      rcases List.mem_append.1 hq with hq | hq
      · exact List.mem_append_left _ (List.mem_of_mem_erase hq)
      · rcases List.mem_append.1 hq with hq | hq
        · exact List.mem_append_right _ hq
        · rw [List.mem_singleton.1 hq]
          exact List.mem_append_left _ hmem
  | sessionEvent p =>
      refine keeps_ensure h fun hp => ?_
      rw [modify_bind_apply]
      have hmem : p ∈ a.dispatched := of_decide_eq_true hp
      refine ServiceM.onSessionEvent_sound env h (List.mem_append_right _ hmem) fun q hq => ?_
      rcases List.mem_append.1 hq with hq | hq
      · exact List.mem_append_left _ hq
      · exact List.mem_append_right _ (List.mem_of_mem_erase hq)

/-- The heartbeats of the sessions are as they should be. No event that the generator or a
client refers to was returned to the pool; the callback is made for the proxy client of the
session that the event was made for, which is open, and not for one that was returned; and
at most one event is pending for a session. -/
structure HeartbeatsValid (a : Service) : Prop where
  pending : ∀ p ∈ a.pending, a.poolEventsSession.Live p.event
  owned : ∀ key c e, a.clientOf key = some c → (a.client c).eventHb = some e →
    a.poolEventsSession.Live e
  callback : ∀ env, ∀ p ∈ a.dispatched, ∀ c, (ServiceM.toHeartbeat env p a).1 = some c →
    ∃ s, a.sessions.lookup (a.event p).sessionKey = some s ∧ s.active = true ∧
      s.userData = some c ∧ a.clientsPool.Live c
  single : ∀ p ∈ a.pending, ∀ q ∈ a.pending,
    (a.event p).sessionKey = (a.event q).sessionKey → p.event = q.event

theorem heartbeatsValid_of_sound {a : Service} (h : EventsSound a) : a.HeartbeatsValid where
  pending p hp := by
    refine ⟨h.handedOut p hp, ?_⟩
    rw [h.returned]
    exact List.not_mem_nil
  owned key c e hc he := by
    obtain ⟨s, hs, hu⟩ := clientOf_eq_some.1 hc
    refine ⟨h.eventHb c (h.known key s c hs hu) e he, ?_⟩
    rw [h.returned]
    exact List.not_mem_nil
  callback env p hp c hc := by
    obtain ⟨rfl, s, hs, hactive⟩ := ServiceM.toHeartbeat_eq_some env hc
    obtain ⟨hu, hlive⟩ := h.current p (List.mem_append_right _ hp) s hs
    exact ⟨s, hs, hactive, hu, hlive⟩
  single := h.single

/-- **Heartbeats.** In every run whose steps are steady, whatever sessions are opened, reset
and closed and whenever events fire, the heartbeats are valid. -/
theorem heartbeatsValid_of_steady {a : Service} (h : a.ReachedWhen Steady) :
    a.HeartbeatsValid :=
  heartbeatsValid_of_sound (h.invariant (I := EventsSound) (fun _ => Initial.eventsSound)
    fun _ i hs hok => step_eventsSound hs i hok)

/-- A client connects to an agent with heartbeats, and its event is dispatched. -/
def beating : Service :=
  (started true 10 0).after
    [(.receiveMessage .first (.createClient 5 1), .obliging),
      (.dispatchEvent ⟨0, false⟩, .obliging)]

theorem heartbeatsValid_beating :
    (ServiceM.toHeartbeat .obliging ⟨0, false⟩ beating).1 = some 0 ∧ beating.HeartbeatsValid := by
  refine ⟨by decide, heartbeatsValid_of_steady ?_⟩
  refine .next _ (.next _ (.start (started_initial true 10 0)) ?_) trivial
  rintro r - - -
  refine ⟨?_, .inr ⟨.inl rfl, rfl⟩⟩
  rintro ⟨p, hp, -⟩
  cases hp

/-- The client deletes itself and connects again before the event of its first session
fires. -/
def revived : Service :=
  (started true 10 0).after
    [(.receiveMessage .first (.createClient 5 1), .obliging), deletion,
      (.cleanupSession ⟨5, 1⟩, .obliging), (.finishCloseSession ⟨5, 1⟩, .obliging),
      (.receiveMessage .first (.createClient 5 1), .obliging),
      (.dispatchEvent ⟨0, false⟩, .obliging)]

/-- The event of the first session finds the second one, and calls back for the proxy client
that was returned to the pool. -/
theorem heartbeat_of_returned_client :
    ¬ ∀ a : Service, a.ReachedWhen (fun _ _ => True) → a.HeartbeatsValid := by
  intro hall
  have hvalid := hall revived (reached_after (started_initial true 10 0) _)
  obtain ⟨-, -, -, -, hlive⟩ := hvalid.callback .obliging ⟨0, false⟩ (by decide) 0 (by decide)
  exact absurd hlive (by decide)

end Service

end NanoAgent
