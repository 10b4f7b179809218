import NanoAgent.Service.Operation

/-!
# The mutex of the mapping table

The mapping table is read when a message without a client key arrives and written
when a session is opened. Both take `mappingsMutex` by hand. Opening a session
gives it back on every exit. Receiving a message does so as well, except when the
message has no key, its sender has no mapping and automatic mapping is off
(`Stranded`).
-/

namespace NanoAgent

open Prog

namespace Service

/-- The calling thread does not hold the mutex, and it was never taken by a thread
that held it. -/
def MutexFree (a : Service) : Prop := a.mappingsMutex = ⟨0, false⟩

/-- The calling thread holds the mutex once. -/
def MutexHeld (a : Service) : Prop := a.mappingsMutex = ⟨1, false⟩

instance (a : Service) : Decidable a.MutexFree :=
  inferInstanceAs (Decidable (a.mappingsMutex = ⟨0, false⟩))

theorem MutexFree.takeMutex {a : Service} (h : a.MutexFree) : a.takeMutex.MutexHeld := by
  unfold MutexFree at h
  simp [MutexHeld, Service.takeMutex, Mutex.take, h]

theorem MutexHeld.giveMutex {a : Service} (h : a.MutexHeld) : a.giveMutex.MutexFree := by
  unfold MutexHeld at h
  simp [MutexFree, Service.giveMutex, Mutex.give, h]

theorem MutexHeld.not_mutexFree {a : Service} (h : a.MutexHeld) : ¬ a.MutexFree := by
  unfold MutexHeld at h
  simp [MutexFree, h]

end Service

open Service

/-- A message that reaches the mapping table and finds neither a mapping of its
sender nor automatic mapping. -/
def Stranded (env : ServiceEnv) (src : BindEntry) (m : Message) (a : Service) : Prop :=
  env.wire.headerSize m.sessionId ≤ m.bytes.length ∧
    env.wire.hasClientKey m.sessionId = false ∧
      a.mappedKey src.locator = none ∧ a.autoClientMapping = false

namespace ServiceM

theorem preserves_mutexFree_of_work {α : Type} {x : ServiceM α} (h : Within ClientWork x) :
    Preserves MutexFree x := by
  intro a ha
  exact (h a).mappingsMutex.trans ha

variable (env : ServiceEnv)

theorem storeMapping_mutexFree (c i : ℕ) {a : Service} (h : a.MutexHeld) :
    (storeMapping env c i a).2.MutexFree := by
  unfold storeMapping
  rw [modify_bind_apply]
  cases hok : env.ok .copyMappingLocator with
  | false => exact h.giveMutex
  | true => exact h.giveMutex

theorem recordMapping_mutexFree (c : ℕ) {a : Service} (h : a.MutexHeld) :
    (recordMapping env c a).2.MutexFree := by
  rw [recordMapping, read_bind_apply]
  cases a.findClientLocatorMapping (a.client c).bindEntry.locator with
  | some i => exact storeMapping_mutexFree env c i h
  | none =>
      rw [growMappings]
      cases hok : env.ok .reallocateMappings with
      | false => exact h.giveMutex
      | true => exact storeMapping_mutexFree env c _ h

theorem cacheClientMapping_mutexFree (c : ℕ) :
    Preserves MutexFree (cacheClientMapping env c) := by
  intro a ha
  have hheld : (a.updateClient c fun p => { p with cacheMapping := false }).takeMutex.MutexHeld :=
    MutexFree.takeMutex ha
  exact recordMapping_mutexFree env c hheld

theorem scheduleHeartbeat_mutexFree (key : ClientSessionKey) (c : ℕ) :
    Preserves MutexFree (scheduleHeartbeat env key c) := by
  refine .bind ?_ fun e => .bind (.modify fun _ h => h) fun _ => ?_
  · refine .read fun a => .bind (.require _) fun s => .ensureThen fun _ => .ensureThen fun _ => ?_
    exact .bind (.modify fun _ h => h) fun _ => .pure _
  · exact .ensureThen fun _ => .modify fun _ h => h

theorem onSessionOpened_mutexFree (key : ClientSessionKey) (c : ℕ) :
    Preserves MutexFree (onSessionOpened env key c) := by
  refine .bind (.modify fun _ h => h) fun _ => .read fun a =>
    .bind (.onlyIf fun _ => ?_) fun _ => ?_
  · exact cacheClientMapping_mutexFree env c
  · refine .bind (.modify fun _ h => h) fun _ => .bind ?_ fun _ => .onlyIf fun _ => ?_
    · exact preserves_mutexFree_of_work (replyToConnection_work env c)
    · exact scheduleHeartbeat_mutexFree env key c

theorem onSessionReset_mutexFree (key : ClientSessionKey) (old : ℕ) :
    Preserves MutexFree (onSessionReset env key old) := by
  refine .bind (.modify fun _ h => h) fun _ => .bind ?_ fun _ => .bind (.modify fun _ h => h) ?_
  · exact preserves_mutexFree_of_work (dismissClientFwdDataRequests_work env old none _)
  · refine fun _ => .bind ?_ fun _ => .bind (.modify fun _ h => h) fun _ => .pure _
    exact preserves_mutexFree_of_work (replyToConnection_work env old)

theorem resetSession_mutexFree (key : ClientSessionKey) (s : ClientSession) :
    Preserves MutexFree (resetSession env key s) := by
  refine .ensureThen fun _ => .bind (.modify fun _ h => h) fun _ => .read fun a => ?_
  refine .ensureThen fun _ => .bind (.require _) fun old => .bind ?_ fun data => ?_
  · exact onSessionReset_mutexFree env key old
  · refine .bind (.modify fun _ h => h) fun _ => .ensureThen fun _ => .modify fun _ h => h

theorem openNewSession_mutexFree (key : ClientSessionKey) (c : ℕ) :
    Preserves MutexFree (openNewSession env key c) := by
  refine .bind (.modify fun _ h => h) fun _ => .onFailure ?_ (.onlyIf fun _ => .modify fun _ h => h)
  refine .ensureThen fun _ => .ensureThen fun _ => ?_
  exact onSessionOpened_mutexFree env key c

theorem openSession_mutexFree (key : ClientSessionKey) (c : ℕ) :
    Preserves MutexFree (openSession env key c) := by
  refine .ensureThen fun _ => .bind (.read fun a => ?_) fun _ => .bind ?_ fun _ => .ensure _
  · cases a.sessions.lookup key with
    | none => exact openNewSession_mutexFree env key c
    | some s => exact resetSession_mutexFree env key s
  · exact .read fun a => .bind (.require _) fun s => .ensure _

theorem prepareClient_mutexFree (c : ℕ) (repr : ClientRepresentation) (cache : Bool)
    (src : BindEntry) : Preserves MutexFree (prepareClient env c repr cache src) := by
  intro a ha
  have hframe := prepareClient_preparing env c repr cache src a
  exact (congrArg Registry.mappingsMutex hframe.registry).trans ha

theorem deleteClientSession_mutexFree {a : Service} (c : ℕ) (h : a.MutexFree) :
    (a.deleteClientSession c).MutexFree := by
  have hrelease : ∀ (l : List ℕ) (b : Service), b.MutexFree →
      (l.foldl (fun a r => a.releaseStreamStorage c r) b).MutexFree := by
    intro l
    induction l with
    | nil => exact fun b hb => hb
    | cons r l ih => exact fun b hb => ih _ hb
  exact hrelease _ a h

theorem processCreateClient_mutexFree (key sid : ℕ) (m : Message) (src : BindEntry)
    (keyInHeader missing : Bool) :
    Preserves MutexFree (processCreateClient env key sid m src keyInHeader missing) := by
  refine .requireThen fun v _ => .ensureThen fun _ => .ensureThen fun _ => .ensureThen fun _ => ?_
  refine .read fun a => .bind (.modify fun _ h => h) fun _ => .onFailure ?_ (.modify fun b h => ?_)
  · exact .bind (prepareClient_mutexFree env _ _ _ _) fun _ => openSession_mutexFree env _ _
  · exact deleteClientSession_mutexFree _ h

theorem closeSession_mutexFree (key : ClientSessionKey) :
    Preserves MutexFree (closeSession env key) := by
  refine .ensureThen fun _ => .ensureThen fun _ => .read fun a => .bind (.require _) fun s => ?_
  refine .ensureThen fun _ => .ensureThen fun _ => .onlyIf fun _ => ?_
  exact .bind (.modify fun _ h => h) fun _ => .ensure _

theorem receiveOnSession_mutexFree (key : ClientSessionKey) :
    Preserves MutexFree (receiveOnSession env key) := by
  refine .ensureThen fun _ => .read fun a => ?_
  cases a.sessions.lookup key with
  | none => exact .pure _
  | some s =>
      refine .ensureThen fun _ => .ensureThen fun _ => .bind ?_ fun _ => ?_
      · exact .read fun a => .bind (.require _) fun s => .ensure _
      · refine .bind (.require _) fun c => .bind ?_ fun _ => .onlyIf fun _ => ?_
        · exact preserves_mutexFree_of_work (onMessageReceived_work env c)
        · exact .ensureThen fun _ => closeSession_mutexFree env key

/-- What is done once the sender is known leaves the mutex free. -/
theorem receiveFrom_mutexFree (src : BindEntry) (m : Message) (key : ℕ) (missing : Bool) :
    Preserves MutexFree (receiveFrom env src m key missing) :=
  .ite (fun _ => processCreateClient_mutexFree env _ _ _ _ _ _) fun _ =>
    .ensureThen fun _ => receiveOnSession_mutexFree env _

/-- Only a stranded message leaves `identifySender` with the mutex. -/
theorem identifySender_mutexFree (src : BindEntry) (m : Message) {a : Service} (ha : a.MutexFree)
    (hlen : env.wire.headerSize m.sessionId ≤ m.bytes.length) (h : ¬ Stranded env src m a) :
    (identifySender env m src a).2.MutexFree := by
  unfold identifySender
  cases hk : env.wire.hasClientKey m.sessionId with
  | true =>
      rw [if_pos rfl]
      exact keeps_ensure ha fun _ => ha
  | false =>
      rw [if_neg (by simp), modify_bind_apply, read_bind_apply]
      cases hfound : (a.takeMutex.mappedKey src.locator).isSome ||
        a.takeMutex.autoClientMapping with
      | true => exact ha.takeMutex.giveMutex
      | false =>
          have hnone : a.mappedKey src.locator = none ∧ a.autoClientMapping = false := by
            rw [Bool.or_eq_false_iff, Option.isSome_eq_false_iff,
              Option.isNone_iff_eq_none] at hfound
            exact hfound
          exact absurd ⟨hlen, hk, hnone⟩ h

/-- A stranded message leaves with the mutex. -/
theorem receiveMessage_mutexHeld {src : BindEntry} {m : Message} {a : Service} (ha : a.MutexFree)
    (h : Stranded env src m a) : (receiveMessage env src m a).2.MutexHeld := by
  obtain ⟨hlen, hk, hnone, hauto⟩ := h
  have hfail : identifySender env m src a = (none, a.takeMutex) := by
    have hnone' : a.takeMutex.mappedKey src.locator = none := hnone
    have hauto' : a.takeMutex.autoClientMapping = false := hauto
    unfold identifySender
    rw [hk, if_neg (by simp), modify_bind_apply, read_bind_apply, hnone', hauto']
    rfl
  have hstate : (receiveMessage env src m a).2 = a.takeMutex := by
    unfold receiveMessage
    rw [decide_eq_true hlen, ensure_true_bind_apply, bind_apply, hfail]
  rw [hstate]
  exact ha.takeMutex

theorem receiveMessage_mutexFree (src : BindEntry) (m : Message) {a : Service} (ha : a.MutexFree)
    (h : ¬ Stranded env src m a) : (receiveMessage env src m a).2.MutexFree := by
  refine keeps_ensure ha fun hlen => ?_
  have hfree := identifySender_mutexFree env src m ha (of_decide_eq_true hlen) h
  exact keeps_bind (fun _ => hfree) fun v _ => receiveFrom_mutexFree env src m v.1 v.2 _ hfree

end ServiceM

/-- Called by a thread that does not hold the mutex, the reception of a message
returns without it and without having taken it twice exactly when the message is
not stranded; the opening of a session always does. -/
theorem mappingsMutex_balanced_iff (env : ServiceEnv) (a : Service) (ha : a.MutexFree) :
    (∀ src m, (ServiceM.receiveMessage env src m a).2.MutexFree ↔ ¬ Stranded env src m a) ∧
      ∀ key c, (ServiceM.onSessionOpened env key c a).2.MutexFree := by
  refine ⟨fun src m => ⟨fun hfree hstranded => ?_, fun h => ?_⟩, fun key c => ?_⟩
  · exact (ServiceM.receiveMessage_mutexHeld env ha hstranded).not_mutexFree hfree
  · exact ServiceM.receiveMessage_mutexFree env src m ha h
  · exact ServiceM.onSessionOpened_mutexFree env key c a ha

/-- A message without a key from a peer the agent knows nothing about. -/
def strangerMessage : Message := ⟨[129, 128, 0, 0]⟩

theorem mappingsMutex_balanced_started :
    (Service.started true 0 0).MutexFree ∧
      (ServiceM.receiveMessage .obliging default strangerMessage (.started true 0 0)).2.MutexFree ∧
        ¬ (ServiceM.receiveMessage .obliging default strangerMessage
          (.started false 0 0)).2.MutexFree := by
  have hfree : ∀ b, (Service.started b 0 0).MutexFree := fun _ => rfl
  have hnot : ¬ Stranded .obliging default strangerMessage (.started true 0 0) := by
    rintro ⟨-, -, -, hauto⟩
    cases hauto
  have hstranded : Stranded .obliging default strangerMessage (.started false 0 0) :=
    ⟨by decide, rfl, rfl, rfl⟩
  refine ⟨hfree true, ?_, ?_⟩
  · exact ((mappingsMutex_balanced_iff .obliging _ (hfree true)).1 _ _).2 hnot
  · intro h
    exact ((mappingsMutex_balanced_iff .obliging _ (hfree false)).1 _ _).1 h hstranded

/-- One message from an unknown peer is enough to leave the mutex taken. -/
theorem receiveMessage_keeps_mutex :
    ¬ ∀ env src m a, a.MutexFree → (ServiceM.receiveMessage env src m a).2.MutexFree := by
  intro h
  have hfree := h .obliging default strangerMessage (.started false 0 0) rfl
  have hheld : (ServiceM.receiveMessage .obliging default strangerMessage
      (.started false 0 0)).2.MutexHeld :=
    ServiceM.receiveMessage_mutexHeld .obliging rfl ⟨by decide, rfl, rfl, rfl⟩
  exact hheld.not_mutexFree hfree

end NanoAgent
