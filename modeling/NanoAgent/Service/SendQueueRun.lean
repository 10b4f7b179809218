import NanoAgent.Service.Operation

/-!
# Send queues in every run

Whatever is done, the forward requests of every proxy client have their messages in
its send queues. A reset empties the queues, but dismisses all forward requests
before.
-/

namespace NanoAgent

open Prog

/-- The proxy clients that were handed out have their queues in order. -/
def QueuesSound (a : Service) : Prop := ∀ c < a.clientsPool.next, QueueInv (a.client c)

/-- No proxy client is handed out, and the queues and forward requests of all of them
stay. -/
def SameTraffics (a b : Service) : Prop :=
  b.clientsPool.next = a.clientsPool.next ∧ ∀ c, (b.client c).traffic = (a.client c).traffic

namespace SameTraffics

theorem updateClient (a : Service) (c : ℕ) {f : ProxyClient → ProxyClient}
    (hf : ∀ p, (f p).traffic = p.traffic) : SameTraffics a (a.updateClient c f) := by
  refine ⟨rfl, fun d => ?_⟩
  rw [Service.client_updateClient]
  by_cases hd : d = c
  · rw [if_pos hd, hf]
  · rw [if_neg hd]

theorem of_eq {a b : Service} (h : b.clientsPool = a.clientsPool) : SameTraffics a b :=
  ⟨by rw [h], fun c => by rw [Service.client, h, Service.client]⟩

theorem queuesSound {a b : Service} (h : SameTraffics a b) (ha : QueuesSound a) :
    QueuesSound b := by
  intro c hc
  rw [h.1] at hc
  exact (ha c hc).of_traffic (h.2 c)

instance : IsPreorder Service SameTraffics where
  refl _ := ⟨rfl, fun _ => rfl⟩
  trans _ _ _ h h' := ⟨h'.1.trans h.1, fun c => (h'.2 c).trans (h.2 c)⟩

end SameTraffics

theorem Serving.queuesSound {may : Prop} {c : ℕ} {a b : Service} (h : Serving may c a b)
    (ha : QueuesSound a) : QueuesSound b := by
  intro d hd
  rw [h.clientsNext] at hd
  by_cases hdc : d = c
  · subst hdc
    exact h.queued (ha d hd)
  · rw [h.others d hdc]
    exact ha d hd

namespace ServiceM

variable (env : ServiceEnv)

theorem queuesSound_of_serving {α : Type} {c : ℕ} {x : ServiceM α}
    (h : Within (Serving True c) x) : Preserves QueuesSound x :=
  fun a => (h a).queuesSound

theorem queuesSound_of_traffics {α : Type} {x : ServiceM α} (h : Within SameTraffics x) :
    Preserves QueuesSound x :=
  fun a => (h a).queuesSound

theorem recordMapping_traffics (c : ℕ) : Within SameTraffics (recordMapping env c) := by
  have hstore : ∀ i, Within SameTraffics (storeMapping env c i) := by
    intro i
    refine .bind (.modify fun _ => .of_eq rfl) fun _ =>
      .bind (.onFailure (.ensure _) ?_) fun _ => ?_
    · exact .modify fun _ => .of_eq rfl
    · exact .bind (.modify fun _ => .of_eq rfl) fun _ => .modify fun _ => .of_eq rfl
  refine .read fun a => ?_
  cases a.findClientLocatorMapping (a.client c).bindEntry.locator with
  | some i => exact hstore i
  | none =>
      refine .bind (.bind (.onFailure (.ensure _) ?_) fun _ => ?_) fun _ => hstore _
      · exact .modify fun _ => .of_eq rfl
      · exact .modify fun _ => .of_eq rfl

theorem scheduleHeartbeat_traffics (key : ClientSessionKey) (c : ℕ) :
    Within SameTraffics (scheduleHeartbeat env key c) := by
  refine .bind ?_ fun e => .bind (.modify fun a => .updateClient a c fun _ => rfl) fun _ => ?_
  · refine .read fun a => .bind (.require _) fun s => .ensureThen fun _ => .ensureThen fun _ => ?_
    exact .bind (.modify fun _ => .of_eq rfl) fun _ => .pure _
  · exact .ensureThen fun _ => .modify fun _ => .of_eq rfl

theorem onSessionOpened_traffics (key : ClientSessionKey) (c : ℕ) :
    Within SameTraffics (onSessionOpened env key c) := by
  refine .bind (.modify fun a => .updateClient a c fun _ => rfl) fun _ => .read fun a => ?_
  refine .bind (.onlyIf fun _ => ?_) fun _ => .bind ?_ fun _ => .bind ?_ fun _ => ?_
  · refine .bind (.modify fun a => .updateClient a c fun _ => rfl) fun _ => ?_
    exact .bind (.modify fun _ => .of_eq rfl) fun _ => recordMapping_traffics env c
  · exact .modify fun a => .updateClient a c fun _ => rfl
  · exact .ensureThen fun _ => .ensureThen fun _ => .modify fun _ => .of_eq rfl
  · exact .onlyIf fun _ => scheduleHeartbeat_traffics env key c

/-- A reset dismisses all forward requests before it empties the queues. -/
theorem onSessionReset_queuesSound (key : ClientSessionKey) (old : ℕ) :
    Preserves QueuesSound (onSessionReset env key old) := by
  intro a ha
  unfold onSessionReset
  rw [modify_bind_apply]
  set a₁ := a.updateClient old fun p => { p with ddsSession := some key } with ha₁
  have hsession : SameTraffics a a₁ := .updateClient a old fun _ => rfl
  have hsound : QueuesSound a₁ := hsession.queuesSound ha
  have hdismiss : QueuesSound (dismissClientFwdDataRequests env old none
      attachedResourceIdInvalid a₁).2 :=
    queuesSound_of_serving (dismissClientFwdDataRequests_serving env old none _) a₁ hsound
  refine keeps_bind (fun _ => hdismiss) fun _ _ => ?_
  set a₂ := (dismissClientFwdDataRequests env old none attachedResourceIdInvalid a₁).2 with ha₂
  rw [modify_bind_apply]
  -- the client has no forward request any more
  have hempty : QueuesSound (a₂.updateClient old fun p =>
      { p with connected := false, sendQueue := [], lastSn := fun _ => 0 }) := by
    intro d hd
    rw [Service.client_updateClient]
    by_cases hdo : d = old
    · subst hdo
      have hserving : Serving True d a₁ a₂ := dismissClientFwdDataRequests_serving env d none _ a₁
      have hinv : QueueInv (a₁.client d) := hsound d (hserving.clientsNext ▸ hd)
      obtain ⟨b, hb, -, hdismissal⟩ :=
        dismissClientFwdDataRequests_spec env d none attachedResourceIdInvalid hinv
      have hnone : (a₂.client d).forwards = [] := by
        rw [ha₂, hb]
        exact forwards_dismissAll env d hdismissal
      rw [if_pos rfl]
      refine ⟨fun f hf => ?_, ?_, List.nodup_nil, fun m hm => by cases hm⟩
      · rw [show (_ : List ForwardDataRequest) = [] from hnone] at hf
        cases hf
      · rw [show (_ : List ForwardDataRequest) = [] from hnone]
        exact List.nodup_nil
    · rw [if_neg hdo]
      exact hdismiss d hd
  have hrest : Preserves QueuesSound (do
      replyToConnection env old
      modify fun a : Service => a.updateClient old fun p => { p with connected := true }
      pure old) := by
    refine .bind (queuesSound_of_serving (replyToConnection_serving env old)) fun _ => ?_
    refine .bind (queuesSound_of_traffics (.modify fun a => ?_)) fun _ => .pure _
    exact .updateClient a old fun _ => rfl
  exact hrest _ hempty

theorem resetSession_queuesSound (key : ClientSessionKey) (s : ClientSession) :
    Preserves QueuesSound (resetSession env key s) := by
  have hsession : ∀ f, Preserves QueuesSound (modify fun a : Service => a.updateSession key f) :=
    fun f => queuesSound_of_traffics (.modify fun _ => .of_eq rfl)
  refine .ensureThen fun _ => .bind (hsession _) fun _ => .read fun a => .ensureThen fun _ => ?_
  refine .bind (.require _) fun old => .bind (onSessionReset_queuesSound env key old) fun _ => ?_
  exact .bind (hsession _) fun _ => .ensureThen fun _ => hsession _

theorem openSession_queuesSound (key : ClientSessionKey) (c : ℕ) :
    Preserves QueuesSound (openSession env key c) := by
  have hnew : Within SameTraffics (openNewSession env key c) := by
    refine .bind (.modify fun _ => .of_eq rfl) fun _ => .onFailure ?_ ?_
    · exact .ensureThen fun _ => .ensureThen fun _ => onSessionOpened_traffics env key c
    · exact .onlyIf fun _ => .modify fun _ => .of_eq rfl
  refine .ensureThen fun _ => .bind (.read fun a => ?_) fun _ => .bind ?_ fun _ => .ensure _
  · cases a.sessions.lookup key with
    | some s => exact resetSession_queuesSound env key s
    | none => exact queuesSound_of_traffics hnew
  · exact .read fun a => .bind (.require _) fun _ => .ensure _

/-- A proxy client that is set up has nothing in its queues. -/
theorem prepareClient_queueInv (c : ℕ) (repr : ClientRepresentation) (cache : Bool)
    (src : BindEntry) :
    Preserves (fun a : Service => QueueInv (a.client c)) (prepareClient env c repr cache src) := by
  have hsame : ∀ {α : Type} {x : ServiceM α}, Within (SameTraffic c) x →
      Preserves (fun a : Service => QueueInv (a.client c)) x :=
    fun h a hinv => hinv.of_traffic (h a).1
  have hclient : ∀ f : ProxyClient → ProxyClient, (∀ p, (f p).traffic = p.traffic) →
      Preserves (fun a : Service => QueueInv (a.client c))
        (modify fun a : Service => a.updateClient c f) :=
    fun f hf => hsame (.modify fun a => .updateClient a c hf)
  refine .bind (.bind (.modify fun a hinv => ?_) fun _ => .ensureThen fun _ => .read fun a => ?_) ?_
  · change QueueInv ((a.updateClient c fun _ => .initializer).client c)
    rw [Service.client_updateClient_self]
    exact QueueInv.initializer
  · refine .bind (hsame (.modify fun _ => ⟨rfl, rfl⟩)) fun _ => .bind (hclient _ fun _ => rfl) ?_
    refine fun _ => .bind (hsame (allocateStreamStorage_sameTraffic env c 0)) fun _ => ?_
    refine .bind (hsame (allocateStreamStorage_sameTraffic env c 1)) fun _ => ?_
    exact .ensureThen fun _ => .ensureThen fun _ => hclient _ fun _ => rfl
  · refine fun _ => .bind (hclient _ fun _ => rfl) fun _ => .bind (hclient _ fun _ => rfl) ?_
    exact fun _ => .ensureThen fun _ => hclient _ fun _ => rfl

theorem deleteClientSession_traffics (a : Service) (c : ℕ) :
    SameTraffics a (a.deleteClientSession c) := by
  have hrelease : ∀ (l : List ℕ) (b : Service),
      SameTraffics b (l.foldl (fun a r => a.releaseStreamStorage c r) b) := by
    intro l
    induction l with
    | nil => exact fun b => refl b
    | cons r l ih =>
        intro b
        have hone := SameTraffics.updateClient b c
          (f := fun p => { p with streamStorage := p.streamStorage.erase r }) fun _ => rfl
        exact IsTrans.trans _ _ _ hone (ih (b.releaseStreamStorage c r))
  exact hrelease (a.client c).streamStorage a

theorem processCreateClient_queuesSound (k sid : ℕ) (m : Message) (src : BindEntry)
    (keyInHeader missing : Bool) :
    Preserves QueuesSound (processCreateClient env k sid m src keyInHeader missing) := by
  refine .bind (.require _) fun v => .ensureThen fun _ => .ensureThen fun _ =>
    .ensureThen fun _ => ?_
  intro a ha
  rw [read_bind_apply, modify_bind_apply]
  set c := a.clientsPool.next with hc
  set b : Service := { a with clientsPool := a.clientsPool.take .initializer } with hb
  have hinit : b.client c = .initializer := BufferPool.content_take_self _ _
  have hprepare : QueuesSound (prepareClient env c v.1 (missing || v.2) src b).2 := by
    have hframe := prepareClient_preparing env c v.1 (missing || v.2) src b
    intro d hd
    rw [hframe.clientsNext] at hd
    by_cases hdc : d = c
    · rw [hdc]
      refine prepareClient_queueInv env c v.1 (missing || v.2) src b ?_
      change QueueInv (b.client c)
      rw [hinit]
      exact QueueInv.initializer
    · have hlt : d < a.clientsPool.next := by
        have : d < a.clientsPool.next + 1 := hd
        omega
      rw [hframe.others d hdc, hb, Service.client, BufferPool.content_take_of_ne _ _ (by omega)]
      exact ha d hlt
  have hconnect : QueuesSound (connectClient env c v.1 (missing || v.2) src b).2 := by
    refine keeps_bind (fun _ => hprepare) fun _ _ => ?_
    exact openSession_queuesSound env v.1.sessionKey c _ hprepare
  refine keeps_onFailure hconnect fun _ => ?_
  exact (deleteClientSession_traffics _ c).queuesSound hconnect

theorem closeSession_traffics (key : ClientSessionKey) :
    Within SameTraffics (closeSession env key) := by
  refine .ensureThen fun _ => .ensureThen fun _ => .read fun a => .bind (.require _) fun s => ?_
  refine .ensureThen fun _ => .ensureThen fun _ => .onlyIf fun _ => .bind ?_ fun _ => .ensure _
  exact .modify fun _ => .of_eq rfl

theorem receiveOnSession_queuesSound (key : ClientSessionKey) :
    Preserves QueuesSound (receiveOnSession env key) := by
  refine .ensureThen fun _ => .read fun a => ?_
  cases a.sessions.lookup key with
  | none => exact .pure _
  | some s =>
      refine .ensureThen fun _ => .ensureThen fun _ => .bind ?_ fun _ => ?_
      · exact .read fun a => .bind (.require _) fun s => .ensure _
      · refine .bind (.require _) fun c => .bind ?_ fun _ => .onlyIf fun _ => ?_
        · exact queuesSound_of_serving (onMessageReceived_serving env c)
        · exact .ensureThen fun _ => queuesSound_of_traffics (closeSession_traffics env key)

theorem onSessionClosed_queuesSound (c : ℕ) : Preserves QueuesSound (onSessionClosed env c) := by
  have hreply : ∀ r, Within (Serving True c) (do
      modify fun a : Service => a.updateRequest c r fun q => { q with reply := true }
      onFailure (replyToOperation env c r true) (modify fun a => a.returnClientRequest c r)
      modify fun a => a.returnClientRequest c r) := by
    intro r
    refine .bind (.modify fun a => .updateRequest a r _) fun _ =>
      .bind (.onFailure ?_ ?_) fun _ => ?_
    · exact replyToOperation_serving env c r true
    · exact .modify fun a => .returnClientRequest a r
    · exact .modify fun a => .returnClientRequest a r
  refine .read fun a => .bind ?_ fun _ => .bind (.onlyIf fun _ => ?_) fun _ => ?_
  · exact queuesSound_of_traffics (.modify fun b => .updateClient b c fun _ => rfl)
  · exact queuesSound_of_serving (hreply _)
  · exact queuesSound_of_traffics (.modify fun b => deleteClientSession_traffics b c)

theorem finishCloseSession_queuesSound (key : ClientSessionKey) :
    Preserves QueuesSound (finishCloseSession env key) := by
  refine .read fun a => .bind (.require _) fun s => .ensureThen fun _ => .ensureThen fun _ => ?_
  refine .bind (queuesSound_of_traffics (.modify fun _ => .of_eq rfl)) fun _ => ?_
  refine .ensureThen fun _ => .ensureThen fun _ => .bind ?_ fun _ => .ensureThen fun _ => ?_
  · exact queuesSound_of_traffics (.modify fun _ => .of_eq rfl)
  · exact .bind (.require _) fun c => onSessionClosed_queuesSound env c

theorem onSessionTimeout_queuesSound (key : ClientSessionKey) :
    Preserves QueuesSound (onSessionTimeout env key) := by
  have hsession : ∀ f, Preserves QueuesSound (modify fun a : Service => a.updateSession key f) :=
    fun f => queuesSound_of_traffics (.modify fun _ => .of_eq rfl)
  refine .ensureThen fun _ => .read fun a => .bind (.require _) fun s => .ensureThen fun _ => ?_
  refine .bind (hsession _) fun _ => .bind (.require _) fun c => .bind (.ignore ?_) fun _ => ?_
  · refine .read fun b => .bind (.onlyIf fun _ => .ensureThen fun _ => ?_) fun _ => ?_
    · refine queuesSound_of_traffics (.bind (.modify fun _ => .of_eq rfl) fun _ => ?_)
      exact .modify fun _ => .of_eq rfl
    · exact queuesSound_of_serving (disposeClientSession_serving env c trivial none)
  · exact .bind (.onlyIf fun _ => .bind (hsession _) fun _ => .ensure _) fun _ => .ensure _

theorem cleanupSession_queuesSound (key : ClientSessionKey) :
    Preserves QueuesSound (cleanupSession env key) := by
  refine .read fun a => .bind (.require _) fun s => .ensureThen fun _ => .ensureThen fun _ => ?_
  refine .ite (fun _ => .ensureThen fun _ => .ensureThen fun _ => .bind ?_ fun _ => ?_) fun _ => ?_
  · exact queuesSound_of_traffics (.modify fun _ => .of_eq rfl)
  · exact .bind (.require _) fun c => onSessionClosed_queuesSound env c
  · exact queuesSound_of_traffics (.modify fun _ => .of_eq rfl)

theorem onSessionEvent_traffics (p : Posting) : Within SameTraffics (onSessionEvent env p) := by
  refine .read fun a => .ensureThen fun _ => .bind (.require _) fun s => .ensureThen fun _ => ?_
  refine .ensureThen fun _ => .ensureThen fun _ => .bind (.read fun b => ?_) fun _ => ?_
  · exact .ite (fun _ => .pure _) fun _ => .bind (.modify fun _ => .of_eq rfl) fun _ => .pure _
  · exact .onlyIf fun _ => .ensureThen fun _ => .modify fun _ => .of_eq rfl

theorem receiveMessage_queuesSound (src : BindEntry) (m : Message) :
    Preserves QueuesSound (receiveMessage env src m) := by
  refine .ensureThen fun _ => .bind ?_ fun sender => ?_
  · refine queuesSound_of_traffics fun a => ?_
    obtain ⟨mutex, hmutex⟩ := identifySender_eq env m src a
    rw [hmutex]
    exact .of_eq rfl
  · rw [receiveFrom]
    refine .ite (fun _ => ?_) fun _ => .ensureThen fun _ => ?_
    · exact processCreateClient_queuesSound env _ _ _ _ _ _
    · exact receiveOnSession_queuesSound env _

/-- A message that is acknowledged leaves the queue together with its forward
request. -/
theorem acknowledge_queuesSound (key : ClientSessionKey) (m : QueuedMessage) :
    Preserves QueuesSound ((ServiceOperation.acknowledge key m).run env) := by
  intro a ha
  change QueuesSound ((require (a.clientOf key) >>= fun c => _ : ServiceM Unit) a).2
  refine keeps_require ha fun c hc => keeps_ensure ha fun hm => ?_
  rw [modify_bind_apply]
  set b := a.updateClient c fun p => { p with sendQueue := p.sendQueue.erase m } with hb
  have hbc : b.client c = { a.client c with sendQueue := (a.client c).sendQueue.erase m } := by
    rw [hb, Service.client_updateClient_self]
  have hserving : Serving True c b (onSendComplete env c m b).2 := onSendComplete_serving env c m b
  intro d hd
  rw [hserving.clientsNext] at hd
  by_cases hdc : d = c
  · subst hdc
    have hinv := ha d hd
    have honly := onSendComplete_onlyForwards env d m b
    have hdismissal := onSendComplete_dismissal env d (a := b) (by rw [hbc]; exact hinv.distinct) m
    rw [OnlyForwards, hbc] at honly
    have hqueue : ((onSendComplete env d m b).2.client d).sendQueue =
        (a.client d).sendQueue.erase m := by rw [honly]
    have hforwards : ∀ f ∈ ((onSendComplete env d m b).2.client d).forwards,
        f ∈ (a.client d).forwards ∧ ¬ (m.kind.isData = true ∧ f.address = m.address) := by
      intro f hf
      have hold := hdismissal.sublist.subset hf
      refine ⟨?_, (hdismissal.forwards f hold).1 hf⟩
      rw [hbc] at hold
      exact hold
    refine ⟨fun f hf => ?_, ?_, ?_, fun m' hm' => ?_⟩
    · obtain ⟨hold, hother⟩ := hforwards f hf
      rw [hqueue]
      refine (List.mem_erase_of_ne ?_).2 (hinv.queued f hold)
      rintro rfl
      exact hother ⟨rfl, rfl⟩
    · have hsub := hdismissal.sublist
      rw [hbc] at hsub
      exact hinv.distinct.sublist (hsub.map _)
    · rw [hqueue]
      exact hinv.unique.sublist (List.erase_sublist.map _)
    · have hsn : ((onSendComplete env d m b).2.client d).lastSn = (a.client d).lastSn := by
        rw [honly]
      rw [hqueue] at hm'
      rw [hsn]
      exact hinv.numbered m' (List.mem_of_mem_erase hm')
  · rw [hserving.others d hdc, hb, Service.client_updateClient, if_neg hdc]
    exact ha d hd

end ServiceM

namespace Service

/-- **Send queues.** In every state reached the forward requests of proxy clients have
their messages in the send queues. -/
theorem queuesSound_of_reached {a : Service} (h : a.ReachedWhen fun _ _ => True) :
    QueuesSound a := by
  refine h.invariant (fun a ha c hc => ?_) fun a i ha _ => ?_
  · rw [ha.clientsNext] at hc
    exact absurd hc (Nat.not_lt_zero _)
  · obtain ⟨o, env⟩ := i
    cases o with
    | receiveMessage src m => exact ServiceM.receiveMessage_queuesSound env src m a ha
    | deliverSample key id d =>
        have hrun : Preserves QueuesSound ((ServiceOperation.deliverSample key id d).run env) := by
          refine .read fun _ => .bind (.require _) fun c => ?_
          exact ServiceM.queuesSound_of_serving (ServiceM.deliverSample_serving env c id d)
        exact hrun a ha
    | releaseReadSamples key id =>
        have hrun : Preserves QueuesSound
            ((ServiceOperation.releaseReadSamples key id).run env) := by
          refine .read fun _ => .bind (.require _) fun c => ?_
          exact ServiceM.queuesSound_of_serving (ServiceM.onReleaseReadSamples_serving env c id)
        exact hrun a ha
    | acknowledge key m => exact ServiceM.acknowledge_queuesSound env key m a ha
    | sessionTimeout key => exact ServiceM.onSessionTimeout_queuesSound env key a ha
    | cleanupSession key => exact ServiceM.cleanupSession_queuesSound env key a ha
    | finishCloseSession key => exact ServiceM.finishCloseSession_queuesSound env key a ha
    | dispatchEvent p => exact keeps_ensure ha fun _ => ha
    | sessionEvent p =>
        refine keeps_ensure ha fun _ => ?_
        exact (ServiceM.onSessionEvent_traffics env p _).queuesSound ha

end Service

end NanoAgent
