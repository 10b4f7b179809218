import NanoAgent.Service.Binding

/-!
# Submessages of a disposed client

A client that deletes itself is disposed while one of the submessages of its message
is handled. The submessages that follow in the same message are handled all the
same, and the caller is told to close the session only when the XRCE session
reports that the whole message was received.

`submsgCalls` are the states in which the submessages of a message are handed to
`onSubmsg`; `disposal_handled_iff` says for which messages none of them is disposed and
the disposal is reported.
-/

namespace NanoAgent

open Prog

/-- The submessage disposes the client: it deletes the client, it can be decoded, and
there is a request for it and, on a reliable stream, a reply message. -/
def Submessage.disposes (w : Wire) (stream : ℕ) (m : Submessage × (ServiceCall → Bool)) : Bool :=
  decide m.1.DeletesClient && m.2 .decode && m.2 .getRequest &&
    (!w.streamReliable stream || m.2 .allocateReply)

namespace Service

/-- The stream of a client is there. -/
def StreamKnown (w : Wire) (c stream : ℕ) (a : Service) : Prop :=
  w.streamBuiltin stream = true ∨ stream ∈ (a.client c).streams

/-- The stream of a client is there, or can be registered. -/
def StreamAvailable (env : ServiceEnv) (c stream : ℕ) (a : Service) : Prop :=
  StreamKnown env.wire c stream a ∨
    env.ok (.getStreamStorage (stream + 2)) = true ∧ env.ok (.registerStream stream) = true

end Service

theorem Serving.streamKnown {may : Prop} {c : ℕ} {a b : Service} (h : Serving may c a b) {w : Wire}
    {stream : ℕ} (hs : a.StreamKnown w c stream) : b.StreamKnown w c stream :=
  hs.imp_right (h.streams stream)

theorem Serving.disposed_eq {c : ℕ} {a b : Service} (h : Serving False c a b) :
    (b.client c).disposed = (a.client c).disposed :=
  h.disposed.resolve_left id

namespace ServiceM

open Service

/-- The states in which submessages are handed to `onSubmsg`, one after the other. -/
def submsgCalls (env : ServiceEnv) (c stream : ℕ) :
    List (Submessage × (ServiceCall → Bool)) → Service → List Service
  | [], _ => []
  | m :: l, a => a :: submsgCalls env c stream l (dispatchSubmsg env c stream m a).2

/-- The states in which `onMessageReceived` has submessages handed to `onSubmsg`. -/
def onSubmsgCalls (env : ServiceEnv) (c : ℕ) (a : Service) : List Service :=
  if (a.client c).disposed then []
  else
    match env.stream with
    | none => []
    | some stream =>
        match lookupStream env c stream a with
        | (none, _) => []
        | (some _, b) => submsgCalls env c stream env.dispatched b

variable {env : ServiceEnv} {c stream : ℕ} {a b : Service}

/-- A stream that is available is found, and is there from then on. -/
theorem lookupStream_available (h : StreamAvailable env c stream a) :
    ∃ b, lookupStream env c stream a = (some (), b) ∧ b.StreamKnown env.wire c stream := by
  unfold lookupStream
  rw [read_bind_apply]
  split
  · rename_i hfound
    refine ⟨a, rfl, ?_⟩
    rw [Bool.or_eq_true, decide_eq_true_iff] at hfound
    exact hfound
  · rename_i hfound
    rw [Bool.or_eq_true, decide_eq_true_iff] at hfound
    obtain ⟨hstorage, hregister⟩ := h.resolve_left hfound
    unfold registerUserStream allocateStreamStorage
    rw [hstorage, hregister]
    refine ⟨_, rfl, .inr ?_⟩
    rw [Service.client_updateClient_self]
    simp

theorem lookupStream_unavailable (h : ¬ StreamAvailable env c stream a) :
    (lookupStream env c stream a).1 = none := by
  rw [StreamAvailable, not_or] at h
  obtain ⟨hunknown, hregister⟩ := h
  unfold lookupStream
  rw [read_bind_apply, if_neg (by simpa [StreamKnown] using hunknown)]
  unfold registerUserStream allocateStreamStorage
  cases hstorage : env.ok (.getStreamStorage (stream + 2)) with
  | false => rfl
  | true =>
      have hrefused : env.ok (.registerStream stream) = false := by
        rw [hstorage] at hregister
        simpa using hregister
      rw [hrefused]
      rfl

theorem lookupStream_known (h : a.StreamKnown env.wire c stream) :
    lookupStream env c stream a = (some (), a) := by
  rw [lookupStream, read_bind_apply, if_pos]
  · rfl
  · rw [Bool.or_eq_true, decide_eq_true_iff]
    exact h

/-- On a stream that is there, a request with a reply can be made when there are
buffers for them. -/
theorem newClientRequest_isSome (h : a.StreamKnown env.wire c stream) (m : Submessage) :
    (newClientRequest env c stream m true a).1.isSome =
      (env.ok .getRequest && (!env.wire.streamReliable stream || env.ok .allocateReply)) := by
  unfold newClientRequest
  cases hget : env.ok .getRequest with
  | false => rfl
  | true =>
      rw [ensure_true_bind_apply, read_bind_apply, modify_bind_apply]
      set b := a.updateClient c fun p =>
        { p with
          requestsPool := p.requestsPool.take ⟨stream, m.id, m.requestId, m.objectId, true, false⟩ }
        with hb
      have hserving : Serving False c a b := .updateClient a fun _ => rfl
      have hknown : b.StreamKnown env.wire c stream := hserving.streamKnown h
      cases hreliable : env.wire.streamReliable stream with
      | false => rfl
      | true =>
          have hreply : allocateReplyMessage env c stream b =
              (if env.ok .allocateReply then some () else none, b) := by
            rw [allocateReplyMessage, bind_apply, lookupStream_known hknown]
            rfl
          cases hallocate : env.ok .allocateReply with
          | false =>
              rw [hallocate] at hreply
              simp [bind_apply, onFailure, hreply]
          | true =>
              rw [hallocate] at hreply
              simp [bind_apply, onFailure, hreply]

theorem disposeClientSession_disposed (env : ServiceEnv) (c : ℕ) (request : Option ℕ)
    (a : Service) :
    ((disposeClientSession env c request a).2.client c).disposed = true := by
  unfold disposeClientSession
  rw [read_bind_apply]
  cases hdisposed : (a.client c).disposed with
  | true => exact hdisposed
  | false =>
      have hrest : Within (Serving False c) (do
          onlyIf request.isSome
            (modify fun a : Service => a.updateRequest c (request.getD 0) fun q =>
              { q with reply := false })
          dismissClientFwdDataRequests env c none attachedResourceIdInvalid) := by
        refine .bind (.onlyIf fun _ => .modify fun b => .updateRequest b _ _) fun _ => ?_
        exact dismissClientFwdDataRequests_serving env c none _
      have hend := (hrest (a.updateClient c fun p =>
        { p with disposed := true, disposeRequest := request })).disposed_eq
      rw [Service.client_updateClient_self] at hend
      exact hend

/-- A request to delete the client disposes it when the request can be made. -/
theorem onRequest_disposed (h : a.StreamKnown env.wire c stream) {m : Submessage}
    (hm : m.DeletesClient) :
    ((onRequest env c stream m true a).2.client c).disposed =
      ((a.client c).disposed || (env.ok .decode && (env.ok .getRequest &&
        (!env.wire.streamReliable stream || env.ok .allocateReply)))) := by
  unfold onRequest
  cases hdecode : env.ok .decode with
  | false => exact (Bool.or_false _).symm
  | true =>
      rw [ensure_true_bind_apply, Bool.true_and, ← newClientRequest_isSome h m, bind_apply]
      have hrequest : Serving False c a (newClientRequest env c stream m true a).2 :=
        newClientRequest_serving env c stream m true a
      rcases hnew : newClientRequest env c stream m true a with ⟨_ | r, b⟩
      · rw [hnew] at hrequest
        exact hrequest.disposed_eq.trans (Bool.or_false _).symm
      · have hserve : serveRequest env c r m = disposeClientSession env c (some r) := by
          rw [serveRequest, hm.1]
          change onSubmsgDelete env c r m = _
          rw [onSubmsgDelete, hm.2]
        have hend : ∀ res : Option Unit, Within (Serving False c) (do
            onlyIf (m.id != .readData || res.isSome) (completeRequest env c r m res.isSome)
            ensure res.isSome) := by
          intro res
          refine .bind (.onlyIf fun _ => ?_) fun _ => .ensure _
          exact completeRequest_serving env c r m _
        have hdisposed := disposeClientSession_disposed env c (some r) b
        rw [← hserve] at hdisposed
        rw [Option.isSome_some, Bool.or_true]
        exact (hend _ _).disposed_eq.trans hdisposed

/-- The client is disposed after a submessage when it was before, or when the
submessage disposes it. -/
theorem dispatchSubmsg_disposed (h : a.StreamKnown env.wire c stream)
    (m : Submessage × (ServiceCall → Bool)) :
    ((dispatchSubmsg env c stream m a).2.client c).disposed =
      ((a.client c).disposed || Submessage.disposes env.wire stream m) := by
  by_cases hdelete : m.1.DeletesClient
  · have hrun : dispatchSubmsg env c stream m a =
        ignore (onRequest { env with ok := m.2 } c stream m.1 true) a := by
      unfold dispatchSubmsg onSubmsg ignore
      rw [read_bind_apply, hdelete.1]
    have hknown : a.StreamKnown ({ env with ok := m.2 } : ServiceEnv).wire c stream := h
    rw [hrun]
    refine (onRequest_disposed hknown hdelete).trans ?_
    simp [Submessage.disposes, hdelete, Bool.and_assoc]
  · have hserving : Within (Serving False c) (dispatchSubmsg env c stream m) :=
      dispatchSubmsg_serving env c stream hdelete
    rw [(hserving a).disposed_eq]
    simp [Submessage.disposes, hdelete]

theorem dispatchSubmsg_known (h : a.StreamKnown env.wire c stream)
    (m : Submessage × (ServiceCall → Bool)) :
    (dispatchSubmsg env c stream m a).2.StreamKnown env.wire c stream := by
  have hserving : Within (Serving True c) (dispatchSubmsg env c stream m) :=
    dispatchSubmsg_serving env c stream fun _ => trivial
  exact (hserving a).streamKnown h

/-- The client is disposed after a list of submessages when one of them disposes
it. -/
theorem forEach_dispatchSubmsg_disposed (h : a.StreamKnown env.wire c stream)
    (l : List (Submessage × (ServiceCall → Bool))) :
    ∃ b, forEach l (dispatchSubmsg env c stream) a = (some (), b) ∧
      (b.client c).disposed =
        ((a.client c).disposed || l.any (Submessage.disposes env.wire stream)) := by
  induction l generalizing a with
  | nil => exact ⟨a, rfl, (Bool.or_false _).symm⟩
  | cons m l ih =>
      obtain ⟨b, hb, hdisposed⟩ := ih (dispatchSubmsg_known h m)
      refine ⟨b, hb, ?_⟩
      rw [hdisposed, dispatchSubmsg_disposed h, List.any_cons, Bool.or_assoc]

/-- No submessage is handled for a disposed client when none of them but the last
disposes it. -/
theorem submsgCalls_undisposed_iff (h : a.StreamKnown env.wire c stream)
    (hdisposed : (a.client c).disposed = false)
    (l : List (Submessage × (ServiceCall → Bool))) :
    (∀ s ∈ submsgCalls env c stream l a, (s.client c).disposed = false) ↔
      ∀ m ∈ l.dropLast, Submessage.disposes env.wire stream m = false := by
  induction l generalizing a with
  | nil => simp [submsgCalls]
  | cons m l ih =>
      cases l with
      | nil => simp [submsgCalls, hdisposed]
      | cons m' l =>
          have hnext := dispatchSubmsg_disposed h m
          rw [hdisposed, Bool.false_or] at hnext
          rw [List.dropLast_cons_cons]
          constructor
          · intro hall
            have hm : Submessage.disposes env.wire stream m = false := by
              rw [← hnext]
              exact hall _ (by simp [submsgCalls])
            have hrest := (ih (dispatchSubmsg_known h m) (hnext.trans hm)).1
              fun s hs => hall s (List.mem_cons_of_mem _ hs)
            intro m'' hm''
            rcases List.mem_cons.1 hm'' with rfl | hm''
            · exact hm
            · exact hrest m'' hm''
          · intro hall s hs
            have hm := hall m List.mem_cons_self
            rcases List.mem_cons.1 hs with rfl | hs
            · exact hdisposed
            · refine (ih (dispatchSubmsg_known h m) (hnext.trans hm)).2 ?_ s hs
              exact fun m'' hm'' => hall m'' (List.mem_cons_of_mem _ hm'')

/-- The result of a message whose stream is available: all its submessages are
handled, and what is reported depends on the XRCE session. -/
theorem onMessageReceived_available (hdisposed : (a.client c).disposed = false)
    (hstream : env.stream = some stream) (h : StreamAvailable env c stream a) :
    ∃ b d, b.StreamKnown env.wire c stream ∧ (b.client c).disposed = false ∧
      onSubmsgCalls env c a = submsgCalls env c stream env.dispatched b ∧
      (d.client c).disposed = env.dispatched.any (Submessage.disposes env.wire stream) ∧
      onMessageReceived env c a = (some (env.received && (d.client c).disposed), d) := by
  obtain ⟨b, hb, hknown⟩ := lookupStream_available h
  have hserving : Serving False c a (lookupStream env c stream a).2 :=
    lookupStream_serving env c stream a
  rw [hb] at hserving
  have hundisposed : (b.client c).disposed = false := hserving.disposed_eq.trans hdisposed
  obtain ⟨d, hd, hany⟩ := forEach_dispatchSubmsg_disposed hknown env.dispatched
  rw [hundisposed, Bool.false_or] at hany
  refine ⟨b, d, hknown, hundisposed, ?_, hany, ?_⟩
  · rw [onSubmsgCalls, if_neg (by simp [hdisposed]), hstream]
    dsimp only
    rw [hb]
  · have hreceive : receiveInSession env c stream b =
        (if env.received then some () else none, d) := by
      rw [receiveInSession, bind_apply, hd]
      rfl
    rw [onMessageReceived, read_bind_apply, if_neg (by simp [hdisposed]), hstream]
    cases hreceived : env.received with
    | false =>
        rw [hreceived] at hreceive
        simp [bind_apply, attempt, hb, hreceive]
    | true =>
        rw [hreceived] at hreceive
        simp [bind_apply, attempt, hb, hreceive]

/-- Of a message that is not for the submessage listener nothing is handled, and the
client is not disposed. -/
theorem onMessageReceived_ignored (h : (a.client c).disposed = true ∨ env.stream = none ∨
    ∃ stream, env.stream = some stream ∧ ¬ StreamAvailable env c stream a) :
    onSubmsgCalls env c a = [] ∧
      ((onMessageReceived env c a).2.client c).disposed = (a.client c).disposed := by
  unfold onSubmsgCalls onMessageReceived
  rw [read_bind_apply]
  cases hdisposed : (a.client c).disposed with
  | true => exact ⟨rfl, hdisposed⟩
  | false =>
      rw [hdisposed] at h
      rcases h with h | h | ⟨stream, hstream, hunavailable⟩
      · cases h
      · rw [h]
        exact ⟨rfl, hdisposed⟩
      · have hnone := lookupStream_unavailable hunavailable
        have hserving : Serving False c a (lookupStream env c stream a).2 :=
          lookupStream_serving env c stream a
        rw [hstream]
        rcases hb : lookupStream env c stream a with ⟨_ | _, b⟩
        · rw [hb] at hserving
          refine ⟨by simp [hb], ?_⟩
          simpa [bind_apply, attempt, hb, hdisposed] using hserving.disposed_eq
        · rw [hb] at hnone
          cases hnone

end ServiceM

namespace Service

/-- No submessage is handled for a disposed client, and a message that makes the
client disposed is reported as such. -/
structure DisposalHandled (env : ServiceEnv) (c : ℕ) (a : Service) : Prop where
  calls : ∀ s ∈ ServiceM.onSubmsgCalls env c a, (s.client c).disposed = false
  reported : (a.client c).disposed = false →
    ((ServiceM.onMessageReceived env c a).2.client c).disposed = true →
      (ServiceM.onMessageReceived env c a).1 = some true

/-- **Disposal.** No submessage is handled for a disposed client and a disposal is
reported exactly when, in a message whose submessages are handled, no submessage
but the last disposes the client and the XRCE session reports success if that one
does. -/
theorem disposal_handled_iff (env : ServiceEnv) (c : ℕ) (a : Service) :
    DisposalHandled env c a ↔
      ∀ stream, (a.client c).disposed = false → env.stream = some stream →
        StreamAvailable env c stream a →
          (∀ m ∈ env.dispatched.dropLast, Submessage.disposes env.wire stream m = false) ∧
          (env.received = true ∨
            ∀ m ∈ env.dispatched, Submessage.disposes env.wire stream m = false) := by
  by_cases hhandled : (a.client c).disposed = false ∧
      ∃ stream, env.stream = some stream ∧ StreamAvailable env c stream a
  · obtain ⟨hdisposed, stream, hstream, havailable⟩ := hhandled
    obtain ⟨b, d, hknown, hb, hcalls, hany, hrun⟩ :=
      ServiceM.onMessageReceived_available hdisposed hstream havailable
    have hundisposed := ServiceM.submsgCalls_undisposed_iff hknown hb env.dispatched
    have hnone : (d.client c).disposed = false ↔
        ∀ m ∈ env.dispatched, Submessage.disposes env.wire stream m = false := by
      rw [hany, List.any_eq_false]
      simp
    constructor
    · rintro ⟨hall, hreported⟩ stream' - hstream' -
      obtain rfl : stream = stream' := Option.some.inj (hstream.symm.trans hstream')
      rw [hcalls] at hall
      refine ⟨hundisposed.1 hall, ?_⟩
      rw [← hnone]
      cases hd : (d.client c).disposed with
      | false => exact .inr rfl
      | true =>
          have hresult := hreported hdisposed (by rw [hrun]; exact hd)
          rw [hrun, hd, Bool.and_true] at hresult
          exact .inl (Option.some.inj hresult)
    · intro hmessage
      obtain ⟨hlast, hreceived⟩ := hmessage stream hdisposed hstream havailable
      refine ⟨by rw [hcalls]; exact hundisposed.2 hlast, fun _ hd => ?_⟩
      rw [hrun] at hd ⊢
      have hok : env.received = true := by
        refine hreceived.resolve_right fun hall => ?_
        rw [hnone.2 hall] at hd
        cases hd
      rw [hok, hd]
      rfl
  · have hignored : (a.client c).disposed = true ∨ env.stream = none ∨
        ∃ stream, env.stream = some stream ∧ ¬ StreamAvailable env c stream a := by
      cases hdisposed : (a.client c).disposed with
      | true => exact .inl rfl
      | false =>
          cases hstream : env.stream with
          | none => exact .inr (.inl rfl)
          | some stream =>
              refine .inr (.inr ⟨stream, rfl, fun h => hhandled ⟨hdisposed, stream, hstream, h⟩⟩)
    obtain ⟨hcalls, hsame⟩ := ServiceM.onMessageReceived_ignored hignored
    constructor
    · intro _ stream hdisposed hstream havailable
      exact absurd ⟨hdisposed, stream, hstream, havailable⟩ hhandled
    · intro _
      refine ⟨fun s hs => ?_, fun hdisposed hend => ?_⟩
      · rw [hcalls] at hs
        cases hs
      · rw [hsame, hdisposed] at hend
        cases hend

/-- The deletion of the client itself. -/
def deleteClient : Submessage :=
  ⟨.delete, 1, ⟨.client, 1⟩, false, .data, 0, none, none⟩

/-- A message of the client of key 5 that deletes the client. -/
def deletion : ServiceOperation × ServiceEnv :=
  (.receiveMessage .first ⟨[1, 0, 0, 0, 5, 0, 0, 0]⟩,
    { ServiceEnv.obliging with dispatched := [(deleteClient, fun _ => true)] })

/-- A message with two deletions of the client. -/
def deletedTwice : ServiceEnv :=
  { ServiceEnv.obliging with
    dispatched := [(deleteClient, fun _ => true), (deleteClient, fun _ => true)] }

/-- The second submessage of a message is handled although the first one disposed the
client. -/
theorem submsg_handled_after_disposal :
    ¬ ∀ (a : Service), a.ReachedWhen (fun _ _ => True) → ∀ env key c, a.clientOf key = some c →
      DisposalHandled env c a := by
  intro hall
  have hhandled := hall connectedOnce (reached_after (started_initial true 0 0) _) deletedTwice
    ⟨5, 1⟩ 0 (by decide)
  have hcalls := hhandled.calls (ServiceM.dispatchSubmsg deletedTwice 0 128
    (deleteClient, fun _ => true) connectedOnce).2 (List.mem_cons_of_mem _ List.mem_cons_self)
  exact absurd hcalls (by decide)

end Service

end NanoAgent
