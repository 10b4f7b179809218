import NanoAgent.Service.SendQueueRun
import NanoAgent.Service.Disposal

/-!
# A new read of a reader

The DDS agent cancels the read that a reader has when a new one is created, and
refuses to while samples of the earlier read are on loan. So `prepareRead` dismisses
the forward requests of the reader before. It does so only when the new read is to
be delivered on a reliable stream, and only for the forward requests on that stream.

`readCalls` are the calls of `onSubmsgRead` that the reception of a message makes, and
`superseded_iff` says for which of them nothing of an earlier read is left when the
new read is created.
-/

namespace NanoAgent

open Prog

/-- A call of `onSubmsgRead`, with the answers it meets and the state it is made in. -/
structure ReadCall where
  env : ServiceEnv
  client : ℕ
  request : ℕ
  m : Submessage
  state : Service

instance (stream : Option ℕ) (reader : ℕ) (l : List ForwardDataRequest) (f : ForwardDataRequest) :
    Decidable (f.Covered stream reader l) :=
  inferInstanceAs (Decidable (∃ g ∈ l, _))

namespace ServiceM

/-- The call of `onSubmsgRead` for a submessage. -/
def readCall (env : ServiceEnv) (c stream : ℕ) (m : Submessage × (ServiceCall → Bool))
    (a : Service) : List ReadCall :=
  if m.1.id = .readData ∧ m.2 .decode = true then
    match newClientRequest { env with ok := m.2 } c stream m.1
      (m.1.confirm || a.confirmAllRequests) a with
    | (none, _) => []
    | (some r, b) => [⟨{ env with ok := m.2 }, c, r, m.1, b⟩]
  else []

/-- The calls of `onSubmsgRead` for a list of submessages. -/
def readCalls (env : ServiceEnv) (c stream : ℕ) :
    List (Submessage × (ServiceCall → Bool)) → Service → List ReadCall
  | [], _ => []
  | m :: l, a =>
      readCall env c stream m a ++ readCalls env c stream l (dispatchSubmsg env c stream m a).2

/-- The calls of `onSubmsgRead` that `onMessageReceived` makes. -/
def onReadCalls (env : ServiceEnv) (c : ℕ) (a : Service) : List ReadCall :=
  if (a.client c).disposed then []
  else
    match env.stream with
    | none => []
    | some stream =>
        match lookupStream env c stream a with
        | (none, _) => []
        | (some _, b) => readCalls env c stream env.dispatched b

end ServiceM

namespace Service

/-- The calls of `onSubmsgRead` that the reception of a message makes. -/
def readCalls (env : ServiceEnv) (src : BindEntry) (m : Message) (a : Service) : List ReadCall :=
  match ServiceM.identifySender env m src a with
  | (none, _) => []
  | (some sender, b) =>
      if env.wire.noSession m.sessionId then []
      else
        match b.clientOf ⟨sender.1, m.sessionId⟩ with
        | none => []
        | some c => ServiceM.onReadCalls env c b

/-- Nothing of an earlier read of a reader is left in the client: no forward request
is pending, and no sample is on loan. -/
def Superseded (c id : ℕ) (a : Service) : Prop :=
  (∀ f ∈ (a.client c).forwards, f.readerId ≠ id) ∧ a.loansOf c id = []

end Service

/-- The samples of earlier reads of the reader were all sent on the stream of the new
one, which is reliable, and those on loan are taken back when they are returned. -/
structure ReadCall.Supersedable (x : ReadCall) : Prop where
  forwards : ∀ f ∈ (x.state.client x.client).forwards, f.readerId = x.m.objectId.value →
    x.env.wire.streamReliable x.m.preferredStreamId = true ∧
      f.streamId = x.m.preferredStreamId
  loans : ∀ l ∈ x.state.loansOf x.client x.m.objectId.value,
    x.env.wire.streamReliable x.m.preferredStreamId = true ∧
      ∃ f ∈ (x.state.client x.client).forwards,
        f.Covered (some x.m.preferredStreamId) x.m.objectId.value
          (x.state.client x.client).forwards ∧
        x.env.ok (.takeBack f.rcvdData) = true ∧ l.rcvdData = f.rcvdData

namespace ServiceM

variable {env : ServiceEnv} {c : ℕ}

/-- The steps of a preparation that succeeds: the earlier request is returned, the state of the
reader is set, the stream is looked up and the forward requests are dismissed. -/
theorem prepareRead_eq_some {r : ℕ} {m : Submessage} {a b : Service}
    (h : prepareRead env c r m a = (some (), b)) :
    ∃ st a₁ a₂ a₃, (a.client c).readers.lookup m.objectId.value = some st ∧
      onlyIf st.req.isSome (modify fun a => a.returnClientRequest c (st.req.getD 0)) a =
        (some (), a₁) ∧
      lookupStream env c m.preferredStreamId (a₁.updateReaderState c m.objectId.value fun st =>
        { st with
          forward := false, req := some r, readFmt := m.format,
          streamId := m.preferredStreamId }) = (some (), a₂) ∧
      onlyIf (env.wire.streamReliable m.preferredStreamId)
        (dismissClientFwdDataRequests env c (some m.preferredStreamId) m.objectId.value) a₂ =
          (some (), a₃) ∧
      b = a₃.updateReaderState c m.objectId.value fun st =>
        { st with readSpec := st.readSpec.override m } := by
  obtain ⟨_, _, hkind, h⟩ := bind_eq_some.1 h
  obtain ⟨-, rfl⟩ := ensure_eq_some.1 hkind
  obtain ⟨_, _, hformat, h⟩ := bind_eq_some.1 h
  obtain ⟨-, rfl⟩ := ensure_eq_some.1 hformat
  obtain ⟨_, _, hlookup, h⟩ := bind_eq_some.1 h
  obtain ⟨-, rfl⟩ := ensure_eq_some.1 hlookup
  rw [read_bind_apply] at h
  obtain ⟨st, _, hstate, h⟩ := bind_eq_some.1 h
  obtain ⟨hst, rfl⟩ := require_eq_some.1 hstate
  obtain ⟨_, a₁, hreturn, h⟩ := bind_eq_some.1 h
  rw [modify_bind_apply] at h
  obtain ⟨_, a₂, hstream, h⟩ := bind_eq_some.1 h
  obtain ⟨_, a₃, hdismiss, h⟩ := bind_eq_some.1 h
  exact ⟨st, a₁, a₂, a₃, hst, hreturn, hstream, hdismiss, (modify_eq_some.1 h).symm⟩

/-- What is dismissed before a new read is created. -/
theorem prepareRead_dismissal {r : ℕ} {m : Submessage} {a b : Service}
    (hinv : QueueInv (a.client c)) (h : prepareRead env c r m a = (some (), b)) :
    Dismissal env c (fun f => env.wire.streamReliable m.preferredStreamId = true ∧
      f.Covered (some m.preferredStreamId) m.objectId.value (a.client c).forwards) a b := by
  obtain ⟨st, a₁, a₃, a₄, -, hreturn, hstream, hdismiss, hset⟩ := prepareRead_eq_some h
  have hbefore : SameTraffic c a a₃ := by
    have h₁ : Within (SameTraffic c) (onlyIf st.req.isSome
        (modify fun a => a.returnClientRequest c (st.req.getD 0))) :=
      .onlyIf fun _ => .modify fun a => .updateClient a c fun _ => rfl
    have h₁' := h₁ a
    rw [hreturn] at h₁'
    have h₂ : SameTraffic c a₁ (a₁.updateReaderState c m.objectId.value fun st =>
        { st with
          forward := false, req := some r, readFmt := m.format,
          streamId := m.preferredStreamId }) := .updateClient a₁ c fun _ => rfl
    have h₃ := lookupStream_sameTraffic env c m.preferredStreamId
      (a₁.updateReaderState c m.objectId.value fun st =>
        { st with
          forward := false, req := some r, readFmt := m.format,
          streamId := m.preferredStreamId })
    rw [hstream] at h₃
    exact IsTrans.trans _ _ _ h₁' (IsTrans.trans _ _ _ h₂ h₃)
  have hafter : SameTraffic c a₄ b := by
    rw [hset]
    exact .updateClient a₄ c fun _ => rfl
  have hstart : Dismissal env c (fun _ => False) a a₃ := .none hbefore.forwards hbefore.2
  have hend : Dismissal env c (fun _ => False) a₄ b := .none hafter.forwards hafter.2
  have hmiddle : Dismissal env c (fun f => env.wire.streamReliable m.preferredStreamId = true ∧
      f.Covered (some m.preferredStreamId) m.objectId.value (a.client c).forwards) a₃ a₄ := by
    cases hreliable : env.wire.streamReliable m.preferredStreamId with
    | false =>
        rw [hreliable] at hdismiss
        obtain ⟨-, rfl⟩ := pure_eq_some.1 hdismiss
        exact (Dismissal.none rfl rfl).congr fun f _ => by simp
    | true =>
        rw [hreliable] at hdismiss
        obtain ⟨d, hd, -, hdismissal⟩ := dismissClientFwdDataRequests_spec env c
          (some m.preferredStreamId) m.objectId.value (hinv.of_traffic hbefore.1)
        rw [onlyIf_true, hd] at hdismiss
        cases hdismiss
        rw [hbefore.forwards] at hdismissal
        exact hdismissal.congr fun f _ => by simp
  exact ((hstart.trans hmiddle).trans hend).congr fun f _ => by simp

/-- The queues of the client are in order when `onSubmsgRead` is called. -/
theorem readCalls_queueInv {stream : ℕ} (l : List (Submessage × (ServiceCall → Bool)))
    {a : Service} (hinv : QueueInv (a.client c)) {x : ReadCall}
    (hx : x ∈ readCalls env c stream l a) : QueueInv (x.state.client x.client) := by
  induction l generalizing a with
  | nil => cases hx
  | cons m l ih =>
      rcases List.mem_append.1 hx with hx | hx
      · unfold readCall at hx
        split at hx
        · have hserving : Within (Serving True c) (newClientRequest { env with ok := m.2 } c stream
              m.1 (m.1.confirm || a.confirmAllRequests)) :=
            newClientRequest_serving _ c stream m.1 _
          have hqueued := (hserving a).queued hinv
          rcases hnew : newClientRequest { env with ok := m.2 } c stream m.1
            (m.1.confirm || a.confirmAllRequests) a with ⟨_ | r, b⟩
          · rw [hnew] at hx
            cases hx
          · rw [hnew] at hx hqueued
            rw [List.mem_singleton.1 hx]
            exact hqueued
        · cases hx
      · have hserving : Within (Serving True c) (dispatchSubmsg env c stream m) :=
          dispatchSubmsg_serving env c stream fun _ => trivial
        exact ih ((hserving a).queued hinv) hx

theorem onReadCalls_queueInv {a : Service} (hinv : QueueInv (a.client c)) {x : ReadCall}
    (hx : x ∈ onReadCalls env c a) : QueueInv (x.state.client x.client) := by
  unfold onReadCalls at hx
  split at hx
  · cases hx
  · cases hstream : env.stream with
    | none =>
        rw [hstream] at hx
        cases hx
    | some stream =>
        rw [hstream] at hx
        have hserving : Within (Serving True c) (lookupStream env c stream) :=
          lookupStream_serving env c stream
        have hqueued := (hserving a).queued hinv
        rcases hlookup : lookupStream env c stream a with ⟨_ | _, b⟩
        · simp [hlookup] at hx
        · rw [hlookup] at hqueued
          simp only [hlookup] at hx
          exact readCalls_queueInv env.dispatched hqueued hx

end ServiceM

namespace Service

theorem readCalls_queueInv {a : Service} (ha : a.ReachedWhen fun _ _ => True) {env : ServiceEnv}
    {src : BindEntry} {m : Message} {x : ReadCall} (hx : x ∈ a.readCalls env src m) :
    QueueInv (x.state.client x.client) := by
  unfold readCalls at hx
  obtain ⟨mutex, hmutex⟩ := ServiceM.identifySender_eq env m src a
  rcases hsender : ServiceM.identifySender env m src a with ⟨_ | sender, b⟩
  · simp [hsender] at hx
  · rw [hsender] at hmutex
    simp only [hsender] at hx
    split at hx
    · cases hx
    · cases hclient : b.clientOf ⟨sender.1, m.sessionId⟩ with
      | none =>
          rw [hclient] at hx
          cases hx
      | some c =>
          rw [hclient] at hx
          refine ServiceM.onReadCalls_queueInv ?_ hx
          rw [show b = { a with mappingsMutex := mutex } from hmutex] at hclient ⊢
          exact queuesSound_of_reached ha c (usersKnown_of_reached ha _ c hclient)

/-- **A new read.** Whatever happened before, when a `READ_DATA` gets to the creation of its
read, no forward request of an earlier read of the reader is pending and no sample
of the reader is on loan exactly when the samples of earlier reads were sent on the
stream of the new one, this stream is reliable, and the DDS agent takes those on loan
back when they are returned. -/
theorem superseded_iff {a : Service} (ha : a.ReachedWhen fun _ _ => True) (env : ServiceEnv)
    (src : BindEntry) (m : Message) (x : ReadCall) (hx : x ∈ a.readCalls env src m) (b : Service)
    (h : ServiceM.prepareRead x.env x.client x.request x.m x.state = (some (), b)) :
    Superseded x.client x.m.objectId.value b ↔ x.Supersedable := by
  have hinv := readCalls_queueInv ha hx
  have hdismissal := ServiceM.prepareRead_dismissal hinv h
  constructor
  · rintro ⟨hnone, hloans⟩
    refine ⟨fun f hf hreader => ?_, fun l hl => ?_⟩
    · have hgone : f ∉ (b.client x.client).forwards := fun hmem => hnone f hmem hreader
      rw [hdismissal.forwards f hf, not_not] at hgone
      obtain ⟨hreliable, g, hg, hchosen, hstream, -⟩ := hgone
      refine ⟨hreliable, hstream.trans ?_⟩
      have hsame : some x.m.preferredStreamId = some g.streamId := by
        simpa [ForwardDataRequest.chosen] using (Bool.and_eq_true_iff.1 hchosen).1
      exact (Option.some.inj hsame).symm
    · have hmem := List.mem_filter.1 hl
      have hreturned : l ∉ b.loans := by
        intro hlb
        have hlof : l ∈ b.loansOf x.client x.m.objectId.value := List.mem_filter.2 ⟨hlb, hmem.2⟩
        rw [hloans] at hlof
        cases hlof
      rw [hdismissal.loans l, not_and, not_not] at hreturned
      obtain ⟨f, hf, ⟨hreliable, hcovered⟩, hok, heq⟩ := hreturned hmem.1
      exact ⟨hreliable, f, hf, hcovered, hok, heq⟩
  · rintro ⟨hforwards, hreturn⟩
    refine ⟨fun f hf hreader => ?_, ?_⟩
    · have hold := hdismissal.sublist.subset hf
      obtain ⟨hreliable, hstream⟩ := hforwards f hold hreader
      refine (hdismissal.forwards f hold).1 hf ⟨hreliable, f, hold, ?_, rfl, le_rfl⟩
      simp [ForwardDataRequest.chosen, hstream, hreader]
    · refine List.eq_nil_iff_forall_not_mem.2 fun l hl => ?_
      obtain ⟨hlb, hof⟩ := List.mem_filter.1 hl
      obtain ⟨hla, hkept⟩ := (hdismissal.loans l).1 hlb
      obtain ⟨hreliable, f, hf, hcovered, hok, heq⟩ := hreturn l (List.mem_filter.2 ⟨hla, hof⟩)
      exact hkept ⟨f, hf, ⟨hreliable, hcovered⟩, hok, heq⟩

/-- A message on a session, with its key. -/
def messageOn (key sid : ℕ) : Message := ⟨[sid, 128, 0, 0, key, 0, 0, 0]⟩

def createReader (id : ℕ) : Submessage :=
  ⟨.create, 1, ⟨.dataReader, id⟩, false, .data, 0, none, none⟩

def readData (id stream : ℕ) : Submessage :=
  ⟨.readData, 2, ⟨.dataReader, id⟩, false, .data, stream, none, none⟩

/-- A message with the given submessages, for which every call succeeds. -/
def carrying (l : List Submessage) : ServiceEnv :=
  { ServiceEnv.obliging with dispatched := l.map fun m => (m, fun _ => true) }

/-- A client reads a reader on the reliable stream 128, and a sample was sent to it. -/
def sampleSent : Service :=
  (started true 0 0).after [
    (.receiveMessage .first (.createClient 5 1), .obliging),
    (.receiveMessage .first (messageOn 5 1), carrying [createReader 7, readData 7 128]),
    (.deliverSample ⟨5, 1⟩ 7 3, .obliging)]

/-- The call for a second read of the reader, on a given stream. -/
def secondRead (stream : ℕ) (h : 0 < (sampleSent.readCalls (carrying [readData 7 stream]) .first
    (messageOn 5 1)).length) : ReadCall :=
  (sampleSent.readCalls (carrying [readData 7 stream]) .first (messageOn 5 1)).get ⟨0, h⟩

/-- A second read on the same stream supersedes the first one. -/
theorem superseded_sameStream :
    Superseded 0 7 (ServiceM.prepareRead (secondRead 128 (by decide)).env
      (secondRead 128 (by decide)).client (secondRead 128 (by decide)).request
      (secondRead 128 (by decide)).m (secondRead 128 (by decide)).state).2 :=
  (superseded_iff (reached_after (started_initial true 0 0) _) (carrying [readData 7 128]) .first
    (messageOn 5 1) (secondRead 128 (by decide)) (List.get_mem _ _) _
    (eq_of_fst_eq_some (by decide))).2 ⟨by decide, by decide⟩

/-- A second read on a best-effort stream finds the sample of the first one still on
loan. -/
theorem not_superseded_of_otherStream :
    ¬ ∀ (a : Service), a.ReachedWhen (fun _ _ => True) → ∀ env src m, ∀ x ∈ a.readCalls env src m,
      ∀ b, ServiceM.prepareRead x.env x.client x.request x.m x.state = (some (), b) →
        Superseded x.client x.m.objectId.value b := by
  intro hall
  obtain ⟨hnone, -⟩ := hall sampleSent (reached_after (started_initial true 0 0) _)
    (carrying [readData 7 1]) .first (messageOn 5 1) (secondRead 1 (by decide)) (List.get_mem _ _) _
    (eq_of_fst_eq_some (by decide))
  exact hnone ⟨3, 7, 128, 2⟩ (by decide) (by decide)

end Service

end NanoAgent
