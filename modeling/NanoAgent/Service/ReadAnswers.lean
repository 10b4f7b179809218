import NanoAgent.Service.Forwarding
import NanoAgent.Service.Supersede

/-!
# Readers whose read was answered

A `READ_DATA` takes `forward` from the state of its reader before it looks for the stream and
asks the DDS agent for the read, and the callback of the new read sets it again. When the
request fails in between, the earlier read goes on without it. `Answered` is the state
that a request leaves behind when it succeeds, and in which samples are forwarded.
-/

namespace NanoAgent

open Prog

/-- The states of all readers are left alone. -/
structure SameReaders (a b : Service) : Prop where
  readers : ∀ c, (b.client c).readers = (a.client c).readers

namespace SameReaders

variable {a b : Service}

instance : IsPreorder Service SameReaders where
  refl _ := ⟨fun _ => rfl⟩
  trans _ _ _ h h' := ⟨fun c => (h'.readers c).trans (h.readers c)⟩

theorem of_pool (h : b.clientsPool = a.clientsPool) : SameReaders a b :=
  ⟨fun c => by rw [Service.client, h, Service.client]⟩

theorem updateClient (a : Service) (c : ℕ) {f : ProxyClient → ProxyClient}
    (hf : ∀ p, (f p).readers = p.readers) : SameReaders a (a.updateClient c f) := by
  refine ⟨fun e => ?_⟩
  rw [Service.client_updateClient]
  split
  · exact hf _
  · rfl

theorem sendOnStream (a : Service) (wire : Wire) (c stream : ℕ) (kind : OutputKind) :
    SameReaders a (a.sendOnStream wire c stream kind) :=
  IsTrans.trans _ _ _ (of_pool rfl : SameReaders a (a.send c kind))
    (updateClient _ c fun _ => rfl)

end SameReaders

namespace ServiceM

variable (env : ServiceEnv) (c : ℕ)

theorem lookupStream_sameReaders (stream : ℕ) : Within SameReaders (lookupStream env c stream) := by
  have hallocate : Within SameReaders (allocateStreamStorage env c (stream + 2)) :=
    .bind (.ensure _) fun _ => .read fun a => .bind (.modify fun b => .of_pool rfl) fun _ =>
      .bind (.modify fun b => .updateClient b c fun _ => rfl) fun _ => .pure _
  refine .read fun a => .ite (fun _ => .pure _) fun _ => .bind hallocate fun r => ?_
  refine .bind (.onFailure (.ensure _) (.modify fun b => ?_)) fun _ => .modify fun b => ?_
  · have herase : SameReaders b (b.updateClient c fun p =>
        { p with streamStorage := p.streamStorage.erase r }) := .updateClient b c fun _ => rfl
    exact IsTrans.trans _ _ _ herase (.of_pool rfl)
  · exact .updateClient b c fun _ => rfl

theorem allocateReplyMessage_sameReaders (stream : ℕ) :
    Within SameReaders (allocateReplyMessage env c stream) :=
  .bind (lookupStream_sameReaders env c stream) fun _ => .ensure _

theorem newClientRequest_sameReaders (stream : ℕ) (m : Submessage) (reply : Bool) :
    Within SameReaders (newClientRequest env c stream m reply) := by
  refine .bind (.ensure _) fun _ => .read fun a =>
    .bind (.modify fun b => .updateClient b c fun _ => rfl) fun _ => .bind ?_ fun _ => .pure _
  refine .onlyIf fun _ => .bind (.onFailure (allocateReplyMessage_sameReaders env c stream) ?_) ?_
  · exact .modify fun b => .updateClient b c fun _ => rfl
  · exact fun _ => .modify fun b => .updateClient b c fun _ => rfl

theorem replyToOperation_sameReaders (r : ℕ) (success : Bool) :
    Within SameReaders (replyToOperation env c r success) := by
  refine .read fun a => .bind (.ite (fun _ => lookupStream_sameReaders env c _) fun _ =>
    allocateReplyMessage_sameReaders env c _) fun _ => ?_
  refine .bind (.modify fun b => .updateClient b c fun _ => rfl) fun _ => .bind (.ensure _) ?_
  exact fun _ => .modify fun b => .sendOnStream b _ c _ _

theorem onSendComplete_sameReaders (m : QueuedMessage) :
    Within SameReaders (onSendComplete env c m) := by
  refine .onlyIf fun _ => .ignore (.read fun a => ?_)
  cases (a.client c).forwards.find? fun f => f.streamId = m.streamId && f.sn = m.sn with
  | none => exact .pure _
  | some f =>
      refine .bind (.modify fun b => .updateClient b c fun _ => rfl) fun _ => ?_
      refine .bind (.modify fun b => .of_pool rfl) fun _ => .bind (.ensure _) fun _ => ?_
      exact .bind (.modify fun b => .of_pool rfl) fun _ => .ensure _

theorem acknowledge_sameReaders (m : QueuedMessage) : Within SameReaders (acknowledge env c m) :=
  .read fun _ => .bind (.ensure _) fun _ =>
    .bind (.modify fun b => .updateClient b c fun _ => rfl) fun _ =>
      onSendComplete_sameReaders env c m

theorem dismissClientFwdDataRequests_sameReaders (stream : Option ℕ) (reader : ℕ) :
    Within SameReaders (dismissClientFwdDataRequests env c stream reader) := by
  refine .read fun a => ?_
  induction (a.client c).sendQueue.length + 1 with
  | zero => exact .pure _
  | succ n ih =>
      refine .read fun a => ?_
      cases (a.client c).forwards.find? (ForwardDataRequest.chosen stream reader) with
      | none => exact .pure _
      | some f =>
          refine .bind (.ignore (lookupStream_sameReaders env c _)) fun _ => .bind ?_ fun _ =>
            .ite (fun _ => .pure _) fun _ => ih
          refine .read fun b => .bind (.modify fun d => .updateClient d c fun _ => rfl) fun _ => ?_
          exact .bind (.forEach fun m _ => onSendComplete_sameReaders env c m) fun _ => .pure _

theorem completeRequest_sameReaders (r : ℕ) (m : Submessage) (success : Bool) :
    Within SameReaders (completeRequest env c r m success) := by
  refine .read fun a => .bind (.onlyIf fun _ => .ignore (replyToOperation_sameReaders env c r _)) ?_
  exact fun _ => .onlyIf fun _ => .modify fun b => .updateClient b c fun _ => rfl

theorem forwardData_sameReaders (id stream d n : ℕ) :
    Within SameReaders (forwardData env c id stream d n) := by
  refine .bind (.ensure _) fun _ => .bind (.ensure _) fun _ => ?_
  refine .bind (.modify fun b => ?_) fun _ => ?_
  · exact .sendOnStream b _ c _ _
  · exact .onlyIf fun _ => .modify fun b => .updateClient b c fun _ => rfl

end ServiceM

/-- The reader `id` of the client `c` was read with success, and its read has a request. -/
def Answered (c id : ℕ) (a : Service) : Prop :=
  ∃ st, (a.client c).readers.lookup id = some st ∧ st.forward = true ∧ st.req.isSome = true

theorem SameReaders.answered {a b : Service} (h : SameReaders a b) {c id : ℕ}
    (ha : Answered c id a) : Answered c id b := by
  obtain ⟨st, hst, hrest⟩ := ha
  rw [← h.readers] at hst
  exact ⟨st, hst, hrest⟩

/-- From `a` to `b` the state of no reader has changed but that of the reader `id` of the client
`c`. -/
structure OneReader (c id : ℕ) (a b : Service) : Prop where
  others : ∀ e i, (e ≠ c ∨ i ≠ id) → (b.client e).readers.lookup i = (a.client e).readers.lookup i

namespace OneReader

variable {c id : ℕ} {a b : Service}

instance : IsPreorder Service (OneReader c id) where
  refl _ := ⟨fun _ _ _ => rfl⟩
  trans _ _ _ h h' := ⟨fun e i hne => (h'.others e i hne).trans (h.others e i hne)⟩

theorem of_same (h : SameReaders a b) : OneReader c id a b :=
  ⟨fun e _ _ => by rw [h.readers e]⟩

theorem updateReaderState (a : Service) (c id : ℕ) (f : ReaderState → ReaderState) :
    OneReader c id a (a.updateReaderState c id f) := by
  refine ⟨fun e i hne => ?_⟩
  rw [Service.updateReaderState, Service.client_updateClient]
  split
  · rename_i he
    subst he
    rw [AList.lookup_modify_of_ne]
    exact hne.resolve_left fun h => h rfl
  · rfl

theorem answered (h : OneReader c id a b) {e i : ℕ} (hne : e ≠ c ∨ i ≠ id)
    (ha : Answered e i a) : Answered e i b := by
  obtain ⟨st, hst, hrest⟩ := ha
  rw [← h.others e i hne] at hst
  exact ⟨st, hst, hrest⟩

end OneReader

namespace ServiceM

variable {env : ServiceEnv} {c r id : ℕ} {a b : Service}

theorem onReleaseReadSamples_sameReaders (env : ServiceEnv) (c id : ℕ) :
    Within SameReaders (onReleaseReadSamples env c id) :=
  .read fun _ => .bind (.require _) fun _ => .bind (lookupStream_sameReaders env c _) fun _ =>
    dismissClientFwdDataRequests_sameReaders env c _ _

theorem prepareRead_oneReader (env : ServiceEnv) (c r : ℕ) (m : Submessage) :
    Within (OneReader c m.objectId.value) (prepareRead env c r m) := by
  have hsame : ∀ {α : Type} {x : ServiceM α}, Within SameReaders x →
      Within (OneReader c m.objectId.value) x := fun h a => .of_same (h a)
  refine .bind (.ensure _) fun _ => .bind (.ensure _) fun _ => .bind (.ensure _) fun _ => ?_
  refine .read fun a => .bind (.require _) fun st => .bind (hsame (.onlyIf fun _ => ?_)) fun _ => ?_
  · exact .modify fun b => .updateClient b c fun _ => rfl
  refine .bind (.modify fun b => .updateReaderState b c _ _) fun _ => ?_
  refine .bind (hsame (lookupStream_sameReaders env c _)) fun _ => .bind (hsame ?_) fun _ => ?_
  · exact .onlyIf fun _ => dismissClientFwdDataRequests_sameReaders env c _ _
  · exact .modify fun b => .updateReaderState b c _ _

theorem onReadCreated_oneReader (env : ServiceEnv) (c r id : ℕ) :
    Within (OneReader c id) (onReadCreated env c r id) := by
  refine .bind (.modify fun b => .updateReaderState b c id _) fun _ => .read fun a => ?_
  refine .onlyIf fun _ => .onFailure ?_ (.modify fun b => .updateReaderState b c id _)
  exact fun b => .of_same (replyToOperation_sameReaders env c r true b)

theorem lookup_updateReaderState (a : Service) (c id : ℕ) (f : ReaderState → ReaderState) :
    ((a.updateReaderState c id f).client c).readers.lookup id =
      ((a.client c).readers.lookup id).map f := by
  rw [Service.updateReaderState, Service.client_updateClient_self, AList.lookup_modify_self]

theorem prepareRead_of_refused {m : Submessage} (h : m.objectId.kind ≠ .dataReader ∨
    m.format ≠ .data ∨ env.ok .lookupResource = false) (c r : ℕ) (a : Service) :
    prepareRead env c r m a = (none, a) := by
  unfold prepareRead
  by_cases hkind : m.objectId.kind = .dataReader
  · by_cases hformat : m.format = .data
    · have hlookup := (h.resolve_left fun h => h hkind).resolve_left fun h => h hformat
      rw [decide_eq_true hkind, decide_eq_true hformat, hlookup]
      rfl
    · rw [decide_eq_true hkind, decide_eq_false hformat]
      rfl
  · rw [decide_eq_false hkind]
    rfl

/-- A reader that a read is prepared for has its request. -/
theorem prepareRead_request {m : Submessage} (h : prepareRead env c r m a = (some (), b)) :
    ∃ st, (b.client c).readers.lookup m.objectId.value = some st ∧ st.req = some r := by
  obtain ⟨st, a₁, a₂, a₃, hst, hreturn, hstream, hdismiss, rfl⟩ := prepareRead_eq_some h
  have hreturned : SameReaders a a₁ := by
    have hwithin : Within SameReaders (onlyIf st.req.isSome
        (modify fun a => a.returnClientRequest c (st.req.getD 0))) :=
      .onlyIf fun _ => .modify fun b => .updateClient b c fun _ => rfl
    have hstep := hwithin a
    rwa [hreturn] at hstep
  have hfound := lookupStream_sameReaders env c m.preferredStreamId
    (a₁.updateReaderState c m.objectId.value fun st =>
      { st with
        forward := false, req := some r, readFmt := m.format, streamId := m.preferredStreamId })
  rw [hstream] at hfound
  have hdismissed : SameReaders a₂ a₃ := by
    have hwithin : Within SameReaders (onlyIf (env.wire.streamReliable m.preferredStreamId)
        (dismissClientFwdDataRequests env c (some m.preferredStreamId) m.objectId.value)) :=
      .onlyIf fun _ => dismissClientFwdDataRequests_sameReaders env c _ _
    have hstep := hwithin a₂
    rwa [hdismiss] at hstep
  rw [lookup_updateReaderState, hdismissed.readers, hfound.readers, lookup_updateReaderState,
    hreturned.readers, hst]
  exact ⟨_, rfl, rfl⟩

/-- The callback of a read that succeeds leaves the reader answered. -/
theorem onReadCreated_answered {st : ReaderState}
    (hst : (a.client c).readers.lookup id = some st) (hreq : st.req.isSome = true)
    (h : onReadCreated env c r id a = (some (), b)) : Answered c id b := by
  unfold onReadCreated at h
  rw [modify_bind_apply, read_bind_apply] at h
  have hset : Answered c id (a.updateReaderState c id fun st => { st with forward := true }) := by
    refine ⟨{ st with forward := true }, ?_, rfl, hreq⟩
    rw [lookup_updateReaderState, hst]
    rfl
  generalize a.updateReaderState c id (fun st => { st with forward := true }) = a₁ at h hset
  cases hreply : (a₁.request c r).reply with
  | false =>
      rw [hreply] at h
      obtain ⟨-, rfl⟩ := pure_eq_some.1 h
      exact hset
  | true =>
      rw [hreply, onlyIf_true, onFailure_eq_some] at h
      have hsame := replyToOperation_sameReaders env c r true a₁
      rw [h] at hsame
      exact hsame.answered hset

end ServiceM

namespace Forwarding

/-- A relation of the states of the XRCE agent. -/
def InService (R : Service → Service → Prop) (s t : Forwarding) : Prop := R s.service t.service

section InService

variable {R : Service → Service → Prop} [IsPreorder Service R]

instance : IsPreorder Forwarding (InService R) where
  refl s := refl s.service
  trans _ _ _ h h' := IsTrans.trans (r := R) _ _ _ h h'

theorem onAgent_inService {α : Type} (x : AgentM α) : Within (InService R) (onAgent x) :=
  fun s => refl (r := R) s.service

omit [IsPreorder Service R] in
theorem onService_inService {α : Type} {x : ServiceM α} (h : Within R x) :
    Within (InService R) (onService x) :=
  fun s => h s.service

end InService

theorem takeLoans_inService [IsPreorder Service R] (env : Env) (c : ℕ) (loans : List ℕ) :
    Within (InService R) (takeLoans env c loans) :=
  .read fun _ => .bind (.require _) fun _ => .forEach fun _ _ => .ignore (onAgent_inService _)

theorem dismissing_inService [IsPreorder Service R] {α : Type} (env : Env) (c : ℕ)
    {x : ServiceM α} (h : Within R x) : Within (InService R) (dismissing env c x) :=
  .read fun _ => .bind (.attempt (onService_inService h)) fun _ => .read fun _ =>
    .bind (.ignore (takeLoans_inService env c _)) fun _ => .require _

variable {env : Env} {senv : ServiceEnv} {c stream : ℕ} {m : Submessage} {s t : Forwarding}

theorem readData_oneReader (env : Env) (senv : ServiceEnv) (key : ClientSessionKey)
    (c r id : ℕ) (spec : ReadSpecification) :
    Within (InService (OneReader c id)) (readData env senv key c r id spec) := by
  refine .bind (onAgent_inService _) fun n => .bind (onAgent_inService _) fun _ => ?_
  refine .bind (.attempt ?_) fun _ => .ite (fun _ => onAgent_inService _) fun _ => ?_
  · exact onService_inService (ServiceM.onReadCreated_oneReader senv c r id)
  · exact .bind (.ignore (onAgent_inService _)) fun _ => .fail

/-- A `READ_DATA` touches the state of no reader but its own. -/
theorem onReadData_oneReader (env : Env) (senv : ServiceEnv) (c stream : ℕ) (m : Submessage) :
    Within (InService (OneReader c m.objectId.value)) (onReadData env senv c stream m) := by
  have hsame : ∀ {α : Type} {x : ServiceM α}, Within SameReaders x →
      Within (InService (OneReader c m.objectId.value)) (onService x) := fun h =>
    onService_inService fun a => .of_same (h a)
  refine .bind (.ensure _) fun _ => .read fun s => .bind ?_ fun r => .bind (.attempt ?_) fun _ => ?_
  · exact hsame (ServiceM.newClientRequest_sameReaders senv c stream m _)
  · refine .bind (dismissing_inService env c (ServiceM.prepareRead_oneReader senv c r m))
      fun _ => ?_
    refine .read fun s => .bind (.require _) fun key => .bind (.require _) fun st => ?_
    exact readData_oneReader env senv key c r _ _
  · exact .bind (.onlyIf fun _ => hsame (ServiceM.completeRequest_sameReaders senv c r m true))
      fun _ => .ensure _

theorem onService_eq_some {α : Type} {x : ServiceM α} {v : α} (h : onService x s = (some v, t)) :
    x s.service = (some v, t.service) := by
  rw [onService, Prod.mk.injEq] at h
  rw [← h.2]
  exact Prod.ext h.1 rfl

theorem onAgent_service {α : Type} {x : AgentM α} {o : Option α} (h : onAgent x s = (o, t)) :
    t.service = s.service := by
  rw [onAgent, Prod.mk.injEq] at h
  rw [← h.2]

/-- What becomes of the readers is decided before the DDS agent takes the samples back. -/
theorem dismissing_eq_some {α : Type} {x : ServiceM α} {v : α}
    (h : dismissing env c x s = (some v, t)) : x s.service = (some v, t.service) := by
  unfold dismissing at h
  rw [read_bind_apply, attempt_bind_apply, read_bind_apply] at h
  obtain ⟨_, u, htaken, h⟩ := bind_eq_some.1 h
  obtain ⟨hsome, rfl⟩ := require_eq_some.1 h
  have hloans : Within (InService Eq) (takeLoans env c
      ((onService x s).2.service.returns.drop s.service.returns.length)) :=
    takeLoans_inService env c _
  have hkept := hloans.ignore (onService x s).2
  rw [htaken] at hkept
  exact Prod.ext hsome hkept

/-- A `READ_DATA` that succeeds leaves its reader answered. -/
theorem onReadData_answered (h : onReadData env senv c stream m s = (some (), t)) :
    Answered c m.objectId.value t.service := by
  obtain ⟨_, _, hdecode, h⟩ := bind_eq_some.1 h
  obtain ⟨-, rfl⟩ := ensure_eq_some.1 hdecode
  rw [read_bind_apply] at h
  obtain ⟨r, s₁, -, h⟩ := bind_eq_some.1 h
  rw [attempt_bind_apply] at h
  obtain ⟨_, s₃, hcomplete, h⟩ := bind_eq_some.1 h
  obtain ⟨hsome, rfl⟩ := ensure_eq_some.1 h
  rw [hsome, onlyIf_true] at hcomplete
  obtain ⟨_, hread⟩ := Option.isSome_iff_exists.1 hsome
  have hread := eq_of_fst_eq_some hread
  generalize (onSubmsgRead env senv c r m s₁).2 = s₂ at hread hcomplete
  have hsame := ServiceM.completeRequest_sameReaders senv c r m true s₂.service
  rw [onService_eq_some hcomplete] at hsame
  refine hsame.answered ?_
  obtain ⟨_, u, hprepare, hread⟩ := bind_eq_some.1 hread
  obtain ⟨st, hst, hreq⟩ := ServiceM.prepareRead_request (dismissing_eq_some hprepare)
  rw [read_bind_apply] at hread
  obtain ⟨key, _, hkey, hread⟩ := bind_eq_some.1 hread
  obtain ⟨-, rfl⟩ := require_eq_some.1 hkey
  obtain ⟨st', _, hst', hread⟩ := bind_eq_some.1 hread
  obtain ⟨-, rfl⟩ := require_eq_some.1 hst'
  obtain ⟨n, u₁, hfind, hread⟩ := bind_eq_some.1 hread
  obtain ⟨_, u₂, hstart, hread⟩ := bind_eq_some.1 hread
  have hservice : u₂.service = u.service :=
    (onAgent_service hstart).trans (onAgent_service hfind)
  rw [attempt_bind_apply] at hread
  split at hread
  · rename_i hcreated
    obtain ⟨_, hcreated⟩ := Option.isSome_iff_exists.1 hcreated
    have hcallback := onService_eq_some (eq_of_fst_eq_some hcreated)
    rw [onAgent_service hread]
    rw [hservice] at hcallback
    exact ServiceM.onReadCreated_answered hst (by rw [hreq]; rfl) hcallback
  · obtain ⟨_, _, -, hread⟩ := bind_eq_some.1 hread
    exact absurd hread (by simp)

/-- A request is refused before the state of its reader is touched. -/
def Refused (senv : ServiceEnv) (m : Submessage) : Prop :=
  m.id ≠ .readData ∨ senv.ok .decode = false ∨ m.objectId.kind ≠ .dataReader ∨
    m.format ≠ .data ∨ senv.ok .lookupResource = false

theorem onReadData_of_refused (env : Env) (c stream : ℕ) (h : Refused senv m) :
    Within (InService SameReaders) (onReadData env senv c stream m) := by
  refine .ensureThen fun hdecode => .read fun s => .bind (onService_inService ?_) fun r =>
    .bind (.attempt fun u => ?_) fun res => .bind (.onlyIf fun _ => ?_) fun _ => .ensure _
  · exact ServiceM.newClientRequest_sameReaders senv c stream m _
  · rw [Bool.and_eq_true, decide_eq_true_eq] at hdecode
    have hearly := (h.resolve_left fun h => h hdecode.1).resolve_left fun h =>
      Bool.false_ne_true (h.symm.trans hdecode.2)
    have hprepare : Within (InService SameReaders)
        (dismissing env c (ServiceM.prepareRead senv c r m)) :=
      dismissing_inService env c fun a => by
        rw [ServiceM.prepareRead_of_refused hearly]
        exact refl (r := SameReaders) a
    have hkept := hprepare u
    rw [onSubmsgRead, bind_apply]
    rcases hprepared : dismissing env c (ServiceM.prepareRead senv c r m) u with ⟨_ | _, v⟩
    · rw [hprepared] at hkept
      exact hkept
    · have hread := dismissing_eq_some hprepared
      rw [ServiceM.prepareRead_of_refused hearly] at hread
      cases hread
  · exact onService_inService (ServiceM.completeRequest_sameReaders senv c r m true)

/-- Samples leave the readers alone. -/
theorem processSample_sameReaders (env : Env) (senv : ServiceEnv) (key : ClientSessionKey)
    (n : ℕ) (smp : Sample) (now : ℕ) :
    Within (InService SameReaders) (processSample env senv key n smp now) := by
  have hsend : ∀ c id st d k messages,
      Within (InService SameReaders) (sendMessages senv c id st d k messages) := by
    intro c id st d k messages
    induction messages generalizing k with
    | nil => exact .pure _
    | cons message messages ih =>
        refine .bind (.onFailure (.ensure _) (.modify fun _ => refl _)) fun _ => ?_
        refine .bind (.modify fun _ => refl _) fun _ => .bind (onService_inService ?_) fun _ => ih _
        exact ServiceM.forwardData_sameReaders senv c id st d k
  have hforward : ∀ c id d st, Within (InService SameReaders) (forwardSample senv c id d st) := by
    intro c id d st
    refine .ite (fun _ => .pure _) fun _ => .read fun s => ?_
    refine .bind (.modify fun _ => refl _) fun _ => ?_
    refine .bind (.require _) fun _ => .ite (fun _ => ?_) fun _ => ?_
    · exact .bind (.modify fun _ => refl _) fun _ => .pure _
    · exact .bind (.modify fun _ => refl _) fun _ => .bind (.attempt (hsend _ _ _ _ _ _)) fun _ =>
        .pure _
  refine .read fun s => .bind (onAgent_inService _) fun offer => ?_
  cases offer with
  | inl p => exact .pure _
  | inr x =>
      refine .bind (.require _) fun c => .bind (.read fun s => .bind (.require _) fun st => ?_)
        fun _ => onAgent_inService _
      refine .ite (fun _ => .pure _) fun _ => .ite (fun _ => .pure _) fun _ => ?_
      refine .ite (fun _ => .pure _) fun _ => .bind (.attempt (onService_inService ?_)) fun _ => ?_
      · exact ServiceM.lookupStream_sameReaders senv c _
      · exact .ite (fun _ => hforward _ _ _ _) fun _ => .pure _

/-- The `READ_DATA` for the reader `id` of the client `c` succeeds, or is refused before the state
of the reader is touched. -/
def Answers (s : Forwarding) (c id : ℕ) : Event → Prop
  | .readData env senv e stream m => e = c → m.objectId.value = id →
      (onReadData env senv e stream m s).1 = some () ∨ Refused senv m
  | .acknowledge _ _ _ _ | .releaseReadSamples _ _ _ _ | .sample _ _ _ _ _ _ => True

/-- Every `READ_DATA` of a run for the reader succeeds, or is refused before. -/
def AnswersAll (c id : ℕ) : Forwarding → List Event → Prop
  | _, [] => True
  | s, e :: run => s.Answers c id e ∧ AnswersAll c id (s.step e) run

theorem step_answered {id : ℕ} {e : Event} (hs : Answered c id s.service)
    (he : s.Answers c id e) : Answered c id (s.step e).service := by
  cases e with
  | readData env senv c' stream m =>
      by_cases hown : c' = c ∧ m.objectId.value = id
      · obtain ⟨rfl, rfl⟩ := hown
        rcases he rfl rfl with hread | hrefused
        · exact onReadData_answered (eq_of_fst_eq_some hread)
        · exact SameReaders.answered (onReadData_of_refused env c' stream hrefused s) hs
      · rw [not_and_or] at hown
        exact OneReader.answered (onReadData_oneReader env senv c' stream m s)
          (hown.imp Ne.symm Ne.symm) hs
  | acknowledge env senv c' m =>
      exact SameReaders.answered
        (dismissing_inService env c' (ServiceM.acknowledge_sameReaders senv c' m) s) hs
  | releaseReadSamples env senv c' id' =>
      exact SameReaders.answered
        (dismissing_inService env c' (ServiceM.onReleaseReadSamples_sameReaders senv c' id') s) hs
  | sample env senv key n smp now =>
      exact SameReaders.answered (processSample_sameReaders env senv key n smp now s) hs

/-- In a run a reader stays answered as long as its requests are. -/
theorem run_answered {id : ℕ} {run : List Event} (hs : Answered c id s.service)
    (hrun : AnswersAll c id s run) : Answered c id (run.foldl step s).service := by
  induction run generalizing s with
  | nil => exact hs
  | cons e run ih => exact ih (step_answered hs hrun.1) hrun.2

end Forwarding

end NanoAgent
