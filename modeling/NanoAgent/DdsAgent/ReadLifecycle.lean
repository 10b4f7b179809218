import NanoAgent.DdsAgent.AttachmentRun
import NanoAgent.DdsAgent.Detachment

/-!
# The lifecycle of reads

A read is taken from the pool of reads when it is started, registered with the
reader state of its resource, and returned when it ends. `ReadsRegistered` is what
should hold between operations: the read of an attached resource is live and
registered exactly once, and a read that was returned is not referred to.

`ReadInv` is the invariant. Serving a read does not touch it (`RegFrame`), ending a
read keeps it when the calls that follow the removal of the request are answered
(`Env.EndsReads`), and starting a read keeps it when nothing fails once the read has
been taken (`Env.StartsRead`).
-/

namespace NanoAgent

open Prog

/-- The read of every attached resource is live and registered once with its reader,
and reads that were returned are not referred to. -/
structure ReadsRegistered (a : Agent) : Prop where
  registered : ∀ n ∈ a.linked, ∀ rd, (a.attached n).readReq = some rd →
    a.poolReads.Live rd ∧ ∃ r reader, a.resources.lookup (a.attached n).resource = some r ∧
      r.userData = some reader ∧ (a.readerAt reader).registered.count rd = 1
  unreferenced : ∀ rd ∈ a.poolReads.returned,
    (∀ n ∈ a.linked, (a.attached n).readReq ≠ some rd) ∧
      ∀ reader, rd ∉ (a.readerAt reader).registered

/-- The record of an attached resource is that of a data reader in use, with the
reader state `reader`. -/
structure ReaderRecord (a : Agent) (n reader : ℕ) (r : Resource) : Prop where
  lookup : a.resources.lookup (a.attached n).resource = some r
  kind : r.kind = .dataReader
  id : r.id ≠ .none
  alive : r.nativeDeleted = false
  state : r.userData = some reader

/-- The invariant behind `ReadsRegistered`. -/
structure ReadInv (a : Agent) : Prop where
  kind : ∀ n rd, (a.attached n).readReq = some rd → (a.attached n).kind = .dataReader
  live : ∀ n rd, (a.attached n).readReq = some rd → a.poolReads.Live rd
  reg : ∀ n rd, (a.attached n).readReq = some rd →
    ∃ r reader, ReaderRecord a n reader r ∧ rd ∈ (a.readerAt reader).registered
  excl : ∀ n m rd, (a.attached n).readReq = some rd → (a.attached m).readReq = some rd → n = m
  nodup : ∀ reader, (a.readerAt reader).registered.Nodup
  own : ∀ reader, ∀ rd ∈ (a.readerAt reader).registered, a.poolReads.Live rd
  uniq : ∀ reader reader', ∀ rd ∈ (a.readerAt reader).registered,
    rd ∈ (a.readerAt reader').registered → reader = reader'
  sound : a.poolReads.Sound
  ids : ∀ rid r, a.resources.lookup rid = some r → r.id ≠ .none → r.id = rid
  states : ∀ rid r reader, a.resources.lookup rid = some r → r.kind = .dataReader →
    r.userData = some reader → reader < a.poolReaders.next
  distinct : ∀ rid rid' r r' reader, a.resources.lookup rid = some r →
    a.resources.lookup rid' = some r' → r.kind = .dataReader → r'.kind = .dataReader →
    r.userData = some reader → r'.userData = some reader → rid = rid'
  keyed : a.resources.lookup .none = none

theorem ReadInv.registered {a : Agent} (h : ReadInv a) : ReadsRegistered a where
  registered n _ rd hrd := by
    refine ⟨h.live n rd hrd, ?_⟩
    obtain ⟨r, reader, hr, hmem⟩ := h.reg n rd hrd
    exact ⟨r, reader, hr.lookup, hr.state, List.count_eq_one_of_mem (h.nodup reader) hmem⟩
  unreferenced rd hrd := by
    constructor
    · intro n _ hread
      exact (h.live n rd hread).2 hrd
    · intro reader hmem
      exact (h.own reader rd hmem).2 hrd

/-- From `a` to `b` nothing has changed that the registration of reads depends on. -/
structure RegFrame (a b : Agent) : Prop where
  resources : b.resources = a.resources
  kind : ∀ n, (b.attached n).kind = (a.attached n).kind
  resource : ∀ n, (b.attached n).resource = (a.attached n).resource
  readReq : ∀ n, (b.attached n).readReq = (a.attached n).readReq
  next : b.poolReads.next = a.poolReads.next
  returned : b.poolReads.returned = a.poolReads.returned
  requests : ∀ reader, (b.readerAt reader).requests = (a.readerAt reader).requests
  readers : b.poolReaders.next = a.poolReaders.next

namespace RegFrame

theorem rfl' (a : Agent) : RegFrame a a :=
  ⟨rfl, fun _ => rfl, fun _ => rfl, fun _ => rfl, rfl, rfl, fun _ => rfl, rfl⟩

instance : IsPreorder Agent RegFrame where
  refl := rfl'
  trans _ _ _ h h' :=
    ⟨h'.1.trans h.1, fun n => (h'.2 n).trans (h.2 n), fun n => (h'.3 n).trans (h.3 n),
      fun n => (h'.4 n).trans (h.4 n), h'.5.trans h.5, h'.6.trans h.6,
      fun n => (h'.7 n).trans (h.7 n), h'.8.trans h.8⟩

variable {a b : Agent}

theorem of_same (hr : b.resources = a.resources) (hp : b.poolResources = a.poolResources)
    (hn : b.poolReads.next = a.poolReads.next) (ht : b.poolReads.returned = a.poolReads.returned)
    (hq : b.poolReaders = a.poolReaders) : RegFrame a b := by
  have hatt : ∀ n, b.attached n = a.attached n := by
    intro n
    rw [Agent.attached, hp, Agent.attached]
  refine ⟨hr, fun n => ?_, fun n => ?_, fun n => ?_, hn, ht, fun n => ?_, ?_⟩
  · rw [hatt]
  · rw [hatt]
  · rw [hatt]
  · rw [Agent.readerAt, hq, Agent.readerAt]
  · rw [hq]

theorem updateAttached (h : RegFrame a b) (n : ℕ) {f : AttachedResource → AttachedResource}
    (hf : ∀ x, (f x).kind = x.kind ∧ (f x).resource = x.resource ∧ (f x).readReq = x.readReq) :
    RegFrame a (b.updateAttached n f) := by
  have hstep : RegFrame b (b.updateAttached n f) := by
    refine ⟨rfl, fun m => ?_, fun m => ?_, fun m => ?_, rfl, rfl, fun _ => rfl, rfl⟩ <;>
      rw [Agent.attached_updateAttached] <;> split
    · exact (hf _).1
    · rfl
    · exact (hf _).2.1
    · rfl
    · exact (hf _).2.2
    · rfl
  exact IsTrans.trans _ _ _ h hstep

theorem updateRead (h : RegFrame a b) (rd : ℕ) (f : Read → Read) :
    RegFrame a (b.updateRead rd f) :=
  IsTrans.trans _ _ _ h (.of_same rfl rfl rfl rfl rfl)

theorem notify (h : RegFrame a b) (c : Callback) : RegFrame a (b.notify c) :=
  IsTrans.trans _ _ _ h (.of_same rfl rfl rfl rfl rfl)

theorem registered_eq (h : RegFrame a b) (reader : ℕ) :
    (b.readerAt reader).registered = (a.readerAt reader).registered := by
  unfold Reader.registered
  rw [h.requests]

theorem live_iff (h : RegFrame a b) (rd : ℕ) : b.poolReads.Live rd ↔ a.poolReads.Live rd := by
  unfold BufferPool.Live
  rw [h.next, h.returned]

theorem readInv (h : RegFrame a b) (ha : ReadInv a) : ReadInv b where
  kind n rd hrd := by
    rw [h.kind]
    exact ha.kind n rd (h.readReq n ▸ hrd)
  live n rd hrd := (h.live_iff rd).2 (ha.live n rd (h.readReq n ▸ hrd))
  reg n rd hrd := by
    obtain ⟨r, reader, hr, hmem⟩ := ha.reg n rd (h.readReq n ▸ hrd)
    refine ⟨r, reader, ⟨?_, hr.kind, hr.id, hr.alive, hr.state⟩, ?_⟩
    · rw [h.resources, h.resource]
      exact hr.lookup
    · rw [h.registered_eq]
      exact hmem
  excl n m rd hn hm := ha.excl n m rd (h.readReq n ▸ hn) (h.readReq m ▸ hm)
  nodup reader := by
    rw [h.registered_eq]
    exact ha.nodup reader
  own reader rd hmem := (h.live_iff rd).2 (ha.own reader rd (h.registered_eq reader ▸ hmem))
  uniq reader reader' rd hmem hmem' :=
    ha.uniq reader reader' rd (h.registered_eq reader ▸ hmem) (h.registered_eq reader' ▸ hmem')
  sound rd hrd := h.next ▸ ha.sound rd (h.returned ▸ hrd)
  ids rid r hr := ha.ids rid r (h.resources ▸ hr)
  states rid r reader hr := h.readers ▸ ha.states rid r reader (h.resources ▸ hr)
  distinct rid rid' r r' reader hr hr' :=
    ha.distinct rid rid' r r' reader (h.resources ▸ hr) (h.resources ▸ hr')
  keyed := h.resources ▸ ha.keyed

end RegFrame

theorem ReadInv.of_same {a b : Agent} (ha : ReadInv a) (hr : b.resources = a.resources)
    (hp : b.poolResources = a.poolResources) (hn : b.poolReads.next = a.poolReads.next)
    (ht : b.poolReads.returned = a.poolReads.returned) (hq : b.poolReaders = a.poolReaders) :
    ReadInv b :=
  (RegFrame.of_same hr hp hn ht hq).readInv ha

namespace Reader

/-- The requests are unchanged. -/
def SameRequests (r r' : Reader) : Prop := r'.requests = r.requests

instance : IsPreorder Reader SameRequests where
  refl _ := rfl
  trans _ _ _ h h' := Eq.trans h' h

theorem requestsUpdated_sameRequests (env : Env) (lastSample : ℕ → ℕ) :
    Within SameRequests (requestsUpdated env lastSample) :=
  .read fun _ => .onlyIf fun _ => .bind (.modify fun _ => rfl) fun _ => .ensure _

/-- The request found for a read is its first one. -/
theorem registered_erase {r : Reader} {rd : ℕ} {q : ReaderRequest}
    (h : r.findRequestByRead rd = some q) :
    (r.requests.erase q).map (·.read) = r.registered.erase rd := by
  unfold findRequestByRead at h
  unfold registered
  generalize r.requests = l at h
  induction l with
  | nil => cases h
  | cons p l ih =>
      rw [List.find?_cons] at h
      by_cases hp : p.read = rd
      · simp only [hp, decide_true, Option.some.injEq] at h
        subst h
        simp [hp]
      · have hne : p ≠ q := by
          rintro rfl
          simp only [hp, decide_false] at h
          exact hp (by simpa using List.find?_some h)
        simp only [hp, decide_false] at h
        rw [List.erase_cons_tail (by simpa using hne), List.map_cons, List.map_cons,
          List.erase_cons_tail (by simpa using hp), ih h]

theorem findRequestByRead_isSome {r : Reader} {rd : ℕ} (h : rd ∈ r.registered) :
    ∃ q, r.findRequestByRead rd = some q := by
  obtain ⟨q, hq, hread⟩ := List.mem_map.1 h
  refine Option.isSome_iff_exists.1 (List.find?_isSome.2 ⟨q, hq, ?_⟩)
  simpa using hread

end Reader

/-- The calls that follow the removal of a request are answered: either the very first
call of ending a read is refused, or none of them is. -/
def Env.EndsReads (env : Env) : Prop :=
  ∀ rd, env.ok (.dds .asDataReader rd) = false ∨
    (env.ok (.dds .deleteReadCondition rd) = true ∧ env.ok (.dds .resetListener rd) = true ∧
      env.ok (.postEvent .cancelRead rd) = true ∧ env.ok (.waitSemaphore .cancelRead rd) = true)

namespace Reader

/-- Removing a request, when the calls that follow are answered. -/
theorem requestComplete_cases {env : Env} (henv : env.EndsReads) (rd : ℕ) (r : Reader) :
    (requestComplete env rd r = (none, r) ∧
      (env.ok (.dds .asDataReader rd) = true → rd ∉ r.registered)) ∨
      (∃ r', requestComplete env rd r = (some (), r') ∧
        r'.registered = r.registered.erase rd) ∧
      env.ok (.postEvent .cancelRead rd) = true ∧
      env.ok (.waitSemaphore .cancelRead rd) = true := by
  rcases henv rd with hno | ⟨hdel, hreset, hpost, hwait⟩
  · refine .inl ⟨?_, fun has => ?_⟩
    · simp [requestComplete, hno]
    · rw [hno] at has
      cases has
  · cases has : env.ok (.dds .asDataReader rd) with
    | false => exact .inl ⟨by simp [requestComplete, has], fun h => by cases h⟩
    | true =>
        cases hfind : r.findRequestByRead rd with
        | none =>
            refine .inl ⟨?_, fun _ hmem => ?_⟩
            · simp [requestComplete, has, bind_apply, hfind, ensure]
            · obtain ⟨q, hq⟩ := findRequestByRead_isSome hmem
              rw [hfind] at hq
              cases hq
        | some q =>
            refine .inr ⟨?_, hpost, hwait⟩
            have hreg := registered_erase hfind
            cases hempty : (r.requests.erase q).isEmpty with
            | true =>
                refine ⟨{ r with requests := r.requests.erase q,
                                 poolRequests := r.poolRequests.giveBack q.addr,
                                 listening := false }, ?_, hreg⟩
                simp [requestComplete, has, bind_apply, hfind, onlyIf_ensure, hdel, hreset, ensure,
                  hempty]
            | false =>
                refine ⟨{ r with requests := r.requests.erase q,
                                 poolRequests := r.poolRequests.giveBack q.addr }, ?_, hreg⟩
                simp [requestComplete, has, bind_apply, hfind, onlyIf_ensure, hdel, ensure, hempty]

end Reader

namespace AgentM

theorem notify_regFrame (c : Callback) : Within RegFrame (modify fun a => a.notify c) :=
  .modify fun a => .notify (.rfl' a) c

theorem updateRead_regFrame (rd : ℕ) (f : Read → Read) :
    Within RegFrame (modify fun a => a.updateRead rd f) :=
  .modify fun a => .updateRead (.rfl' a) rd f

theorem access_regFrame (id : ResourceId) (valid : Bool) : Within RegFrame (access id valid) := by
  refine .modify fun a => ?_
  cases valid
  · exact .of_same rfl rfl rfl rfl rfl
  · exact .rfl' a

theorem deref_regFrame (id : ResourceId) (r : Resource) : Within RegFrame (deref id r) :=
  .bind (access_regFrame _ _) fun _ => .require _

theorem onReader_regFrame {α : Type} (n : ℕ) {x : Prog Reader α}
    (hx : Within Reader.SameRequests x) : Within RegFrame (onReader n x) := by
  intro a
  refine ⟨rfl, fun _ => rfl, fun _ => rfl, fun _ => rfl, rfl, rfl, fun m => ?_, rfl⟩
  change ((a.updateReader n _).readerAt m).requests = _
  rw [Agent.readerAt_updateReader]
  split
  · rename_i hm
    subst hm
    exact hx _
  · rfl

theorem fillReceivedData_regFrame (env : Env) (key : ClientSessionKey) (n d : ℕ) (smp : Sample) :
    Within RegFrame (fillReceivedData env key n d smp) := by
  have hfill : ∀ f : ReceivedData → ReceivedData, Within RegFrame (modify fun a : Agent =>
      { a with poolSamples := a.poolSamples.update d f }) :=
    fun f => .modify fun _ => .of_same rfl rfl rfl rfl rfl
  refine .read fun a => .bind (.modify fun _ => .of_same rfl rfl rfl rfl rfl) fun _ => ?_
  refine .bind (.onlyIf fun _ => .bind (.ensure _) fun _ => hfill _) fun _ => ?_
  refine .bind (.ensure _) fun _ => .bind (hfill _) fun _ => .bind (.require _) fun _ => ?_
  exact .modify fun _ => .of_same rfl rfl rfl rfl rfl

theorem convertSampleEA_regFrame (env : Env) (key : ClientSessionKey) (n : ℕ) (smp : Sample) :
    Within RegFrame (convertSampleEA env key n smp) := by
  refine .bind (.read fun a => .bind (.require _) fun s => ?_) fun d => .bind ?_ fun _ => .pure _
  · cases s.rcvdDataPool with
    | nil =>
        refine .bind (.ensure _) fun _ => .bind (.modify fun _ => ?_) fun _ => .pure _
        exact .of_same rfl rfl rfl rfl rfl
    | cons d l =>
        refine .bind (.modify fun _ => ?_) fun _ => .pure _
        exact .of_same rfl rfl rfl rfl rfl
  · refine .onFailure (fillReceivedData_regFrame env key n d smp) (.modify fun _ => ?_)
    exact .of_same rfl rfl rfl rfl rfl

theorem acceptSample_regFrame (a : Agent) (n rd d : ℕ) (smp : Sample) (retained : Bool)
    (now : ℕ) : RegFrame a (a.acceptSample n rd d smp retained now) := by
  unfold Agent.acceptSample
  apply RegFrame.notify
  apply RegFrame.updateAttached
  · apply RegFrame.updateRead
    cases retained with
    | true => exact .updateRead (.rfl' a) _ _
    | false =>
        apply RegFrame.updateRead
        apply RegFrame.updateAttached (.rfl' a)
        intro x
        exact ⟨rfl, rfl, rfl⟩
  · intro x
    exact ⟨rfl, rfl, rfl⟩

theorem processSampleEA_regFrame (env : Env) (key : ClientSessionKey) (n : ℕ) (smp : Sample)
    (now : ℕ) : Within RegFrame (processSampleEA env key n smp now) := by
  refine .read fun a => .bind (.require _) fun rd => ?_
  refine .ite (fun _ => .pure _) fun _ => .ite (fun _ => .pure _) fun _ => ?_
  refine .bind (.ensure _) fun _ => .bind (convertSampleEA_regFrame _ _ _ _) fun d => ?_
  cases env.delivery smp with
  | error => exact .bind (.modify fun _ => .of_same rfl rfl rfl rfl rfl) fun _ => .fail
  | tryAgain => exact .bind (.modify fun _ => .of_same rfl rfl rfl rfl rfl) fun _ => .pure _
  | accepted retained =>
      exact .bind (.modify fun a => acceptSample_regFrame a _ _ _ _ _ _) fun _ => .pure _

theorem processSamplesEA_regFrame (env : Env) (key : ClientSessionKey) (n now : ℕ)
    (samples : List Sample) (updated : Bool) :
    Within RegFrame (processSamplesEA env key n now samples updated) := by
  induction samples generalizing updated with
  | nil => exact .pure _
  | cons smp samples ih =>
      refine .ite (fun _ => ?_) fun _ => ih _
      refine .bind (.attempt (processSampleEA_regFrame _ _ _ _ _)) fun res => ?_
      match res with
      | none => exact .pure _
      | some .old => exact ih _
      | some (.retry delay) => exact .pure _
      | some .delivered => exact ih _

theorem readFromReaderDdsEA_regFrame (env : Env) (n : ℕ) :
    Within RegFrame (readFromReaderDdsEA env n) :=
  .read fun _ => .bind (lookupResource_frame _ _ _) fun _ => .bind (.require _) fun _ =>
    .bind (.ensure _) fun _ => .bind (deref_regFrame _ _) fun _ => .bind (.require _) fun _ =>
    .bind (.require _) fun _ => .bind (.ensure _) fun _ => .bind (.ensure _) fun _ => .pure _

theorem returnLoanToReaderDdsEA_regFrame (env : Env) (n : ℕ) (updated : Bool) :
    Within RegFrame (returnLoanToReaderDdsEA env n updated) :=
  .read fun _ => .bind (lookupResource_frame _ _ _) fun _ => .bind (.require _) fun _ =>
    .bind (.ensure _) fun _ => .bind (deref_regFrame _ _) fun _ => .bind (.require _) fun _ =>
    .bind (.require _) fun _ => .bind (.ensure _) fun _ => .bind (.onlyIf fun _ =>
      onReader_regFrame _ (Reader.requestsUpdated_sameRequests _ _)) fun _ => .ensure _

theorem leaveReaderEA_regFrame (env : Env) (n rd : ℕ) (loan : Bool) (exit : LoopExit)
    (done : Bool) : Within RegFrame (leaveReaderEA env n rd loan exit done) := by
  refine .bind (updateRead_regFrame _ _) fun _ => .bind (.attempt ?_) fun _ => ?_
  · exact within_postRetry (fun _ _ => .of_same rfl rfl rfl rfl rfl) _ _ _
  refine .bind (.attempt (.onlyIf fun _ => returnLoanToReaderDdsEA_regFrame _ _ _)) fun _ => ?_
  exact .bind (.onlyIf fun _ => updateRead_regFrame _ _) fun _ => .ensure _

theorem readFromReaderEA_regFrame (env : Env) (key : ClientSessionKey) (n : ℕ) :
    Within RegFrame (readFromReaderEA env key n) := by
  have hleave := fun rd loan exit done => leaveReaderEA_regFrame env n rd loan exit done
  refine .read fun a => .bind (.require _) fun rd => ?_
  refine .ite (fun _ => hleave _ _ _ _) fun _ => .ite (fun _ => hleave _ _ _ _) fun _ => ?_
  refine .bind (.attempt (readFromReaderDdsEA_regFrame _ _)) fun res => ?_
  cases res with
  | none => exact hleave _ _ _ _
  | some samples =>
      refine .bind (processSamplesEA_regFrame _ _ _ _ _ _) fun exit => .read fun a => ?_
      refine .ite (fun _ => ?_) fun _ => hleave _ _ _ _
      exact .ite (fun _ => hleave _ _ _ _) fun _ => hleave _ _ _ _

theorem onDataOnReader_regFrame (env : Env) (rd : ℕ) :
    Within RegFrame (onDataOnReader env rd) := by
  have htrigger : Within RegFrame (modify fun a : Agent => { a with condCleanupReads := true }) :=
    .modify fun _ => .of_same rfl rfl rfl rfl rfl
  refine .read fun a => .bind (.ensure _) fun _ => ?_
  refine .bind (findAttachedReader_frame _ _) fun n => .bind (.require _) fun req => ?_
  refine .ite (fun _ => htrigger) fun _ => ?_
  refine .bind (.onlyIf fun _ => updateRead_regFrame _ _) fun _ => ?_
  refine .bind (updateRead_regFrame _ _) fun _ =>
    .bind (readFromReaderEA_regFrame _ _ _) fun _ => ?_
  exact .read fun _ => .onlyIf fun _ => htrigger

theorem writeData_regFrame (env : Env) (key : ClientSessionKey) (id : ℕ) :
    Within RegFrame (writeData env key id) :=
  .bind (findAttached_frame _ _) fun _ => .bind (.require _) fun _ => .read fun _ =>
    .bind (.ensure _) fun _ => .bind (lookupResource_frame _ _ _) fun _ =>
    .bind (.require _) fun _ => .bind (.ensure _) fun _ => .bind (deref_regFrame _ _) fun _ =>
    .bind (.ensure _) fun _ => .bind (.ensure _) fun _ => .bind (.ensure _) fun _ =>
    notify_regFrame _

end AgentM

/-- Removing the request of the read of `n` from its reader, together with returning
the read and forgetting it. -/
theorem ReadInv.endRead {a b : Agent} (ha : ReadInv a) {n rd reader : ℕ}
    (hrd : (a.attached n).readReq = some rd) (hmem : rd ∈ (a.readerAt reader).registered)
    (hres : b.resources = a.resources) (hreaders : b.poolReaders.next = a.poolReaders.next)
    (hkind : ∀ m, (b.attached m).kind = (a.attached m).kind)
    (hname : ∀ m, (b.attached m).resource = (a.attached m).resource)
    (hself : (b.attached n).readReq = none)
    (hother : ∀ m, m ≠ n → (b.attached m).readReq = (a.attached m).readReq)
    (hpool : b.poolReads = a.poolReads.giveBack rd)
    (hreg : (b.readerAt reader).registered = (a.readerAt reader).registered.erase rd)
    (hregs : ∀ m, m ≠ reader → (b.readerAt m).registered = (a.readerAt m).registered) :
    ReadInv b := by
  have hread : ∀ m rd', (b.attached m).readReq = some rd' →
      m ≠ n ∧ (a.attached m).readReq = some rd' ∧ rd' ≠ rd := by
    intro m rd' hm
    have hmn : m ≠ n := by
      rintro rfl
      rw [hself] at hm
      cases hm
    rw [hother m hmn] at hm
    refine ⟨hmn, hm, ?_⟩
    rintro rfl
    exact hmn (ha.excl m n _ hm hrd)
  have hmemb : ∀ m rd', rd' ∈ (b.readerAt m).registered →
      rd' ∈ (a.readerAt m).registered ∧ rd' ≠ rd := by
    intro m rd' hm
    by_cases hmr : m = reader
    · subst hmr
      rw [hreg] at hm
      refine ⟨List.mem_of_mem_erase hm, ?_⟩
      rintro rfl
      exact (ha.nodup m).not_mem_erase hm
    · rw [hregs m hmr] at hm
      refine ⟨hm, ?_⟩
      rintro rfl
      exact hmr (ha.uniq m reader _ hm hmem)
  have hmema : ∀ m rd', rd' ∈ (a.readerAt m).registered → rd' ≠ rd →
      rd' ∈ (b.readerAt m).registered := by
    intro m rd' hm hne
    by_cases hmr : m = reader
    · subst hmr
      rw [hreg]
      exact (List.mem_erase_of_ne hne).2 hm
    · rw [hregs m hmr]
      exact hm
  refine ⟨?_, ?_, ?_, ?_, ?_, ?_, ?_, ?_, ?_, ?_, ?_, hres ▸ ha.keyed⟩
  · intro m rd' hm
    rw [hkind]
    exact ha.kind m rd' (hread m rd' hm).2.1
  · intro m rd' hm
    obtain ⟨-, hm, hne⟩ := hread m rd' hm
    rw [hpool]
    exact (ha.live m rd' hm).giveBack hne
  · intro m rd' hm
    obtain ⟨-, hm, hne⟩ := hread m rd' hm
    obtain ⟨r, reader', hrec, hmem'⟩ := ha.reg m rd' hm
    refine ⟨r, reader', ⟨?_, hrec.kind, hrec.id, hrec.alive, hrec.state⟩, hmema _ _ hmem' hne⟩
    rw [hres, hname]
    exact hrec.lookup
  · intro m m' rd' hm hm'
    exact ha.excl m m' rd' (hread m rd' hm).2.1 (hread m' rd' hm').2.1
  · intro m
    by_cases hmr : m = reader
    · subst hmr
      rw [hreg]
      exact (ha.nodup m).erase _
    · rw [hregs m hmr]
      exact ha.nodup m
  · intro m rd' hm
    obtain ⟨hm, hne⟩ := hmemb m rd' hm
    rw [hpool]
    exact (ha.own m rd' hm).giveBack hne
  · intro m m' rd' hm hm'
    exact ha.uniq m m' rd' (hmemb m rd' hm).1 (hmemb m' rd' hm').1
  · rw [hpool]
    exact ha.sound.giveBack (ha.live n rd hrd).1
  · intro rid r hr
    exact ha.ids rid r (hres ▸ hr)
  · intro rid r reader' hr
    rw [hreaders]
    exact ha.states rid r reader' (hres ▸ hr)
  · intro rid rid' r r' reader' hr hr'
    exact ha.distinct rid rid' r r' reader' (hres ▸ hr) (hres ▸ hr')

namespace AgentM

/-- Ending a read, under the invariant: nothing is done, or the request is removed, the
read returned and forgotten. -/
theorem cancelReadEA_cases {env : Env} (henv : env.EndsReads) {n rd : ℕ} {a : Agent}
    (ha : ReadInv a) (hrd : (a.attached n).readReq = some rd) :
    (cancelReadEA env n (a.attached n).resource a = (none, a) ∧
      ((a.readAt rd).hasPendingSamples = false → env.ok (.dds .asDataReader rd) = false)) ∨
    ∃ reader r', rd ∈ (a.readerAt reader).registered ∧
      r'.registered = (a.readerAt reader).registered.erase rd ∧
      cancelReadEA env n (a.attached n).resource a =
        (some (), (a.updateReader reader fun _ => r').releaseRead n rd) := by
  obtain ⟨r, reader, hrec, hmem⟩ := ha.reg n rd hrd
  have hderef : deref (a.attached n).resource r a = (some reader, a) := by
    simp [deref, access, hrec.alive, hrec.state]
  have hid : (r.id != .none) = true := by simpa using hrec.id
  cases hpend : (a.readAt rd).hasPendingSamples with
  | true => exact .inl ⟨by simp [cancelReadEA, hrd, hpend], fun h => by cases h⟩
  | false =>
      rcases Reader.requestComplete_cases henv rd (a.readerAt reader) with
        ⟨hno, hunreg⟩ | ⟨⟨r', hyes, hreg⟩, hpost, hwait⟩
      · have hsame : onReader reader (Reader.requestComplete env rd) a = (none, a) := by
          simp [onReader, hno, Agent.updateReader_self]
        refine .inl ⟨?_, fun _ => ?_⟩
        · simp [cancelReadEA, hrd, hpend, bind_apply, hrec.lookup, hderef, hsame, ensure]
        · cases has : env.ok (.dds .asDataReader rd) with
          | false => rfl
          | true => exact absurd hmem (hunreg has)
      · have hdone : onReader reader (Reader.requestComplete env rd) a =
            (some (), a.updateReader reader fun _ => r') := by
          simp [onReader, hyes]
        refine .inr ⟨reader, r', hmem, hreg, ?_⟩
        simp [cancelReadEA, hrd, hpend, bind_apply, hrec.lookup, hderef, hdone, hpost, hwait, hid,
          ensure]

/-- Ending a read keeps the invariant. -/
theorem cancelReadEA_readInv {env : Env} (henv : env.EndsReads) {n : ℕ} {a : Agent}
    (ha : ReadInv a) : ReadInv (cancelReadEA env n (a.attached n).resource a).2 := by
  cases hrd : (a.attached n).readReq with
  | none => simpa [cancelReadEA, hrd] using ha
  | some rd =>
      rcases cancelReadEA_cases henv ha hrd with ⟨hno, -⟩ | ⟨reader, r', hmem, hreg, hyes⟩
      · rw [hno]
        exact ha
      · rw [hyes]
        have hreaders : ∀ m, ((a.updateReader reader fun _ => r').releaseRead n rd).readerAt m =
            if m = reader then r' else a.readerAt m :=
          fun m => Agent.readerAt_updateReader (a := a) reader m fun _ => r'
        have hattached : ∀ m, ((a.updateReader reader fun _ => r').releaseRead n rd).attached m =
            if m = n then { a.attached m with readReq := none } else a.attached m :=
          fun m => Agent.attached_updateAttached (a := a) n m fun x => { x with readReq := none }
        refine ha.endRead hrd hmem rfl rfl ?_ ?_ ?_ ?_ rfl ?_ ?_
        · intro m
          rw [hattached]
          split <;> rfl
        · intro m
          rw [hattached]
          split <;> rfl
        · rw [hattached, if_pos rfl]
        · intro m hm
          rw [hattached, if_neg hm]
        · rw [hreaders, if_pos rfl]
          exact hreg
        · intro m hm
          rw [hreaders, if_neg hm]

end AgentM

end NanoAgent
