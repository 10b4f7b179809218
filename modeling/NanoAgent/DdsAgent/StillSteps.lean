import NanoAgent.DdsAgent.AttachmentCount
import NanoAgent.DdsAgent.DismissedSamples
import NanoAgent.DdsAgent.ReadTally

/-!
# Operations that offer no sample

Samples are accepted for a read by its data events, and by nothing else. `Still a b` says that
from `a` to `b` no sample was accepted and the reads are where they were. Their readers still
hold what the reads have not passed: a sample is taken from the cache of a reader only when
every read that stays registered is at it or beyond it.
-/

namespace NanoAgent

open Prog

/-- The sample that was accepted for a read. -/
def Callback.acceptedFor (rd : ℕ) : Callback → Option Sample
  | .dataAccepted r smp => if r = rd then some smp else none
  | _ => none

/-- The samples that were accepted for a read, in the order of their acceptance. -/
def Agent.acceptedSamples (a : Agent) (rd : ℕ) : List Sample :=
  a.callbacks.filterMap (Callback.acceptedFor rd)

/-- The reader `p` holds what its reads have not passed. -/
structure KeepsCache (a b : Agent) (p : ℕ) : Prop where
  cache : (b.readerAt p).cache <:+ (a.readerAt p).cache
  passed : ∀ s ∈ (a.readerAt p).cache, s.validData = true → s ∈ (b.readerAt p).cache ∨
    ∀ rd ∈ (b.readerAt p).registered, s.sn ≤ (b.readAt rd).lastSample

/-- The reader `p` is new and holds the samples of `cache`. -/
structure NewReader (cache : List Sample) (a b : Agent) (p : ℕ) : Prop where
  unused : a.poolReaders.next ≤ p
  used : p < b.poolReaders.next
  cache : (b.readerAt p).cache <:+ cache
  requests : (b.readerAt p).requests = []

/-- From `a` to `b` no sample is accepted and no read is started or moved. Readers that are
created hold samples of `cache`. -/
structure Still (cache : List Sample) (a b : Agent) : Prop where
  next : b.poolReads.next = a.poolReads.next
  lastSample : ∀ rd, (b.readAt rd).lastSample = (a.readAt rd).lastSample
  filter : ∀ rd, (b.readAt rd).contentFilterExpr = (a.readAt rd).contentFilterExpr
  accepted : ∀ rd, b.acceptedSamples rd = a.acceptedSamples rd
  filterMatches : b.filterMatches = a.filterMatches
  readers : a.poolReaders.next ≤ b.poolReaders.next
  requests : ∀ p, (b.readerAt p).requests ⊆ (a.readerAt p).requests
  reader : ∀ p, KeepsCache a b p ∨ NewReader cache a b p

variable {cache : List Sample} {a b c : Agent}

theorem Reader.registered_subset {r r' : Reader} (h : r'.requests ⊆ r.requests) :
    r'.registered ⊆ r.registered := List.map_subset _ h

namespace KeepsCache

theorem of_cache {p : ℕ} (h : (b.readerAt p).cache = (a.readerAt p).cache) : KeepsCache a b p :=
  ⟨h ▸ List.suffix_rfl, fun _ hs _ => .inl (h ▸ hs)⟩

theorem trans' {p : ℕ} (h : KeepsCache a b p) (h' : KeepsCache b c p)
    (hreg : (c.readerAt p).registered ⊆ (b.readerAt p).registered)
    (hlast : ∀ rd, (c.readAt rd).lastSample = (b.readAt rd).lastSample) : KeepsCache a c p where
  cache := h'.cache.trans h.cache
  passed s hs hvalid := by
    rcases h.passed s hs hvalid with hkept | hpassed
    · exact h'.passed s hkept hvalid
    · refine .inr fun rd hrd => ?_
      rw [hlast]
      exact hpassed rd (hreg hrd)

end KeepsCache

namespace Still

theorem of_same (hreads : b.poolReads = a.poolReads) (hcalls : b.callbacks = a.callbacks)
    (hreaders : b.poolReaders = a.poolReaders) (hmatches : b.filterMatches = a.filterMatches) :
    Still cache a b where
  next := by rw [hreads]
  lastSample rd := by rw [Agent.readAt, hreads, Agent.readAt]
  filter rd := by rw [Agent.readAt, hreads, Agent.readAt]
  accepted rd := by rw [Agent.acceptedSamples, hcalls, Agent.acceptedSamples]
  filterMatches := hmatches
  readers := by rw [hreaders]
  requests p := by
    rw [Agent.readerAt, hreaders, Agent.readerAt]
    exact fun _ h => h
  reader p := .inl (.of_cache (by rw [Agent.readerAt, hreaders, Agent.readerAt]))

theorem trans' (h : Still cache a b) (h' : Still cache b c) : Still cache a c where
  next := h'.next.trans h.next
  lastSample rd := (h'.lastSample rd).trans (h.lastSample rd)
  filter rd := (h'.filter rd).trans (h.filter rd)
  accepted rd := (h'.accepted rd).trans (h.accepted rd)
  filterMatches := h'.filterMatches.trans h.filterMatches
  readers := Nat.le_trans h.readers h'.readers
  requests p := List.Subset.trans (h'.requests p) (h.requests p)
  reader p := by
    rcases h'.reader p with hkept' | hnew'
    · rcases h.reader p with hkept | hnew
      · exact .inl (hkept.trans' hkept' (Reader.registered_subset (h'.requests p)) h'.lastSample)
      · refine .inr ⟨hnew.unused, Nat.lt_of_lt_of_le hnew.used h'.readers,
          hkept'.cache.trans hnew.cache, ?_⟩
        exact List.subset_nil.1 (hnew.requests ▸ h'.requests p)
    · exact .inr ⟨Nat.le_trans h.readers hnew'.unused, hnew'.used, hnew'.cache, hnew'.requests⟩

instance : IsPreorder Agent (Still cache) where
  refl _ := of_same rfl rfl rfl rfl
  trans _ _ _ := trans'

/-- A notification other than that of an accepted sample. -/
theorem notify (a : Agent) {e : Callback} (he : ∀ rd, e.acceptedFor rd = none) :
    Still cache a (a.notify e) where
  next := rfl
  lastSample _ := rfl
  filter _ := rfl
  accepted rd := by simp [Agent.acceptedSamples, Agent.notify, he]
  filterMatches := rfl
  readers := le_rfl
  requests _ _ h := h
  reader _ := .inl (.of_cache rfl)

/-- A change of a read that does not move it. -/
theorem updateRead (a : Agent) (rd : ℕ) {f : Read → Read}
    (hlast : ∀ r, (f r).lastSample = r.lastSample)
    (hfilter : ∀ r, (f r).contentFilterExpr = r.contentFilterExpr) :
    Still cache a (a.updateRead rd f) where
  next := rfl
  lastSample q := by
    rw [Agent.readAt_updateRead]
    split
    · exact hlast _
    · rfl
  filter q := by
    rw [Agent.readAt_updateRead]
    split
    · exact hfilter _
    · rfl
  accepted _ := rfl
  filterMatches := rfl
  readers := le_rfl
  requests _ _ h := h
  reader _ := .inl (.of_cache rfl)

theorem giveBackRead (a : Agent) (rd : ℕ) :
    Still cache a { a with poolReads := a.poolReads.giveBack rd } where
  next := rfl
  lastSample _ := rfl
  filter _ := rfl
  accepted _ := rfl
  filterMatches := rfl
  readers := le_rfl
  requests _ _ h := h
  reader _ := .inl (.of_cache rfl)

theorem releaseRead (a : Agent) (n rd : ℕ) : Still cache a (a.releaseRead n rd) :=
  (giveBackRead a rd).trans' (of_same rfl rfl rfl rfl)

theorem discardRead (a : Agent) (n : ℕ) : Still cache a (a.discardRead n) := by
  unfold Agent.discardRead
  cases (a.attached n).readReq with
  | none => exact refl a
  | some rd => exact giveBackRead a rd

theorem giveBackReader (a : Agent) (p : ℕ) :
    Still cache a { a with poolReaders := a.poolReaders.giveBack p } where
  next := rfl
  lastSample _ := rfl
  filter _ := rfl
  accepted _ := rfl
  filterMatches := rfl
  readers := le_rfl
  requests _ _ h := h
  reader _ := .inl (.of_cache rfl)

theorem takeReader (a : Agent) : Still cache a (a.takeReader cache) where
  next := rfl
  lastSample _ := rfl
  filter _ := rfl
  accepted _ := rfl
  filterMatches := rfl
  readers := Nat.le_succ _
  requests p := by
    by_cases hp : p = a.poolReaders.next
    · subst hp
      simp [Agent.readerAt, Agent.takeReader, Reader.initial]
    · simp [Agent.readerAt, Agent.takeReader, BufferPool.content_take_of_ne _ _ hp]
  reader p := by
    by_cases hp : p = a.poolReaders.next
    · subst hp
      refine .inr ⟨le_rfl, Nat.lt_succ_self _, ?_, ?_⟩ <;>
        simp [Agent.readerAt, Agent.takeReader, Reader.initial]
    · refine .inl (.of_cache ?_)
      simp [Agent.readerAt, Agent.takeReader, BufferPool.content_take_of_ne _ _ hp]

/-- A change of a reader that keeps its samples and starts no read. -/
theorem updateReader (a : Agent) {p : ℕ} {r : Reader}
    (hrequests : r.requests ⊆ (a.readerAt p).requests)
    (hcache : r.cache <:+ (a.readerAt p).cache)
    (hpassed : ∀ s ∈ (a.readerAt p).cache, s.validData = true → s ∈ r.cache ∨
      ∀ rd ∈ r.registered, s.sn ≤ (a.readAt rd).lastSample) :
    Still cache a (a.updateReader p fun _ => r) where
  next := rfl
  lastSample _ := rfl
  filter _ := rfl
  accepted _ := rfl
  filterMatches := rfl
  readers := le_rfl
  requests m := by
    rw [Agent.readerAt_updateReader]
    split
    · rename_i hm
      rw [hm]
      exact hrequests
    · exact fun _ h => h
  reader m := by
    by_cases hm : m = p
    · subst hm
      refine .inl ⟨?_, ?_⟩ <;> rw [Agent.readerAt_updateReader, if_pos rfl]
      · exact hcache
      · exact hpassed
    · refine .inl (.of_cache ?_)
      rw [Agent.readerAt_updateReader, if_neg hm]

theorem drainSamples (a : Agent) (key : ClientSessionKey) : Still cache a (a.drainSamples key) := by
  unfold Agent.drainSamples
  split
  · exact of_same rfl rfl rfl rfl
  · exact refl a

theorem takeBack (a : Agent) (key : ClientSessionKey) (n rd d : ℕ) :
    Still cache a (a.takeBack key n rd d) := by
  have hread : Still cache a (a.updateRead rd fun r => { r with samples := r.samples.erase d }) :=
    .updateRead a rd (fun _ => rfl) fun _ => rfl
  exact hread.trans' (.of_same rfl rfl rfl rfl)

end Still

/-- From `a` to `b` only the log of failed accesses has changed. -/
def Faulted (a b : Agent) : Prop := b = { a with faults := b.faults }

instance : IsPreorder Agent Faulted where
  refl _ := rfl
  trans a b c h h' := by
    unfold Faulted at *
    rw [h', h]

theorem Faulted.still (h : Faulted a b) : Still cache a b := by
  unfold Faulted at h
  rw [h]
  exact .of_same rfl rfl rfl rfl

/-- The requests of a reader that go on, and its samples. -/
def FewerRequests (r r' : Reader) : Prop := r'.requests ⊆ r.requests ∧ r'.cache = r.cache

instance : IsPreorder Reader FewerRequests where
  refl _ := ⟨fun _ h => h, rfl⟩
  trans _ _ _ h h' := ⟨List.Subset.trans h'.1 h.1, h'.2.trans h.2⟩

theorem Reader.requestComplete_fewer (env : Env) (rd : ℕ) :
    Within FewerRequests (Reader.requestComplete env rd) := by
  refine .bind (.ensure _) fun _ => .read fun r => .bind (.require _) fun req => ?_
  refine .bind (.modify fun s => ⟨List.erase_subset, rfl⟩) fun _ => ?_
  refine .bind (.onlyIf fun _ => .ensure _) fun _ => ?_
  refine .bind (.modify fun s => ⟨fun _ h => h, rfl⟩) fun _ => .read fun r => .onlyIf fun _ => ?_
  exact .bind (.ensure _) fun _ => .modify fun s => ⟨fun _ h => h, rfl⟩

namespace AgentM

theorem modify_still {f : Agent → Agent} (hreads : ∀ a, (f a).poolReads = a.poolReads)
    (hcalls : ∀ a, (f a).callbacks = a.callbacks)
    (hreaders : ∀ a, (f a).poolReaders = a.poolReaders)
    (hmatches : ∀ a, (f a).filterMatches = a.filterMatches) : Within (Still cache) (modify f) :=
  .modify fun a => .of_same (hreads a) (hcalls a) (hreaders a) (hmatches a)

theorem updateSession_still (key : ClientSessionKey) (f : ClientSession → ClientSession) :
    Within (Still cache) (modify fun a : Agent => a.updateSession key f) :=
  modify_still (fun _ => rfl) (fun _ => rfl) (fun _ => rfl) fun _ => rfl

theorem updateResource_still (rid : ResourceId) (f : Resource → Resource) :
    Within (Still cache) (modify fun a : Agent => a.updateResource rid f) :=
  modify_still (fun _ => rfl) (fun _ => rfl) (fun _ => rfl) fun _ => rfl

theorem notify_still {e : Callback} (he : ∀ rd, e.acceptedFor rd = none) :
    Within (Still cache) (modify fun a : Agent => a.notify e) :=
  .modify fun a => .notify a he

theorem access_still (id : ResourceId) (valid : Bool) : Within (Still cache) (access id valid) := by
  refine .modify fun a => ?_
  cases valid
  · exact .of_same rfl rfl rfl rfl
  · exact refl a

theorem deref_faulted (id : ResourceId) (r : Resource) : Within Faulted (deref id r) := by
  refine .bind (.modify fun a => ?_) fun _ => .require _
  split <;> rfl

theorem deref_still (id : ResourceId) (r : Resource) : Within (Still cache) (deref id r) :=
  .bind (access_still _ _) fun _ => .require _

theorem onReader_still {α : Type} (p : ℕ) {x : Prog Reader α} (hx : Within FewerRequests x) :
    Within (Still cache) (onReader p x) := by
  intro a
  obtain ⟨hrequests, hcache⟩ := hx (a.readerAt p)
  refine .updateReader a hrequests (hcache ▸ List.suffix_rfl) fun s hs _ => .inl ?_
  rw [hcache]
  exact hs

/-- What a reader dismisses, its reads have passed. -/
theorem requestsUpdated_still (env : Env) (p : ℕ) (a : Agent) : Still cache a
    (onReader p (Reader.requestsUpdated env fun q => (a.readAt q).lastSample) a).2 := by
  obtain ⟨taken, hcache, hpassed, -, hrequests⟩ := Reader.requestsUpdated_dismisses_prefix env
    (fun q => (a.readAt q).lastSample) (a.readerAt p)
  refine .updateReader a (fun q hq => hrequests ▸ hq) ⟨taken, hcache.symm⟩ fun s hs hvalid => ?_
  rw [hcache] at hs
  rcases List.mem_append.1 hs with htaken | hkept
  · refine .inr fun rd hrd => (hpassed s htaken hvalid).2 rd ?_
    rw [Reader.registered, hrequests] at hrd
    exact hrd
  · exact .inl hkept

variable (env : Env)

theorem cancelReadEA_still (n : ℕ) (rid : ResourceId) :
    Within (Still cache) (cancelReadEA env n rid) := by
  refine .read fun a => ?_
  cases (a.attached n).readReq with
  | none => exact .pure _
  | some rd =>
      refine .bind (.ensure _) fun _ => .bind (.require _) fun r => .bind (deref_still _ _) ?_
      refine fun p => .bind (onReader_still p (Reader.requestComplete_fewer env rd)) fun _ => ?_
      refine .bind (.ensure _) fun _ => .bind (.ensure _) fun _ => .modify fun b => ?_
      exact .releaseRead b n rd

theorem cancelReadI_still (n : ℕ) : Within (Still cache) (cancelReadI env n) :=
  .read fun _ => .bind (lookupResource_frame _ _ _) fun _ => .bind (.require _) fun _ =>
    .bind (.ensure _) fun _ => cancelReadEA_still env _ _

theorem deleteTopicEntity_still (ptr : ℕ) : Within (Still cache) (deleteTopicEntity env ptr) :=
  .onlyIf fun _ => modify_still (fun _ => rfl) (fun _ => rfl) (fun _ => rfl) fun _ => rfl

theorem deleteNativeEntityEA_still {contained : ResourceKind → ℕ → AgentM Unit}
    (hc : ∀ k ptr, Within (Still cache) (contained k ptr)) (kind : ResourceKind) (e : Entity) :
    Within (Still cache) (deleteNativeEntityEA env contained kind e) := by
  refine .bind (.forEach fun k _ => .read fun a => .bind (.ensure _) fun _ => ?_) fun _ => ?_
  · exact .forEach fun c _ => hc k c.ptr
  refine .ite (fun _ => deleteTopicEntity_still env _) fun _ => .bind (.ensure _) fun _ => ?_
  refine .bind (modify_still (fun _ => rfl) (fun _ => rfl) (fun _ => rfl) fun _ => rfl) fun _ => ?_
  exact .onlyIf fun _ => deleteTopicEntity_still env _

theorem finalize_fewer (rid : ℕ) : Within FewerRequests (Reader.finalize env rid) :=
  .read fun _ => .bind (.ensure _) fun _ => .ensure _

theorem releaseUserDataEA_still (rid : ResourceId) (r : Resource) :
    Within (Still cache) (releaseUserDataEA env rid r) := by
  refine .ite (fun _ => ?_) fun _ => .ite (fun _ => ?_) fun _ => .pure _
  · refine .bind (access_still _ _) fun _ => .bind (.require _) fun p => .read fun a => ?_
    refine .bind (.forEach fun q _ => ?_) fun _ => .bind ?_ fun _ => .modify fun b => ?_
    · exact onReader_still p (Reader.requestComplete_fewer env q.read)
    · exact onReader_still p (finalize_fewer env p)
    · exact .giveBackReader b p
  · refine .bind (access_still _ _) fun _ => .bind (.require _) fun writer => ?_
    exact modify_still (fun _ => rfl) (fun _ => rfl) (fun _ => rfl) fun _ => rfl

theorem deleteNativeResourceWith_still {contained : ResourceKind → ℕ → AgentM Unit}
    (hc : ∀ k ptr, Within (Still cache) (contained k ptr)) (rid : ResourceId) :
    Within (Still cache) (deleteNativeResourceWith env contained rid) := by
  refine .bind (lookupResource_frame _ _ _) fun found => ?_
  cases found with
  | none => exact .pure _
  | some r =>
      refine .ite (fun _ => .pure _) fun _ => .bind (updateResource_still rid _) fun _ => ?_
      refine .ite (fun _ => updateResource_still rid _) fun _ => .bind (.ensure _) fun _ => ?_
      refine .bind (.ensure _) fun _ => .read fun a => ?_
      refine .bind (releaseUserDataEA_still env rid r) fun _ => ?_
      refine .bind (updateResource_still rid _) fun _ => .bind (.ensure _) fun _ => ?_
      cases a.lookupEntity r.kind r.id with
      | none => exact .pure _
      | some e => exact deleteNativeEntityEA_still env hc _ _

theorem findContainedResourceAndDeleteEA_still (depth : ℕ) (kind : ResourceKind) (ptr : ℕ) :
    Within (Still cache) (findContainedResourceAndDeleteEA env depth kind ptr) := by
  induction depth generalizing kind ptr with
  | zero => exact .pure _
  | succ depth ih =>
      refine .read fun a => .bind (.ensure _) fun _ => ?_
      cases a.findResourceByNative kind ptr with
      | some c =>
          refine .bind (.ensure _) fun _ => .bind (.ensure _) fun _ => ?_
          exact deleteNativeResourceWith_still env ih _
      | none =>
          dsimp only
          cases a.entities.find? _ with
          | some x => exact deleteNativeEntityEA_still env ih _ _
          | none => exact .pure _

theorem deleteNativeResourceEA_still (rid : ResourceId) :
    Within (Still cache) (deleteNativeResourceEA env rid) :=
  deleteNativeResourceWith_still env (findContainedResourceAndDeleteEA_still env 2) rid

theorem enableResourceEA_still (rid : ResourceId) :
    Within (Still cache) (enableResourceEA env rid) :=
  .read fun _ => .bind (.require _) fun _ => .onlyIf fun _ =>
    .bind (access_still _ _) fun _ => .bind (.require _) fun _ => .ensure _

theorem attachResourceToSessionEA_still (key : ClientSessionKey) (id : ℕ) (rid : ResourceId) :
    Within (Still cache) (attachResourceToSessionEA env key id rid) := by
  refine .read fun a => .bind (.require _) fun r => .bind (.onlyIf fun _ => .ensure _) fun _ => ?_
  refine .bind (.ensure _) fun _ => .ite (fun _ => .bind (.modify fun b => ?_) fun _ => ?_) ?_
  · exact .of_same rfl rfl rfl rfl
  · exact .pure _
  · exact fun _ => .bind (.modify fun b => .of_same rfl rfl rfl rfl) fun _ => .fail

theorem countOutEA_still (key : ClientSessionKey) (n : ℕ) (del : Bool) :
    Within (Still cache) (countOutEA env key n del) := by
  refine .read fun a => .bind (.ensure _) fun _ => .bind (lookupResource_frame _ _ _) fun _ => ?_
  refine .bind (.require _) fun r => .bind (.ensure _) fun _ => .bind (.onlyIf fun _ => ?_) ?_
  · exact cancelReadEA_still env n _
  · refine fun _ => .bind (updateResource_still _ _) fun _ => ?_
    refine .bind (.ensure _) fun _ => .bind (.onlyIf fun _ => ?_) fun _ => .pure _
    exact notify_still fun _ => rfl

theorem detachResourceEA_still (key : ClientSessionKey) (n : ℕ) (del copyOut : Bool) :
    Within (Still cache) (detachResourceEA env key n del copyOut) := by
  refine .read fun a => .bind (countOutEA_still env key n del) fun delete => ?_
  refine .bind (.onlyIf fun _ => ?_) fun _ => .bind (.onlyIf fun _ => .ensure _) fun _ => ?_
  · refine .bind (deleteNativeResourceEA_still env _) fun _ => .bind (.ensure _) fun _ => ?_
    exact modify_still (fun _ => rfl) (fun _ => rfl) (fun _ => rfl) fun _ => rfl
  · exact .bind (.modify fun b => .of_same rfl rfl rfl rfl) fun _ => .ensure _

/-- The interface accepts an attached resource. -/
theorem acceptResource_still (n : ℕ) (u : Option ℕ) (key : ClientSessionKey) (id : ℕ) :
    Within (Still cache) (modify fun a : Agent =>
      (a.updateAttached n fun x => { x with userData := u }).notify (.resourceCreated key id)) := by
  refine .modify fun a => ?_
  have h : Still cache a (a.updateAttached n fun x => { x with userData := u }) :=
    .of_same rfl rfl rfl rfl
  exact h.trans' (.notify _ fun _ => rfl)

theorem attachOneEA_still (key : ClientSessionKey) (rid : ResourceId) :
    Within (Still cache) (attachOneEA env key rid) := by
  have hnew : ∀ id, Within (Still cache) (attachNewEA env key rid id) := by
    intro id
    refine .bind (attachResourceToSessionEA_still env key id rid) fun n => ?_
    refine .bind (enableResourceEA_still env rid) fun _ => .ite (fun _ => ?_) fun _ => ?_
    · exact acceptResource_still n _ key id
    · exact .bind (.ignore (detachResourceEA_still env key n false false)) fun _ => .fail
  refine .read fun a => .bind (.ensure _) fun _ => ?_
  cases a.resources.lookup rid with
  | none => exact .pure _
  | some r =>
      refine .bind (.onlyIf fun _ => .bind (.require _) fun id => ?_) fun _ => .ensure _
      exact .bind (.require _) fun s => .onlyIf fun _ => hnew id

theorem attachAllResourcesToSessionEA_still (key : ClientSessionKey) :
    Within (Still cache) (attachAllResourcesToSessionEA env key) :=
  .bind (.ensure _) fun _ => .read fun _ => .forEach fun rid _ => attachOneEA_still env key rid

theorem closeReturn_still (key : ClientSessionKey) (n rd : ℕ) (rid : ResourceId) :
    Within (Still cache) (closeReturn env key n rd rid) := by
  refine .read fun a => .ite (fun _ => .bind (.modify fun b => ?_) fun _ => ?_) fun _ => .ensure _
  · exact .updateRead b rd (fun _ => rfl) fun _ => rfl
  · refine .ite (fun _ => .bind (cancelReadEA_still env n _) fun _ => ?_) fun _ => .ensure _
    exact .bind (.ensure _) fun _ => .modify fun b => .notify b fun _ => rfl

theorem returnLoan_still (src : ℕ) (key : ClientSessionKey) (d : ℕ) :
    Within (Still cache) (returnLoan env src key d) := by
  intro a
  rcases returnLoan_cases env src key d a with ⟨-, h⟩ | ⟨n, rd, -, ⟨-, h⟩ | ⟨-, h⟩⟩
  · rw [h]
    exact refl a
  · rw [h]
    exact .takeBack a key n rd d
  · rw [h]
    have hcount : Still cache a (a.countReturn key n rd d) :=
      (Still.takeBack a key n rd d).trans' (.updateRead _ rd (fun _ => rfl) fun _ => rfl)
    exact hcount.trans' (closeReturn_still env key n rd _ _)

theorem returnLoans_still (src : ℕ) (key : ClientSessionKey) (c : LoanCallback) :
    Within (Still cache) (returnLoans env src key c) :=
  within_returnLoans fun d _ => returnLoan_still _ src key d

theorem openSession_still (src : ℕ) (key : ClientSessionKey) (timeout : ℕ) (data : Option ℕ) :
    Within (Still cache) (openSession env src key timeout data) := by
  have hreset : ∀ s, Within (Still cache) (resetSession env src key s) := by
    intro s
    refine .bind (.ensure _) fun _ => .bind (updateSession_still key _) fun _ => ?_
    refine .bind (.ensure _) fun _ => .bind ?_ fun _ => .bind (.onlyIf fun _ => ?_) ?_
    · exact .bind (returnLoans_still env src key _) fun _ => .ensure _
    · exact updateSession_still key _
    · refine fun _ => .bind (.forEach fun n _ => .read fun a => .onlyIf fun _ => ?_) fun _ => ?_
      · exact cancelReadI_still env n
      · exact updateSession_still key _
  have hnew : Within (Still cache) (openNewSession env src key timeout data) := by
    refine .bind (modify_still (fun _ => rfl) (fun _ => rfl) (fun _ => rfl) fun _ => rfl) ?_
    refine fun _ => .onFailure (.bind (.ensure _) fun _ => .bind (.ensure _) fun _ => ?_) ?_
    · exact .bind (attachAllResourcesToSessionEA_still env key) fun _ => .ensure _
    · exact .onlyIf fun _ => modify_still (fun _ => rfl) (fun _ => rfl) (fun _ => rfl) fun _ => rfl
  refine .bind (.ensure _) fun _ => .bind (.read fun a => ?_) fun _ => ?_
  · cases a.sessions.lookup key with
    | some s => exact hreset s
    | none => exact hnew
  · exact .read fun _ => .bind (.require _) fun _ => .bind (.ensure _) fun _ => .ensure _

theorem disposeSessionEA_still (key : ClientSessionKey) (s : ClientSession) :
    Within (Still cache) (disposeSessionEA env key s) := by
  refine .ite (fun _ => .pure _) fun _ => .bind (updateSession_still key _) fun _ => ?_
  exact .bind (.ensure _) fun _ =>
    modify_still (fun _ => rfl) (fun _ => rfl) (fun _ => rfl) fun _ => rfl

theorem closeSession_still (src : ℕ) (key : ClientSessionKey) :
    Within (Still cache) (closeSession env src key) :=
  .bind (.ensure _) fun _ => .bind (.ensure _) fun _ => .read fun _ => .bind (.require _) fun _ =>
    .bind (.ensure _) fun _ => .bind (.ensure _) fun _ => disposeSessionEA_still env _ _

theorem finishCloseSession_still (key : ClientSessionKey) :
    Within (Still cache) (finishCloseSession env key) := by
  refine .read fun _ => .bind (.require _) fun _ => .bind (.ensure _) fun _ => ?_
  refine .bind (.ensure _) fun _ => .bind (updateSession_still key _) fun _ => ?_
  refine .bind (.ensure _) fun _ => .bind (.ensure _) fun _ => .bind ?_ fun _ => ?_
  · exact modify_still (fun _ => rfl) (fun _ => rfl) (fun _ => rfl) fun _ => rfl
  · exact .bind (.ensure _) fun _ => notify_still fun _ => rfl

theorem onSessionTimeout_still (key : ClientSessionKey) :
    Within (Still cache) (onSessionTimeout env key) :=
  .bind (.ensure _) fun _ => .read fun _ => .bind (.require _) fun _ => .bind (.ensure _) fun _ =>
    .bind (updateSession_still key _) fun _ => .bind (returnLoans_still env _ key _) fun _ =>
      disposeSessionEA_still env _ _

/-- A record is set up, with a reader that holds the samples DDS has for it. -/
theorem initializeUserDataEA_still (rid : ResourceId) (kind : ResourceKind) :
    Within (Still env.initialCache) (initializeUserDataEA env rid kind) := by
  have hsame : ∀ {f : Agent → Agent}, (∀ a, (f a).poolReads = a.poolReads) →
      (∀ a, (f a).callbacks = a.callbacks) → (∀ a, (f a).poolReaders = a.poolReaders) →
      (∀ a, (f a).filterMatches = a.filterMatches) → Within (Still env.initialCache) (modify f) :=
    modify_still
  refine .read fun a => .ite (fun _ => .bind (.ensure _) fun _ => ?_) fun _ => ?_
  · refine .bind (.modify fun b => .takeReader b) fun _ => ?_
    refine .bind (.onlyIf fun _ => .bind (.modify fun b => .giveBackReader b _) ?_) fun _ => ?_
    · exact fun _ => .fail
    · refine .bind (updateResource_still rid _) fun _ => .onlyIf fun _ => ?_
      exact .bind (.modify fun b => .giveBackReader b _) fun _ => .fail
  · refine .ite (fun _ => .bind (.ensure _) fun _ => ?_) fun _ => .pure _
    refine .bind (hsame (fun _ => rfl) (fun _ => rfl) (fun _ => rfl) fun _ => rfl) fun _ => ?_
    refine .bind (.onlyIf fun _ => .bind ?_ fun _ => .fail) fun _ => updateResource_still rid _
    exact hsame (fun _ => rfl) (fun _ => rfl) (fun _ => rfl) fun _ => rfl

theorem insertResourceRecordEA_still (q : CreateRequest) :
    Within (Still env.initialCache) (insertResourceRecordEA env q) := by
  have hobtain : ∀ rid, Within (Still env.initialCache) (obtainRecordEA env rid q) := by
    intro rid
    refine .read fun a => ?_
    cases a.resources.lookup rid with
    | some r => exact .ensure _
    | none =>
        refine .bind (modify_still (fun _ => rfl) (fun _ => rfl) (fun _ => rfl) fun _ => rfl) ?_
        refine fun _ => .bind (.ensure _) fun _ => .read fun b => .bind (.onlyIf fun _ => ?_) ?_
        · exact .ensure _
        · refine fun _ => .bind (.ensure _) fun _ => .bind (updateResource_still rid _) fun _ => ?_
          refine .bind (.ensure _) fun _ => .bind (updateResource_still rid _) fun _ => ?_
          exact initializeUserDataEA_still env rid q.kind
  refine .bind (modify_still (fun _ => rfl) (fun _ => rfl) (fun _ => rfl) fun _ => rfl) fun _ => ?_
  refine .bind (.ensure _) fun _ => .bind (.require _) fun first => .bind (.ensure _) fun _ => ?_
  refine .bind (.ensure _) fun _ => .bind (.ensure _) fun _ => .bind (hobtain _) fun _ => ?_
  refine .bind (.ensure _) fun _ => .bind ?_ fun _ => .read fun a => .bind (.require _) fun r => ?_
  · exact modify_still (fun _ => rfl) (fun _ => rfl) (fun _ => rfl) fun _ => rfl
  · exact .pure _

theorem createResource_still (key : ClientSessionKey) (q : CreateRequest) :
    Within (Still env.initialCache) (createResource env key q) := by
  have hobtain : ∀ o, Within (Still env.initialCache) (obtainAttachedEA env key q o) := by
    intro o
    cases o with
    | some n =>
        refine .bind (.read fun a => .bind (lookupResource_frame _ _ _) fun _ => ?_) ?_
        swap
        · exact fun _ => .pure _
        refine .bind (.require _) fun r => .bind (.ensure _) fun _ => .bind (.require _) fun _ => ?_
        refine .bind (.ensure _) fun _ => .bind (.ensure _) fun _ => .bind (.onlyIf fun _ => ?_) ?_
        · exact cancelReadEA_still env n _
        · exact fun _ => .pure _
    | none =>
        refine .bind (insertResourceRecordEA_still env q) fun _ => .bind (.require _) fun rid => ?_
        exact .bind (attachResourceToSessionEA_still env key q.id rid) fun _ => .pure _
  have hcreate : Within (Still env.initialCache) (createResourceEA env key q) := by
    refine .read fun a => .bind (.require _) fun s => .bind (checkCreate_frame s q) fun o => ?_
    refine .bind (.ensure _) fun _ => .bind (hobtain o) fun v => .bind ?_ fun _ => .pure _
    refine .bind (enableResourceEA_still env _) fun _ => .bind (.ensure _) fun _ => ?_
    exact .bind (.ensure _) fun _ => .onlyIf fun _ => .modify fun b => .notify b fun _ => rfl
  refine .read fun a => .bind (.require _) fun s => .bind (.ensure _) fun _ => .bind hcreate ?_
  refine fun n => .read fun b => .ite (fun _ => acceptResource_still n _ key _) fun _ => ?_
  exact .bind (.ignore (detachResourceEA_still env key n false false)) fun _ => .fail

theorem deleteResource_still (key : ClientSessionKey) (id : ℕ) :
    Within (Still cache) (deleteResource env key id) := by
  refine .bind (findAttached_frame key id) fun found => ?_
  cases found with
  | none => exact .pure _
  | some n =>
      refine .bind (.read fun a => .onlyIf fun _ => .bind (cancelReadI_still env n) fun _ => ?_) ?_
      · exact notify_still fun _ => rfl
      · refine fun _ => .bind (detachResourceEA_still env key n true true) fun _ => .bind ?_ ?_
        · exact notify_still fun _ => rfl
        · exact fun _ => .ensure _

theorem cancelRead_still (key : ClientSessionKey) (id : ℕ) :
    Within (Still cache) (cancelRead env key id) :=
  .bind (findAttachedReader_frame key id) fun n => .bind (cancelReadI_still env n) fun _ =>
    notify_still fun _ => rfl

theorem writeData_still (key : ClientSessionKey) (id : ℕ) :
    Within (Still cache) (writeData env key id) := by
  refine .bind (findAttached_frame key id) fun found => .bind (.require _) fun n => ?_
  refine .read fun a => .bind (.ensure _) fun _ => .bind (lookupResource_frame _ _ _) fun _ => ?_
  refine .bind (.require _) fun r => .bind (.ensure _) fun _ => .bind (deref_still _ _) fun _ => ?_
  refine .bind (.ensure _) fun _ => .bind (.ensure _) fun _ => .bind (.ensure _) fun _ => ?_
  exact notify_still fun _ => rfl

theorem onCleanupSessions_still : Within (Still cache) (onCleanupSessions env) := by
  have hend : ∀ key n, Within (Still cache) (endReadEA env key n) := by
    intro key n
    refine .read fun a => .onlyIf fun _ => .bind (lookupResource_frame _ _ _) fun found => ?_
    cases found with
    | none => exact .pure _
    | some r =>
        refine .ite (fun _ => .ensure _) fun _ => .bind (cancelReadEA_still env n _) fun _ => ?_
        exact .bind (.ensure _) fun _ => notify_still fun _ => rfl
  have hfinalize : ∀ key, Within (Still cache) (finalizeSessionEA env key) := by
    intro key
    refine .read fun a => .bind (.require _) fun s => .bind (.ensure _) fun _ => ?_
    refine .bind (.forEach fun n _ => hend key n) fun _ => .bind (.forEach fun n _ => ?_) ?_
    · refine .read fun b => .bind (detachResourceEA_still env key n false true) fun _ => ?_
      exact notify_still fun _ => rfl
    · refine fun _ => .bind (.modify fun b => .drainSamples b key) fun _ => .onlyIf fun _ => ?_
      exact .ensure _
  have hrelease : ∀ key timedout, Within (Still cache) (releaseFinalizedEA env key timedout) := by
    intro key timedout
    refine .ite (fun _ => .bind (.ensure _) fun _ => .bind (.ensure _) fun _ => ?_) fun _ => ?_
    · refine .bind (modify_still (fun _ => rfl) (fun _ => rfl) (fun _ => rfl) fun _ => rfl) ?_
      exact fun _ => notify_still fun _ => rfl
    · exact .bind (updateSession_still key _) fun _ => .ensure _
  refine .bind (.ensure _) fun _ => .bind (.ensure _) fun _ => .bind ?_ fun _ => .read fun a => ?_
  · exact modify_still (fun _ => rfl) (fun _ => rfl) (fun _ => rfl) fun _ => rfl
  · refine .forEach fun key _ => .bind (.ensure _) fun _ => .read fun b => ?_
    cases b.sessions.lookup key with
    | none => exact .pure _
    | some s => exact .onlyIf fun _ => .bind (hfinalize key) fun _ => hrelease key _

theorem onCleanupReads_still : Within (Still cache) (onCleanupReads env) := by
  have hone : ∀ src key n, Within (Still cache) (cleanupReadEA env src key n) := by
    intro src key n
    refine .read fun a => ?_
    dsimp only
    cases (a.attached n).readReq with
    | none => exact .pure _
    | some rd =>
        refine .onlyIf fun _ => .ite (fun _ => returnLoans_still env src key _) fun _ => ?_
        refine .bind (lookupResource_frame _ _ _) fun _ => .bind (.require _) fun _ => ?_
        exact .bind (cancelReadEA_still env n _) fun _ => .ensure _
  refine .bind (.ensure _) fun _ => .bind ?_ fun _ => .read fun a => .forEach fun key _ => ?_
  · exact modify_still (fun _ => rfl) (fun _ => rfl) (fun _ => rfl) fun _ => rfl
  · refine .bind (.ensure _) fun _ => .read fun b => ?_
    cases b.sessions.lookup key with
    | none => exact .pure _
    | some s => exact .forEach fun n _ => hone s.intf key n

theorem onCleanupResources_still : Within (Still cache) (onCleanupResources env) := by
  have hone : ∀ key n, Within (Still cache) (cleanupResourceEA env key n) := by
    intro key n
    refine .read fun a => .bind (lookupResource_frame _ _ _) fun _ => .bind (.require _) fun r => ?_
    refine .bind (.ensure _) fun _ => .onlyIf fun _ => .bind ?_ fun _ => notify_still fun _ => rfl
    exact detachResourceEA_still env key n true true
  refine .bind (.ensure _) fun _ => .bind ?_ fun _ => .bind (.ensure _) fun _ => .read fun a => ?_
  · exact modify_still (fun _ => rfl) (fun _ => rfl) (fun _ => rfl) fun _ => rfl
  · refine .forEach fun key _ => .bind (.ensure _) fun _ => .read fun b => ?_
    cases b.sessions.lookup key with
    | none => exact .pure _
    | some s =>
        refine .bind (.forEach fun n _ => hone key n) fun _ => ?_
        exact attachAllResourcesToSessionEA_still env key

end AgentM

/-- The operations that neither start nor serve a read, and leave the caches alone. -/
def Operation.isStill : Operation → Bool
  | readData _ _ _ => false
  | dataEvent _ => false
  | changeCache _ _ => false
  | _ => true

theorem Agent.step_still (a : Agent) {o : Operation} (env : Env) (h : o.isStill = true) :
    Still env.initialCache a (a.step (o, env)) := by
  cases o with
  | openSession src key timeout data => exact AgentM.openSession_still env src key timeout data a
  | closeSession src key => exact AgentM.closeSession_still env src key a
  | finishCloseSession key => exact AgentM.finishCloseSession_still env key a
  | sessionTimeout key => exact AgentM.onSessionTimeout_still env key a
  | createResource key q => exact AgentM.createResource_still env key q a
  | deleteResource key id => exact AgentM.deleteResource_still env key id a
  | cancelRead key id => exact AgentM.cancelRead_still env key id a
  | returnLoan src key d => exact AgentM.returnLoan_still env src key d a
  | writeData key id => exact AgentM.writeData_still env key id a
  | cleanupSessions => exact keeps_ensure (refl a) fun _ => AgentM.onCleanupSessions_still env a
  | cleanupReads => exact keeps_ensure (refl a) fun _ => AgentM.onCleanupReads_still env a
  | cleanupResources => exact keeps_ensure (refl a) fun _ => AgentM.onCleanupResources_still env a
  | readData key id spec => cases h
  | dataEvent rd => cases h
  | changeCache reader cache => cases h

/-- The requests of a reader that go on, or are those of the read `rd`. -/
def AddsRequest (rd : ℕ) (filter : Option String) (r r' : Reader) : Prop :=
  (∀ q ∈ r'.requests, q ∈ r.requests ∨ q.read = rd ∧ q.queryCondition = filter) ∧
    r'.cache = r.cache

instance (rd : ℕ) (filter : Option String) : IsPreorder Reader (AddsRequest rd filter) where
  refl _ := ⟨fun _ h => .inl h, rfl⟩
  trans _ _ _ h h' := ⟨fun q hq => (h'.1 q hq).elim (h.1 q) .inr, h'.2.trans h.2⟩

theorem Reader.newRequest_adds (env : Env) (rd : ℕ) (filter : Option String) :
    Within (AddsRequest rd filter) (Reader.newRequest env rd filter) := by
  have hdiscard : ∀ req, Within (AddsRequest rd filter) (Reader.discardRequest env req) :=
    fun req =>
    .bind (.onlyIf fun _ => .ensure _) fun _ => .modify fun _ => ⟨fun _ h => .inl h, rfl⟩
  refine .bind (.ensure _) fun _ => .read fun r => ?_
  cases r.findRequestByRead rd with
  | some req => exact .bind (hdiscard req) fun _ => .fail
  | none =>
      refine .bind (.ensure _) fun _ => .bind
        (.modify fun _ => ⟨fun _ h => .inl h, rfl⟩) fun _ => ?_
      refine .bind (.onlyIf fun _ => .bind (.modify fun _ => ⟨fun _ h => .inl h, rfl⟩) ?_)
        fun _ => ?_
      · exact fun _ => .fail
      refine .bind (.modify fun s => ⟨fun q hq => ?_, rfl⟩) fun _ => .onlyIf fun _ => .ite ?_ ?_
      · refine (List.mem_append.1 hq).imp_right fun hq => ?_
        rw [List.mem_singleton.1 hq]
        exact ⟨rfl, rfl⟩
      · exact fun _ => .modify fun _ => ⟨fun _ h => .inl h, rfl⟩
      · refine fun _ => .bind (hdiscard _) fun _ => .bind (.modify fun _ => ?_) fun _ => .fail
        exact ⟨fun _ h => .inl h, rfl⟩

/-- From `a` to `b` the read `rd` is taken from the pool, and registered with one reader at
most. -/
structure TakesRead (rd : ℕ) (a b : Agent) : Prop where
  fresh : a.poolReads.next = rd
  next : b.poolReads.next = rd + 1
  lastSample : ∀ q, q ≠ rd → (b.readAt q).lastSample = (a.readAt q).lastSample
  filter : ∀ q, q ≠ rd → (b.readAt q).contentFilterExpr = (a.readAt q).contentFilterExpr
  accepted : ∀ q, b.acceptedSamples q = a.acceptedSamples q
  filterMatches : b.filterMatches = a.filterMatches
  cache : ∀ p, (b.readerAt p).cache = (a.readerAt p).cache
  requests : ∀ p, ∀ q ∈ (b.readerAt p).requests, q ∈ (a.readerAt p).requests ∨
    q.read = rd ∧ q.queryCondition = (b.readAt rd).contentFilterExpr
  reader : ∃ p, ∀ p', p' ≠ p → (b.readerAt p').requests = (a.readerAt p').requests

/-- At most one read is started from `a` to `d`, and otherwise nothing happens. -/
def StartsOne (a d : Agent) : Prop :=
  Still [] a d ∨ ∃ rd b c, Still [] a b ∧ TakesRead rd b c ∧ Still [] c d

theorem StartsOne.left {d : Agent} (h : Still [] a b) (h' : StartsOne b d) : StartsOne a d := by
  rcases h' with hstill | ⟨rd, b', c, hb, htake, hc⟩
  · exact .inl (h.trans' hstill)
  · exact .inr ⟨rd, b', c, h.trans' hb, htake, hc⟩

theorem StartsOne.right {d e : Agent} (h : StartsOne a d) (h' : Still [] d e) : StartsOne a e := by
  rcases h with hstill | ⟨rd, b, c, hb, htake, hc⟩
  · exact .inl (hstill.trans' h')
  · exact .inr ⟨rd, b, c, hb, htake, hc.trans' h'⟩

namespace TakesRead

theorem takeRead (a : Agent) (key : ClientSessionKey) (n : ℕ) :
    TakesRead a.poolReads.next a (a.takeRead key n) where
  fresh := rfl
  next := rfl
  lastSample q hq := by
    simp [Agent.readAt, Agent.takeRead, Agent.updateAttached, BufferPool.content_take_of_ne _ _ hq]
  filter q hq := by
    simp [Agent.readAt, Agent.takeRead, Agent.updateAttached, BufferPool.content_take_of_ne _ _ hq]
  accepted _ := rfl
  filterMatches := rfl
  cache _ := rfl
  requests _ _ hq := .inl hq
  reader := ⟨0, fun _ _ => rfl⟩

theorem of_same {rd : ℕ} (h : TakesRead rd a b) (hreads : c.poolReads = b.poolReads)
    (hcalls : c.callbacks = b.callbacks) (hreaders : c.poolReaders = b.poolReaders)
    (hmatches : c.filterMatches = b.filterMatches) : TakesRead rd a c := by
  have hread : ∀ q, c.readAt q = b.readAt q := fun q => by rw [Agent.readAt, hreads, Agent.readAt]
  have hreader : ∀ p, c.readerAt p = b.readerAt p := fun p => by
    rw [Agent.readerAt, hreaders, Agent.readerAt]
  exact {
    fresh := h.fresh
    next := hreads ▸ h.next
    lastSample := fun q hq => hread q ▸ h.lastSample q hq
    filter := fun q hq => hread q ▸ h.filter q hq
    accepted := fun q => by
      rw [← h.accepted, Agent.acceptedSamples, hcalls, Agent.acceptedSamples]
    filterMatches := hmatches.trans h.filterMatches
    cache := fun p => hreader p ▸ h.cache p
    requests := fun p => by
      rw [hreader, hread]
      exact h.requests p
    reader := by
      simp only [hreader]
      exact h.reader }

/-- The read is set up before it is registered. -/
theorem updateRead {rd : ℕ} (h : TakesRead rd a b)
    (hrequests : ∀ p, (b.readerAt p).requests = (a.readerAt p).requests) (f : Read → Read) :
    TakesRead rd a (b.updateRead rd f) where
  fresh := h.fresh
  next := h.next
  lastSample q hq := by
    rw [Agent.readAt_updateRead, if_neg hq]
    exact h.lastSample q hq
  filter q hq := by
    rw [Agent.readAt_updateRead, if_neg hq]
    exact h.filter q hq
  accepted := h.accepted
  filterMatches := h.filterMatches
  cache := h.cache
  requests p q hq := by
    have hq' : q ∈ (b.readerAt p).requests := hq
    rw [hrequests] at hq'
    exact .inl hq'
  reader := h.reader

/-- The read is registered with a reader. -/
theorem newRequest {rd : ℕ} (h : TakesRead rd a b)
    (hrequests : ∀ p, (b.readerAt p).requests = (a.readerAt p).requests) (env : Env) (p : ℕ)
    {filter : Option String} (hfilter : (b.readAt rd).contentFilterExpr = filter) :
    TakesRead rd a (AgentM.onReader p (Reader.newRequest env rd filter) b).2 := by
  obtain ⟨hadded, hcache⟩ := Reader.newRequest_adds env rd filter (b.readerAt p)
  refine {
    fresh := h.fresh, next := h.next, lastSample := h.lastSample, filter := h.filter,
    accepted := h.accepted, filterMatches := h.filterMatches, cache := ?_, requests := ?_,
    reader := ?_ }
  · intro p'
    rw [AgentM.onReader, Agent.readerAt_updateReader]
    split
    · rename_i hp
      rw [hp, hcache, h.cache]
    · exact h.cache p'
  · intro p' q hq
    rw [AgentM.onReader, Agent.readerAt_updateReader] at hq
    split at hq
    · rename_i hp
      rw [hp]
      refine (hadded q hq).imp (fun hold => ?_) fun hnew => ⟨hnew.1, hnew.2.trans hfilter.symm⟩
      rwa [hrequests] at hold
    · exact h.requests p' q hq
  · refine ⟨p, fun p' hp => ?_⟩
    rw [AgentM.onReader, Agent.readerAt_updateReader, if_neg hp, hrequests]

end TakesRead

namespace AgentM

variable (env : Env)

theorem registerReadEA_startsOne (key : ClientSessionKey) (n : ℕ) (rid : ResourceId) (r : Resource)
    (spec : ReadSpecification) (a : Agent) :
    StartsOne a (registerReadEA env key n rid r spec a).2 := by
  have hone : ∀ {c}, TakesRead a.poolReads.next a c → StartsOne a c := fun h =>
    .inr ⟨_, _, _, refl a, h, refl _⟩
  rw [registerReadEA, read_bind_apply]
  refine keeps_ensure (.inl (refl a)) fun _ => ?_
  rw [modify_bind_apply]
  have h₁ := TakesRead.takeRead a key n
  refine keeps_ensure (hone h₁) fun _ => ?_
  rw [modify_bind_apply]
  have h₂ := h₁.updateRead (fun _ => rfl) fun x =>
    { x with lastSample := (a.takeRead key n).startPosition n
             samplePace := readPeriod spec.minPacePeriod
             maxElapsedTs := readPeriod spec.maxElapsedTime }
  simp only [onlyIf_ensure]
  refine keeps_ensure (hone h₂) fun _ => keeps_ensure (hone h₂) fun _ => ?_
  rw [modify_bind_apply]
  have h₃ := h₂.updateRead (fun _ => rfl) fun x =>
    { x with contentFilterExpr := spec.contentFilterExpr, samplesMax := spec.maxSamples
             startTs := env.clock 0 }
  generalize hb : Agent.updateRead _ _ _ = b at h₃ ⊢
  have hfilter : (b.readAt a.poolReads.next).contentFilterExpr = spec.contentFilterExpr := by
    rw [← hb, Agent.readAt_updateRead, if_pos rfl]
  have hrequests : ∀ p, (b.readerAt p).requests = (a.readerAt p).requests := by
    intro p
    rw [← hb]
    rfl
  -- looking the reader up changes at most the log of failed accesses
  have hderef := deref_faulted rid r b
  have h₄ : TakesRead a.poolReads.next a (deref rid r b).2 := by
    rw [hderef]
    exact h₃.of_same rfl rfl rfl rfl
  refine keeps_bind (fun _ => hone h₄) fun p _ => ?_
  have h₅ : TakesRead a.poolReads.next a (onReader p (Reader.newRequest env a.poolReads.next
      spec.contentFilterExpr) (deref rid r b).2).2 := by
    refine h₄.newRequest (fun q => ?_) env p ?_
    · rw [hderef]
      exact hrequests q
    · rw [hderef]
      exact hfilter
  exact keeps_bind (fun _ => hone h₅) fun _ _ => (hone h₅).right (Within.ensure _ _)

theorem startReadEA_startsOne (key : ClientSessionKey) (n : ℕ) (spec : ReadSpecification)
    (a : Agent) : StartsOne a (startReadEA env key n spec a).2 := by
  have hstay : StartsOne a a := .inl (refl a)
  rw [startReadEA, read_bind_apply]
  refine keeps_lookupResource hstay fun _ => keeps_require hstay fun r _ => ?_
  refine keeps_ensure hstay fun _ => ?_
  have hcancel : Still [] a (onlyIf (a.attached n).readReq.isSome
      (cancelReadEA env n (a.attached n).resource) a).2 :=
    Within.onlyIf (fun _ => cancelReadEA_still env n _) a
  refine keeps_bind (fun _ => .inl hcancel) fun _ _ => ?_
  exact (registerReadEA_startsOne env key n _ r spec _).left hcancel

theorem readData_startsOne (key : ClientSessionKey) (id : ℕ) (spec : ReadSpecification)
    (a : Agent) : StartsOne a (readData env key id spec a).2 := by
  have hread : ∀ n, StartsOne a (readEA env key n spec a).2 := by
    intro n
    have hstart : StartsOne a
        (onFailure (startReadEA env key n spec) (modify fun a => a.discardRead n) a).2 :=
      keeps_onFailure (startReadEA_startsOne env key n spec a) fun _ =>
        (startReadEA_startsOne env key n spec a).right (.discardRead _ n)
    refine keeps_bind (fun _ => hstart) fun _ _ => ?_
    rw [read_bind_apply]
    exact hstart.right (Within.ensure _ _)
  have hend : ∀ n, Within (Still []) (if env.ok (.onReadCreated key id) = true then
      Prog.modify fun a : Agent => a.notify (.readCreated key id)
    else do
      ignore (cancelReadI env n)
      fail) := by
    intro n
    refine .ite (fun _ => notify_still fun _ => rfl) fun _ => ?_
    exact .bind (.ignore (cancelReadI_still env n)) fun _ => .fail
  refine keeps_bind (fun _ => ?_) fun n _ => ?_
  · rw [findAttachedReader_eq]
    exact .inl (refl a)
  rw [findAttachedReader_eq]
  exact keeps_bind (fun _ => hread n) fun _ _ => (hread n).right (hend n _)


end AgentM

end NanoAgent
