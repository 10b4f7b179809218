import NanoAgent.DdsAgent.StillSteps
import NanoAgent.DdsAgent.RequestSet
import NanoAgent.Foundations.SortedLog

/-!
# What a data event offers

The loop over a batch of samples that is sorted by reception sequence number accepts exactly
the valid samples between the position of the read before the loop and after it
(`Offers.accepted`). A data event runs the loop over the samples of the cache that match the
filter of the request, or over nothing; the rest of it is still (`onDataOnReader_serves`).
-/

namespace NanoAgent

open Prog SortedLog

/-- From `a` to `b` only sessions and received-data records have changed. -/
def RecordsOnly (a b : Agent) : Prop :=
  b = { a with sessions := b.sessions, poolSamples := b.poolSamples }

instance : IsPreorder Agent RecordsOnly where
  refl _ := rfl
  trans a b c h h' := by
    unfold RecordsOnly at *
    rw [h', h]

/-- A sample is wanted by a read when it is valid and matches the filter of the read. -/
def Agent.wants (a : Agent) (rd : ℕ) (smp : Sample) : Bool :=
  smp.validData && (a.readAt rd).contentFilterExpr.all fun f => a.filterMatches f smp

/-- The samples in the cache of a reader that match the filter of a request. -/
def Agent.batch (a : Agent) (p : ℕ) (q : ReaderRequest) : List Sample :=
  (a.readerAt p).cache.filter fun smp => q.queryCondition.all fun f => a.filterMatches f smp

/-- From `a` to `b` the valid samples of a batch between the old and the new position of the
read `req` are accepted for it. -/
structure Offers (req : ℕ) (samples : List Sample) (a b : Agent) : Prop where
  poolReaders : b.poolReaders = a.poolReaders
  filterMatches : b.filterMatches = a.filterMatches
  next : b.poolReads.next = a.poolReads.next
  filter : ∀ rd, (b.readAt rd).contentFilterExpr = (a.readAt rd).contentFilterExpr
  others : ∀ rd, rd ≠ req → (b.readAt rd).lastSample = (a.readAt rd).lastSample ∧
    b.acceptedSamples rd = a.acceptedSamples rd
  forward : (a.readAt req).lastSample ≤ (b.readAt req).lastSample
  moved : (b.readAt req).lastSample = (a.readAt req).lastSample ∨
    ∃ s ∈ samples, s.sn = (b.readAt req).lastSample
  accepted : b.acceptedSamples req = a.acceptedSamples req ++
    between Sample.sn Sample.validData (a.readAt req).lastSample (b.readAt req).lastSample samples
  readReq : ∀ n, (b.attached n).readReq = (a.attached n).readReq

variable {req : ℕ} {a b c : Agent}

theorem Offers.of_recordsOnly {samples : List Sample} (h : RecordsOnly a b) :
    Offers req samples a b := by
  unfold RecordsOnly at h
  have hread : ∀ rd, b.readAt rd = a.readAt rd := fun rd => by rw [h]; rfl
  refine ⟨by rw [h], by rw [h], by rw [h], fun rd => by rw [hread], fun rd _ => ?_, ?_, ?_, ?_, ?_⟩
  · exact ⟨by rw [hread], by rw [h]; rfl⟩
  · rw [hread]
  · rw [hread]
    exact .inl rfl
  · rw [hread, between_self, List.append_nil, h]
    rfl
  · intro n
    rw [h]
    rfl

/-- A sample at or before the position of the read is passed over, as is one that is not
valid. -/
theorem Offers.cons_old {smp : Sample} {samples : List Sample} (h : Offers req samples a b)
    (hold : smp.validData = true → smp.sn ≤ (a.readAt req).lastSample) :
    Offers req (smp :: samples) a b where
  poolReaders := h.poolReaders
  filterMatches := h.filterMatches
  next := h.next
  filter := h.filter
  others := h.others
  forward := h.forward
  moved := by
    rcases h.moved with heq | ⟨s, hs, hsn⟩
    · exact .inl heq
    · exact .inr ⟨s, List.mem_cons_of_mem _ hs, hsn⟩
  accepted := by
    rw [h.accepted, between, between, List.filter_cons_of_neg]
    simp only [Bool.and_eq_true, decide_eq_true_eq]
    rintro ⟨⟨hvalid, hlt⟩, -⟩
    exact absurd hlt (Nat.not_lt.2 (hold hvalid))
  readReq := h.readReq

/-- A sample of the batch is accepted, and then those that follow it are offered. -/
theorem Offers.cons_accepted {smp : Sample} {samples : List Sample} (h : Offers req [smp] a b)
    (h' : Offers req samples b c) (hvalid : smp.validData = true)
    (hnew : (a.readAt req).lastSample < smp.sn) (hat : (b.readAt req).lastSample = smp.sn)
    (hsorted : Sorted Sample.sn (smp :: samples)) : Offers req (smp :: samples) a c where
  poolReaders := h'.poolReaders.trans h.poolReaders
  filterMatches := h'.filterMatches.trans h.filterMatches
  next := h'.next.trans h.next
  filter rd := (h'.filter rd).trans (h.filter rd)
  others rd hrd := ⟨(h'.others rd hrd).1.trans (h.others rd hrd).1,
    (h'.others rd hrd).2.trans (h.others rd hrd).2⟩
  forward := Nat.le_trans h.forward h'.forward
  moved := by
    rcases h'.moved with heq | ⟨s, hs, hsn⟩
    · exact .inr ⟨smp, List.mem_cons_self, hat.symm.trans heq.symm⟩
    · exact .inr ⟨s, List.mem_cons_of_mem _ hs, hsn⟩
  accepted := by
    have hlater : ∀ s ∈ samples, smp.sn < s.sn := (List.pairwise_cons.1 hsorted).1
    have hfirst : between Sample.sn Sample.validData (a.readAt req).lastSample
        (b.readAt req).lastSample [smp] = [smp] := by
      simp [between, hvalid, hnew, hat]
    have hrest : between Sample.sn Sample.validData (b.readAt req).lastSample
        (c.readAt req).lastSample samples = between Sample.sn Sample.validData
          (a.readAt req).lastSample (c.readAt req).lastSample samples := by
      refine List.filter_congr fun s hs => ?_
      have hlt := hlater s hs
      rw [hat, decide_eq_true hlt, decide_eq_true (hnew.trans hlt)]
    have hforward := h'.forward
    rw [hat] at hforward
    rw [h'.accepted, h.accepted, hfirst, hrest, List.append_assoc]
    congr 1
    rw [between, between, List.filter_cons_of_pos, List.singleton_append]
    simp [hvalid, hnew, hforward]
  readReq n := (h'.readReq n).trans (h.readReq n)

theorem Agent.acceptedSamples_acceptSample (a : Agent) (n rd d : ℕ) (smp : Sample)
    (retained : Bool) (now q : ℕ) :
    (a.acceptSample n rd d smp retained now).acceptedSamples q =
      a.acceptedSamples q ++ if q = rd then [smp] else [] := by
  have hcall : (a.acceptSample n rd d smp retained now).callbacks =
      a.callbacks ++ [.dataAccepted rd smp] := by
    unfold acceptSample
    cases retained <;> rfl
  rw [acceptedSamples, hcall, List.filterMap_append, acceptedSamples]
  congr 1
  by_cases hq : q = rd
  · subst hq
    simp [Callback.acceptedFor]
  · simp [Callback.acceptedFor, hq, Ne.symm hq]

theorem Agent.offers_acceptSample (a : Agent) (n rd d : ℕ) {smp : Sample} (retained : Bool)
    (now : ℕ) (hvalid : smp.validData = true) (hnew : (a.readAt rd).lastSample < smp.sn) :
    Offers rd [smp] a (a.acceptSample n rd d smp retained now) where
  poolReaders := by
    unfold acceptSample
    cases retained <;> rfl
  filterMatches := by
    unfold acceptSample
    cases retained <;> rfl
  next := by
    unfold acceptSample
    cases retained <;> rfl
  filter q := by
    rw [readAt_acceptSample]
    split
    · rename_i hq
      rw [hq]
    · rfl
  others q hq := by
    rw [readAt_acceptSample, if_neg hq, acceptedSamples_acceptSample, if_neg hq, List.append_nil]
    exact ⟨rfl, rfl⟩
  forward := by
    rw [readAt_acceptSample, if_pos rfl]
    exact hnew.le
  moved := by
    rw [readAt_acceptSample, if_pos rfl]
    exact .inr ⟨smp, List.mem_cons_self, rfl⟩
  accepted := by
    rw [acceptedSamples_acceptSample, if_pos rfl, readAt_acceptSample, if_pos rfl]
    simp [between, hvalid, hnew]
  readReq m := readReq_acceptSample a n rd d smp retained now m

namespace AgentM

variable (env : Env)

theorem convertSampleEA_recordsOnly (key : ClientSessionKey) (n : ℕ) (smp : Sample) :
    Within RecordsOnly (convertSampleEA env key n smp) := by
  have hfill : ∀ d, Within RecordsOnly (fillReceivedData env key n d smp) := by
    intro d
    refine .read fun a => .bind (.modify fun _ => rfl) fun _ => .bind (.onlyIf fun _ => ?_) ?_
    · exact .bind (.ensure _) fun _ => .modify fun _ => rfl
    · refine fun _ => .bind (.ensure _) fun _ => .bind (.modify fun _ => rfl) fun _ => ?_
      exact .bind (.require _) fun _ => .modify fun _ => rfl
  refine .bind (.read fun a => .bind (.require _) fun s => ?_) fun d => ?_
  · cases s.rcvdDataPool with
    | cons d l => exact .bind (.modify fun _ => rfl) fun _ => .pure _
    | nil => exact .bind (.ensure _) fun _ => .bind (.modify fun _ => rfl) fun _ => .pure _
  · exact .bind (.onFailure (hfill d) (.modify fun _ => rfl)) fun _ => .pure _

/-- The exits of offering a sample: it is passed over, it is not accepted now, or it is
accepted. -/
inductive OfferedExit (req : ℕ) (smp : Sample) (a : Agent) : Option Processed → Agent → Prop
  | failed {b : Agent} : RecordsOnly a b → OfferedExit req smp a none b
  | old : smp.sn ≤ (a.readAt req).lastSample → OfferedExit req smp a (some .old) a
  | retry {b : Agent} {delay : ℕ} : RecordsOnly a b → OfferedExit req smp a (some (.retry delay)) b
  | delivered {b : Agent} : (a.readAt req).lastSample < smp.sn → Offers req [smp] a b →
      (b.readAt req).lastSample = smp.sn → OfferedExit req smp a (some .delivered) b

theorem processSampleEA_offers (key : ClientSessionKey) {n : ℕ} {smp : Sample} (now : ℕ)
    (hreq : (a.attached n).readReq = some req) (hvalid : smp.validData = true) :
    OfferedExit req smp a (processSampleEA env key n smp now a).1
      (processSampleEA env key n smp now a).2 := by
  have hstay : RecordsOnly a a := refl a
  rw [processSampleEA, read_bind_apply]
  refine exits_require (.failed hstay) fun rd hrd => ?_
  obtain rfl : req = rd := Option.some.inj (hreq.symm.trans hrd)
  split
  · rename_i hold
    exact .old hold
  rename_i hnew
  split
  · exact .retry hstay
  refine exits_ensure (.failed hstay) fun _ => ?_
  have hconv := convertSampleEA_recordsOnly env key n smp a
  refine exits_bind (fun _ => .failed hconv) fun d _ => ?_
  generalize (convertSampleEA env key n smp a).2 = b at hconv
  have hrecycle : RecordsOnly a (b.recycle key d) := IsTrans.trans _ _ _ hconv rfl
  cases env.delivery smp with
  | error => exact .failed hrecycle
  | tryAgain => exact .retry hrecycle
  | accepted retained =>
      have hb : Offers req [] a b := .of_recordsOnly hconv
      have hread : b.readAt req = a.readAt req := by
        rw [hconv]
        rfl
      have haccept := b.offers_acceptSample n req d retained now hvalid (by
        rw [hread]
        exact Nat.lt_of_not_le hnew)
      have hat : ((b.acceptSample n req d smp retained now).readAt req).lastSample = smp.sn := by
        rw [Agent.readAt_acceptSample, if_pos rfl]
      have hoffer : Offers req [smp] a (b.acceptSample n req d smp retained now) := {
        poolReaders := haccept.poolReaders.trans hb.poolReaders
        filterMatches := haccept.filterMatches.trans hb.filterMatches
        next := haccept.next.trans hb.next
        filter := fun rd => (haccept.filter rd).trans (hb.filter rd)
        others := fun rd hrd => ⟨(haccept.others rd hrd).1.trans (hb.others rd hrd).1,
          (haccept.others rd hrd).2.trans (hb.others rd hrd).2⟩
        forward := Nat.le_trans hb.forward haccept.forward
        moved := by
          rw [← hread]
          exact haccept.moved
        accepted := by
          rw [haccept.accepted, hread, hconv]
          rfl
        readReq := fun m => (haccept.readReq m).trans (hb.readReq m) }
      exact .delivered (Nat.lt_of_not_le hnew) hoffer hat

/-- The loop over a sorted batch accepts the valid samples up to the position it reaches. -/
theorem processSamplesEA_offers (key : ClientSessionKey) {n : ℕ} (now : ℕ) {samples : List Sample}
    (hsorted : Sorted Sample.sn samples) (updated : Bool)
    (hreq : (a.attached n).readReq = some req) :
    Offers req samples a (processSamplesEA env key n now samples updated a).2 := by
  induction samples generalizing updated a with
  | nil => exact .of_recordsOnly (refl a)
  | cons smp samples ih =>
      have hrest : Sorted Sample.sn samples := (List.pairwise_cons.1 hsorted).2
      rw [processSamplesEA]
      by_cases hvalid : smp.validData = true
      · rw [if_pos hvalid, bind_apply]
        simp only [attempt]
        have hexit := processSampleEA_offers env key now hreq hvalid
        generalize processSampleEA env key n smp now a = res at hexit
        rcases res with ⟨res, b⟩
        cases hexit with
        | failed hb => exact .of_recordsOnly hb
        | old hold => exact (ih hrest updated hreq).cons_old fun _ => hold
        | retry hb => exact .of_recordsOnly hb
        | delivered hnew hb hat =>
            have hgo := ih (a := b) hrest true ((hb.readReq n).trans hreq)
            exact hb.cons_accepted hgo hvalid hnew hat hsorted
      · rw [if_neg hvalid]
        exact (ih hrest updated hreq).cons_old fun h => absurd h hvalid

theorem readFromReaderDdsEA_faulted (n : ℕ) : Within Faulted (readFromReaderDdsEA env n) := by
  refine .read fun a => .bind (lookupResource_frame _ _ _) fun _ => .bind (.require _) fun r => ?_
  refine .bind (.ensure _) fun _ => .bind (deref_faulted _ _) fun _ => .bind (.require _) ?_
  refine fun _ => .bind (.require _) fun _ => .bind (.ensure _) fun _ => ?_
  exact .bind (.ensure _) fun _ => .pure _

theorem getD_of_isEmpty {α : Type} (l : List α) :
    (if l.isEmpty = true then none else some l).getD [] = l := by
  cases l <;> rfl

/-- The batch that is read for a read of the attached resource `n`: the samples of the cache
of a reader at which the read is registered, if they match the filter of its request. -/
theorem readFromReaderDdsEA_eq_some {n : ℕ} {res : Option (List Sample)}
    (h : readFromReaderDdsEA env n a = (some res, b)) (hreq : (a.attached n).readReq = some req) :
    ∃ p q, q ∈ (b.readerAt p).requests ∧ q.read = req ∧ res.getD [] = b.batch p q := by
  have hfaulted : Faulted a b := by
    have h' := readFromReaderDdsEA_faulted env n a
    rwa [h] at h'
  have hreader : ∀ p, b.readerAt p = a.readerAt p := fun p => by
    rw [hfaulted]
    rfl
  rw [readFromReaderDdsEA, read_bind_apply] at h
  obtain ⟨found, _, hlookup, h⟩ := bind_eq_some.1 h
  obtain ⟨-, -, rfl⟩ := lookupResource_eq_some.1 hlookup
  obtain ⟨r, _, hrequire, h⟩ := bind_eq_some.1 h
  obtain ⟨-, rfl⟩ := require_eq_some.1 hrequire
  obtain ⟨_, _, hensure, h⟩ := bind_eq_some.1 h
  obtain rfl := (ensure_eq_some.1 hensure).2
  obtain ⟨p, d, hderef, h⟩ := bind_eq_some.1 h
  obtain ⟨rd, _, hrequire₂, h⟩ := bind_eq_some.1 h
  obtain ⟨hrd, rfl⟩ := require_eq_some.1 hrequire₂
  obtain rfl : req = rd := Option.some.inj (hreq.symm.trans hrd)
  obtain ⟨q, _, hrequire₃, h⟩ := bind_eq_some.1 h
  obtain ⟨hq, rfl⟩ := require_eq_some.1 hrequire₃
  obtain ⟨_, _, hensure₂, h⟩ := bind_eq_some.1 h
  obtain rfl := (ensure_eq_some.1 hensure₂).2
  obtain ⟨_, _, hensure₃, h⟩ := bind_eq_some.1 h
  obtain rfl := (ensure_eq_some.1 hensure₃).2
  obtain ⟨hres, rfl⟩ := pure_eq_some.1 h
  obtain ⟨hmem, hread⟩ := Reader.findRequestByRead_eq_some hq
  refine ⟨p, q, hreader p ▸ hmem, hread, ?_⟩
  have hmatches : d.filterMatches = a.filterMatches := by rw [hfaulted]
  rw [← hres, getD_of_isEmpty, Agent.batch, hreader, hmatches]
  cases q.queryCondition with
  | none => exact (List.filter_eq_self.2 fun _ _ => rfl).symm
  | some f => rfl

variable {cache : List Sample}

theorem noteData_still (rd req : ℕ) : Within (Still cache) (noteData rd req) := by
  refine .read fun a => .bind (.onlyIf fun _ => .modify fun b => ?_) fun _ => .modify fun b => ?_
  · exact .updateRead b req (fun _ => rfl) fun _ => rfl
  · exact .updateRead b rd (fun _ => rfl) fun _ => rfl

theorem returnLoanToReaderDdsEA_still (n : ℕ) (updated : Bool) :
    Within (Still cache) (returnLoanToReaderDdsEA env n updated) := by
  intro a
  have hstay : Still cache a a := refl a
  rw [returnLoanToReaderDdsEA, read_bind_apply]
  refine keeps_lookupResource hstay fun _ => keeps_require hstay fun r _ => ?_
  refine keeps_ensure hstay fun _ => ?_
  have hderef : Still cache a (deref (a.attached n).resource r a).2 := deref_still _ _ a
  -- the positions of the reads are those from before the reader is looked at
  have hreads := deref_faulted (a.attached n).resource r a
  refine keeps_bind (fun _ => hderef) fun p _ => ?_
  generalize (deref (a.attached n).resource r a).2 = b at hderef hreads
  refine keeps_require hderef fun _ _ => keeps_require hderef fun _ _ => ?_
  refine keeps_ensure hderef fun _ => ?_
  have hupdated : Still cache b
      (onReader p (Reader.requestsUpdated env fun q => (a.readAt q).lastSample) b).2 := by
    have hpos : (fun q => (a.readAt q).lastSample) = fun q => (b.readAt q).lastSample := by
      rw [hreads]
      rfl
    rw [hpos]
    exact requestsUpdated_still env p b
  have hloan : Still cache a
      (onlyIf updated
        (onReader p (Reader.requestsUpdated env fun q => (a.readAt q).lastSample)) b).2 :=
    keeps_onlyIf hderef fun _ => hderef.trans' hupdated
  exact keeps_bind (fun _ => hloan) fun _ _ => hloan.trans' (Within.ensure _ _)

theorem leaveReaderEA_still (n rd : ℕ) (loan : Bool) (exit : LoopExit) (done : Bool) :
    Within (Still cache) (leaveReaderEA env n rd loan exit done) := by
  refine .bind (.modify fun a => .updateRead a rd (fun r => ?_) fun r => ?_) fun _ => ?_
  · split <;> rfl
  · split <;> rfl
  refine .bind (.attempt ?_) fun _ => ?_
  · exact within_postRetry (fun _ _ => .of_same rfl rfl rfl rfl) env rd _
  refine .bind (.attempt (.onlyIf fun _ => returnLoanToReaderDdsEA_still env n _)) fun _ => ?_
  refine .bind (.onlyIf fun _ => .modify fun a => ?_) fun _ => .ensure _
  exact .updateRead a rd (fun _ => rfl) fun _ => rfl

/-- The loop over a batch is followed by the dismissal of what every read has passed. -/
theorem serveBatchEA_still (key : ClientSessionKey) (n rd : ℕ) (bounded : Bool)
    (samples : Option (List Sample)) (a : Agent) : Still cache
      (processSamplesEA env key n (env.clock 0) (samples.getD []) false a).2
      (serveBatchEA env key n rd bounded samples a).2 := by
  refine keeps_bind (fun _ => refl _) fun exit _ => ?_
  rw [read_bind_apply]
  split
  · split
    · exact leaveReaderEA_still env n rd _ _ _ _
    · exact leaveReaderEA_still env n rd _ _ _ _
  · exact leaveReaderEA_still env n rd _ _ _ _

/-- Serving a read offers nothing, or a batch. -/
theorem readFromReaderEA_serves {key : ClientSessionKey} {n : ℕ}
    (hreq : (a.attached n).readReq = some req) :
    Still cache a (readFromReaderEA env key n a).2 ∨
      ∃ samples b, readFromReaderDdsEA env n a = (some samples, b) ∧
        Still cache (processSamplesEA env key n (env.clock 0) (samples.getD []) false b).2
          (readFromReaderEA env key n a).2 := by
  cases htime : env.ok (.getTime .readFromReader 0) with
  | false =>
      refine .inl ?_
      unfold readFromReaderEA
      rw [read_bind_apply, hreq, bind_apply]
      simp only [require_apply, htime, Bool.not_false, if_true]
      exact leaveReaderEA_still env n req _ _ _ a
  | true =>
  cases hbounds : ((a.readAt req).isComplete (env.clock 0)).1 &&
      ((a.readAt req).isComplete (env.clock 0)).2 with
  | true =>
      refine .inl ?_
      unfold readFromReaderEA
      rw [read_bind_apply, hreq, bind_apply]
      simp only [require_apply, htime, hbounds, Bool.not_true, Bool.false_eq_true, if_false,
        if_true]
      exact leaveReaderEA_still env n req _ _ _ a
  | false =>
  cases hdds : readFromReaderDdsEA env n a with
  | mk res b =>
  cases res with
  | none =>
      have hb : Still cache a b := by
        have h := readFromReaderDdsEA_faulted env n a
        rw [hdds] at h
        exact h.still
      refine .inl (hb.trans' ?_)
      unfold readFromReaderEA
      rw [read_bind_apply, hreq, bind_apply]
      simp only [require_apply, htime, hbounds, Bool.not_true, Bool.false_eq_true, if_false]
      rw [bind_apply]
      simp only [attempt, hdds]
      exact leaveReaderEA_still env n req _ _ _ b
  | some samples =>
      refine .inr ⟨samples, b, rfl, ?_⟩
      rw [readFromReaderEA_of_batch env hreq htime hbounds hdds]
      exact serveBatchEA_still env key n req _ samples b

/-- A loop that ends well has passed all the samples of its batch. -/
theorem processSamplesEA_passes (key : ClientSessionKey) {n now : ℕ} {samples : List Sample}
    (hsorted : Sorted Sample.sn samples) {updated : Bool} {exit : LoopExit}
    (hreq : (a.attached n).readReq = some req)
    (h : processSamplesEA env key n now samples updated a = (some exit, c))
    (hsuccess : exit.success = true) (hretry : exit.retry = none) :
    ∀ s ∈ samples, s.validData = true → s.sn ≤ (c.readAt req).lastSample := by
  induction samples generalizing updated a with
  | nil =>
      intro s hs
      cases hs
  | cons smp samples ih =>
      have hrest : Sorted Sample.sn samples := (List.pairwise_cons.1 hsorted).2
      have hforward : ∀ {b : Agent} {updated : Bool}, (b.attached n).readReq = some req →
          processSamplesEA env key n now samples updated b = (some exit, c) →
          (b.readAt req).lastSample ≤ (c.readAt req).lastSample := by
        intro b updated hb hrun
        have hoffers := processSamplesEA_offers env key now hrest updated hb
        rw [hrun] at hoffers
        exact hoffers.forward
      rw [processSamplesEA] at h
      by_cases hvalid : smp.validData = true
      · rw [if_pos hvalid, bind_apply] at h
        simp only [attempt] at h
        have hexit := processSampleEA_offers env key now hreq hvalid
        generalize processSampleEA env key n smp now a = res at hexit h
        rcases res with ⟨res, b⟩
        rw [List.forall_mem_cons]
        cases hexit with
        | failed hb =>
            obtain ⟨heq, -⟩ := pure_eq_some.1 h
            rw [← heq] at hsuccess
            cases hsuccess
        | old hold => exact ⟨fun _ => hold.trans (hforward hreq h), ih hrest hreq h⟩
        | retry hb =>
            obtain ⟨heq, -⟩ := pure_eq_some.1 h
            rw [← heq] at hretry
            cases hretry
        | delivered hnew hb hat =>
            have hreq' : (b.attached n).readReq = some req := (hb.readReq n).trans hreq
            exact ⟨fun _ => hat.ge.trans (hforward hreq' h), ih hrest hreq' h⟩
      · rw [if_neg hvalid] at h
        rw [List.forall_mem_cons]
        exact ⟨fun h' => absurd h' hvalid, ih hrest hreq h⟩

/-- A read that is to be served again is marked so on the way out. -/
theorem leaveReaderEA_delayed (n rd : ℕ) (loan done : Bool) {exit : LoopExit}
    (h : exit.retry ≠ none) (a : Agent) :
    ((leaveReaderEA env n rd loan exit done a).2.readAt rd).delayed = true := by
  let I : Agent → Prop := fun b => (b.readAt rd).delayed = true
  have hretry : exit.retry.isNone = false := by
    rwa [← Bool.not_eq_true, Option.isNone_iff_eq_none]
  change I _
  unfold leaveReaderEA
  rw [modify_bind_apply]
  have h₀ : I (a.updateRead rd fun x =>
      if exit.retry.isNone = true then { x with dataAvailable := false }
      else { x with delayed := true }) := by
    change (Agent.readAt _ rd).delayed = true
    rw [Agent.readAt_updateRead, if_pos rfl, hretry]
    rfl
  generalize Agent.updateRead a rd _ = b₀ at h₀
  have hposted : I (attempt (postRetry env rd exit.retry) b₀).2 := by
    have hsame : Within (fun b c => I b → I c) (postRetry env rd exit.retry) :=
      within_postRetry (fun _ _ => id) env rd exit.retry
    exact hsame b₀ h₀
  refine keeps_bind (fun _ => hposted) fun _ _ => ?_
  generalize (attempt _ b₀).2 = b at hposted
  have h₁ : I (attempt (onlyIf loan (returnLoanToReaderDdsEA env n exit.updated)) b).2 := by
    refine keeps_onlyIf hposted fun _ => ?_
    change ((Agent.poolReads _).content rd).delayed = true
    rw [(returnLoanToReaderDdsEA_apart env n exit.updated b).poolReads]
    exact hposted
  refine keeps_bind (fun _ => h₁) fun returned _ => ?_
  generalize (attempt _ b).2 = c at h₁
  have h₂ : I (onlyIf done (modify fun a => a.updateRead rd fun x => { x with complete := true })
      c).2 := by
    refine keeps_onlyIf h₁ fun _ => ?_
    change (Agent.readAt _ rd).delayed = true
    rw [modify_apply, Agent.readAt_updateRead, if_pos rfl]
    exact h₁
  exact keeps_bind (fun _ => h₂) fun _ _ => h₂

theorem leaveReaderEA_eq_some {n rd : ℕ} {loan done : Bool} {exit : LoopExit}
    (h : leaveReaderEA env n rd loan exit done a = (some (), b)) : exit.success = true := by
  unfold leaveReaderEA at h
  rw [modify_bind_apply] at h
  obtain ⟨posted, _, -, h⟩ := bind_eq_some.1 h
  obtain ⟨returned, _, -, h⟩ := bind_eq_some.1 h
  obtain ⟨_, _, -, h⟩ := bind_eq_some.1 h
  have hall := (ensure_eq_some.1 h).1
  rw [Bool.and_eq_true, Bool.and_eq_true] at hall
  exact hall.1.1

/-- Serving a read that goes on ends well when its loop has passed all samples that DDS had
for the read. -/
theorem readFromReaderEA_passes {key : ClientSessionKey} {n : ℕ}
    (hreq : (a.attached n).readReq = some req)
    (h : readFromReaderEA env key n a = (some (), c))
    (hcomplete : (c.readAt req).complete = false) (hdelayed : (c.readAt req).delayed = false) :
    ∃ samples b exit, readFromReaderDdsEA env n a = (some samples, b) ∧
      (processSamplesEA env key n (env.clock 0) (samples.getD []) false b).1 = some exit ∧
      exit.success = true ∧ exit.retry = none ∧
      Still cache (processSamplesEA env key n (env.clock 0) (samples.getD []) false b).2 c := by
  have hdone : ∀ {loan : Bool} {exit : LoopExit} {b : Agent},
      leaveReaderEA env n req loan exit true b ≠ (some (), c) := by
    intro loan exit b hleave
    have hmarked := leaveReaderEA_complete env n req loan exit b
    rw [hleave, hcomplete] at hmarked
    cases hmarked
  have hretry : ∀ {loan done : Bool} {exit : LoopExit} {b : Agent},
      leaveReaderEA env n req loan exit done b = (some (), c) → exit.retry = none := by
    intro loan done exit b hleave
    by_contra hsome
    have hmarked := leaveReaderEA_delayed env n req loan done hsome b
    rw [hleave, hdelayed] at hmarked
    cases hmarked
  cases htime : env.ok (.getTime .readFromReader 0) with
  | false =>
      unfold readFromReaderEA at h
      rw [read_bind_apply, hreq, bind_apply] at h
      simp only [require_apply, htime, Bool.not_false, if_true] at h
      cases leaveReaderEA_eq_some env h
  | true =>
  cases hbounds : ((a.readAt req).isComplete (env.clock 0)).1 &&
      ((a.readAt req).isComplete (env.clock 0)).2 with
  | true =>
      unfold readFromReaderEA at h
      rw [read_bind_apply, hreq, bind_apply] at h
      simp only [require_apply, htime, hbounds, Bool.not_true, Bool.false_eq_true, if_false,
        if_true] at h
      exact absurd h hdone
  | false =>
  cases hdds : readFromReaderDdsEA env n a with
  | mk res b =>
  cases res with
  | none =>
      unfold readFromReaderEA at h
      rw [read_bind_apply, hreq, bind_apply] at h
      simp only [require_apply, htime, hbounds, Bool.not_true, Bool.false_eq_true, if_false] at h
      rw [bind_apply] at h
      simp only [attempt, hdds] at h
      cases leaveReaderEA_eq_some env h
  | some samples =>
      rw [readFromReaderEA_of_batch env hreq htime hbounds hdds] at h
      have hstill : Still cache _ _ := serveBatchEA_still env key n req
        ((a.readAt req).isComplete (env.clock 0)).1 samples b
      rw [h] at hstill
      obtain ⟨exit, d, hloop, h⟩ := bind_eq_some.1 h
      refine ⟨samples, b, exit, rfl, by rw [hloop], ?_⟩
      rw [read_bind_apply] at h
      split at h
      · split at h
        · exact ⟨leaveReaderEA_eq_some env h, hretry h, hstill⟩
        · cases leaveReaderEA_eq_some env h
      · exact ⟨leaveReaderEA_eq_some env h, hretry h, hstill⟩
/-- A data event that finds its read goes on with serving it. -/
theorem onDataOnReader_of_found {rd n : ℕ}
    (hlookup : env.ok (.lookupSession .onData (a.readAt rd).sessionKey) = true)
    (hfind : (findAttachedReader (a.readAt rd).sessionKey (a.readAt rd).readerId a).1 = some n)
    (hreq : (a.attached n).readReq = some req) (hcomplete : (a.readAt req).complete = false) :
    onDataOnReader env rd a = (do
      readFromReaderEA env (a.readAt rd).sessionKey n
      let b ← read
      onlyIf (b.readAt req).complete (modify fun a => { a with condCleanupReads := true }) :
        AgentM Unit) (noteData rd req a).2 := by
  have hn : findAttachedReader (a.readAt rd).sessionKey (a.readAt rd).readerId a = (some n, a) :=
    Prod.ext hfind (findAttachedReader_eq _ _ a)
  rw [onDataOnReader, read_bind_apply, hlookup, ensure_true_bind_apply, bind_apply, hn]
  simp only [bind_apply, require_apply, hreq, hcomplete]
  rw [noteData, read_bind_apply]
  cases (a.readAt rd).delayed <;> rfl

/-- What follows the reading offers nothing. -/
theorem readAndNote_still (key : ClientSessionKey) (n req : ℕ)
    (h : Still cache c (readFromReaderEA env key n a).2) : Still cache c ((do
      readFromReaderEA env key n
      let b ← read
      onlyIf (b.readAt req).complete (modify fun a => { a with condCleanupReads := true }) :
        AgentM Unit) a).2 := by
  refine keeps_bind (fun _ => h) fun _ _ => ?_
  rw [read_bind_apply]
  exact keeps_onlyIf h fun _ => h.trans' (.of_same rfl rfl rfl rfl)

/-- A data event offers nothing, or the samples that a reader of the read it serves has for
the request of that read. -/
theorem onDataOnReader_serves (rd : ℕ) (a : Agent) :
    Still [] a (onDataOnReader env rd a).2 ∨ ∃ req p q b c, Still [] a b ∧
      q ∈ (b.readerAt p).requests ∧ q.read = req ∧ Still [] c (onDataOnReader env rd a).2 ∧
      (Sorted Sample.sn (b.readerAt p).cache → Offers req (b.batch p q) b c) := by
  cases hlookup : env.ok (.lookupSession .onData (a.readAt rd).sessionKey) with
  | false =>
      refine .inl ?_
      rw [onDataOnReader, read_bind_apply, hlookup]
      exact refl a
  | true =>
  cases hfind : findAttachedReader (a.readAt rd).sessionKey (a.readAt rd).readerId a with
  | mk found e =>
  have he : e = a := by
    rw [← findAttachedReader_eq (a.readAt rd).sessionKey (a.readAt rd).readerId a, hfind]
  subst he
  cases found with
  | none =>
      refine .inl ?_
      rw [onDataOnReader, read_bind_apply, hlookup, ensure_true_bind_apply, bind_apply, hfind]
      exact refl e
  | some n =>
  cases hreq : (e.attached n).readReq with
  | none =>
      refine .inl ?_
      rw [onDataOnReader, read_bind_apply, hlookup, ensure_true_bind_apply, bind_apply, hfind]
      simp only [bind_apply, require_apply, hreq]
      exact refl e
  | some req =>
  cases hcomplete : (e.readAt req).complete with
  | true =>
      refine .inl ?_
      rw [onDataOnReader, read_bind_apply, hlookup, ensure_true_bind_apply, bind_apply, hfind]
      simp only [bind_apply, require_apply, hreq, hcomplete]
      exact .of_same rfl rfl rfl rfl
  | false =>
  rw [onDataOnReader_of_found env hlookup (by rw [hfind]) hreq hcomplete]
  have hnoted : Still [] e (noteData rd req e).2 := noteData_still rd req e
  have hreq' : ((noteData rd req e).2.attached n).readReq = some req := by
    rw [noteData_attached]
    exact hreq
  rcases readFromReaderEA_serves env hreq' with h | ⟨samples, b, hdds, h⟩
  · exact .inl (hnoted.trans' (readAndNote_still env _ n req h))
  have hfaulted : Faulted (noteData rd req e).2 b := by
    have h' := readFromReaderDdsEA_faulted env n (noteData rd req e).2
    rwa [hdds] at h'
  obtain ⟨p, q, hq, hread, hbatch⟩ := readFromReaderDdsEA_eq_some env hdds hreq'
  have hreq'' : (b.attached n).readReq = some req := by
    rw [hfaulted]
    exact hreq'
  refine .inr ⟨req, p, q, b, _, hnoted.trans' hfaulted.still, hq, hread,
    readAndNote_still env _ n req h, fun hsorted => ?_⟩
  rw [← hbatch]
  refine processSamplesEA_offers env _ _ ?_ false hreq''
  rw [hbatch]
  exact hsorted.filter _

/-- A data event that ends well, for a read that goes on and is not to be served again, has
passed all samples that its reader had for it. -/
theorem onDataOnReader_passes {rd n : ℕ}
    (h : onDataOnReader env rd a = (some (), c))
    (hfind : (findAttachedReader (a.readAt rd).sessionKey (a.readAt rd).readerId a).1 = some n)
    (hreq : (a.attached n).readReq = some rd) (hcomplete : (c.readAt rd).complete = false)
    (hdelayed : (c.readAt rd).delayed = false) :
    ∃ p q b d, Still [] a b ∧ q ∈ (b.readerAt p).requests ∧ q.read = rd ∧ Still [] d c ∧
      (Sorted Sample.sn (b.readerAt p).cache → Offers rd (b.batch p q) b d ∧
        ∀ s ∈ b.batch p q, s.validData = true → s.sn ≤ (d.readAt rd).lastSample) := by
  have hn : findAttachedReader (a.readAt rd).sessionKey (a.readAt rd).readerId a = (some n, a) :=
    Prod.ext hfind (findAttachedReader_eq _ _ a)
  cases hlookup : env.ok (.lookupSession .onData (a.readAt rd).sessionKey) with
  | false =>
      rw [onDataOnReader, read_bind_apply, hlookup] at h
      cases h
  | true =>
  cases hbefore : (a.readAt rd).complete with
  | true =>
      rw [onDataOnReader, read_bind_apply, hlookup, ensure_true_bind_apply, bind_apply, hn] at h
      simp only [bind_apply, require_apply, hreq, hbefore] at h
      have hc : c = { a with condCleanupReads := true } := (congrArg Prod.snd h).symm
      rw [hc] at hcomplete
      cases hbefore.symm.trans hcomplete
  | false =>
  rw [onDataOnReader_of_found env hlookup hfind hreq hbefore] at h
  obtain ⟨_, e, hserved, hrest⟩ := bind_eq_some.1 h
  have hread : c.readAt rd = e.readAt rd := by
    rw [read_bind_apply] at hrest
    have hc : c = (onlyIf (e.readAt rd).complete
        (modify fun a : Agent => { a with condCleanupReads := true }) e).2 := by rw [hrest]
    rw [hc]
    cases (e.readAt rd).complete <;> rfl
  rw [hread] at hcomplete hdelayed
  have hreq' : ((noteData rd rd a).2.attached n).readReq = some rd := by
    rw [noteData_attached]
    exact hreq
  obtain ⟨samples, b, exit, hdds, hloop, hsuccess, hretry, hstill⟩ :=
    readFromReaderEA_passes env hreq' hserved hcomplete hdelayed
  have hnoted : Still [] a (noteData rd rd a).2 := noteData_still rd rd a
  have hfaulted : Faulted (noteData rd rd a).2 b := by
    have h' := readFromReaderDdsEA_faulted env n (noteData rd rd a).2
    rwa [hdds] at h'
  obtain ⟨p, q, hq, hreadq, hbatch⟩ := readFromReaderDdsEA_eq_some env hdds hreq'
  have hreq'' : (b.attached n).readReq = some rd := by
    rw [hfaulted]
    exact hreq'
  have hend : Still [] (processSamplesEA env (a.readAt rd).sessionKey n (env.clock 0)
      (samples.getD []) false b).2 c := by
    have hreading : Still [] (processSamplesEA env (a.readAt rd).sessionKey n (env.clock 0)
        (samples.getD []) false b).2
        (readFromReaderEA env (a.readAt rd).sessionKey n (noteData rd rd a).2).2 := by
      rw [hserved]
      exact hstill
    have hafter := readAndNote_still env _ n rd hreading
    rwa [h] at hafter
  refine ⟨p, q, b, _, hnoted.trans' hfaulted.still, hq, hreadq, hend, fun hsorted => ?_⟩
  have hbatchSorted : Sorted Sample.sn (samples.getD []) := by
    rw [hbatch]
    exact hsorted.filter _
  rw [← hbatch]
  refine ⟨processSamplesEA_offers env _ _ hbatchSorted false hreq'', ?_⟩
  exact processSamplesEA_passes env _ hbatchSorted hreq'' (Prod.ext hloop rfl) hsuccess hretry

end AgentM

end NanoAgent
