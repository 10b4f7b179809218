import NanoAgent.DdsAgent.IdleReads

/-!
# How far reads have come

`tally` collects what bounds a read and how far it has come. A data event serves one read
(`Served`): the loop over a batch accepts at most the samples that are new to the read, and
counts those that are not retained. The return of a loan counts one more sample. Everything
else changes the flags and the retained samples of the reads at most (`BareKept`), which
keeps the tallies.

The bounds of a read are evaluated by `Read.isComplete` before and after the loop and at
the return of a loan. The programs `toFirstEvaluation`, `toLoop` and `toLastEvaluation` are
what leads to the first two; the third is met in the state `Agent.countReturn`.
-/

namespace NanoAgent

open Prog

/-- What bounds a read, and how far it has come: the samples counted and accepted, the
limit on them, and the start of the read and the limit on its time. -/
structure Tally where
  rcvd : ℕ
  accepted : ℕ
  samplesMax : ℕ
  startTs : ℕ
  maxElapsedTs : ℕ

def Agent.tally (a : Agent) (rd : ℕ) : Tally :=
  ⟨(a.readAt rd).samplesRcvd, a.accepted rd, (a.readAt rd).samplesMax, (a.readAt rd).startTs,
    (a.readAt rd).maxElapsedTs⟩

/-- The read without its flags and its list of retained samples. -/
def Read.bare (r : Read) : Read :=
  { r with samples := [], delayed := false, dataAvailable := false, complete := false }

/-- From `a` to `b` no read is started, and at most the flags and the retained samples of
the reads have changed. -/
structure BareKept (a b : Agent) : Prop where
  next : b.poolReads.next = a.poolReads.next
  readAt : ∀ rd, (b.readAt rd).bare = (a.readAt rd).bare
  accepted : ∀ rd, b.accepted rd = a.accepted rd
  readReq : ∀ n rd, (b.attached n).readReq = some rd → (a.attached n).readReq = some rd

namespace BareKept

variable {a b c : Agent}

theorem of_idle (h : Idle a b) : BareKept a b where
  next := h.next
  readAt rd := congrArg Read.bare (h.readAt rd)
  accepted := h.accepted
  readReq := h.readReq

theorem rfl' (a : Agent) : BareKept a a := of_idle (.rfl' a)

theorem trans' (h : BareKept a b) (h' : BareKept b c) : BareKept a c where
  next := h'.next.trans h.next
  readAt rd := (h'.readAt rd).trans (h.readAt rd)
  accepted rd := (h'.accepted rd).trans (h.accepted rd)
  readReq n rd hn := h.readReq n rd (h'.readReq n rd hn)

instance : IsPreorder Agent BareKept where
  refl := rfl'
  trans _ _ _ := trans'

/-- What is read off the rest of a read has not changed. -/
theorem view (h : BareKept a b) {α : Type} {v : Read → α} (hv : ∀ r, v r.bare = v r) (rd : ℕ) :
    v (b.readAt rd) = v (a.readAt rd) := by
  rw [← hv, h.readAt, hv]

/-- A change of the flags or the retained samples of a read. -/
theorem updateRead (a : Agent) (rd : ℕ) {f : Read → Read} (hf : ∀ r, (f r).bare = r.bare) :
    BareKept a (a.updateRead rd f) where
  next := rfl
  readAt q := by
    rw [Agent.readAt_updateRead]
    split
    · exact hf _
    · rfl
  accepted _ := rfl
  readReq _ _ h := h

end BareKept

/-- From `a` to `b` no read is started, and none of them gets further. -/
structure TalliesKept (a b : Agent) : Prop where
  next : b.poolReads.next = a.poolReads.next
  tally : ∀ rd, b.tally rd = a.tally rd
  readReq : ∀ n rd, (b.attached n).readReq = some rd → (a.attached n).readReq = some rd

namespace TalliesKept

variable {a b c : Agent}

theorem of_idle (h : Idle a b) : TalliesKept a b where
  next := h.next
  tally rd := by simp only [Agent.tally, h.readAt, h.accepted]
  readReq := h.readReq

theorem of_bare (h : BareKept a b) : TalliesKept a b where
  next := h.next
  tally rd := by
    simp only [Agent.tally, h.accepted, h.view (v := Read.samplesRcvd) fun _ => rfl,
      h.view (v := Read.samplesMax) fun _ => rfl, h.view (v := Read.startTs) fun _ => rfl,
      h.view (v := Read.maxElapsedTs) fun _ => rfl]
  readReq := h.readReq

theorem trans' (h : TalliesKept a b) (h' : TalliesKept b c) : TalliesKept a c where
  next := h'.next.trans h.next
  tally rd := (h'.tally rd).trans (h.tally rd)
  readReq n rd hn := h.readReq n rd (h'.readReq n rd hn)

instance : IsPreorder Agent TalliesKept where
  refl a := of_idle (.rfl' a)
  trans _ _ _ := trans'

end TalliesKept

/-- From `a` to `b` the read `req` of an attached resource is served: samples may be accepted
for it. When none of them is retained, all of them are counted. -/
structure Served (req : ℕ) (unretained : Prop) (a b : Agent) : Prop where
  next : b.poolReads.next = a.poolReads.next
  others : ∀ rd, rd ≠ req → b.tally rd = a.tally rd
  samplesMax : (b.readAt req).samplesMax = (a.readAt req).samplesMax
  startTs : (b.readAt req).startTs = (a.readAt req).startTs
  maxElapsedTs : (b.readAt req).maxElapsedTs = (a.readAt req).maxElapsedTs
  lastSample : (a.readAt req).lastSample ≤ (b.readAt req).lastSample
  counted : unretained → (b.readAt req).samplesRcvd + a.accepted req =
    (a.readAt req).samplesRcvd + b.accepted req
  readReq : ∀ n, (b.attached n).readReq = (a.attached n).readReq

namespace Served

variable {req : ℕ} {unretained : Prop} {a b c : Agent}

theorem of_same (hr : b.poolReads = a.poolReads) (hc : b.callbacks = a.callbacks)
    (hp : b.poolResources = a.poolResources) : Served req unretained a b where
  next := by rw [hr]
  others rd _ := by simp only [Agent.tally, Agent.readAt, Agent.accepted, hr, hc]
  samplesMax := by rw [Agent.readAt, hr, Agent.readAt]
  startTs := by rw [Agent.readAt, hr, Agent.readAt]
  maxElapsedTs := by rw [Agent.readAt, hr, Agent.readAt]
  lastSample := by rw [Agent.readAt, Agent.readAt, hr]
  counted _ := by simp only [Agent.readAt, Agent.accepted, hr, hc]
  readReq n := by rw [Agent.attached, hp, Agent.attached]

theorem rfl' (a : Agent) : Served req unretained a a := of_same rfl rfl rfl

theorem trans' (h : Served req unretained a b) (h' : Served req unretained b c) :
    Served req unretained a c where
  next := h'.next.trans h.next
  others rd hrd := (h'.others rd hrd).trans (h.others rd hrd)
  samplesMax := h'.samplesMax.trans h.samplesMax
  startTs := h'.startTs.trans h.startTs
  maxElapsedTs := h'.maxElapsedTs.trans h.maxElapsedTs
  lastSample := Nat.le_trans h.lastSample h'.lastSample
  counted hu := by
    have h₁ := h.counted hu
    have h₂ := h'.counted hu
    omega
  readReq n := (h'.readReq n).trans (h.readReq n)

end Served

namespace Agent

variable (a : Agent) (n rd d : ℕ) (smp : Sample) (retained : Bool) (now : ℕ)

theorem readAt_acceptSample (q : ℕ) :
    (a.acceptSample n rd d smp retained now).readAt q = if q = rd then
      { a.readAt rd with
        samples := if retained then (a.readAt rd).samples ++ [d] else (a.readAt rd).samples
        samplesRcvd := if retained then (a.readAt rd).samplesRcvd else (a.readAt rd).samplesRcvd + 1
        lastSample := smp.sn
        lastSampleTs := now }
    else a.readAt q := by
  unfold acceptSample
  by_cases hq : q = rd
  · subst hq
    cases retained <;>
      simp [readAt, notify, updateAttached, updateRead]
  · cases retained <;>
      simp [readAt, notify, updateAttached, updateRead, BufferPool.content_update, hq]

theorem accepted_acceptSample (q : ℕ) :
    (a.acceptSample n rd d smp retained now).accepted q =
      a.accepted q + if q = rd then 1 else 0 := by
  have hcall : (a.acceptSample n rd d smp retained now).callbacks =
      a.callbacks ++ [.dataAccepted rd smp] := by
    unfold acceptSample
    cases retained <;> rfl
  simp only [accepted, hcall, List.countP_append, List.countP_singleton, Callback.accepts,
    beq_iff_eq, eq_comm (a := rd)]

theorem readReq_acceptSample (m : ℕ) :
    ((a.acceptSample n rd d smp retained now).attached m).readReq = (a.attached m).readReq := by
  unfold acceptSample
  by_cases hm : m = n
  · subst hm
    cases retained <;>
      simp [attached, notify, updateAttached, updateRead]
  · cases retained <;>
      simp [attached, notify, updateAttached, updateRead, BufferPool.content_update, hm]

/-- A sample that is accepted counts for the read, at once when it is not retained. -/
theorem served_acceptSample {unretained : Prop} (hlast : (a.readAt rd).lastSample ≤ smp.sn)
    (hret : unretained → retained = false) :
    Served rd unretained a (a.acceptSample n rd d smp retained now) where
  next := by
    unfold acceptSample
    cases retained <;> rfl
  others q hq := by
    simp only [tally, readAt_acceptSample, accepted_acceptSample, if_neg hq, Nat.add_zero]
  samplesMax := by rw [readAt_acceptSample, if_pos rfl]
  startTs := by rw [readAt_acceptSample, if_pos rfl]
  maxElapsedTs := by rw [readAt_acceptSample, if_pos rfl]
  lastSample := by
    rw [readAt_acceptSample, if_pos rfl]
    exact hlast
  counted hu := by
    rw [readAt_acceptSample, if_pos rfl, accepted_acceptSample, if_pos rfl, hret hu]
    simp only [Bool.false_eq_true, if_false]
    omega
  readReq := readReq_acceptSample a n rd d smp retained now

end Agent

/-- From `a` to `b` neither the reads nor the attached resources have changed, and no
interface was notified. -/
structure Apart (a b : Agent) : Prop where
  poolReads : b.poolReads = a.poolReads
  callbacks : b.callbacks = a.callbacks
  poolResources : b.poolResources = a.poolResources

namespace Apart

variable {a b : Agent}

instance : IsPreorder Agent Apart where
  refl _ := ⟨rfl, rfl, rfl⟩
  trans _ _ _ h h' := ⟨h'.1.trans h.1, h'.2.trans h.2, h'.3.trans h.3⟩

theorem of_native (h : NativeFrame a b) : Apart a b := ⟨h.poolReads, h.callbacks, h.poolResources⟩

theorem idle (h : Apart a b) : Idle a b := .of_same h.poolReads h.callbacks h.poolResources

theorem served {req : ℕ} {unretained : Prop} (h : Apart a b) : Served req unretained a b :=
  .of_same h.poolReads h.callbacks h.poolResources

end Apart

namespace AgentM

variable (env : Env)

theorem convertSampleEA_apart (key : ClientSessionKey) (n : ℕ) (smp : Sample) :
    Within Apart (convertSampleEA env key n smp) := by
  have hsame : ∀ {f : Agent → Agent}, (∀ a, (f a).poolReads = a.poolReads) →
      (∀ a, (f a).callbacks = a.callbacks) → (∀ a, (f a).poolResources = a.poolResources) →
      Within Apart (modify f) := fun hr hc hp => .modify fun a => ⟨hr a, hc a, hp a⟩
  have hfill : ∀ d, Within Apart (fillReceivedData env key n d smp) := by
    intro d
    refine .read fun a => .bind (hsame (fun _ => rfl) (fun _ => rfl) fun _ => rfl) fun _ => ?_
    refine .bind (.onlyIf fun _ => .bind (.ensure _) fun _ => ?_) fun _ => .bind (.ensure _) ?_
    · exact hsame (fun _ => rfl) (fun _ => rfl) fun _ => rfl
    · refine fun _ => .bind (hsame (fun _ => rfl) (fun _ => rfl) fun _ => rfl) fun _ => ?_
      exact .bind (.require _) fun _ => hsame (fun _ => rfl) (fun _ => rfl) fun _ => rfl
  refine .bind (.read fun a => .bind (.require _) fun s => ?_) fun d => ?_
  · cases s.rcvdDataPool with
    | cons d l =>
        exact .bind (hsame (fun _ => rfl) (fun _ => rfl) fun _ => rfl) fun _ => .pure _
    | nil =>
        refine .bind (.ensure _) fun _ => .bind ?_ fun _ => .pure _
        exact hsame (fun _ => rfl) (fun _ => rfl) fun _ => rfl
  · refine .bind (.onFailure (hfill d) ?_) fun _ => .pure _
    exact hsame (fun _ => rfl) (fun _ => rfl) fun _ => rfl

/-- A sample is accepted at most once, and only when it is new to the read. -/
theorem processSampleEA_served {key : ClientSessionKey} {n req : ℕ} {smp : Sample} {now : ℕ}
    {unretained : Prop} {a : Agent} (hreq : (a.attached n).readReq = some req)
    (hun : unretained → ∀ ret, env.delivery smp = .accepted ret → ret = false) :
    Served req unretained a (processSampleEA env key n smp now a).2 ∧
      (processSampleEA env key n smp now a).2.accepted req ≤
        a.accepted req + if (a.readAt req).lastSample < smp.sn then 1 else 0 := by
  set fresh := if (a.readAt req).lastSample < smp.sn then 1 else 0 with hfresh
  let I : Agent → Prop := fun b =>
    Served req unretained a b ∧ b.accepted req ≤ a.accepted req + fresh
  have hapart : ∀ {b : Agent}, Apart a b → I b := by
    intro b h
    refine ⟨h.served, ?_⟩
    rw [Agent.accepted, h.callbacks]
    exact Nat.le_add_right _ _
  have hstay : I a := hapart ⟨rfl, rfl, rfl⟩
  change I (processSampleEA env key n smp now a).2
  rw [processSampleEA, read_bind_apply]
  refine keeps_require hstay fun rd hrd => ?_
  obtain rfl : req = rd := Option.some.inj (hreq.symm.trans hrd)
  split
  · exact hstay
  rename_i hnew
  split
  · exact hstay
  refine keeps_ensure hstay fun _ => ?_
  have hconv := convertSampleEA_apart env key n smp a
  refine keeps_bind (fun _ => hapart hconv) fun d _ => ?_
  generalize (convertSampleEA env key n smp a).2 = b at hconv
  have hrecycle : Apart a (b.recycle key d) := ⟨hconv.1, hconv.2, hconv.3⟩
  cases hdel : env.delivery smp with
  | error => exact hapart hrecycle
  | tryAgain => exact hapart hrecycle
  | accepted retained =>
      have hlast : (b.readAt req).lastSample ≤ smp.sn := by
        rw [Agent.readAt, hconv.poolReads]
        exact Nat.le_of_not_le hnew
      have hserved := b.served_acceptSample n req d smp retained now hlast fun hu =>
        hun hu retained hdel
      refine ⟨hconv.served.trans' hserved, ?_⟩
      change (b.acceptSample n req d smp retained now).accepted req ≤ _
      rw [Agent.accepted_acceptSample, if_pos rfl, hfresh, if_pos (Nat.lt_of_not_le hnew),
        Agent.accepted, hconv.callbacks]
      exact le_rfl

/-- The samples of a batch that are new to a read. -/
def freshSamples (last : ℕ) (samples : List Sample) : List Sample :=
  samples.filter fun smp => smp.validData && decide (last < smp.sn)

theorem length_freshSamples_le {last last' : ℕ} (h : last ≤ last') (samples : List Sample) :
    (freshSamples last' samples).length ≤ (freshSamples last samples).length := by
  refine (List.monotone_filter_right samples fun smp hsmp => ?_).length_le
  simp only [Bool.and_eq_true, decide_eq_true_eq] at hsmp ⊢
  exact ⟨hsmp.1, Nat.lt_of_le_of_lt h hsmp.2⟩

/-- The loop over a batch accepts no more than the samples that are new to the read. -/
theorem processSamplesEA_served {key : ClientSessionKey} {n req now : ℕ} {unretained : Prop}
    (samples : List Sample) (updated : Bool)
    (hun : unretained → ∀ smp ∈ samples, ∀ ret, env.delivery smp = .accepted ret → ret = false)
    {a : Agent} (hreq : (a.attached n).readReq = some req) :
    Served req unretained a (processSamplesEA env key n now samples updated a).2 ∧
      (processSamplesEA env key n now samples updated a).2.accepted req ≤
        a.accepted req + (freshSamples (a.readAt req).lastSample samples).length := by
  induction samples generalizing updated a with
  | nil => exact ⟨.rfl' a, le_rfl⟩
  | cons smp samples ih =>
      have hun' : unretained → ∀ smp ∈ samples, ∀ ret, env.delivery smp = .accepted ret →
          ret = false := fun hu x hx => hun hu x (List.mem_cons_of_mem _ hx)
      rw [processSamplesEA]
      by_cases hvalid : smp.validData = true
      · obtain ⟨hserved, hcount⟩ : Served req unretained a (processSampleEA env key n smp now a).2 ∧
            (processSampleEA env key n smp now a).2.accepted req ≤
              a.accepted req + if (a.readAt req).lastSample < smp.sn then 1 else 0 :=
          processSampleEA_served env hreq fun hu => hun hu smp List.mem_cons_self
        have hlength : (freshSamples (a.readAt req).lastSample (smp :: samples)).length =
            (if (a.readAt req).lastSample < smp.sn then 1 else 0) +
              (freshSamples (a.readAt req).lastSample samples).length := by
          by_cases hnew : (a.readAt req).lastSample < smp.sn
          · simp [freshSamples, hvalid, hnew, Nat.add_comm]
          · simp [freshSamples, hvalid, hnew]
        have hstop : Served req unretained a (processSampleEA env key n smp now a).2 ∧
            (processSampleEA env key n smp now a).2.accepted req ≤ a.accepted req +
              (freshSamples (a.readAt req).lastSample (smp :: samples)).length :=
          ⟨hserved, by omega⟩
        have hgo : ∀ updated, Served req unretained a
          (processSamplesEA env key n now samples updated
              (processSampleEA env key n smp now a).2).2 ∧
            (processSamplesEA env key n now samples updated
              (processSampleEA env key n smp now a).2).2.accepted req ≤ a.accepted req +
                (freshSamples (a.readAt req).lastSample (smp :: samples)).length := by
          intro updated
          obtain ⟨hrest, hle⟩ := ih updated hun' ((hserved.readReq n).trans hreq)
          have hmono := length_freshSamples_le hserved.lastSample samples
          exact ⟨hserved.trans' hrest, by omega⟩
        rw [if_pos hvalid, bind_apply]
        simp only [attempt]
        cases (processSampleEA env key n smp now a).1 with
        | none => exact hstop
        | some v =>
            cases v with
            | old => exact hgo updated
            | retry delay => exact hstop
            | delivered => exact hgo true
      · rw [if_neg hvalid]
        have hfresh : freshSamples (a.readAt req).lastSample (smp :: samples) =
            freshSamples (a.readAt req).lastSample samples := by
          simp [freshSamples, hvalid]
        rw [hfresh]
        exact ih updated hun' hreq

/-- The flags of the reads when a data event of `rd` is served through `req`. -/
def noteData (rd req : ℕ) : AgentM Unit := do
  let a ← read
  onlyIf (!(a.readAt rd).delayed)
    (modify fun a => a.updateRead req fun x => { x with dataAvailable := true })
  modify fun a => a.updateRead rd fun x => { x with delayed := false }

/-- `onDataOnReader` up to the first call of `Read.isComplete`: the attached resource and its
read. -/
def toFirstEvaluation (rd : ℕ) : AgentM (ℕ × ℕ) := do
  let a ← read
  let key := (a.readAt rd).sessionKey
  ensure (env.ok (.lookupSession .onData key))
  let n ← findAttachedReader key (a.readAt rd).readerId
  let req ← require (a.attached n).readReq
  ensure (!(a.readAt req).complete)
  noteData rd req
  ensure (env.ok (.getTime .readFromReader 0))
  pure (n, req)

/-- `onDataOnReader` up to its loop: the attached resource, its read and the batch of
samples. -/
def toLoop (rd : ℕ) : AgentM (ℕ × ℕ × List Sample) := do
  let x ← toFirstEvaluation env rd
  let a ← read
  ensure (!(((a.readAt x.2).isComplete (env.clock 0)).1 &&
    ((a.readAt x.2).isComplete (env.clock 0)).2))
  let samples ← readFromReaderDdsEA env x.1
  pure (x.1, x.2, samples.getD [])

/-- `onDataOnReader` up to the call of `Read.isComplete` that follows its loop. -/
def toLastEvaluation (rd : ℕ) : AgentM (ℕ × ℕ) := do
  let a ← read
  let x ← toLoop env rd
  let b ← read
  let exit ← processSamplesEA env (a.readAt rd).sessionKey x.1 (env.clock 0) x.2.2 false
  ensure (((b.readAt x.2.1).isComplete (env.clock 0)).1 && exit.success && exit.retry.isNone)
  ensure (env.ok (.getTime .readFromReader 1))
  pure (x.1, x.2.1)

theorem noteData_kept (rd req : ℕ) : Within BareKept (noteData rd req) := by
  refine .read fun a => .bind (.onlyIf fun _ => .modify fun b => ?_) fun _ => .modify fun b => ?_
  · exact .updateRead b req fun _ => rfl
  · exact .updateRead b rd fun _ => rfl

theorem noteData_eq (rd req : ℕ) (a : Agent) : noteData rd req a =
    (some (), (noteData rd req a).2) := by
  unfold noteData
  rw [read_bind_apply]
  cases (a.readAt rd).delayed <;> rfl

/-- Flags of reads do not concern the attached resources. -/
theorem noteData_attached (rd req n : ℕ) (a : Agent) :
    ((noteData rd req a).2.attached n) = a.attached n := by
  unfold noteData
  rw [read_bind_apply]
  cases (a.readAt rd).delayed <;> rfl

theorem findAttachedReader_eq (key : ClientSessionKey) (id : ℕ) (a : Agent) :
    (findAttachedReader key id a).2 = a := by
  have h : Within (fun a b : Agent => b = a) (findAttachedReader key id) := by
    have : IsPreorder Agent fun a b : Agent => b = a :=
      { refl := fun _ => rfl, trans := fun _ _ _ h h' => h'.trans h }
    exact findAttachedReader_frame key id
  exact h a

theorem readFromReaderDdsEA_apart (n : ℕ) : Within Apart (readFromReaderDdsEA env n) := by
  refine .read fun a => .bind (lookupResource_frame _ _ _) fun _ => .bind (.require _) fun r => ?_
  refine .bind (.ensure _) fun _ => .bind (.bind (fun b => ?_) fun _ => .require _) fun _ => ?_
  · exact .of_native (access_nativeFrame _ _ b)
  · refine .bind (.require _) fun rd => .bind (.require _) fun req => .bind (.ensure _) fun _ => ?_
    exact .bind (.ensure _) fun _ => .pure _

theorem returnLoanToReaderDdsEA_apart (n : ℕ) (updated : Bool) :
    Within Apart (returnLoanToReaderDdsEA env n updated) := by
  refine .read fun a => .bind (lookupResource_frame _ _ _) fun _ => .bind (.require _) fun r => ?_
  refine .bind (.ensure _) fun _ => .bind (.bind (fun b => ?_) fun _ => .require _) fun _ => ?_
  · exact .of_native (access_nativeFrame _ _ b)
  · refine .bind (.require _) fun rd => .bind (.require _) fun req => .bind (.ensure _) fun _ => ?_
    refine .bind (.onlyIf fun _ b => ?_) fun _ => .ensure _
    exact .of_native (onReader_nativeFrame _ _ b)

theorem leaveReaderEA_kept (n rd : ℕ) (loan : Bool) (exit : LoopExit) (done : Bool) :
    Within BareKept (leaveReaderEA env n rd loan exit done) := by
  have hretry : Within BareKept (postRetry env rd exit.retry) :=
    within_postRetry (fun _ _ => .of_idle (.of_same rfl rfl rfl)) _ _ _
  refine .bind (.modify fun a => .updateRead a rd fun r => ?_) fun _ => .bind (.attempt hretry) ?_
  · split <;> rfl
  refine fun _ => .bind (.attempt (.onlyIf fun _ a => ?_)) fun _ => .bind ?_ fun _ => .ensure _
  · exact .of_idle (returnLoanToReaderDdsEA_apart env n _ a).idle
  · exact .onlyIf fun _ => .modify fun a => .updateRead a rd fun _ => rfl

/-- A read that is found complete is marked so on the way out. -/
theorem leaveReaderEA_complete (n rd : ℕ) (loan : Bool) (exit : LoopExit) (a : Agent) :
    ((leaveReaderEA env n rd loan exit true a).2.readAt rd).complete = true := by
  unfold leaveReaderEA
  simp only [bind_apply, attempt, onlyIf_true, modify_apply, ensure]
  rw [Agent.readAt_updateRead, if_pos rfl]

/-- What `readFromReaderEA` does with the samples it has read. -/
def serveBatchEA (key : ClientSessionKey) (n rd : ℕ) (bounded : Bool)
    (samples : Option (List Sample)) : AgentM Unit := do
  let exit ← processSamplesEA env key n (env.clock 0) (samples.getD []) false
  let a ← read
  if bounded && exit.success && exit.retry.isNone then
    if env.ok (.getTime .readFromReader 1) then
      leaveReaderEA env n rd samples.isSome exit ((a.readAt rd).isComplete (env.clock 1)).2
    else
      leaveReaderEA env n rd samples.isSome ⟨false, none, exit.updated⟩ false
  else
    leaveReaderEA env n rd samples.isSome exit false

/-- The loop over a batch is followed by changes of the flags. -/
theorem serveBatchEA_kept (key : ClientSessionKey) (n rd : ℕ) (bounded : Bool)
    (samples : Option (List Sample)) (a : Agent) :
    BareKept (processSamplesEA env key n (env.clock 0) (samples.getD []) false a).2
      (serveBatchEA env key n rd bounded samples a).2 := by
  refine keeps_bind (fun _ => .rfl' _) fun exit _ => ?_
  rw [read_bind_apply]
  split
  · split
    · exact leaveReaderEA_kept env n rd _ _ _ _
    · exact leaveReaderEA_kept env n rd _ _ _ _
  · exact leaveReaderEA_kept env n rd _ _ _ _

theorem readFromReaderEA_of_batch {key : ClientSessionKey} {n req : ℕ} {a b : Agent}
    {samples : Option (List Sample)} (hreq : (a.attached n).readReq = some req)
    (htime : env.ok (.getTime .readFromReader 0) = true)
    (hbounds : (((a.readAt req).isComplete (env.clock 0)).1 &&
      ((a.readAt req).isComplete (env.clock 0)).2) = false)
    (hdds : readFromReaderDdsEA env n a = (some samples, b)) :
    readFromReaderEA env key n a =
      serveBatchEA env key n req ((a.readAt req).isComplete (env.clock 0)).1 samples b := by
  unfold readFromReaderEA
  rw [read_bind_apply, hreq, bind_apply]
  simp only [require_apply, htime, hbounds, Bool.not_true, Bool.false_eq_true, if_false]
  rw [bind_apply]
  simp only [attempt, hdds]
  rfl

/-- Serving a read either leaves the tallies as they are, or runs the loop over a batch. -/
theorem readFromReaderEA_cases {key : ClientSessionKey} {n req : ℕ} {a : Agent}
    (hreq : (a.attached n).readReq = some req) :
    BareKept a (readFromReaderEA env key n a).2 ∨
      ∃ samples b, env.ok (.getTime .readFromReader 0) = true ∧
        (((a.readAt req).isComplete (env.clock 0)).1 &&
          ((a.readAt req).isComplete (env.clock 0)).2) = false ∧
        readFromReaderDdsEA env n a = (some samples, b) ∧
        BareKept (processSamplesEA env key n (env.clock 0) (samples.getD []) false b).2
          (readFromReaderEA env key n a).2 := by
  cases htime : env.ok (.getTime .readFromReader 0) with
  | false =>
      refine .inl ?_
      unfold readFromReaderEA
      rw [read_bind_apply, hreq, bind_apply]
      simp only [require_apply, htime, Bool.not_false, if_true]
      exact leaveReaderEA_kept env n req _ _ _ a
  | true =>
  cases hbounds : ((a.readAt req).isComplete (env.clock 0)).1 &&
      ((a.readAt req).isComplete (env.clock 0)).2 with
  | true =>
      refine .inl ?_
      unfold readFromReaderEA
      rw [read_bind_apply, hreq, bind_apply]
      simp only [require_apply, htime, hbounds, Bool.not_true, Bool.false_eq_true,
        if_false, if_true]
      exact leaveReaderEA_kept env n req _ _ _ a
  | false =>
  cases hdds : readFromReaderDdsEA env n a with
  | mk res b =>
  cases res with
  | none =>
      have hb : Apart a b := by
        have h := readFromReaderDdsEA_apart env n a
        rwa [hdds] at h
      refine .inl ((BareKept.of_idle hb.idle).trans' ?_)
      unfold readFromReaderEA
      rw [read_bind_apply, hreq, bind_apply]
      simp only [require_apply, htime, hbounds, Bool.not_true, Bool.false_eq_true, if_false]
      rw [bind_apply]
      simp only [attempt, hdds]
      exact leaveReaderEA_kept env n req _ _ _ b
  | some samples =>
      refine .inr ⟨samples, b, rfl, rfl, rfl, ?_⟩
      rw [readFromReaderEA_of_batch env hreq htime hbounds hdds]
      exact serveBatchEA_kept env key n req _ samples b

/-- What precedes the loop of a data event. -/
theorem toFirstEvaluation_eq_some {rd n req : ℕ} {a b : Agent} :
    toFirstEvaluation env rd a = (some (n, req), b) ↔
      env.ok (.lookupSession .onData (a.readAt rd).sessionKey) = true ∧
        (findAttachedReader (a.readAt rd).sessionKey (a.readAt rd).readerId a).1 = some n ∧
        (a.attached n).readReq = some req ∧ (a.readAt req).complete = false ∧
        env.ok (.getTime .readFromReader 0) = true ∧ (noteData rd req a).2 = b := by
  constructor
  · intro h
    rw [toFirstEvaluation, read_bind_apply] at h
    obtain ⟨_, _, hensure, h⟩ := bind_eq_some.1 h
    obtain ⟨hlookup, rfl⟩ := ensure_eq_some.1 hensure
    obtain ⟨m, c, hfind, h⟩ := bind_eq_some.1 h
    have hc := findAttachedReader_eq (a.readAt rd).sessionKey (a.readAt rd).readerId a
    rw [hfind] at hc
    obtain ⟨q, _, hrequire, h⟩ := bind_eq_some.1 h
    obtain ⟨hreq, rfl⟩ := require_eq_some.1 hrequire
    obtain ⟨_, _, hensure₂, h⟩ := bind_eq_some.1 h
    obtain ⟨hcomplete, rfl⟩ := ensure_eq_some.1 hensure₂
    obtain ⟨_, e, hnote, h⟩ := bind_eq_some.1 h
    obtain ⟨_, _, hensure₃, h⟩ := bind_eq_some.1 h
    obtain ⟨htime, rfl⟩ := ensure_eq_some.1 hensure₃
    obtain ⟨heq, rfl⟩ := pure_eq_some.1 h
    obtain ⟨rfl, rfl⟩ := Prod.mk.inj heq
    dsimp only at hc
    rw [hc] at hnote
    refine ⟨hlookup, by rw [hfind], hreq, by simpa using hcomplete, htime, ?_⟩
    rw [hnote]
  · rintro ⟨hlookup, hfind, hreq, hcomplete, htime, hb⟩
    have hnote : noteData rd req a = (some (), b) := by
      rw [← hb]
      exact noteData_eq rd req a
    have hn : findAttachedReader (a.readAt rd).sessionKey (a.readAt rd).readerId a = (some n, a) :=
      Prod.ext hfind (findAttachedReader_eq _ _ a)
    simp [toFirstEvaluation, bind_apply, ensure, hlookup, hn, hreq, hcomplete, hnote, htime]

/-- A data event either leaves the tallies as they are, or runs the loop over a batch. -/
theorem onDataOnReader_cases (rd : ℕ) (a : Agent) :
    BareKept a (onDataOnReader env rd a).2 ∨
      ∃ n req samples b, toLoop env rd a = (some (n, req, samples), b) ∧ BareKept a b ∧
        (b.attached n).readReq = some req ∧
        BareKept (processSamplesEA env (a.readAt rd).sessionKey n (env.clock 0) samples false b).2
          (onDataOnReader env rd a).2 := by
  let I : Agent → Prop := fun c => BareKept a c ∨
    ∃ n req samples b, toLoop env rd a = (some (n, req, samples), b) ∧ BareKept a b ∧
      (b.attached n).readReq = some req ∧
      BareKept (processSamplesEA env (a.readAt rd).sessionKey n (env.clock 0) samples false b).2 c
  change I (onDataOnReader env rd a).2
  have hstay : I a := .inl (.rfl' a)
  rw [onDataOnReader, read_bind_apply]
  refine keeps_ensure hstay fun hlookup => keeps_bind (fun _ => ?_) fun n hn => ?_
  · rw [findAttachedReader_eq]
    exact hstay
  rw [findAttachedReader_eq]
  refine keeps_require hstay fun req hreq => ?_
  split
  · exact .inl (.of_idle (.of_same rfl rfl rfl))
  rename_i hcomplete
  have hnote : (do
      onlyIf (!(a.readAt rd).delayed)
        (modify fun a => a.updateRead req fun x => { x with dataAvailable := true })
      modify fun a => a.updateRead rd fun x => { x with delayed := false }
      readFromReaderEA env (a.readAt rd).sessionKey n
      let b ← read
      onlyIf (b.readAt req).complete (modify fun a => { a with condCleanupReads := true }) :
        AgentM Unit) a = (do
      readFromReaderEA env (a.readAt rd).sessionKey n
      let b ← read
      onlyIf (b.readAt req).complete (modify fun a => { a with condCleanupReads := true }) :
        AgentM Unit) (noteData rd req a).2 := by
    rw [noteData, read_bind_apply]
    cases (a.readAt rd).delayed <;> rfl
  rw [hnote]
  have hkept := noteData_kept rd req a
  have hreq' : ((noteData rd req a).2.attached n).readReq = some req := by
    rw [noteData_attached]
    exact hreq
  -- what follows the reading leaves the tallies alone
  have hend : ∀ {c : Agent}, BareKept c (readFromReaderEA env (a.readAt rd).sessionKey n
      (noteData rd req a).2).2 → BareKept c ((do
        readFromReaderEA env (a.readAt rd).sessionKey n
        let b ← read
        onlyIf (b.readAt req).complete (modify fun a => { a with condCleanupReads := true }) :
          AgentM Unit) (noteData rd req a).2).2 := by
    intro c hc
    refine keeps_bind (fun _ => hc) fun _ _ => ?_
    rw [read_bind_apply]
    exact keeps_onlyIf hc fun _ => hc.trans' (.of_idle (.of_same rfl rfl rfl))
  rcases readFromReaderEA_cases env hreq' with h | ⟨samples, b, htime, hbounds, hdds, h⟩
  · exact .inl (hkept.trans' (hend h))
  · have hb : Apart (noteData rd req a).2 b := by
      have hapart := readFromReaderDdsEA_apart env n (noteData rd req a).2
      rwa [hdds] at hapart
    refine .inr ⟨n, req, samples.getD [], b, ?_, hkept.trans' (.of_idle hb.idle), ?_, hend h⟩
    · have hfirst : toFirstEvaluation env rd a = (some (n, req), (noteData rd req a).2) :=
        (toFirstEvaluation_eq_some env).2
          ⟨hlookup, hn, hreq, by simpa using hcomplete, htime, rfl⟩
      simp only [toLoop, bind_apply, hfirst, read_apply, hbounds, Bool.not_false, ensure, if_true,
        hdds, pure_apply]
    · rw [Agent.attached, hb.poolResources]
      exact hreq'

theorem toFirstEvaluation_kept {rd n req : ℕ} {a b : Agent}
    (h : toFirstEvaluation env rd a = (some (n, req), b)) :
    BareKept a b ∧ (b.attached n).readReq = some req := by
  obtain ⟨-, -, hreq, -, -, rfl⟩ := (toFirstEvaluation_eq_some env).1 h
  refine ⟨noteData_kept rd req a, ?_⟩
  rw [noteData_attached]
  exact hreq

/-- What precedes the loop of a data event, after the first evaluation of the bounds. -/
theorem toLoop_eq_some {rd n req : ℕ} {samples : List Sample} {a b : Agent}
    (h : toLoop env rd a = (some (n, req, samples), b)) :
    ∃ c batch, toFirstEvaluation env rd a = (some (n, req), c) ∧
      (((c.readAt req).isComplete (env.clock 0)).1 &&
        ((c.readAt req).isComplete (env.clock 0)).2) = false ∧
      readFromReaderDdsEA env n c = (some batch, b) ∧ samples = batch.getD [] := by
  rw [toLoop] at h
  obtain ⟨x, c, hfirst, h⟩ := bind_eq_some.1 h
  rw [read_bind_apply] at h
  obtain ⟨_, _, hensure, h⟩ := bind_eq_some.1 h
  obtain ⟨hbounds, rfl⟩ := ensure_eq_some.1 hensure
  obtain ⟨batch, e, hdds, h⟩ := bind_eq_some.1 h
  obtain ⟨heq, rfl⟩ := pure_eq_some.1 h
  cases heq
  rw [Bool.not_eq_true'] at hbounds
  exact ⟨c, batch, hfirst, hbounds, hdds, rfl⟩

theorem toLoop_kept {rd n req : ℕ} {samples : List Sample} {a b : Agent}
    (h : toLoop env rd a = (some (n, req, samples), b)) :
    BareKept a b ∧ (b.attached n).readReq = some req := by
  obtain ⟨c, batch, hfirst, -, hdds, -⟩ := toLoop_eq_some env h
  obtain ⟨hkept, hreq⟩ := toFirstEvaluation_kept env hfirst
  have hapart : Apart c b := by
    have hdds' := readFromReaderDdsEA_apart env n c
    rwa [hdds] at hdds'
  refine ⟨hkept.trans' (.of_idle hapart.idle), ?_⟩
  rw [Agent.attached, hapart.poolResources]
  exact hreq

theorem onDataOnReader_of_first {rd n req : ℕ} {a b : Agent}
    (h : toFirstEvaluation env rd a = (some (n, req), b)) :
    onDataOnReader env rd a = (do
      readFromReaderEA env (a.readAt rd).sessionKey n
      let b ← read
      onlyIf (b.readAt req).complete (modify fun a => { a with condCleanupReads := true }) :
        AgentM Unit) b := by
  obtain ⟨hlookup, hfind, hreq, hcomplete, -, rfl⟩ := (toFirstEvaluation_eq_some env).1 h
  have hn : findAttachedReader (a.readAt rd).sessionKey (a.readAt rd).readerId a = (some n, a) :=
    Prod.ext hfind (findAttachedReader_eq _ _ a)
  rw [onDataOnReader, read_bind_apply, hlookup, ensure_true_bind_apply, bind_apply, hn]
  simp only [bind_apply, require_apply, hreq, hcomplete]
  rw [noteData, read_bind_apply]
  cases (a.readAt rd).delayed <;> rfl

/-- A data event that gets to its loop changes no more than flags after it. -/
theorem onDataOnReader_of_loop {rd n req : ℕ} {samples : List Sample} {a b : Agent}
    (h : toLoop env rd a = (some (n, req, samples), b)) :
    BareKept (processSamplesEA env (a.readAt rd).sessionKey n (env.clock 0) samples false b).2
      (onDataOnReader env rd a).2 := by
  obtain ⟨c, batch, hfirst, hbounds, hdds, rfl⟩ := toLoop_eq_some env h
  have htime := ((toFirstEvaluation_eq_some env).1 hfirst).2.2.2.2.1
  rw [onDataOnReader_of_first env hfirst]
  have hserve := serveBatchEA_kept env (a.readAt rd).sessionKey n req
    ((c.readAt req).isComplete (env.clock 0)).1 batch b
  rw [← readFromReaderEA_of_batch env (toFirstEvaluation_kept env hfirst).2 htime hbounds hdds]
    at hserve
  refine keeps_bind (fun _ => hserve) fun _ _ => ?_
  rw [read_bind_apply]
  exact keeps_onlyIf hserve fun _ => hserve.trans' (.of_idle (.of_same rfl rfl rfl))

theorem onDataOnReader_readAt {rd n req : ℕ} {a b : Agent}
    (h : toFirstEvaluation env rd a = (some (n, req), b)) (q : ℕ) :
    (onDataOnReader env rd a).2.readAt q =
      (readFromReaderEA env (a.readAt rd).sessionKey n b).2.readAt q := by
  rw [onDataOnReader_of_first env h, bind_apply]
  cases hread : readFromReaderEA env (a.readAt rd).sessionKey n b with
  | mk res c =>
      cases res with
      | none => rfl
      | some u =>
          simp only [read_bind_apply]
          cases (c.readAt req).complete <;> rfl

/-- A read that is complete when its data event is served is marked so. -/
theorem onDataOnReader_first_complete {rd n req : ℕ} {a b : Agent}
    (h : toFirstEvaluation env rd a = (some (n, req), b))
    (hcomplete : (b.readAt req).isComplete (env.clock 0) = (true, true)) :
    ((onDataOnReader env rd a).2.readAt req).complete = true := by
  rw [onDataOnReader_readAt env h]
  obtain ⟨-, -, hreq, -, htime, hb⟩ := (toFirstEvaluation_eq_some env).1 h
  have hreq' : (b.attached n).readReq = some req := by
    rw [← hb, noteData_attached]
    exact hreq
  unfold readFromReaderEA
  rw [read_bind_apply, hreq', bind_apply]
  simp only [require_apply, htime, hcomplete]
  exact leaveReaderEA_complete env n req _ _ b

/-- A read that is complete after the loop over a batch is marked so. -/
theorem onDataOnReader_last_complete {rd n req : ℕ} {a b : Agent}
    (h : toLastEvaluation env rd a = (some (n, req), b))
    (hcomplete : (b.readAt req).isComplete (env.clock 1) = (true, true)) :
    ((onDataOnReader env rd a).2.readAt req).complete = true := by
  rw [toLastEvaluation, read_bind_apply] at h
  obtain ⟨x, c, hloop, h⟩ := bind_eq_some.1 h
  rw [read_bind_apply] at h
  obtain ⟨exit, e, hexit, h⟩ := bind_eq_some.1 h
  obtain ⟨_, _, hensure, h⟩ := bind_eq_some.1 h
  obtain ⟨hfine, rfl⟩ := ensure_eq_some.1 hensure
  obtain ⟨_, _, hensure₂, h⟩ := bind_eq_some.1 h
  obtain ⟨htime, rfl⟩ := ensure_eq_some.1 hensure₂
  obtain ⟨heq, rfl⟩ := pure_eq_some.1 h
  obtain ⟨rfl, rfl⟩ := Prod.mk.inj heq
  obtain ⟨m, q, samples⟩ := x
  obtain ⟨d, batch, hfirst, hbounds, hdds, rfl⟩ := toLoop_eq_some env hloop
  have htimely := ((toFirstEvaluation_eq_some env).1 hfirst).2.2.2.2.1
  rw [onDataOnReader_readAt env hfirst,
    readFromReaderEA_of_batch env (toFirstEvaluation_kept env hfirst).2 htimely hbounds hdds]
  have hc : Apart d c := by
    have hapart := readFromReaderDdsEA_apart env m d
    rwa [hdds] at hapart
  have hread : c.readAt q = d.readAt q := by rw [Agent.readAt, hc.poolReads, Agent.readAt]
  rw [hread] at hfine
  rw [serveBatchEA, bind_apply, hexit]
  simp only [read_bind_apply]
  rw [if_pos hfine, if_pos htime, hcomplete]
  exact leaveReaderEA_complete env m q _ exit e

theorem closeReturn_kept (key : ClientSessionKey) (n rd : ℕ) (rid : ResourceId) :
    Within BareKept (closeReturn env key n rd rid) := by
  refine .read fun a => .ite (fun _ => .bind (.modify fun b => ?_) fun _ => ?_) fun _ => .ensure _
  · exact .updateRead b rd fun _ => rfl
  · refine .ite (fun _ => .bind (fun b => ?_) fun _ => .bind (.ensure _) fun _ => ?_) ?_
    · exact .of_idle (cancelReadEA_idle env n rid b)
    · exact .modify fun b => .of_idle (.notify b fun _ => rfl)
    · exact fun _ => .ensure _

/-- A record that is taken back leaves the list of its read. -/
theorem takeBack_kept (a : Agent) (key : ClientSessionKey) (n rd d : ℕ) :
    BareKept a (a.takeBack key n rd d) := by
  have h₁ : BareKept a (a.updateRead rd fun r => { r with samples := r.samples.erase d }) :=
    .updateRead a rd fun _ => rfl
  refine h₁.trans' (.of_idle ?_)
  have h₂ : Idle (a.updateRead rd fun r => { r with samples := r.samples.erase d })
      ((a.updateRead rd fun r => { r with samples := r.samples.erase d }).recycle key d) :=
    .of_same rfl rfl rfl
  exact h₂.trans' (.updateAttached _ n fun _ _ h => h)

/-- The return of a loan counts one sample of the read. -/
theorem countReturn_counted (a : Agent) (key : ClientSessionKey) (n rd d : ℕ) :
    (a.countReturn key n rd d).poolReads.next = a.poolReads.next ∧
      (∀ q, (a.countReturn key n rd d).tally q =
        { a.tally q with rcvd := (a.tally q).rcvd + if q = rd then 1 else 0 }) ∧
      ∀ m q, ((a.countReturn key n rd d).attached m).readReq = some q →
        (a.attached m).readReq = some q := by
  refine ⟨rfl, fun q => ?_, fun m q hq => ?_⟩
  · have hread : (a.countReturn key n rd d).readAt q = if q = rd then
        { a.readAt q with
          samples := (a.readAt q).samples.erase d
          samplesRcvd := (a.readAt q).samplesRcvd + 1 }
      else a.readAt q := by
      by_cases h : q = rd
      · subst h
        simp [Agent.countReturn, Agent.takeBack, Agent.readAt, Agent.updateRead,
          Agent.updateAttached, Agent.recycle,
          Agent.updateSession]
      · simp [Agent.countReturn, Agent.takeBack, Agent.readAt, Agent.updateRead,
          Agent.updateAttached, Agent.recycle,
          Agent.updateSession, BufferPool.content_update, h]
    have hacc : (a.countReturn key n rd d).accepted q = a.accepted q := rfl
    rw [Agent.tally, hread, hacc]
    by_cases h : q = rd
    · rw [if_pos h, if_pos h]
      rfl
    · rw [if_neg h, if_neg h]
      rfl
  · by_cases h : m = n
    · subst h
      simpa [Agent.countReturn, Agent.takeBack, Agent.attached, Agent.updateRead,
        Agent.updateAttached, Agent.recycle,
        Agent.updateSession, BufferPool.content_update] using hq
    · simpa [Agent.countReturn, Agent.takeBack, Agent.attached, Agent.updateRead,
        Agent.updateAttached, Agent.recycle,
        Agent.updateSession, BufferPool.content_update, h] using hq

/-- A read that is complete when one of its samples is returned is marked so. -/
theorem closeReturn_complete {key : ClientSessionKey} {n rd : ℕ} {rid : ResourceId} {a : Agent}
    (h : (a.readAt rd).isComplete (env.clock 0) = (true, true)) :
    ((closeReturn env key n rd rid a).2.readAt rd).complete = true := by
  have hboth : (((a.readAt rd).isComplete (env.clock 0)).1 &&
      ((a.readAt rd).isComplete (env.clock 0)).2) = true := by
    rw [h]
    rfl
  rw [closeReturn, read_bind_apply, if_pos hboth, modify_bind_apply]
  have hmarked : ((a.updateRead rd fun r => { r with complete := true }).readAt rd).complete =
      true := by
    rw [Agent.readAt_updateRead, if_pos rfl]
  have hidle : ∀ {b : Agent}, Idle (a.updateRead rd fun r => { r with complete := true }) b →
      (b.readAt rd).complete = true := by
    intro b hb
    rw [hb.readAt]
    exact hmarked
  split
  · have hcancel := cancelReadEA_idle env n rid
      (a.updateRead rd fun r => { r with complete := true })
    refine keeps_bind (I := fun b : Agent => (b.readAt rd).complete = true)
      (fun _ => hidle hcancel) fun _ _ => ?_
    exact keeps_ensure (I := fun b : Agent => (b.readAt rd).complete = true) (hidle hcancel)
      fun _ => hidle (hcancel.trans' (.notify _ fun _ => rfl))
  · exact hmarked

end AgentM

end NanoAgent
