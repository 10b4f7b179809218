import NanoAgent.DdsAgent.ClientSession

/-!
# Starting, serving and cancelling reads

`readEA` starts a read on an attached data reader and registers it with the
reader state; `cancelReadEA` unregisters it and returns it to the pool of reads.
The data event of a read (`onDataOnReader`) reads the samples of the DDS cache
and offers them to the client in order (`readFromReaderEA`). `read`,
`cancelRead` and `returnLoan` are the operations of the agent's interface.

Attached resources are named by their buffer, and `key` is the session that the
caller holds.
-/

namespace NanoAgent

namespace Agent

/-- Return the read of an attached resource to the pool and forget it. -/
def releaseRead (a : Agent) (n rd : ℕ) : Agent :=
  ({ a with poolReads := a.poolReads.giveBack rd }).updateAttached n
    fun x => { x with readReq := none }

/-- The error exit of `readEA`: a read of the attached resource is returned to
the pool, and stays its `readReq`. -/
def discardRead (a : Agent) (n : ℕ) : Agent :=
  match (a.attached n).readReq with
  | some rd => { a with poolReads := a.poolReads.giveBack rd }
  | none => a

/-- Take a read from the pool for an attached resource of the session `key`. -/
def takeRead (a : Agent) (key : ClientSessionKey) (n : ℕ) : Agent :=
  ({ a with poolReads := a.poolReads.take (Read.initial key (a.attached n).id) }).updateAttached n
    fun x => { x with readReq := some a.poolReads.next }

/-- The position at which a new read of an attached resource starts. -/
def startPosition (a : Agent) (n : ℕ) : ℕ :=
  match a.readStartPoint with
  | .firstCached => 0
  | .lastReturned => (a.attached n).lastSampleReturned
  | .lastForwarded => (a.attached n).lastSampleForwarded

end Agent

namespace AgentM

open Prog

/-- `NDDSA_Agent_cancel_readEA`, on the record of the resource `rid`. -/
def cancelReadEA (env : Env) (n : ℕ) (rid : ResourceId) : AgentM Unit := do
  let a ← read
  match (a.attached n).readReq with
  | none => pure ()
  | some rd => do
      ensure (!(a.readAt rd).hasPendingSamples)
      let r ← require (a.resources.lookup rid)
      let reader ← deref rid r
      onReader reader (Reader.requestComplete env rd)
      ensure (env.ok (.postEvent .cancelRead rd))
      -- waiting for the event releases the record and looks it up again by its own identifier
      ensure (r.id != .none && env.ok (.waitSemaphore .cancelRead rd))
      modify fun a => a.releaseRead n rd

/-- `NDDSA_Agent_cancel_readI`. -/
def cancelReadI (env : Env) (n : ℕ) : AgentM Unit := do
  let a ← read
  let rid := (a.attached n).resource
  let found ← lookupResource env .cancelReadI rid
  let r ← require found
  ensure (!r.nativeDeleted)
  cancelReadEA env n rid

/-- The part of `NDDSA_Agent_readEA` that takes a new read and registers it with the
reader of the record `r`. -/
def registerReadEA (env : Env) (key : ClientSessionKey) (n : ℕ) (rid : ResourceId) (r : Resource)
    (spec : ReadSpecification) : AgentM Unit := do
  let a ← read
  ensure (env.ok (.getBuffer .read n))
  let rd := a.poolReads.next
  modify fun a => a.takeRead key n
  ensure (env.ok (.newSemaphore .read n))
  modify fun a => a.updateRead rd fun x =>
    { x with lastSample := a.startPosition n, samplePace := readPeriod spec.minPacePeriod,
             maxElapsedTs := readPeriod spec.maxElapsedTime }
  onlyIf spec.contentFilterExpr.isSome (ensure (env.ok (.allocate .read n)))
  ensure (env.ok (.getTime .read 0))
  modify fun a => a.updateRead rd fun x =>
    { x with contentFilterExpr := spec.contentFilterExpr, samplesMax := spec.maxSamples,
             startTs := env.clock 0 }
  let reader ← deref rid r
  onReader reader (Reader.newRequest env rd spec.contentFilterExpr)
  ensure (env.ok (.postEvent .read n))

/-- The body of `NDDSA_Agent_readEA`, up to its exit. -/
def startReadEA (env : Env) (key : ClientSessionKey) (n : ℕ) (spec : ReadSpecification) :
    AgentM Unit := do
  let a ← read
  let rid := (a.attached n).resource
  let found ← lookupResource env .read rid
  let r ← require found
  ensure (!r.nativeDeleted)
  onlyIf (a.attached n).readReq.isSome (cancelReadEA env n rid)
  registerReadEA env key n rid r spec

/-- `NDDSA_Agent_readEA`. -/
def readEA (env : Env) (key : ClientSessionKey) (n : ℕ) (spec : ReadSpecification) :
    AgentM Unit := do
  onFailure (startReadEA env key n spec) (modify fun a => a.discardRead n)
  let a ← read
  ensure (env.ok (.releaseResource .read (a.attached n).resource))

/-- The session `key`, if it is in the table and active, and its attached
resource with the identifier `id`. -/
def findAttached (key : ClientSessionKey) (id : ℕ) : AgentM (Option ℕ) := do
  let a ← read
  let s ← require (a.sessions.lookup key)
  ensure s.active
  pure (a.findAttachedResource s id)

/-- The attached data reader of an active session. -/
def findAttachedReader (key : ClientSessionKey) (id : ℕ) : AgentM ℕ := do
  let found ← findAttached key id
  let n ← require found
  let a ← read
  ensure ((a.attached n).kind = .dataReader)
  pure n

theorem keeps_findAttached {α : Type} {I : Agent → Prop} {key : ClientSessionKey} {id : ℕ}
    {f : Option ℕ → AgentM α} {a : Agent} (ha : I a)
    (h : ∀ s, a.sessions.lookup key = some s → s.active = true →
      I (f (a.findAttachedResource s id) a).2) : I ((findAttached key id >>= f) a).2 := by
  unfold findAttached
  cases hs : a.sessions.lookup key with
  | none => simpa [bind_apply, hs] using ha
  | some s =>
      cases hactive : s.active with
      | false => simpa [bind_apply, hs, hactive, ensure] using ha
      | true => simpa [bind_apply, hs, hactive, ensure] using h s hs hactive

theorem keeps_findAttachedReader {α : Type} {I : Agent → Prop} {key : ClientSessionKey} {id : ℕ}
    {f : ℕ → AgentM α} {a : Agent} (ha : I a)
    (h : ∀ s n, a.sessions.lookup key = some s → s.active = true →
      a.findAttachedResource s id = some n → (a.attached n).kind = .dataReader → I (f n a).2) :
    I ((findAttachedReader key id >>= f) a).2 := by
  have hassoc : (findAttachedReader key id >>= f) a = (findAttached key id >>= fun found => do
      let n ← require found
      let a ← read
      ensure ((a.attached n).kind = .dataReader)
      f n) a := by
    unfold findAttachedReader
    simp only [bind_apply]
    rcases findAttached key id a with ⟨_ | _ | n, b⟩
    · rfl
    · rfl
    · cases hk : decide ((b.attached n).kind = .dataReader) <;> simp [hk, ensure]
  rw [hassoc]
  refine keeps_findAttached ha fun s hs hactive => ?_
  refine keeps_require ha fun n hn => ?_
  rw [read_bind_apply]
  refine keeps_ensure ha fun hk => ?_
  exact h s n hs hactive hn (by simpa using hk)

/-- `NDDSA_Agent_read`. -/
def readData (env : Env) (key : ClientSessionKey) (id : ℕ) (spec : ReadSpecification) :
    AgentM Unit := do
  let n ← findAttachedReader key id
  readEA env key n spec
  if env.ok (.onReadCreated key id) then
    modify fun a => a.notify (.readCreated key id)
  else do
    ignore (cancelReadI env n)
    fail

/-- `NDDSA_Agent_cancel_read`. -/
def cancelRead (env : Env) (key : ClientSessionKey) (id : ℕ) : AgentM Unit := do
  let n ← findAttachedReader key id
  cancelReadI env n
  modify fun a => a.notify (.readComplete key id)

/-- `NDDSA_Agent_read_from_reader_ddsEA`: the samples of the cache that match
the query condition of the request, or `none` when there is no data. -/
def readFromReaderDdsEA (env : Env) (n : ℕ) : AgentM (Option (List Sample)) := do
  let a ← read
  let rid := (a.attached n).resource
  let found ← lookupResource env .readDds rid
  let r ← require found
  ensure (!r.nativeDeleted)
  let reader ← deref rid r
  let rd ← require (a.attached n).readReq
  let req ← require ((a.readerAt reader).findRequestByRead rd)
  ensure (env.ok (.dds .readAll rd))
  let samples := match req.queryCondition with
    | some f => (a.readerAt reader).cache.filter (a.filterMatches f)
    | none => (a.readerAt reader).cache
  ensure (env.ok (.releaseResource .readDds rid))
  pure (if samples.isEmpty then none else some samples)

/-- `NDDSA_Agent_return_loan_to_reader_ddsEA`. -/
def returnLoanToReaderDdsEA (env : Env) (n : ℕ) (updated : Bool) : AgentM Unit := do
  let a ← read
  let rid := (a.attached n).resource
  let found ← lookupResource env .returnLoanDds rid
  let r ← require found
  ensure (!r.nativeDeleted)
  let reader ← deref rid r
  let rd ← require (a.attached n).readReq
  let _ ← require ((a.readerAt reader).findRequestByRead rd)
  ensure (env.ok (.dds .returnLoanAll rd))
  onlyIf updated (onReader reader (Reader.requestsUpdated env fun q => (a.readAt q).lastSample))
  ensure (env.ok (.releaseResource .returnLoanDds rid))

/-- How the loop over the samples read from DDS ends: without an error, with a
sample to be offered again after a delay, and after some sample was accepted. -/
structure LoopExit where
  success : Bool
  retry : Option ℕ
  updated : Bool

/-- The loop of `NDDSA_Agent_read_from_readerEA`. Its condition on the bounds of
the read holds throughout, since they are not evaluated again before its end. -/
def processSamplesEA (env : Env) (key : ClientSessionKey) (n now : ℕ) :
    List Sample → Bool → AgentM LoopExit
  | [], updated => pure ⟨true, none, updated⟩
  | smp :: samples, updated =>
      if smp.validData then do
        let res ← attempt (processSampleEA env key n smp now)
        match res with
        | none => pure ⟨false, none, updated⟩
        | some .old => processSamplesEA env key n now samples updated
        | some (.retry delay) => pure ⟨true, some delay, updated⟩
        | some .delivered => processSamplesEA env key n now samples true
      else processSamplesEA env key n now samples updated

/-- The posting of the data event of the read `rd` in `NDDSA_Agent_read_from_readerEA`, when
a sample is to be offered again after a delay. -/
def postRetry (env : Env) (rd : ℕ) (retry : Option ℕ) : AgentM Unit :=
  match retry with
  | none => pure ()
  | some delay => do
      ensure (env.ok (.postEvent .readFromReader rd))
      modify fun a => { a with retries := a.retries ++ [(rd, delay)] }

theorem within_postRetry {R : Agent → Agent → Prop} [IsPreorder Agent R]
    (h : ∀ a posted, R a { a with retries := posted }) (env : Env) (rd : ℕ) (retry : Option ℕ) :
    Within R (postRetry env rd retry) := by
  cases retry with
  | none => exact .pure _
  | some delay => exact .bind (.ensure _) fun _ => .modify fun a => h a _

/-- The exit of `NDDSA_Agent_read_from_readerEA`, given how it got there:
whether it succeeded so far, the loan it holds and how its loop ended, and
whether the read is bounded and complete. -/
def leaveReaderEA (env : Env) (n rd : ℕ) (loan : Bool) (exit : LoopExit) (done : Bool) :
    AgentM Unit := do
  modify fun a => a.updateRead rd fun x =>
    if exit.retry.isNone then { x with dataAvailable := false } else { x with delayed := true }
  let posted ← attempt (postRetry env rd exit.retry)
  let returned ← attempt (onlyIf loan (returnLoanToReaderDdsEA env n exit.updated))
  onlyIf done (modify fun a => a.updateRead rd fun x => { x with complete := true })
  ensure (exit.success && posted.isSome && returned.isSome)

/-- `NDDSA_Agent_read_from_readerEA`. -/
def readFromReaderEA (env : Env) (key : ClientSessionKey) (n : ℕ) : AgentM Unit := do
  let a ← read
  let rd ← require (a.attached n).readReq
  let now := env.clock 0
  let bounds := (a.readAt rd).isComplete now
  if !env.ok (.getTime .readFromReader 0) then
    leaveReaderEA env n rd false ⟨false, none, false⟩ false
  else if bounds.1 && bounds.2 then
    leaveReaderEA env n rd false ⟨true, none, false⟩ true
  else do
    let res ← attempt (readFromReaderDdsEA env n)
    match res with
    | none => leaveReaderEA env n rd false ⟨false, none, false⟩ false
    | some samples => do
        let exit ← processSamplesEA env key n now (samples.getD []) false
        let a ← read
        if bounds.1 && exit.success && exit.retry.isNone then
          if env.ok (.getTime .readFromReader 1) then
            leaveReaderEA env n rd samples.isSome exit
              ((a.readAt rd).isComplete (env.clock 1)).2
          else
            leaveReaderEA env n rd samples.isSome ⟨false, none, exit.updated⟩ false
        else
          leaveReaderEA env n rd samples.isSome exit false

/-- `NDDSA_Agent_on_data_on_reader`, for the event of the read `rd` when it was
not cancelled. -/
def onDataOnReader (env : Env) (rd : ℕ) : AgentM Unit := do
  let a ← read
  let key := (a.readAt rd).sessionKey
  ensure (env.ok (.lookupSession .onData key))
  let n ← findAttachedReader key (a.readAt rd).readerId
  let req ← require (a.attached n).readReq
  if (a.readAt req).complete then
    modify fun a => { a with condCleanupReads := true }
  else do
    onlyIf (!(a.readAt rd).delayed)
      (modify fun a => a.updateRead req fun x => { x with dataAvailable := true })
    modify fun a => a.updateRead rd fun x => { x with delayed := false }
    readFromReaderEA env key n
    let a ← read
    onlyIf (a.readAt req).complete (modify fun a => { a with condCleanupReads := true })

/-- The end of `NDDSA_Agent_return_loan`, from its call of `NDDSA_Read_is_complete`. -/
def closeReturn (env : Env) (key : ClientSessionKey) (n rd : ℕ) (rid : ResourceId) :
    AgentM Unit := do
  let a ← read
  let bounds := (a.readAt rd).isComplete (env.clock 0)
  if bounds.1 && bounds.2 then do
    modify fun a => a.updateRead rd fun r => { r with complete := true }
    if !(a.readAt rd).hasPendingSamples then
      cancelReadEA env n rid
      ensure (env.ok (.releaseResource .returnLoan rid))
      modify fun a => a.notify (.readComplete key (a.attached n).id)
    else
      ensure (env.ok (.releaseResource .returnLoan rid))
  else
    ensure (env.ok (.releaseResource .returnLoan rid))

/-- `NDDSA_Agent_return_loan` of the record `d`, called by the interface `src`. -/
def returnLoan (env : Env) (src : ℕ) (key : ClientSessionKey) (d : ℕ) : AgentM Unit := do
  let a ← read
  let x := a.poolSamples.content d
  ensure (x.sessionKey = key)
  let s ← require (a.sessions.lookup key)
  ensure (s.intf = src)
  let n ← require (a.findAttachedResource s x.readerId)
  ensure ((a.attached n).kind = .dataReader)
  let rd ← require (a.attached n).readReq
  ensure ((a.readAt rd).samples.contains d)
  modify fun a => (a.updateRead rd fun r => { r with samples := r.samples.erase d }).recycle key d
  modify fun a => a.updateAttached n fun y =>
    { y with lastSampleReturned := max y.lastSampleReturned x.ddsSn }
  ensure (env.ok (.getTime .returnLoan 0))
  let rid := (a.attached n).resource
  let found ← lookupResource env .returnLoan rid
  let r ← require found
  ensure (!r.nativeDeleted)
  modify fun a => a.updateRead rd fun r => { r with samplesRcvd := r.samplesRcvd + 1 }
  closeReturn env key n rd rid

end AgentM

/-- The record of the attached resource `n` is found, and its entity is there. -/
def Agent.locates (env : Env) (a : Agent) (c : Caller) (n : ℕ) : Bool :=
  env.ok (.lookupResource c (a.attached n).resource) &&
    match a.resources.lookup (a.attached n).resource with
    | none => false
    | some r => !r.nativeDeleted

theorem Agent.exists_of_locates {env : Env} {a : Agent} {c : Caller} {n : ℕ}
    (h : a.locates env c n = true) : env.ok (.lookupResource c (a.attached n).resource) = true ∧
      ∃ r, a.resources.lookup (a.attached n).resource = some r ∧ r.nativeDeleted = false := by
  obtain ⟨hok, hr⟩ := Bool.and_eq_true_iff.1 h
  refine ⟨hok, ?_⟩
  cases hlookup : a.resources.lookup (a.attached n).resource with
  | none =>
      rw [hlookup] at hr
      cases hr
  | some r =>
      rw [hlookup] at hr
      exact ⟨r, rfl, by simpa using hr⟩

/-- The interface `src` can return the record `d`: the read `rd` of the attached data reader
`n` holds it. -/
structure Lent (a : Agent) (src : ℕ) (key : ClientSessionKey) (d n rd : ℕ) : Prop where
  sessionKey : (a.poolSamples.content d).sessionKey = key
  session : ∃ s, a.sessions.lookup key = some s ∧ s.intf = src ∧
    a.findAttachedResource s (a.poolSamples.content d).readerId = some n
  kind : (a.attached n).kind = .dataReader
  readReq : (a.attached n).readReq = some rd
  held : d ∈ (a.readAt rd).samples

/-- The record `d` is out of the list of its read and in the pool of its session. -/
def Agent.takeBack (a : Agent) (key : ClientSessionKey) (n rd d : ℕ) : Agent :=
  ((a.updateRead rd fun r => { r with samples := r.samples.erase d }).recycle key d).updateAttached
    n fun y =>
      { y with lastSampleReturned := max y.lastSampleReturned (a.poolSamples.content d).ddsSn }

/-- The state in which `returnLoan` evaluates the bounds of the read: the record `d` is
taken back and counted. -/
def Agent.countReturn (a : Agent) (key : ClientSessionKey) (n rd d : ℕ) : Agent :=
  (a.takeBack key n rd d).updateRead rd fun r => { r with samplesRcvd := r.samplesRcvd + 1 }

/-- The return of a loan goes on to the bounds of the read: the time is read, and the record
of the attached resource is found with its entity. -/
def Agent.countsReturn (env : Env) (a : Agent) (n : ℕ) : Bool :=
  env.ok (.getTime .returnLoan 0) && a.locates env .returnLoan n

namespace AgentM

open Prog

theorem returnLoan_refused {env : Env} {src : ℕ} {key : ClientSessionKey} {d : ℕ} {a : Agent}
    (h : ∀ n rd, ¬ Lent a src key d n rd) : returnLoan env src key d a = (none, a) := by
  let K : Option Unit → Agent → Prop := fun res b => (res, b) = (none, a)
  have hrefused : K none a := rfl
  have hk : K (returnLoan env src key d a).1 (returnLoan env src key d a).2 := by
    unfold returnLoan
    rw [read_bind_apply]
    refine exits_ensure hrefused fun hkey => exits_require hrefused fun s hs => ?_
    refine exits_ensure hrefused fun hsrc => exits_require hrefused fun n hn => ?_
    refine exits_ensure hrefused fun hkind => exits_require hrefused fun rd hrd => ?_
    refine exits_ensure hrefused fun hmem => ?_
    exact absurd ⟨by simpa using hkey, ⟨s, hs, by simpa using hsrc, hn⟩, by simpa using hkind,
      hrd, by simpa using hmem⟩ (h n rd)
  exact hk

theorem returnLoan_lent {env : Env} {src : ℕ} {key : ClientSessionKey} {d n rd : ℕ} {a : Agent}
    (h : Lent a src key d n rd) : returnLoan env src key d a =
      if a.countsReturn env n then
        closeReturn env key n rd (a.attached n).resource (a.countReturn key n rd d)
      else (none, a.takeBack key n rd d) := by
  obtain ⟨s, hs, hsrc, hn⟩ := h.session
  have hmem : (a.readAt rd).samples.contains d = true := by
    rw [List.contains_iff_mem]
    exact h.held
  unfold returnLoan
  rw [read_bind_apply]
  simp only [h.sessionKey, decide_true, ensure_true_bind_apply, bind_apply (require _),
    require_apply, hs, hsrc, hn, h.kind, h.readReq, hmem, modify_bind_apply]
  unfold Agent.countsReturn Agent.locates
  cases env.ok (.getTime .returnLoan 0) with
  | false => rfl
  | true =>
  rw [ensure_true_bind_apply, bind_apply, lookupResource]
  cases env.ok (.lookupResource .returnLoan (a.attached n).resource) with
  | false => rfl
  | true =>
  rw [ensure_true_bind_apply, read_bind_apply, pure_apply]
  change (Prog.require (a.resources.lookup (a.attached n).resource) >>= _) _ = _
  cases hr : a.resources.lookup (a.attached n).resource with
  | none => rfl
  | some r =>
      cases hdel : r.nativeDeleted with
      | false => simp [bind_apply, ensure, hdel, Agent.countReturn, Agent.takeBack]
      | true => simp [bind_apply, ensure, hdel, Agent.takeBack]

/-- What the return of a loan does: nothing when it is refused, and otherwise the record is
taken back, whether or not it is counted. -/
theorem returnLoan_cases (env : Env) (src : ℕ) (key : ClientSessionKey) (d : ℕ) (a : Agent) :
    ((∀ n rd, ¬ Lent a src key d n rd) ∧ returnLoan env src key d a = (none, a)) ∨
    ∃ n rd, Lent a src key d n rd ∧
      ((a.countsReturn env n = false ∧
          returnLoan env src key d a = (none, a.takeBack key n rd d)) ∨
        (a.countsReturn env n = true ∧ returnLoan env src key d a =
          closeReturn env key n rd (a.attached n).resource (a.countReturn key n rd d))) := by
  by_cases hlent : ∀ n rd, ¬ Lent a src key d n rd
  · exact .inl ⟨hlent, returnLoan_refused hlent⟩
  · push Not at hlent
    obtain ⟨n, rd, h⟩ := hlent
    refine .inr ⟨n, rd, h, ?_⟩
    rw [returnLoan_lent h]
    cases hcounts : a.countsReturn env n with
    | false => exact .inl ⟨rfl, rfl⟩
    | true => exact .inr ⟨rfl, rfl⟩

/-- The calls of `NDDSA_Agent_return_loan` that the interface `src` makes in a callback. -/
def returnLoans (env : Env) (src : ℕ) (key : ClientSessionKey) (c : LoanCallback) :
    AgentM Unit :=
  forEach (env.loansReturned c) fun d => ignore (returnLoan (env.forLoan d) src key d)

/-- The answers to the calls are ignored. -/
theorem returnLoans_eq (env : Env) (src : ℕ) (key : ClientSessionKey) (c : LoanCallback)
    (a : Agent) : returnLoans env src key c a = (some ⟨⟩, (returnLoans env src key c a).2) := by
  obtain ⟨b, hb, -⟩ := forEach_returns (I := fun _ _ => True)
    (f := fun d => ignore (returnLoan (env.forLoan d) src key d))
    (fun _ _ _ _ => ⟨_, rfl, trivial⟩) (env.loansReturned c) (s := a) trivial
  exact eq_of_fst_eq_some (congrArg Prod.fst hb)

/-- The callback `c` begins in `a`, and the interface returns the record `d` in `t`. -/
def LoanTurn (env : Env) (src : ℕ) (key : ClientSessionKey) (c : LoanCallback) (a : Agent) (d : ℕ)
    (t : Agent) : Prop :=
  Turn (env.loansReturned c) (fun d => ignore (returnLoan (env.forLoan d) src key d)) a d t

theorem returnLoans_keeps {I : Agent → Prop} {env : Env} {src : ℕ} {key : ClientSessionKey}
    {c : LoanCallback} {a : Agent} (ha : I a)
    (h : ∀ d t, LoanTurn env src key c a d t → I t →
      I (returnLoan (env.forLoan d) src key d t).2) : I (returnLoans env src key c a).2 :=
  forEach_keeps_turns ha h

theorem within_returnLoans {R : Agent → Agent → Prop} [IsPreorder Agent R] {env : Env} {src : ℕ}
    {key : ClientSessionKey} {c : LoanCallback}
    (h : ∀ d ∈ env.loansReturned c, Within R (returnLoan (env.forLoan d) src key d)) :
    Within R (returnLoans env src key c) :=
  .forEach fun d hd => .ignore (h d hd)

end AgentM

end NanoAgent
