import NanoAgent.DdsAgent.LoanReturns
import NanoAgent.DdsAgent.ReadCreation

/-!
# The lifecycle of reads along runs

The operations that end reads keep the invariant `ReadInv` when the calls of ending a
read are answered. Starting a read keeps it when the read that it replaces can be
ended and nothing fails once the new read has been taken (`Env.StartsRead`). Deleting
an entity keeps it when no other read is on a record that goes with it. The run
condition `RegistersReads` says this of each step, and `readsRegistered_of_reached`
draws the conclusion.
-/

namespace NanoAgent

open Prog

namespace AgentM

section Ending

variable {env : Env} (henv : env.EndsReads)
include henv

theorem cancelReadI_readInv (n : ℕ) : Preserves ReadInv (cancelReadI env n) := by
  intro a ha
  unfold cancelReadI
  rw [read_bind_apply]
  refine keeps_lookupResource ha fun _ => keeps_require ha fun r _ => keeps_ensure ha fun _ => ?_
  exact cancelReadEA_readInv henv ha

theorem cancelRead_readInv (key : ClientSessionKey) (id : ℕ) :
    Preserves ReadInv (cancelRead env key id) :=
  .bind (findAttachedReader_frame _ _) fun n => .bind (cancelReadI_readInv henv n) fun _ =>
    .modify fun _ ha => ReadInv.of_same ha rfl rfl rfl rfl rfl

theorem endReadI_readInv (key : ClientSessionKey) (n id : ℕ) :
    Preserves ReadInv (endReadI env key n id) :=
  .read fun _ => .onlyIf fun _ => .bind (cancelReadI_readInv henv n) fun _ =>
    .modify fun _ ha => ReadInv.of_same ha rfl rfl rfl rfl rfl

theorem endReadEA_readInv (key : ClientSessionKey) (n : ℕ) :
    Preserves ReadInv (endReadEA env key n) := by
  intro a ha
  unfold endReadEA
  rw [read_bind_apply]
  refine keeps_onlyIf ha fun _ => keeps_lookupResource ha fun _ => ?_
  cases a.resources.lookup (a.attached n).resource with
  | none => exact ha
  | some r =>
      dsimp only
      split
      · exact ha
      · have hb : ReadInv (cancelReadEA env n (a.attached n).resource a).2 :=
          cancelReadEA_readInv henv ha
        refine keeps_bind (fun _ => hb) fun _ _ => keeps_ensure hb fun _ => ?_
        exact ReadInv.of_same hb rfl rfl rfl rfl rfl

theorem closeReturn_readInv (key : ClientSessionKey) {n rd : ℕ} {rid : ResourceId} {a : Agent}
    (hrid : (a.attached n).resource = rid) (ha : ReadInv a) :
    ReadInv (closeReturn env key n rd rid a).2 := by
  subst hrid
  unfold closeReturn
  rw [read_bind_apply]
  split
  · rw [modify_bind_apply]
    have hmark : RegFrame a (a.updateRead rd fun r => { r with complete := true }) :=
      (RegFrame.rfl' a).updateRead _ _
    have hb := hmark.readInv ha
    have hcancel : ReadInv (cancelReadEA env n (a.attached n).resource
        (a.updateRead rd fun r => { r with complete := true })).2 := cancelReadEA_readInv henv hb
    split
    · refine keeps_bind (fun _ => hcancel) fun _ _ => keeps_ensure hcancel fun _ => ?_
      exact ReadInv.of_same hcancel rfl rfl rfl rfl rfl
    · exact hb
  · exact ha

theorem returnLoan_readInv (src : ℕ) (key : ClientSessionKey) (d : ℕ) :
    Preserves ReadInv (returnLoan env src key d) := by
  intro a ha
  -- the record goes back to the session and the positions move: the registration is untouched
  have hback : ∀ n rd, RegFrame a (a.takeBack key n rd d) := by
    intro n rd
    apply RegFrame.updateAttached
    · exact .of_same rfl rfl rfl rfl rfl
    · intro x
      exact ⟨rfl, rfl, rfl⟩
  rcases returnLoan_cases env src key d a with ⟨-, h⟩ | ⟨n, rd, -, ⟨-, h⟩ | ⟨-, h⟩⟩
  · rw [h]
    exact ha
  · rw [h]
    exact (hback n rd).readInv ha
  · rw [h]
    have hcount : RegFrame a (a.countReturn key n rd d) := (hback n rd).updateRead _ _
    exact closeReturn_readInv henv key (hcount.resource n) (hcount.readInv ha)

end Ending

end AgentM

/-- The calls that are made once a read has been taken are answered. -/
structure Env.StartsRead (env : Env) (n rd : ℕ) (spec : ReadSpecification) : Prop where
  semaphore : env.ok (.newSemaphore .read n) = true
  filter : spec.contentFilterExpr.isSome = true →
    env.ok (.allocate .read n) = true ∧ env.ok (.dds .createQueryCondition rd) = true
  time : env.ok (.getTime .read 0) = true
  reader : env.ok (.dds .asDataReader rd) = true
  request : env.ok (.getBuffer .reader rd) = true
  listener : env.ok (.dds .setListener rd) = true
  event : env.ok (.postEvent .read n) = true

/-- Registering a read that is not registered yet. -/
theorem Reader.newRequest_registers {env : Env} {n rd : ℕ} {spec : ReadSpecification} {r : Reader}
    (henv : env.StartsRead n rd spec) (hnew : rd ∉ r.registered) :
    ∃ r', newRequest env rd spec.contentFilterExpr r = (some (), r') ∧
      r'.registered = r.registered ++ [rd] := by
  have hfind : r.findRequestByRead rd = none := by
    refine List.find?_eq_none.2 fun q hq => ?_
    have hne : q.read ≠ rd := by
      rintro rfl
      exact hnew (List.mem_map.2 ⟨q, hq, rfl⟩)
    simpa using hne
  have hcond : (spec.contentFilterExpr.isSome && !env.ok (.dds .createQueryCondition rd)) =
    false := by
    cases hf : spec.contentFilterExpr.isSome with
    | false => rfl
    | true => simp [(henv.filter hf).2]
  cases hempty : r.requests.isEmpty with
  | true =>
      refine ⟨{ r with poolRequests := r.poolRequests.take (),
                       requests := r.requests ++ [⟨r.poolRequests.next, rd,
                         spec.contentFilterExpr⟩],
                       listening := true }, ?_, by simp [registered]⟩
      simp [newRequest, henv.reader, henv.request, henv.listener, bind_apply, hfind, ensure, hcond,
        hempty]
  | false =>
      refine ⟨{ r with poolRequests := r.poolRequests.take (),
                       requests := r.requests ++ [⟨r.poolRequests.next, rd,
                         spec.contentFilterExpr⟩] },
        ?_, by simp [registered]⟩
      simp [newRequest, henv.reader, henv.request, bind_apply, hfind, ensure, hcond, hempty]

/-- Taking a read for an attached resource without one, together with registering it. -/
theorem ReadInv.startRead {a b : Agent} (ha : ReadInv a) {n reader : ℕ} {r : Resource}
    (hkind : (a.attached n).kind = .dataReader) (hrec : ReaderRecord a n reader r)
    (hres : b.resources = a.resources) (hreaders : b.poolReaders.next = a.poolReaders.next)
    (hkinds : ∀ m, (b.attached m).kind = (a.attached m).kind)
    (hname : ∀ m, (b.attached m).resource = (a.attached m).resource)
    (hself : (b.attached n).readReq = some a.poolReads.next)
    (hother : ∀ m, m ≠ n → (b.attached m).readReq = (a.attached m).readReq)
    (hnext : b.poolReads.next = a.poolReads.next + 1)
    (hret : b.poolReads.returned = a.poolReads.returned)
    (hreg : (b.readerAt reader).registered = (a.readerAt reader).registered ++ [a.poolReads.next])
    (hregs : ∀ m, m ≠ reader → (b.readerAt m).registered = (a.readerAt m).registered) :
    ReadInv b := by
  have hold : ∀ {rd}, a.poolReads.Live rd → b.poolReads.Live rd ∧ rd ≠ a.poolReads.next := by
    intro rd hlive
    refine ⟨⟨hnext ▸ Nat.lt_succ_of_lt hlive.1, hret ▸ hlive.2⟩, Nat.ne_of_lt hlive.1⟩
  have hnew : b.poolReads.Live a.poolReads.next := by
    refine ⟨hnext ▸ Nat.lt_succ_self _, fun hmem => ?_⟩
    rw [hret] at hmem
    exact Nat.lt_irrefl _ (ha.sound _ hmem)
  have hread : ∀ m rd, (b.attached m).readReq = some rd →
      (m = n ∧ rd = a.poolReads.next) ∨ (m ≠ n ∧ (a.attached m).readReq = some rd) := by
    intro m rd hm
    by_cases hmn : m = n
    · subst hmn
      rw [hself] at hm
      exact .inl ⟨rfl, (Option.some.inj hm).symm⟩
    · rw [hother m hmn] at hm
      exact .inr ⟨hmn, hm⟩
  have hmemb : ∀ m rd, rd ∈ (b.readerAt m).registered →
      (m = reader ∧ rd = a.poolReads.next) ∨ rd ∈ (a.readerAt m).registered := by
    intro m rd hm
    by_cases hmr : m = reader
    · subst hmr
      rw [hreg] at hm
      rcases List.mem_append.1 hm with hm | hm
      · exact .inr hm
      · exact .inl ⟨rfl, List.mem_singleton.1 hm⟩
    · rw [hregs m hmr] at hm
      exact .inr hm
  have hmema : ∀ m rd, rd ∈ (a.readerAt m).registered → rd ∈ (b.readerAt m).registered := by
    intro m rd hm
    by_cases hmr : m = reader
    · subst hmr
      rw [hreg]
      exact List.mem_append_left _ hm
    · rw [hregs m hmr]
      exact hm
  have hrecord : ∀ {m reader' r'}, ReaderRecord a m reader' r' → ReaderRecord b m reader' r' := by
    intro m reader' r' h
    refine ⟨?_, h.kind, h.id, h.alive, h.state⟩
    rw [hres, hname]
    exact h.lookup
  refine ⟨?_, ?_, ?_, ?_, ?_, ?_, ?_, ?_, ?_, ?_, ?_, hres ▸ ha.keyed⟩
  · intro m rd hm
    rw [hkinds]
    rcases hread m rd hm with ⟨rfl, -⟩ | ⟨-, hm⟩
    · exact hkind
    · exact ha.kind m rd hm
  · intro m rd hm
    rcases hread m rd hm with ⟨-, rfl⟩ | ⟨-, hm⟩
    · exact hnew
    · exact (hold (ha.live m rd hm)).1
  · intro m rd hm
    rcases hread m rd hm with ⟨rfl, rfl⟩ | ⟨-, hm⟩
    · refine ⟨r, reader, hrecord hrec, ?_⟩
      rw [hreg]
      exact List.mem_append_right _ (List.mem_singleton.2 rfl)
    · obtain ⟨r', reader', hrec', hmem⟩ := ha.reg m rd hm
      exact ⟨r', reader', hrecord hrec', hmema _ _ hmem⟩
  · intro m m' rd hm hm'
    rcases hread m rd hm with ⟨rfl, rfl⟩ | ⟨-, hm⟩
    · rcases hread m' _ hm' with ⟨rfl, -⟩ | ⟨-, hm'⟩
      · rfl
      · exact absurd rfl (hold (ha.live m' _ hm')).2
    · rcases hread m' _ hm' with ⟨-, rfl⟩ | ⟨-, hm'⟩
      · exact absurd rfl (hold (ha.live m _ hm)).2
      · exact ha.excl m m' rd hm hm'
  · intro m
    by_cases hmr : m = reader
    · subst hmr
      rw [hreg, List.nodup_append]
      refine ⟨ha.nodup m, List.nodup_singleton _, fun x hx y hy => ?_⟩
      rw [List.mem_singleton.1 hy]
      exact (hold (ha.own m x hx)).2
    · rw [hregs m hmr]
      exact ha.nodup m
  · intro m rd hm
    rcases hmemb m rd hm with ⟨-, rfl⟩ | hm
    · exact hnew
    · exact (hold (ha.own m rd hm)).1
  · intro m m' rd hm hm'
    rcases hmemb m rd hm with ⟨rfl, rfl⟩ | hm
    · rcases hmemb m' _ hm' with ⟨rfl, -⟩ | hm'
      · rfl
      · exact absurd rfl (hold (ha.own m' _ hm')).2
    · rcases hmemb m' _ hm' with ⟨-, rfl⟩ | hm'
      · exact absurd rfl (hold (ha.own m _ hm)).2
      · exact ha.uniq m m' rd hm hm'
  · intro rd hrd
    rw [hret] at hrd
    rw [hnext]
    exact Nat.lt_succ_of_lt (ha.sound rd hrd)
  · intro rid r' hr
    exact ha.ids rid r' (hres ▸ hr)
  · intro rid r' reader' hr
    rw [hreaders]
    exact ha.states rid r' reader' (hres ▸ hr)
  · intro rid rid' r' r'' reader' hr hr'
    exact ha.distinct rid rid' r' r'' reader' (hres ▸ hr) (hres ▸ hr')

/-- A read can be started on the attached resource `n`: the read that it has can be
ended, and once the new read has been taken nothing fails and the record is that of a
data reader. -/
structure CanStart (a : Agent) (env : Env) (n : ℕ) (spec : ReadSpecification) : Prop where
  replace : ∀ rd, (a.attached n).readReq = some rd →
    env.ok (.lookupResource .read (a.attached n).resource) = true ∧
      (a.readAt rd).hasPendingSamples = false ∧ env.ok (.dds .asDataReader rd) = true
  start : env.ok (.lookupResource .read (a.attached n).resource) = true →
    env.ok (.getBuffer .read n) = true → ∀ r,
    a.resources.lookup (a.attached n).resource = some r → r.nativeDeleted = false →
    env.StartsRead n a.poolReads.next spec ∧ ∃ reader, ReaderRecord a n reader r

namespace AgentM

/-- The exits of starting a read: after a failure, the attached resource has no read. -/
def StartExit (n : ℕ) (res : Option Unit) (b : Agent) : Prop :=
  ReadInv b ∧ (res = none → (b.attached n).readReq = none)

/-- Taking a read and registering it, from a state in which `n` has no read. -/
theorem registerReadEA_exits {env : Env} {key : ClientSessionKey} {n : ℕ} {r : Resource}
    {spec : ReadSpecification} {a : Agent} (ha : ReadInv a) (hquiet : (a.attached n).readReq = none)
    (hkind : (a.attached n).kind = .dataReader)
    (hstart : env.ok (.getBuffer .read n) = true →
      env.StartsRead n a.poolReads.next spec ∧ ∃ reader, ReaderRecord a n reader r) :
    StartExit n (registerReadEA env key n (a.attached n).resource r spec a).1
      (registerReadEA env key n (a.attached n).resource r spec a).2 := by
  unfold registerReadEA
  rw [read_bind_apply]
  refine exits_ensure (K := StartExit n) ⟨ha, fun _ => hquiet⟩ fun hbuffer => ?_
  obtain ⟨henv, reader, hrec⟩ := hstart hbuffer
  have hfilter : (!spec.contentFilterExpr.isSome || env.ok (.allocate .read n)) = true := by
    cases hf : spec.contentFilterExpr.isSome with
    | false => rfl
    | true => simpa using (henv.filter hf).1
  simp only [onlyIf_ensure, henv.semaphore, henv.time, henv.event, hfilter, modify_bind_apply,
    ensure_true_bind_apply]
  -- the read is taken and set up, and its reader is untouched so far
  have hframe : RegFrame (a.takeRead key n)
    (((a.takeRead key n).updateRead a.poolReads.next fun x =>
      { x with lastSample := (a.takeRead key n).startPosition n,
               samplePace := readPeriod spec.minPacePeriod,
               maxElapsedTs := readPeriod spec.maxElapsedTime }).updateRead
                 a.poolReads.next fun x =>
      { x with contentFilterExpr := spec.contentFilterExpr, samplesMax := spec.maxSamples,
               startTs := env.clock 0 }) :=
    .updateRead (.updateRead (.rfl' _) _ _) _ _
  generalize ((a.takeRead key n).updateRead a.poolReads.next _).updateRead a.poolReads.next _ = b
    at hframe
  have hderef : deref (a.attached n).resource r b = (some reader, b) := by
    simp [deref, access, hrec.alive, hrec.state]
  have hnew : a.poolReads.next ∉ (b.readerAt reader).registered := by
    rw [hframe.registered_eq]
    exact fun hmem => Nat.lt_irrefl _ (ha.own reader _ hmem).1
  obtain ⟨r', hres, hreg⟩ := Reader.newRequest_registers henv hnew
  have hon : onReader reader (Reader.newRequest env a.poolReads.next spec.contentFilterExpr) b =
      (some (), b.updateReader reader fun _ => r') := by
    simp [onReader, hres]
  rw [bind_apply, hderef]
  dsimp only
  rw [bind_apply, hon]
  have htaken : ∀ m, (a.takeRead key n).attached m =
      if m = n then { a.attached m with readReq := some a.poolReads.next } else a.attached m :=
    fun m => Agent.attached_updateAttached (a := a) n m fun x =>
      { x with readReq := some a.poolReads.next }
  have hreaders : ∀ m, (b.updateReader reader fun _ => r').readerAt m =
      if m = reader then r' else b.readerAt m :=
    fun m => Agent.readerAt_updateReader (a := b) reader m fun _ => r'
  refine ⟨ReadInv.startRead ha hkind hrec hframe.resources hframe.readers ?_ ?_ ?_ ?_ hframe.next
    hframe.returned ?_ ?_, fun h => by cases h⟩
  · intro m
    refine (hframe.kind m).trans ?_
    rw [htaken]
    split <;> rfl
  · intro m
    refine (hframe.resource m).trans ?_
    rw [htaken]
    split <;> rfl
  · refine (hframe.readReq n).trans ?_
    rw [htaken, if_pos rfl]
  · intro m hm
    refine (hframe.readReq m).trans ?_
    rw [htaken, if_neg hm]
  · have hold : (b.readerAt reader).registered = (a.readerAt reader).registered :=
      hframe.registered_eq reader
    change ((b.updateReader reader fun _ => r').readerAt reader).registered = _
    rw [hreaders, if_pos rfl, hreg, hold]
  · intro m hm
    change ((b.updateReader reader fun _ => r').readerAt m).registered = _
    rw [hreaders, if_neg hm]
    exact hframe.registered_eq m

theorem startReadEA_exits {env : Env} (henv : env.EndsReads) (key : ClientSessionKey) {n : ℕ}
    {spec : ReadSpecification} {a : Agent} (ha : ReadInv a)
    (hkind : (a.attached n).kind = .dataReader) (hcan : CanStart a env n spec) :
    StartExit n (startReadEA env key n spec a).1 (startReadEA env key n spec a).2 := by
  unfold startReadEA
  rw [read_bind_apply]
  cases hrd : (a.attached n).readReq with
  | none =>
      have hidle : StartExit n none a := ⟨ha, fun _ => hrd⟩
      cases hlook : env.ok (.lookupResource .read (a.attached n).resource) with
      | false => simpa [lookupResource, hlook, bind_apply, ensure] using hidle
      | true =>
          refine exits_lookupResource (K := StartExit n) hidle fun _ => ?_
          refine exits_require hidle fun r hr => exits_ensure hidle fun hdel => ?_
          refine registerReadEA_exits ha hrd hkind fun hbuffer => ?_
          exact hcan.start hlook hbuffer r hr (by simpa using hdel)
  | some rd =>
      obtain ⟨hlook, hpend, has⟩ := hcan.replace rd hrd
      obtain ⟨r, reader, hrec, -⟩ := ha.reg n rd hrd
      rcases cancelReadEA_cases henv ha hrd with ⟨-, hno⟩ | ⟨reader', r', -, -, hyes⟩
      · rw [hno hpend] at has
        cases has
      · have hb := cancelReadEA_readInv henv (n := n) ha
        have hframe := cancelReadEA_frame env n (a.attached n).resource a
        have hquiet := readReq_of_cancelReadEA hyes
        have hnext : ((a.updateReader reader' fun _ => r').releaseRead n rd).poolReads.next =
            a.poolReads.next := rfl
        rw [hyes] at hb hframe
        generalize (a.updateReader reader' fun _ => r').releaseRead n rd = b at *
        have hrest : StartExit n (registerReadEA env key n (a.attached n).resource r spec b).1
            (registerReadEA env key n (a.attached n).resource r spec b).2 := by
          rw [← hframe.resource_eq n]
          refine registerReadEA_exits hb hquiet ?_ fun hbuffer => ?_
          · rw [hframe.kind_eq]
            exact hkind
          · obtain ⟨hstarts, reader'', hrec'⟩ := hcan.start hlook hbuffer r hrec.lookup hrec.alive
            refine ⟨hnext ▸ hstarts, reader'', ?_, hrec'.kind, hrec'.id, hrec'.alive, hrec'.state⟩
            rw [hframe.resources, hframe.resource_eq]
            exact hrec'.lookup
        simpa [lookupResource, hlook, bind_apply, hrec.lookup, hrec.alive, hyes, ensure] using hrest

theorem readEA_readInv {env : Env} (henv : env.EndsReads) (key : ClientSessionKey) {n : ℕ}
    {spec : ReadSpecification} {a : Agent} (ha : ReadInv a)
    (hkind : (a.attached n).kind = .dataReader) (hcan : CanStart a env n spec) :
    ReadInv (readEA env key n spec a).2 := by
  obtain ⟨hinv, hquiet⟩ := startReadEA_exits henv key ha hkind hcan
  have hb : ReadInv (onFailure (startReadEA env key n spec)
      (modify fun a => a.discardRead n) a).2 := by
    refine keeps_onFailure hinv fun hfail => ?_
    have hnone := hquiet hfail
    simpa [Agent.discardRead, hnone] using hinv
  refine keeps_bind (fun _ => hb) fun _ _ => ?_
  rw [read_bind_apply]
  exact hb

theorem readData_readInv {env : Env} (henv : env.EndsReads) {key : ClientSessionKey} {id : ℕ}
    {spec : ReadSpecification} {a : Agent} (ha : ReadInv a)
    (hcan : ∀ n, Addressed a key id n → (a.attached n).kind = .dataReader → CanStart a env n spec) :
    ReadInv (readData env key id spec a).2 := by
  refine keeps_findAttachedReader ha fun s n hs hactive hn hkind => ?_
  have hread := readEA_readInv henv key ha hkind (hcan n ⟨s, hs, hactive, hn⟩ hkind)
  refine keeps_bind (fun _ => hread) fun _ _ => ?_
  refine Within.ite (R := fun b c => ReadInv b → ReadInv c) (fun _ => ?_) (fun _ => ?_) _ hread
  · exact .modify fun b hb => ReadInv.of_same hb rfl rfl rfl rfl rfl
  · exact .bind (.ignore (cancelReadI_readInv henv n)) fun _ => .fail

end AgentM

/-- No read is on a record that goes with a record waiting for its deletion. -/
def Undisturbed (a : Agent) : Prop :=
  ∀ rid r, a.resources.lookup rid = some r → r.nativeDeleted = false → r.pendingDelete = true →
    ∀ m, (a.attached m).readReq.isSome = true → ¬ DeletedWith a rid (a.attached m).resource

/-- The same, where the last attached resource of the record may have a read itself. -/
def Settled (a : Agent) : Prop :=
  ∀ n r, a.resources.lookup (a.attached n).resource = some r → r.nativeDeleted = false →
    r.pendingDelete = true → ∀ m, m ≠ n → (a.attached m).readReq.isSome = true →
      ¬ DeletedWith a (a.attached n).resource (a.attached m).resource

theorem Undisturbed.mono {a b : Agent} (h : Undisturbed a) (hw : Withers a b)
    (hp : KeepsPending a b)
    (hread : ∀ m, (b.attached m).readReq.isSome = true → (a.attached m).readReq.isSome = true ∧
      (b.attached m).resource = (a.attached m).resource) : Undisturbed b := by
  intro rid r' hr' hd' hpend' m hm hgoes
  obtain ⟨r, hr, hd, hpend⟩ := hp rid r' hr' hd' hpend'
  obtain ⟨hm, heq⟩ := hread m hm
  rw [heq] at hgoes
  exact h rid r hr hd hpend m hm (hgoes.mono hw)

theorem Settled.mono {a b : Agent} (h : Settled a) (hs : Subsides a b)
    (hkeyed : b.resources.lookup .none = none) : Settled b := by
  intro n r' hr' hd' hpend' m hmn hm hgoes
  obtain ⟨hm, heq⟩ := hs.readReq m hm
  rcases hs.resource n with hnone | hsame
  · rw [hnone, hkeyed] at hr'
    cases hr'
  · rw [hsame] at hr' hgoes
    rw [heq] at hgoes
    obtain ⟨r, hr, hd, hpend⟩ := hs.pending _ r' hr' hd' hpend'
    exact h n r hr hd hpend m hmn hm (hgoes.mono hs.withers)

theorem Settled.spares {a : Agent} (h : Settled a) (n : ℕ) : AgentM.SparesReads a n false := by
  intro r hr hd hwanted _ m hmn hm
  exact h n r hr hd (by simpa using hwanted) m hmn hm

theorem Undisturbed.spares {a : Agent} (h : Undisturbed a) (n : ℕ) :
    AgentM.SparesReads a n false := by
  intro r hr hd hwanted _ m _ hm
  exact h _ r hr hd (by simpa using hwanted) m hm

namespace AgentM

section Passes

variable {env : Env}

/-- Reads are registered, and deletions that wait do not disturb them. -/
def Tidy (a : Agent) : Prop := ReadInv a ∧ Undisturbed a

theorem Tidy.of_regFrame {a b : Agent} (h : Tidy a) (hr : RegFrame a b)
    (he : b.entities = a.entities) : Tidy b := by
  refine ⟨hr.readInv h.1, h.2.mono (.of_same he hr.resources) (.of_same hr.resources) ?_⟩
  intro m hm
  rw [hr.readReq] at hm
  exact ⟨hm, hr.resource m⟩

theorem Tidy.subsides {a b : Agent} (h : Tidy a) (hb : ReadInv b) (hs : Subsides a b) : Tidy b :=
  ⟨hb, h.2.mono hs.withers hs.pending hs.readReq⟩

theorem Tidy.detach {a : Agent} (h : Tidy a) (henv : env.EndsReads) (key : ClientSessionKey)
    {n : ℕ} {del copyOut : Bool} (hspare : SparesReads a n del) (hdead : DeletesDead a n del) :
    Tidy (detachResourceEA env key n del copyOut a).2 := by
  have hdetach : ReadInv (detachResourceEA env key n del copyOut a).2 ∧ _ :=
    detachResourceEA_readInv henv key h.1 hspare
  exact h.subsides hdetach.1 (hdetach.2 hdead)

theorem readReq_of_take {a : Agent} {x : AttachedResource} (hx : x.readReq = none) (m : ℕ)
    (hm : ((a.poolResources.take x).content m).readReq.isSome = true) :
    (a.attached m).readReq.isSome = true ∧
      ((a.poolResources.take x).content m).resource = (a.attached m).resource := by
  by_cases hn : m = a.poolResources.next
  · subst hn
    rw [BufferPool.content_take_self, hx] at hm
    cases hm
  · rw [BufferPool.content_take_of_ne _ _ hn] at hm ⊢
    exact ⟨hm, rfl⟩

theorem Tidy.link {a : Agent} (h : Tidy a) (key : ClientSessionKey) (id : ℕ) (rid : ResourceId)
    (r : Resource) : Tidy (a.link key id rid r) := by
  refine ⟨h.1.link key id rid r, h.2.mono ?_ ?_ fun m hm => ?_⟩
  · exact IsTrans.trans _ _ _ (Withers.updateResource a rid (f := fun r =>
      { r with attachedCount := r.attachedCount + 1 }) fun _ => .inr ⟨rfl, rfl, rfl⟩)
      (.of_same rfl rfl)
  · have hcounted : KeepsPending a (a.updateResource rid fun r =>
        { r with attachedCount := r.attachedCount + 1 }) :=
      .updateResource fun _ _ hd hp => ⟨hd, hp⟩
    exact IsTrans.trans _ _ _ hcounted (.of_same rfl)
  · exact readReq_of_take rfl m hm

theorem attachClosed_tidy (henv : env.EndsReads) : AttachClosed env Tidy where
  leak hx h := by
    refine ⟨h.1.takeAttached hx, h.2.mono (.of_same rfl rfl) (.of_same rfl) fun m hm => ?_⟩
    exact readReq_of_take hx m hm
  link key id rid r h := h.link key id rid r
  enable key id rid r h _ _ _ := by
    refine (h.link key id rid r).of_regFrame (enableResourceEA_regFrame rid _) ?_
    exact (enableResourceEA_frame env rid _).entities
  accept n u c h := by
    refine h.of_regFrame (.notify (.updateAttached (.rfl' _) n fun x => ?_) c) rfl
    exact ⟨rfl, rfl, rfl⟩
  refuse key n _ _ h _ := h.detach henv key (h.2.spares n) fun h => by cases h

/-- Where the interface accepts every resource, attaching keeps the reads registered. -/
theorem attachClosed_readInv (hok : ∀ key id, env.ok (.onResourceCreated key id) = true) :
    AttachClosed env ReadInv where
  leak hx h := h.takeAttached hx
  link key id rid r h := h.link key id rid r
  enable key id rid r h _ _ _ := (enableResourceEA_regFrame rid _).readInv (h.link key id rid r)
  accept n u c h := by
    refine RegFrame.readInv (.notify (.updateAttached (.rfl' _) n fun x => ?_) c) h
    exact ⟨rfl, rfl, rfl⟩
  refuse key n id hno _ _ := by
    rw [hok key id] at hno
    cases hno

theorem openSession_readInv (henv : env.EndsReads) (src : ℕ) {key : ClientSessionKey}
    (timeout : ℕ) (data : Option ℕ) {a : Agent} (ha : ReadInv a)
    (hs : a.sessions.lookup key = none)
    (hnew : (∀ key id, env.ok (.onResourceCreated key id) = true) ∨ Undisturbed a) :
    ReadInv (openSession env src key timeout data a).2 := by
  have hopened : ReadInv (resetOrOpenSession env src key timeout data a).2 := by
    unfold resetOrOpenSession
    rw [read_bind_apply, hs]
    have herase : ∀ {I : Agent → Prop}, (∀ b, I b → I (b.eraseSession key)) →
        Preserves I (onlyIf (env.ok (.deleteSession key))
          (modify fun a : Agent => a.eraseSession key)) :=
      fun h => .onlyIf fun _ => .modify h
    have hpopulate : ∀ {I : Agent → Prop}, AttachClosed env I →
        Preserves I (populateSession env key) :=
      fun hI => .bind (.ensure _) fun _ => .bind (.ensure _) fun _ =>
        .bind (attachAllResourcesToSessionEA_closed hI key) fun _ => .ensure _
    rcases hnew with hok | hquiet
    · have hstart : ReadInv (a.insertSession key (.initial src timeout data)) :=
        ha.of_same rfl rfl rfl rfl rfl
      exact Within.onFailure (hpopulate (attachClosed_readInv hok))
        (herase fun b hb => hb.of_same rfl rfl rfl rfl rfl) _ hstart
    · have hstart : Tidy (a.insertSession key (.initial src timeout data)) :=
        Tidy.of_regFrame ⟨ha, hquiet⟩ (.of_same rfl rfl rfl rfl rfl) rfl
      have hend := Within.onFailure (hpopulate (attachClosed_tidy henv))
        (herase fun b hb => hb.of_regFrame (.of_same rfl rfl rfl rfl rfl) rfl) _ hstart
      exact hend.1
  unfold openSession
  refine keeps_ensure ha fun _ => keeps_bind (fun _ => hopened) fun _ _ => ?_
  rw [read_bind_apply]
  exact keeps_require hopened fun s _ => keeps_ensure hopened fun _ => hopened

theorem endReadI_readsEnded (key : ClientSessionKey) (n id : ℕ) :
    Within ReadsEnded (endReadI env key n id) :=
  .read fun _ => .onlyIf fun _ => .bind
    (fun a => ⟨cancelReadI_frame env n a, cancelReadI_endsReads env n a⟩) fun _ =>
    .modify fun a => .notify a _

theorem deleteResource_readInv (henv : env.EndsReads) {key : ClientSessionKey} {id : ℕ}
    {a : Agent} (ha : ReadInv a) (hspare : ∀ n, Addressed a key id n → SparesReads a n true) :
    ReadInv (deleteResource env key id a).2 := by
  refine keeps_findAttached ha fun s hs hactive => ?_
  cases hfind : a.findAttachedResource s id with
  | none => exact ha
  | some n =>
      have hb := endReadI_readInv henv key n id a ha
      obtain ⟨hf, he⟩ : ReadsEnded a (endReadI env key n id a).2 :=
        endReadI_readsEnded key n id a
      have hspared : SparesReads (endReadI env key n id a).2 n true := by
        refine SparesReads.mono (hspare n ⟨s, hs, hactive, hfind⟩) hf fun m hm => ?_
        rcases he.readReq m with hsame | hnone
        · rw [hsame] at hm
          exact hm
        · rw [hnone] at hm
          cases hm
      refine keeps_bind (fun _ => hb) fun _ _ => ?_
      have hdetach : ReadInv (detachResourceEA env key n true true (endReadI env key n id a).2).2 :=
        (detachResourceEA_readInv henv key hb hspared).1
      refine keeps_bind (fun _ => hdetach) fun _ _ => ?_
      exact hdetach.of_same rfl rfl rfl rfl rfl

/-- The invariant of the clean-up of sessions. -/
def Closing (a : Agent) : Prop := ReadInv a ∧ Settled a

theorem Closing.of_same {a b : Agent} (h : Closing a) (hr : b.resources = a.resources)
    (he : b.entities = a.entities) (hp : b.poolResources = a.poolResources)
    (hn : b.poolReads = a.poolReads) (hq : b.poolReaders = a.poolReaders) : Closing b := by
  have hb : ReadInv b := h.1.of_same hr hp (by rw [hn]) (by rw [hn]) hq
  have hatt : ∀ m, b.attached m = a.attached m := by
    intro m
    rw [Agent.attached, hp, Agent.attached]
  refine ⟨hb, h.2.mono ⟨.of_same he hr, .of_same hr, fun m => .inr ?_, fun m hm => ?_⟩ hb.keyed⟩
  · rw [hatt]
  · rw [hatt] at hm ⊢
    exact ⟨hm, rfl⟩

theorem endReadEA_readsEnded (key : ClientSessionKey) (n : ℕ) :
    Within ReadsEnded (endReadEA env key n) := by
  refine .read fun a => .onlyIf fun _ => .bind (lookupResource_frame _ _ _) fun found => ?_
  cases found with
  | none => exact .pure _
  | some r =>
      refine .ite (fun _ => .ensure _) fun _ => .bind (cancelReadEA_readsEnded _ _ _) fun _ => ?_
      exact .bind (.ensure _) fun _ => .modify fun a => .notify a _

theorem endReadEA_closing (henv : env.EndsReads) (key : ClientSessionKey) (n : ℕ) :
    Preserves Closing (endReadEA env key n) := by
  intro a ha
  have hb := endReadEA_readInv henv key n a ha.1
  exact ⟨hb, ha.2.mono (.of_readsEnded (endReadEA_readsEnded key n a)) hb.keyed⟩

theorem detachOnCloseEA_closing (henv : env.EndsReads) (key : ClientSessionKey) (n : ℕ) :
    Preserves Closing (detachOnCloseEA env key n) := by
  refine .read fun a => .bind (fun b hb => ?_) fun _ => .modify fun b hb => ?_
  · have hdetach : ReadInv (detachResourceEA env key n false true b).2 ∧ _ :=
      detachResourceEA_readInv henv key hb.1 (hb.2.spares n)
    exact ⟨hdetach.1, hb.2.mono (hdetach.2 fun h => by cases h) hdetach.1.keyed⟩
  · exact hb.of_same rfl rfl rfl rfl rfl

theorem finalizeSessionEA_closing (henv : env.EndsReads) (key : ClientSessionKey) :
    Preserves Closing (finalizeSessionEA env key) := by
  refine .read fun a => .bind (.require _) fun s => .bind (.ensure _) fun _ => ?_
  refine .bind (.forEach fun n _ => endReadEA_closing henv key n) fun _ => ?_
  refine .bind (.forEach fun n _ => detachOnCloseEA_closing henv key n) fun _ => ?_
  refine .bind (fun b hb => ?_) fun _ => .onlyIf fun _ => .ensure _
  unfold Agent.drainSamples
  dsimp only [modify_apply]
  cases b.sessions.lookup key with
  | none => exact hb
  | some s => exact hb.of_same rfl rfl rfl rfl rfl

theorem onCleanupSessions_closing (henv : env.EndsReads) :
    Preserves Closing (onCleanupSessions env) := by
  refine .bind (.ensure _) fun _ => .bind (.ensure _) fun _ =>
    .bind (fun _ hb => hb.of_same rfl rfl rfl rfl rfl) fun _ => .read fun a => ?_
  refine .forEach fun key _ => .bind (.ensure _) fun _ => .read fun b => ?_
  cases b.sessions.lookup key with
  | none => exact .pure _
  | some s =>
      refine .onlyIf fun _ => .bind (finalizeSessionEA_closing henv key) fun _ => ?_
      refine .ite (fun _ => .bind (.ensure _) fun _ => .bind (.ensure _) fun _ => ?_) fun _ => ?_
      · refine .bind (fun _ hb => hb.of_same rfl rfl rfl rfl rfl) fun _ => .modify fun _ hb => ?_
        exact hb.of_same rfl rfl rfl rfl rfl
      · exact .bind (fun _ hb => hb.of_same rfl rfl rfl rfl rfl) fun _ => .ensure _

theorem cleanupResourceEA_tidy (henv : env.EndsReads) (key : ClientSessionKey) (n : ℕ) :
    Preserves Tidy (cleanupResourceEA env key n) := by
  intro a ha
  unfold cleanupResourceEA
  rw [read_bind_apply]
  refine keeps_lookupResource ha fun _ => keeps_require ha fun r hr => keeps_ensure ha fun _ => ?_
  refine keeps_onlyIf ha fun hc => ?_
  -- a record that nobody is attached to cannot be detached from
  have hdead : r.attachedCount ≠ 0 → r.nativeDeleted = true := by
    intro hcount
    rcases Bool.or_eq_true_iff.1 hc with h | h
    · exact h
    · exact absurd (by simpa using (Bool.and_eq_true_iff.1 h).2) hcount
  have hsame : ∀ r', a.resources.lookup (a.attached n).resource = some r' → r' = r := by
    intro r' hr'
    rw [hr] at hr'
    exact (Option.some.inj hr').symm
  have hdetach : Tidy (detachResourceEA env key n true true a).2 := by
    refine ha.detach henv key (fun r' hr' hd _ hlast => ?_) fun _ r' hr' hcount => ?_
    · rw [hsame r' hr'] at hd hlast
      rw [hdead (by rw [hlast]; exact Nat.one_ne_zero)] at hd
      cases hd
    · rw [hsame r' hr'] at hcount ⊢
      exact hdead hcount
  refine keeps_bind (fun _ => hdetach) fun _ _ => ?_
  exact hdetach.of_regFrame (.of_same rfl rfl rfl rfl rfl) rfl

theorem onCleanupResources_tidy (henv : env.EndsReads) :
    Preserves Tidy (onCleanupResources env) := by
  refine .bind (.ensure _) fun _ => .bind (fun _ hb => ?_) fun _ => ?_
  · exact hb.of_regFrame (.of_same rfl rfl rfl rfl rfl) rfl
  refine .bind (.ensure _) fun _ => .read fun a => .forEach fun key _ => ?_
  refine .bind (.ensure _) fun _ => .read fun b => ?_
  cases b.sessions.lookup key with
  | none => exact .pure _
  | some s =>
      refine .bind (.forEach fun n _ => cleanupResourceEA_tidy henv key n) fun _ => ?_
      exact attachAllResourcesToSessionEA_closed (attachClosed_tidy henv) key

end Passes

end AgentM

open AgentM

/-- The condition under which a step keeps the reads registered: a read that it ends is
ended completely or not at all, also where a loan is returned, a read that it starts can
replace the one before it and fails nowhere once it has been taken, and a deletion spares
the reads of others. -/
def RegistersReads (a : Agent) (i : Operation × Env) : Prop :=
  (∀ env src key d b, a.ReturnsLoan i env src key d b → env.EndsReads) ∧ match i.1 with
  | .openSession _ key _ _ =>
      i.2.EndsReads ∧ (a.sessions.lookup key = none →
        (∀ key id, i.2.ok (.onResourceCreated key id) = true) ∨ Undisturbed a)
  | .createResource key q =>
      i.2.EndsReads ∧ ∀ n, Addressed a key q.id n → Acceptable i.2 key a n
  | .deleteResource key id =>
      i.2.EndsReads ∧ ∀ n, Addressed a key id n → SparesReads a n true
  | .readData key id spec =>
      i.2.EndsReads ∧ ∀ n, Addressed a key id n → (a.attached n).kind = .dataReader →
        CanStart a i.2 n spec
  | .cancelRead _ _ => i.2.EndsReads
  | .cleanupReads => i.2.EndsReads
  | .cleanupSessions => i.2.EndsReads ∧ Settled a
  | .cleanupResources => i.2.EndsReads ∧ Undisturbed a
  | _ => True

theorem ReadInv.of_initial {a : Agent} (h : a.Initial) : ReadInv a := by
  have hnone : ∀ n rd, (a.attached n).readReq ≠ some rd := by
    intro n rd hrd
    rw [h.readReq n] at hrd
    cases hrd
  have hlookup : ∀ rid r, a.resources.lookup rid ≠ some r := by
    intro rid r hr
    rw [h.resources] at hr
    cases hr
  have hreg : ∀ reader, (a.readerAt reader).registered = [] := by
    intro reader
    rw [Reader.registered, h.requests]
    rfl
  refine ⟨?_, ?_, ?_, ?_, ?_, ?_, ?_, ?_, ?_, ?_, ?_, ?_⟩
  · exact fun n rd hrd => absurd hrd (hnone n rd)
  · exact fun n rd hrd => absurd hrd (hnone n rd)
  · exact fun n rd hrd => absurd hrd (hnone n rd)
  · exact fun n _ rd hrd => absurd hrd (hnone n rd)
  · intro reader
    rw [hreg]
    exact List.nodup_nil
  · intro reader rd hmem
    rw [hreg] at hmem
    cases hmem
  · intro reader _ rd hmem
    rw [hreg] at hmem
    cases hmem
  · intro rd hrd
    rw [h.readsReturned] at hrd
    cases hrd
  · exact fun rid r hr => absurd hr (hlookup rid r)
  · exact fun rid r _ hr => absurd hr (hlookup rid r)
  · exact fun rid _ r _ _ hr => absurd hr (hlookup rid r)
  · rw [h.resources]
    rfl

/-- One step under the condition. -/
theorem ReadInv.step {a : Agent} (ha : ReadInv a) {i : Operation × Env}
    (h : RegistersReads a i) : ReadInv (a.step i) := by
  obtain ⟨op, env⟩ := i
  have hsession : ∀ {b}, SessionFrame a b → ReadInv b :=
    fun hb => ha.of_same hb.resources hb.poolResources (by rw [hb.poolReads])
      (by rw [hb.poolReads]) hb.poolReaders
  obtain ⟨hloans, h⟩ := h
  have hloan : ∀ env' src key d t, a.ReturnsLoan (op, env) env' src key d t → ReadInv t →
      ReadInv (returnLoan env' src key d t).2 :=
    fun env' src key d t hret => returnLoan_readInv (hloans env' src key d t hret) src key d t
  cases op with
  | openSession src key timeout data =>
      cases hs : a.sessions.lookup key with
      | none => exact openSession_readInv h.1 src timeout data ha hs (h.2 hs)
      | some s =>
          refine Agent.step_resetSession_keeps hs ha (fun _ b hb => ?_) (fun b hb => ?_) ?_ hloan
          · exact ReadInv.of_same hb rfl rfl rfl rfl rfl
          · exact ReadInv.of_same hb rfl rfl rfl rfl rfl
          · exact fun n _ b _ => cancelReadI_readInv h.1 n b
  | closeSession src key => exact hsession (closeSession_frame env src key a)
  | finishCloseSession key => exact hsession (finishCloseSession_frame env key a)
  | sessionTimeout key =>
      refine Agent.step_sessionTimeout_keeps ha (fun b hb => ?_) (fun s b hb => ?_) hloan
      · exact ReadInv.of_same hb rfl rfl rfl rfl rfl
      · have hdisposed := disposeSessionEA_frame env key s b
        exact hb.of_same hdisposed.resources hdisposed.poolResources (by rw [hdisposed.poolReads])
          (by rw [hdisposed.poolReads]) hdisposed.poolReaders
  | createResource key q => exact createResource_readInv h.1 ha h.2
  | deleteResource key id => exact deleteResource_readInv h.1 ha h.2
  | readData key id spec => exact readData_readInv h.1 ha h.2
  | cancelRead key id => exact cancelRead_readInv h key id a ha
  | returnLoan src key d => exact hloan env src key d a .operation ha
  | writeData key id => exact (writeData_regFrame env key id a).readInv ha
  | dataEvent rd => exact (onDataOnReader_regFrame env rd a).readInv ha
  | changeCache reader cache =>
      refine RegFrame.readInv (a := a) ⟨rfl, fun _ => rfl, fun _ => rfl, fun _ => rfl, rfl, rfl,
        fun m => ?_, rfl⟩ ha
      change ((a.updateReader reader _).readerAt m).requests = _
      rw [Agent.readerAt_updateReader]
      split <;> rfl
  | cleanupSessions =>
      change ReadInv ((Prog.read >>= _) a).2
      rw [read_bind_apply]
      exact keeps_ensure ha fun _ => (onCleanupSessions_closing h.1 a ⟨ha, h.2⟩).1
  | cleanupReads =>
      refine Agent.step_cleanupReads_keeps ha ?_ (fun b n rd _ _ _ hb => ?_) hloan
      · exact ReadInv.of_same ha rfl rfl rfl rfl rfl
      · exact cancelReadEA_readInv h hb
  | cleanupResources =>
      change ReadInv ((Prog.read >>= _) a).2
      rw [read_bind_apply]
      exact keeps_ensure ha fun _ => (onCleanupResources_tidy h.1 a ⟨ha, h.2⟩).1

end NanoAgent
