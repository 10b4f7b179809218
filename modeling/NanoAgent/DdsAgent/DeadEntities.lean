import NanoAgent.DdsAgent.AttachmentRun

/-!
# Dead entities are not used

`Agent.faults` collects the accesses to the reader state, the writer state or the
entity of a record that was natively deleted or does not have it. The functions
that serve reads check the flag `nativeDeleted` before they go on, so all they need
is that the record of the attached resource has its state (`HasState`). Ending a
read does not check the flag: it is safe unless the record behind the read is dead
(`Orphan`).
-/

namespace NanoAgent

open Prog

/-- The record of an attached resource has its reader or writer state, unless it was
natively deleted. -/
def HasState (a : Agent) (n : ℕ) : Prop :=
  ∀ r, a.resources.lookup (a.attached n).resource = some r → r.nativeDeleted = false →
    r.userData.isSome = true

/-- A record whose state can be used. -/
def Resource.Usable (r : Resource) : Prop := r.nativeDeleted = false ∧ r.userData.isSome = true

/-- An attached resource with a read whose record cannot be used any more. -/
def Orphan (a : Agent) (n : ℕ) : Prop :=
  (a.attached n).readReq.isSome = true ∧
    ∃ r, a.resources.lookup (a.attached n).resource = some r ∧ ¬ r.Usable

/-- No fault so far, with the resource records and the names of the attached
resources as they are in `a₀`. -/
structure Calm (a₀ a : Agent) : Prop where
  faults : a.faults = []
  frame : ReadFrame a₀ a

namespace Calm

variable {a₀ a b : Agent}

theorem lookup_eq (h : Calm a₀ a) (n : ℕ) : a.resources.lookup (a.attached n).resource =
    a₀.resources.lookup (a₀.attached n).resource := by
  rw [h.frame.resources, h.frame.resource_eq]

theorem step (h : Calm a₀ a) (hf : ReadFrame a b) (hfault : b.faults = a.faults) : Calm a₀ b :=
  ⟨hfault.trans h.faults, h.frame.trans' hf⟩

end Calm

namespace AgentM

variable {a₀ : Agent}

/-- The faults are unchanged. -/
def SameFaults (a b : Agent) : Prop := b.faults = a.faults

instance : IsPreorder Agent SameFaults where
  refl _ := rfl
  trans _ _ _ h h' := Eq.trans h' h

theorem calm_of_sameFaults {α : Type} {x : AgentM α} (hf : Within ReadFrame x)
    (hs : Within SameFaults x) : Preserves (Calm a₀) x :=
  fun a ha => ha.step (hf a) (hs a)

theorem deref_calm (rid : ResourceId) {r : Resource} (hr : r.Usable) :
    Preserves (Calm a₀) (deref rid r) := by
  refine .bind ?_ fun _ => .require _
  intro a ha
  simpa [access, hr.1, hr.2] using ha

theorem onReader_calm {α : Type} (n : ℕ) (x : Prog Reader α) :
    Preserves (Calm a₀) (onReader n x) :=
  calm_of_sameFaults (onReader_frame n x) fun _ => rfl

theorem notify_calm (c : Callback) : Preserves (Calm a₀) (modify fun a => a.notify c) :=
  calm_of_sameFaults (notify_frame c) fun _ => rfl

theorem updateRead_calm (rd : ℕ) (f : Read → Read) :
    Preserves (Calm a₀) (modify fun a => a.updateRead rd f) :=
  calm_of_sameFaults (updateRead_frame rd f) fun _ => rfl

/-- Cancelling a read uses the record without a check. -/
theorem cancelReadEA_calm (env : Env) (n : ℕ) (rid : ResourceId)
    (h : ∀ r, a₀.resources.lookup rid = some r → r.Usable) :
    Preserves (Calm a₀) (cancelReadEA env n rid) := by
  refine .readThen fun a ha => ?_
  cases (a.attached n).readReq with
  | none => exact .pure _
  | some rd =>
      refine .bind (.ensure _) fun _ => .requireThen fun r hr => ?_
      refine .bind (deref_calm rid (h r (ha.frame.resources ▸ hr))) fun reader => ?_
      refine .bind (onReader_calm _ _) fun _ => .bind (.ensure _) fun _ => ?_
      refine .bind (.ensure _) fun _ => ?_
      exact calm_of_sameFaults (.modify fun a => .releaseRead a n rd) fun _ => rfl

theorem cancelReadI_calm (env : Env) (n : ℕ) (h : HasState a₀ n) :
    Preserves (Calm a₀) (cancelReadI env n) := by
  refine .readThen fun a ha => lookupThen fun b hb => .requireThen fun r hr => ?_
  refine .ensureThen fun hdel => cancelReadEA_calm env n _ fun r' hr' => ?_
  have hdel : r.nativeDeleted = false := by simpa using hdel
  rw [hb.frame.resources, ha.frame.resource_eq] at hr
  rw [ha.frame.resource_eq, hr] at hr'
  rw [← Option.some.inj hr']
  exact ⟨hdel, h r hr hdel⟩

/-- A record found under the name of an attached resource, when it was not natively
deleted. -/
theorem usable_of_lookup {n : ℕ} (h : HasState a₀ n) {a b : Agent} (ha : Calm a₀ a)
    (hb : Calm a₀ b) {r : Resource} (hr : b.resources.lookup (a.attached n).resource = some r)
    (hdel : (!r.nativeDeleted) = true) : r.Usable := by
  have hdel : r.nativeDeleted = false := by simpa using hdel
  rw [hb.frame.resources, ha.frame.resource_eq] at hr
  exact ⟨hdel, h r hr hdel⟩

theorem startReadEA_calm (env : Env) (key : ClientSessionKey) (n : ℕ) (spec : ReadSpecification)
    (h : HasState a₀ n) : Preserves (Calm a₀) (startReadEA env key n spec) := by
  refine .readThen fun a ha => lookupThen fun b hb => .requireThen fun r hr => ?_
  refine .ensureThen fun hdel => ?_
  have husable := usable_of_lookup h ha hb hr hdel
  refine .bind (.onlyIf fun _ => cancelReadEA_calm env n _ fun r' hr' => ?_) fun _ => ?_
  · rw [← hb.frame.resources, hr] at hr'
    rw [← Option.some.inj hr']
    exact husable
  refine .read fun c => .bind (.ensure _) fun _ => .bind ?_ fun _ => .bind (.ensure _) fun _ => ?_
  · exact calm_of_sameFaults (.modify fun a => .takeRead a key n) fun _ => rfl
  refine .bind (calm_of_sameFaults (.modify fun a => ?_) fun _ => rfl) fun _ => ?_
  · exact .of_same rfl rfl rfl rfl rfl rfl
  refine .bind (.onlyIf fun _ => .ensure _) fun _ => .bind (.ensure _) fun _ => ?_
  refine .bind (updateRead_calm _ _) fun _ => .bind (deref_calm _ husable) fun reader => ?_
  exact .bind (onReader_calm _ _) fun _ => .ensure _

theorem readEA_calm (env : Env) (key : ClientSessionKey) (n : ℕ) (spec : ReadSpecification)
    (h : HasState a₀ n) : Preserves (Calm a₀) (readEA env key n spec) := by
  have hexit : Preserves (Calm a₀) (modify fun a : Agent => a.discardRead n) := by
    refine calm_of_sameFaults (.modify fun a => .discardRead a n) fun a => ?_
    change (a.discardRead n).faults = a.faults
    unfold Agent.discardRead
    cases (a.attached n).readReq <;> rfl
  refine .bind (.onFailure (startReadEA_calm env key n spec h) hexit) fun _ => ?_
  exact .read fun _ => .ensure _

theorem fillReceivedData_sameFaults (env : Env) (key : ClientSessionKey) (n d : ℕ)
    (smp : Sample) : Within SameFaults (fillReceivedData env key n d smp) := by
  refine .read fun a => .bind (.modify fun _ => rfl) fun _ => ?_
  refine .bind (.onlyIf fun _ => .bind (.ensure _) fun _ => .modify fun _ => rfl) fun _ => ?_
  refine .bind (.ensure _) fun _ => .bind (.modify fun _ => rfl) fun _ => ?_
  exact .bind (.require _) fun _ => .modify fun _ => rfl

theorem convertSampleEA_sameFaults (env : Env) (key : ClientSessionKey) (n : ℕ) (smp : Sample) :
    Within SameFaults (convertSampleEA env key n smp) := by
  refine .bind (.read fun a => .bind (.require _) fun s => ?_) fun d => .bind ?_ fun _ => .pure _
  · cases s.rcvdDataPool with
    | nil => exact .bind (.ensure _) fun _ => .bind (.modify fun _ => rfl) fun _ => .pure _
    | cons d l => exact .bind (.modify fun _ => rfl) fun _ => .pure _
  · exact .onFailure (fillReceivedData_sameFaults env key n d smp) (.modify fun _ => rfl)

theorem processSampleEA_sameFaults (env : Env) (key : ClientSessionKey) (n : ℕ) (smp : Sample)
    (now : ℕ) : Within SameFaults (processSampleEA env key n smp now) := by
  refine .read fun a => .bind (.require _) fun rd => ?_
  refine .ite (fun _ => .pure _) fun _ => .ite (fun _ => .pure _) fun _ => ?_
  refine .bind (.ensure _) fun _ => .bind (convertSampleEA_sameFaults _ _ _ _) fun d => ?_
  cases env.delivery smp with
  | error => exact .bind (.modify fun _ => rfl) fun _ => .fail
  | tryAgain => exact .bind (.modify fun _ => rfl) fun _ => .pure _
  | accepted retained =>
      refine .bind (.modify fun a => ?_) fun _ => .pure _
      unfold Agent.acceptSample
      cases retained <;> rfl

theorem processSamplesEA_sameFaults (env : Env) (key : ClientSessionKey) (n now : ℕ)
    (samples : List Sample) (updated : Bool) :
    Within SameFaults (processSamplesEA env key n now samples updated) := by
  induction samples generalizing updated with
  | nil => exact .pure _
  | cons smp samples ih =>
      refine .ite (fun _ => ?_) fun _ => ih _
      refine .bind (.attempt (processSampleEA_sameFaults _ _ _ _ _)) fun res => ?_
      match res with
      | none => exact .pure _
      | some .old => exact ih _
      | some (.retry delay) => exact .pure _
      | some .delivered => exact ih _

theorem readFromReaderDdsEA_calm (env : Env) (n : ℕ) (h : HasState a₀ n) :
    Preserves (Calm a₀) (readFromReaderDdsEA env n) := by
  refine .readThen fun a ha => lookupThen fun b hb => .requireThen fun r hr => ?_
  refine .ensureThen fun hdel => .bind (deref_calm _ (usable_of_lookup h ha hb hr hdel)) fun _ => ?_
  exact .bind (.require _) fun _ => .bind (.require _) fun _ => .bind (.ensure _) fun _ =>
    .bind (.ensure _) fun _ => .pure _

theorem returnLoanToReaderDdsEA_calm (env : Env) (n : ℕ) (updated : Bool) (h : HasState a₀ n) :
    Preserves (Calm a₀) (returnLoanToReaderDdsEA env n updated) := by
  refine .readThen fun a ha => lookupThen fun b hb => .requireThen fun r hr => ?_
  refine .ensureThen fun hdel => .bind (deref_calm _ (usable_of_lookup h ha hb hr hdel)) fun _ => ?_
  exact .bind (.require _) fun _ => .bind (.require _) fun _ => .bind (.ensure _) fun _ =>
    .bind (.onlyIf fun _ => onReader_calm _ _) fun _ => .ensure _

theorem leaveReaderEA_calm (env : Env) (n rd : ℕ) (loan : Bool) (exit : LoopExit) (done : Bool)
    (h : HasState a₀ n) : Preserves (Calm a₀) (leaveReaderEA env n rd loan exit done) := by
  have hretry : Preserves (Calm a₀) (postRetry env rd exit.retry) :=
    calm_of_sameFaults (within_postRetry (fun _ _ => .of_same rfl rfl rfl rfl rfl rfl) _ _ _)
      (within_postRetry (fun _ _ => rfl) _ _ _)
  refine .bind (updateRead_calm _ _) fun _ => .bind (.attempt hretry) fun _ => ?_
  refine .bind (.attempt (.onlyIf fun _ => returnLoanToReaderDdsEA_calm env n _ h)) fun _ => ?_
  exact .bind (.onlyIf fun _ => updateRead_calm _ _) fun _ => .ensure _

theorem readFromReaderEA_calm (env : Env) (key : ClientSessionKey) (n : ℕ) (h : HasState a₀ n) :
    Preserves (Calm a₀) (readFromReaderEA env key n) := by
  have hleave := fun rd loan exit done => leaveReaderEA_calm env n rd loan exit done h
  refine .read fun a => .bind (.require _) fun rd => ?_
  refine .ite (fun _ => hleave _ _ _ _) fun _ => .ite (fun _ => hleave _ _ _ _) fun _ => ?_
  refine .bind (.attempt (readFromReaderDdsEA_calm env n h)) fun res => ?_
  cases res with
  | none => exact hleave _ _ _ _
  | some samples =>
      refine .bind (calm_of_sameFaults (processSamplesEA_frame _ _ _ _ _ _)
        (processSamplesEA_sameFaults _ _ _ _ _ _)) fun exit => .read fun a => ?_
      refine .ite (fun _ => ?_) fun _ => hleave _ _ _ _
      exact .ite (fun _ => hleave _ _ _ _) fun _ => hleave _ _ _ _

/-- The attached data reader that an operation of the session `key` is about. -/
def Addressed (a : Agent) (key : ClientSessionKey) (id n : ℕ) : Prop :=
  ∃ s, a.sessions.lookup key = some s ∧ s.active = true ∧ a.findAttachedResource s id = some n

theorem readData_calm {env : Env} {key : ClientSessionKey} {id : ℕ} {spec : ReadSpecification}
    {a : Agent} (ha : Calm a a) (h : ∀ n, Addressed a key id n → HasState a n) :
    Calm a (readData env key id spec a).2 := by
  refine keeps_findAttachedReader ha fun s n hs hactive hn _ => ?_
  have hst := h n ⟨s, hs, hactive, hn⟩
  refine Within.bind (R := fun b c => Calm a b → Calm a c) (readEA_calm env key n spec hst)
    (fun _ => .ite (fun _ => notify_calm _) fun _ => ?_) a ha
  exact .bind (.ignore (cancelReadI_calm env n hst)) fun _ => .fail

theorem cancelRead_calm {env : Env} {key : ClientSessionKey} {id : ℕ} {a : Agent} (ha : Calm a a)
    (h : ∀ n, Addressed a key id n → HasState a n) : Calm a (cancelRead env key id a).2 := by
  refine keeps_findAttachedReader ha fun s n hs hactive hn _ => ?_
  exact Within.bind (R := fun b c => Calm a b → Calm a c)
    (cancelReadI_calm env n (h n ⟨s, hs, hactive, hn⟩)) (fun _ => notify_calm _) a ha

theorem writeData_calm {env : Env} {key : ClientSessionKey} {id : ℕ} {a : Agent} (ha : Calm a a)
    (h : ∀ n, Addressed a key id n → HasState a n) : Calm a (writeData env key id a).2 := by
  refine keeps_findAttached ha fun s hs hactive => keeps_require ha fun n hn => ?_
  rw [read_bind_apply]
  refine keeps_ensure ha fun _ => keeps_lookupResource ha fun _ => keeps_require ha fun r hr => ?_
  refine keeps_ensure ha fun hdel => ?_
  have husable := usable_of_lookup (h n ⟨s, hs, hactive, hn⟩) ha ha hr hdel
  refine Within.bind (R := fun b c => Calm a b → Calm a c) (deref_calm _ husable) (fun _ => ?_) a ha
  exact .bind (.ensure _) fun _ => .bind (.ensure _) fun _ => .bind (.ensure _) fun _ =>
    notify_calm _

theorem onDataOnReader_calm {env : Env} {rd : ℕ} {a : Agent} (ha : Calm a a)
    (h : ∀ n, Addressed a (a.readAt rd).sessionKey (a.readAt rd).readerId n → HasState a n) :
    Calm a (onDataOnReader env rd a).2 := by
  have htrigger : Preserves (Calm a) (modify fun a : Agent =>
    { a with condCleanupReads := true }) :=
    calm_of_sameFaults (.modify fun _ => .of_same rfl rfl rfl rfl rfl rfl) fun _ => rfl
  unfold onDataOnReader
  rw [read_bind_apply]
  refine keeps_ensure ha fun _ => keeps_findAttachedReader ha fun s n hs hactive hn _ => ?_
  refine keeps_require ha fun req _ => ?_
  refine Within.ite (R := fun b c => Calm a b → Calm a c) (fun _ => htrigger) (fun _ => ?_) a ha
  refine .bind (.onlyIf fun _ => updateRead_calm _ _) fun _ =>
    .bind (updateRead_calm _ _) fun _ => ?_
  refine .bind (readFromReaderEA_calm env _ n (h n ⟨s, hs, hactive, hn⟩)) fun _ => ?_
  exact .read fun _ => .onlyIf fun _ => htrigger

theorem closeReturn_calm (env : Env) (key : ClientSessionKey) (n rd : ℕ) (rid : ResourceId)
    (h : ∀ r, a₀.resources.lookup rid = some r → r.Usable) :
    Preserves (Calm a₀) (closeReturn env key n rd rid) := by
  refine .read fun a => .ite (fun _ => .bind (updateRead_calm _ _) fun _ => ?_) fun _ => .ensure _
  refine .ite (fun _ => .bind (cancelReadEA_calm env n rid h) fun _ => ?_) fun _ => .ensure _
  refine .bind (.ensure _) fun _ => calm_of_sameFaults (.modify fun _ => ?_) fun _ => rfl
  exact .of_same rfl rfl rfl rfl rfl rfl

theorem returnLoan_calm {env : Env} {src : ℕ} {key : ClientSessionKey} {d : ℕ} {a : Agent}
    (ha : Calm a₀ a) (h : ∀ n rd, Lent a src key d n rd → HasState a₀ n) :
    Calm a₀ (returnLoan env src key d a).2 := by
  rcases returnLoan_cases env src key d a with ⟨-, hret⟩ | ⟨n, rd, hlent, hret⟩
  · rw [hret]
    exact ha
  have hback : Calm a₀ (a.takeBack key n rd d) := ha.step (takeBack_frame a key n rd d) rfl
  rcases hret with ⟨-, hret⟩ | ⟨hcounts, hret⟩
  · rw [hret]
    exact hback
  · rw [hret]
    obtain ⟨-, r, hr, hdel⟩ := Agent.exists_of_locates (Bool.and_eq_true_iff.1 hcounts).2
    have hr₀ : a₀.resources.lookup (a₀.attached n).resource = some r := by
      rw [← ha.lookup_eq]
      exact hr
    have husable : r.Usable := ⟨hdel, h n rd hlent r hr₀ hdel⟩
    refine closeReturn_calm env key n rd _ (fun r' hr' => ?_) _ (updateRead_calm rd _ _ hback)
    rw [ha.frame.resource_eq, hr₀] at hr'
    rw [← Option.some.inj hr']
    exact husable

/-- From `a` to `b` records among those of `P` were returned: reads may have ended, and only
reads that held one of these records have changed, which they may have given up. -/
structure LoansBack (P : ℕ → Prop) (a b : Agent) : Prop where
  readReq : ∀ n, (b.attached n).readReq = (a.attached n).readReq ∨ (b.attached n).readReq = none
  readAt : ∀ rd, (∀ d ∈ (a.readAt rd).samples, ¬ P d) → b.readAt rd = a.readAt rd
  samples : ∀ rd, ∀ d ∈ (b.readAt rd).samples, d ∈ (a.readAt rd).samples

section LoansBack

variable {P : ℕ → Prop} {a b : Agent}

instance : IsPreorder Agent (LoansBack P) where
  refl _ := ⟨fun _ => .inl rfl, fun _ _ => rfl, fun _ _ h => h⟩
  trans a b c h h' := by
    refine ⟨fun n => ?_, fun rd hrd => ?_, fun rd d hd => h.samples rd d (h'.samples rd d hd)⟩
    · rcases h'.readReq n with hn | hn
      · rw [hn]
        exact h.readReq n
      · exact .inr hn
    · refine (h'.readAt rd fun d hd => hrd d (h.samples rd d hd)).trans (h.readAt rd hrd)

theorem LoansBack.of_endsReads (h : EndsReads a b) : LoansBack P a b :=
  ⟨h.readReq, fun rd _ => h.readAt rd, fun rd _ hd => h.readAt rd ▸ hd⟩

/-- A read of an attached resource was there before. -/
theorem LoansBack.readReq_eq_some (h : LoansBack P a b) {n rd : ℕ}
    (hn : (b.attached n).readReq = some rd) : (a.attached n).readReq = some rd := by
  rcases h.readReq n with heq | heq
  · rw [← heq]
    exact hn
  · rw [hn] at heq
    cases heq

/-- A change of a read that held one of the records. -/
theorem LoansBack.updateRead (h : LoansBack P a b) {rd : ℕ}
    (hheld : ∃ d ∈ (a.readAt rd).samples, P d) {f : Read → Read}
    (hf : ∀ r, ∀ d ∈ (f r).samples, d ∈ r.samples) : LoansBack P a (b.updateRead rd f) := by
  refine ⟨h.readReq, fun q hq => ?_, fun q d hd => ?_⟩
  · have hne : q ≠ rd := by
      rintro rfl
      obtain ⟨d, hd, hP⟩ := hheld
      exact hq d hd hP
    rw [Agent.readAt_updateRead, if_neg hne]
    exact h.readAt q hq
  · rw [Agent.readAt_updateRead] at hd
    split at hd
    · exact h.samples q d (hf _ d hd)
    · exact h.samples q d hd

/-- The read that changes holds the record that is returned. -/
theorem returnLoan_loansBack (env : Env) (src : ℕ) (key : ClientSessionKey) {d : ℕ} (hd : P d) :
    Within (LoansBack P) (returnLoan env src key d) := by
  intro a
  rcases returnLoan_cases env src key d a with ⟨-, hret⟩ | ⟨n, rd, hlent, hret⟩
  · rw [hret]
    exact refl a
  have hheld : ∃ e ∈ (a.readAt rd).samples, P e := ⟨d, hlent.held, hd⟩
  have hback : LoansBack P a (a.takeBack key n rd d) := by
    have hread : LoansBack P a (a.updateRead rd fun r => { r with samples := r.samples.erase d }) :=
      .updateRead (refl a) hheld fun r e he => List.mem_of_mem_erase he
    refine ⟨fun m => ?_, hread.readAt, hread.samples⟩
    unfold Agent.takeBack
    rw [Agent.attached_updateAttached]
    split
    · exact .inl rfl
    · exact .inl rfl
  rcases hret with ⟨-, hret⟩ | ⟨-, hret⟩
  · rw [hret]
    exact hback
  have hcount : LoansBack P a (a.countReturn key n rd d) := hback.updateRead hheld fun _ _ he => he
  have hmark : ∀ {b}, LoansBack P a b →
      LoansBack P a (b.updateRead rd fun r => { r with complete := true }) :=
    fun hb => hb.updateRead hheld fun _ _ he => he
  rw [hret]
  unfold closeReturn
  rw [read_bind_apply]
  refine Within.ite (R := fun b c => LoansBack P a b → LoansBack P a c) (fun _ => ?_)
    (fun _ => .ensure _) _ hcount
  refine .bind (.modify fun b hb => hmark hb) fun _ => .ite (fun _ => ?_) fun _ => .ensure _
  refine .bind (fun b hb => ?_) fun _ => .bind (.ensure _) fun _ => .modify fun b hb => ?_
  · exact IsTrans.trans _ _ _ hb (.of_endsReads (cancelReadEA_endsReads env n _ b))
  · exact ⟨hb.readReq, hb.readAt, hb.samples⟩

end LoansBack

/-- The records that are returned in a callback are held by reads whose records have their
states. -/
def LoansLive (env : Env) (c : LoanCallback) (a : Agent) : Prop :=
  ∀ n rd, (a.attached n).readReq = some rd →
    (∃ d ∈ env.loansReturned c, d ∈ (a.readAt rd).samples) → HasState a n

theorem returnLoans_calm {P : ℕ → Prop} (env : Env) (src : ℕ) (key : ClientSessionKey)
    {c : LoanCallback} (h : LoansLive env c a₀) (hP : ∀ d ∈ env.loansReturned c, P d) :
    Preserves (fun a => Calm a₀ a ∧ LoansBack P a₀ a) (returnLoans env src key c) := by
  refine within_returnLoans fun d hd => ?_
  rintro a ⟨ha, hback⟩
  refine ⟨returnLoan_calm ha fun n rd hlent => ?_,
    IsTrans.trans _ _ _ hback (returnLoan_loansBack _ src key (hP d hd) a)⟩
  exact h n rd (hback.readReq_eq_some hlent.readReq) ⟨d, hd, hback.samples rd d hlent.held⟩

/-- A completed read that nothing keeps the clean-up handler from ending. -/
def Ended (a : Agent) (n : ℕ) : Prop :=
  ∃ rd, (a.attached n).readReq = some rd ∧ (a.readAt rd).complete = true ∧
    (a.readAt rd).hasPendingSamples = false

/-- The clean-up of reads does not end the read of `n`: it does not find it ended, and none
of its samples is returned in a callback. -/
def LeftAlone (env : Env) (a : Agent) (n : ℕ) : Prop :=
  ¬ Ended a n ∧ ∀ rd, (a.attached n).readReq = some rd → ∀ c, ∀ d ∈ env.loansReturned c,
    d ∉ (a.readAt rd).samples

theorem cleanupReadEA_calm (env : Env) (src : ℕ) (key : ClientSessionKey) (n : ℕ)
    (h : Orphan a₀ n → LeftAlone env a₀ n) (hloans : ∀ c, LoansLive env c a₀) :
    Preserves (fun a => Calm a₀ a ∧ LoansBack (fun d => ∃ c, d ∈ env.loansReturned c) a₀ a)
      (cleanupReadEA env src key n) := by
  refine .readThen fun a ha => ?_
  dsimp only
  cases hreq : (a.attached n).readReq with
  | none => exact .pure _
  | some rd =>
      refine .onlyIf fun hcomplete => .ite (fun _ => ?_) fun hpending => ?_
      · exact returnLoans_calm env src key (hloans _) fun d hd => ⟨_, hd⟩
      refine lookupThen fun b hb => .requireThen fun r hr => ?_
      have hreq₀ := ha.2.readReq_eq_some hreq
      have husable : r.Usable := by
        by_contra hno
        rw [hb.1.frame.resources, ha.1.frame.resource_eq] at hr
        obtain ⟨hended, hkept⟩ := h ⟨by rw [hreq₀]; rfl, r, hr, hno⟩
        have hread : a.readAt rd = a₀.readAt rd := by
          refine ha.2.readAt rd fun d hd => ?_
          rintro ⟨c, hc⟩
          exact hkept rd hreq₀ c d hc hd
        rw [hread] at hcomplete hpending
        exact hended ⟨rd, hreq₀, hcomplete, by simpa using hpending⟩
      refine .bind ?_ fun _ => .ensure _
      rintro c ⟨hc, hback⟩
      refine ⟨cancelReadEA_calm env n _ (fun r' hr' => ?_) c hc,
        IsTrans.trans _ _ _ hback (.of_endsReads (cancelReadEA_endsReads env n _ c))⟩
      rw [← hb.1.frame.resources, hr] at hr'
      rw [← Option.some.inj hr']
      exact husable

theorem onCleanupReads_calm {env : Env} {a : Agent} (ha : Calm a a)
    (h : ∀ n, Orphan a n → LeftAlone env a n) (hloans : ∀ c, LoansLive env c a) :
    Calm a (onCleanupReads env a).2 := by
  have hpass : Preserves (fun b => Calm a b ∧
      LoansBack (fun d => ∃ c, d ∈ env.loansReturned c) a b) (onCleanupReads env) := by
    refine .bind (.ensure _) fun _ => .bind ?_ fun _ => .read fun b => ?_
    · rintro b ⟨hb, hback⟩
      exact ⟨hb.step (.of_same rfl rfl rfl rfl rfl rfl) rfl,
        ⟨hback.readReq, hback.readAt, hback.samples⟩⟩
    refine .forEach fun key _ => .bind (.ensure _) fun _ => .read fun c => ?_
    cases c.sessions.lookup key with
    | none => exact .pure _
    | some s => exact .forEach fun n _ => cleanupReadEA_calm env s.intf key n (h n) hloans
  exact (hpass a ⟨ha, refl a⟩).1

theorem endReadI_calm (env : Env) (key : ClientSessionKey) (n id : ℕ) (h : HasState a₀ n) :
    Preserves (Calm a₀) (endReadI env key n id) :=
  .read fun _ => .onlyIf fun _ => .bind (cancelReadI_calm env n h) fun _ => notify_calm _

end AgentM

end NanoAgent
