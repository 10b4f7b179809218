import NanoAgent.DdsAgent.SampleOwners

/-!
# The records of received samples along runs

Only serving a read, returning a loan and finalizing a session move records of received
samples. Everything else leaves them where they are (`Unmoved`).

`KeepsSamples` is the condition on a step. The record of a sample that the interface accepts
and does not retain is in no list afterwards, and a read that replaces one with records loses
them. In every run whose steps meet the condition each record has one owner until its session
is finalized, and is returned then (`receivedData_owned_of_reached`).
-/

namespace NanoAgent

open Prog

namespace AgentM

variable {env : Env} {a : Agent}

theorem deref_nativeFrame (id : ResourceId) (r : Resource) : Within NativeFrame (deref id r) :=
  .bind (access_nativeFrame _ _) fun _ => .require _

theorem kept_of_unmoved {α : Type} {hand : Option ℕ} {x : AgentM α} (hx : Within Unmoved x) :
    Preserves (SamplesKept hand) x :=
  fun a ha => (hx a).kept ha

theorem notify_unmoved (c : Callback) : Within Unmoved (modify fun a => a.notify c) :=
  .modify fun _ => .of_same rfl rfl rfl rfl

theorem updateRead_unmoved (rd : ℕ) {f : Read → Read} (hf : ∀ r, (f r).samples = r.samples) :
    Within Unmoved (modify fun a => a.updateRead rd f) :=
  .modify fun a => .updateRead a rd hf

/-- A read is ended only when it has no records. -/
theorem cancelReadEA_unmoved (env : Env) (n : ℕ) (rid : ResourceId) :
    Within Unmoved (cancelReadEA env n rid) := by
  intro a
  unfold cancelReadEA
  rw [read_bind_apply]
  cases hreq : (a.attached n).readReq with
  | none => exact refl a
  | some rd =>
      refine keeps_ensure (refl a) fun hpending => keeps_require (refl a) fun r _ => ?_
      have hderef := deref_nativeFrame rid r a
      refine keeps_bind (fun _ => .of_native hderef) fun reader _ => ?_
      generalize (deref rid r a).2 = b at hderef
      have honReader : NativeFrame a (onReader reader (Reader.requestComplete env rd) b).2 :=
        IsTrans.trans _ _ _ hderef (onReader_nativeFrame reader _ b)
      refine keeps_bind (fun _ => .of_native honReader) fun _ _ => ?_
      generalize (onReader reader (Reader.requestComplete env rd) b).2 = c at honReader
      have hc : Unmoved a c := .of_native honReader
      refine keeps_ensure hc fun _ => keeps_ensure hc fun _ => ?_
      refine IsTrans.trans _ _ _ hc (.releaseRead c ?_ ?_)
      · rw [Agent.attached, honReader.poolResources]
        exact hreq
      · rw [Agent.readAt, honReader.poolReads]
        simpa [Read.hasPendingSamples, Agent.readAt] using hpending

theorem cancelReadI_unmoved (env : Env) (n : ℕ) : Within Unmoved (cancelReadI env n) :=
  .read fun _ => .bind (lookupResource_frame _ _ _) fun _ => .bind (.require _) fun _ =>
    .bind (.ensure _) fun _ => cancelReadEA_unmoved env n _

theorem cancelRead_unmoved (env : Env) (key : ClientSessionKey) (id : ℕ) :
    Within Unmoved (cancelRead env key id) :=
  .bind (findAttachedReader_frame _ _) fun _ => .bind (cancelReadI_unmoved env _) fun _ =>
    notify_unmoved _

theorem endReadI_unmoved (env : Env) (key : ClientSessionKey) (n id : ℕ) :
    Within Unmoved (endReadI env key n id) :=
  .read fun _ => .onlyIf fun _ => .bind (cancelReadI_unmoved env n) fun _ => notify_unmoved _

theorem endReadEA_unmoved (env : Env) (key : ClientSessionKey) (n : ℕ) :
    Within Unmoved (endReadEA env key n) := by
  refine .read fun a => .onlyIf fun _ => .bind (lookupResource_frame _ _ _) fun found => ?_
  cases found with
  | none => exact .pure _
  | some r =>
      refine .ite (fun _ => .ensure _) fun _ => .bind (cancelReadEA_unmoved env n _) fun _ => ?_
      exact .bind (.ensure _) fun _ => notify_unmoved _

theorem countOutEA_unmoved (env : Env) (key : ClientSessionKey) (n : ℕ) (del : Bool) :
    Within Unmoved (countOutEA env key n del) := by
  refine .read fun a => .bind (.ensure _) fun _ => .bind (lookupResource_frame _ _ _) fun _ => ?_
  refine .bind (.require _) fun r => .bind (.ensure _) fun _ => ?_
  refine .bind (.onlyIf fun _ => cancelReadEA_unmoved env n _) fun _ => ?_
  refine .bind (.modify fun _ => .of_same rfl rfl rfl rfl) fun _ => .bind (.ensure _) fun _ => ?_
  exact .bind (.onlyIf fun _ => notify_unmoved _) fun _ => .pure _

theorem detachResourceEA_unmoved (env : Env) (key : ClientSessionKey) (n : ℕ)
    (del copyOut : Bool) : Within Unmoved (detachResourceEA env key n del copyOut) := by
  refine .read fun a => .bind (countOutEA_unmoved env key n del) fun delete => ?_
  refine .bind (.onlyIf fun _ => ?_) fun _ => .bind (.onlyIf fun _ => .ensure _) fun _ => ?_
  · refine .bind (fun b => .of_native (deleteNativeResourceEA_frame env _ b)) fun _ => ?_
    exact .bind (.ensure _) fun _ => .modify fun _ => .of_same rfl rfl rfl rfl
  · exact .bind (.modify fun b => .unlink b n) fun _ => .ensure _

theorem accept_unmoved (a : Agent) (n : ℕ) (u : Option ℕ) (c : Callback) :
    Unmoved a ((a.updateAttached n fun x => { x with userData := u }).notify c) := by
  have hdata : Unmoved a (a.updateAttached n fun x => { x with userData := u }) :=
    .updateAttached a n (fun _ => rfl) fun _ => rfl
  exact IsTrans.trans _ _ _ hdata (.of_same rfl rfl rfl rfl)

/-- Attaching resources moves no record. -/
theorem attachSteps_unmoved (env : Env) (a₀ : Agent) : AttachSteps env (Unmoved a₀) where
  leak hx h := IsTrans.trans _ _ _ h (.leak _ hx)
  link key id rid r h := IsTrans.trans _ _ _ h (.link _ key id rid r)
  enable key id rid r h _ _ _ := IsTrans.trans _ _ _ (IsTrans.trans _ _ _ h (.link _ key id rid r))
    (.of_native (enableResourceEA_nativeFrame env rid _))
  accept n u _ _ h := IsTrans.trans _ _ _ h (accept_unmoved _ n u _)
  refuse key n _ _ h _ := IsTrans.trans _ _ _ h (detachResourceEA_unmoved env key n _ _ _)

theorem attachAllResourcesToSessionEA_unmoved (env : Env) (key : ClientSessionKey) :
    Within Unmoved (attachAllResourcesToSessionEA env key) :=
  fun a => attachAllResourcesToSessionEA_steps (attachSteps_unmoved env a) key a (refl a)

theorem obtainAttachedEA_unmoved (env : Env) (key : ClientSessionKey) (q : CreateRequest)
    (found : Option ℕ) : Within Unmoved (obtainAttachedEA env key q found) := by
  cases found with
  | some n =>
      refine .bind (.read fun a => .bind (lookupResource_frame _ _ _) fun _ => ?_) fun _ => .pure _
      refine .bind (.require _) fun r => .bind (.ensure _) fun _ => .bind (.require _) fun _ => ?_
      refine .bind (.ensure _) fun _ => .bind (.ensure _) fun _ => ?_
      exact .bind (.onlyIf fun _ => cancelReadEA_unmoved env n _) fun _ => .pure _
  | none =>
      have hinsert : Within Unmoved (insertResourceRecordEA env q) := fun a =>
        .of_native (insertResourceRecordEA_insertFrame env q a).toNativeFrame
      refine .bind hinsert fun _ => .bind (.require _) fun rid => .bind ?_ fun _ => .pure _
      exact fun a =>
        attachResourceToSessionEA_steps (attachSteps_unmoved env a) key q.id rid a (refl a)

theorem createResource_unmoved (env : Env) (key : ClientSessionKey) (q : CreateRequest) :
    Within Unmoved (createResource env key q) := by
  have henable : ∀ rid, Within Unmoved (enableResourceEA env rid) := fun rid a =>
    .of_native (enableResourceEA_nativeFrame env rid a)
  refine .read fun a => .bind (.require _) fun s => .bind (.ensure _) fun _ => .bind ?_ fun n => ?_
  · refine .read fun _ => .bind (.require _) fun s => .bind (checkCreate_frame s q) fun _ => ?_
    refine .bind (.ensure _) fun _ => .bind (obtainAttachedEA_unmoved env key q _) fun _ => ?_
    refine .bind (.bind (henable _) fun _ => .bind (.ensure _) fun _ => ?_) fun _ => .pure _
    exact .bind (.ensure _) fun _ => .onlyIf fun _ => .modify fun _ => .of_same rfl rfl rfl rfl
  · refine .read fun a => .ite (fun _ => .modify fun a => accept_unmoved a n _ _) fun _ => ?_
    exact .bind (.ignore (detachResourceEA_unmoved env key n _ _)) fun _ => .fail

theorem deleteResource_unmoved (env : Env) (key : ClientSessionKey) (id : ℕ) :
    Within Unmoved (deleteResource env key id) := by
  refine .bind (findAttached_frame _ _) fun found => ?_
  cases found with
  | none => exact .pure _
  | some n =>
      refine .bind (endReadI_unmoved env key n id) fun _ => ?_
      refine .bind (detachResourceEA_unmoved env key n _ _) fun _ => ?_
      exact .bind (notify_unmoved _) fun _ => .ensure _

theorem writeData_unmoved (env : Env) (key : ClientSessionKey) (id : ℕ) :
    Within Unmoved (writeData env key id) := by
  refine .bind (findAttached_frame _ _) fun _ => .bind (.require _) fun n => .read fun a => ?_
  refine .bind (.ensure _) fun _ => .bind (lookupResource_frame _ _ _) fun _ => ?_
  refine .bind (.require _) fun r => .bind (.ensure _) fun _ => ?_
  refine .bind (fun a => .of_native (deref_nativeFrame _ _ a)) fun _ => ?_
  refine .bind (.ensure _) fun _ => ?_
  exact .bind (.ensure _) fun _ => .bind (.ensure _) fun _ => notify_unmoved _

/-- The flags of a session that its opening, closing and timeout change. -/
theorem updateSession_unmoved (key : ClientSessionKey) {f : ClientSession → ClientSession}
    (hpool : ∀ s, (f s).rcvdDataPool = s.rcvdDataPool) (hres : ∀ s, (f s).resources = s.resources)
    (hflags : ∀ s, ((f s).semCleanup = true → s.semCleanup = true) ∧
      (s.deleted = true → (f s).deleted = true)) :
    Within Unmoved (modify fun a => a.updateSession key f) :=
  .modify fun a => .updateSession a key hpool hres hflags

theorem disposeSessionEA_unmoved (env : Env) (key : ClientSessionKey) (s : ClientSession) :
    Within Unmoved (disposeSessionEA env key s) := by
  refine .ite (fun _ => .pure _) fun _ => .bind ?_ fun _ => .bind (.ensure _) fun _ => ?_
  · exact updateSession_unmoved key (fun _ => rfl) (fun _ => rfl) fun _ => ⟨id, fun _ => rfl⟩
  · exact .modify fun _ => .of_same rfl rfl rfl rfl

theorem closeSession_unmoved (env : Env) (src : ℕ) (key : ClientSessionKey) :
    Within Unmoved (closeSession env src key) :=
  .bind (.ensure _) fun _ => .bind (.ensure _) fun _ => .read fun _ => .bind (.require _) fun _ =>
    .bind (.ensure _) fun _ => .bind (.ensure _) fun _ => disposeSessionEA_unmoved env key _

theorem onCleanupResources_unmoved (env : Env) : Within Unmoved (onCleanupResources env) := by
  refine .bind (.ensure _) fun _ => .bind (.modify fun _ => .of_same rfl rfl rfl rfl) fun _ => ?_
  refine .bind (.ensure _) fun _ => .read fun _ => .forEach fun key _ => ?_
  refine .bind (.ensure _) fun _ => .read fun b => ?_
  cases b.sessions.lookup key with
  | none => exact .pure _
  | some s =>
      refine .bind (.forEach fun n _ => .read fun c => ?_) fun _ =>
        attachAllResourcesToSessionEA_unmoved env key
      refine .bind (lookupResource_frame _ _ _) fun _ => .bind (.require _) fun r => ?_
      refine .bind (.ensure _) fun _ => .onlyIf fun _ => ?_
      exact .bind (detachResourceEA_unmoved env key n _ _) fun _ => notify_unmoved _

/-- A new session that could not be opened is removed without a record. -/
theorem openNewSession_kept {src : ℕ} {key : ClientSessionKey} {timeout : ℕ} {data : Option ℕ}
    (ha : SamplesKept none a) (hnew : a.sessions.lookup key = none) :
    SamplesKept none (openNewSession env src key timeout data a).2 := by
  unfold openNewSession
  rw [modify_bind_apply]
  have hinsert : Unmoved a (a.insertSession key (.initial src timeout data)) :=
    .insertSession a hnew rfl rfl rfl
  have hpopulate : Within Unmoved (populateSession env key) :=
    .bind (.ensure _) fun _ => .bind (.ensure _) fun _ =>
      .bind (attachAllResourcesToSessionEA_unmoved env key) fun _ => .ensure _
  have hb := IsTrans.trans _ _ _ hinsert (hpopulate _)
  have hkey := hb.keepsNone ha (ha.keepsNone_of_absent hnew)
  have hkept := hb.kept ha
  refine keeps_onFailure hkept fun _ => keeps_onlyIf hkept fun _ => ?_
  exact (Unmoved.eraseSession _ hkey).kept hkept

theorem finishCloseSession_kept (env : Env) (key : ClientSessionKey) :
    Preserves (SamplesKept none) (finishCloseSession env key) := by
  intro a ha
  unfold finishCloseSession
  rw [read_bind_apply]
  refine keeps_require ha fun s hs => keeps_ensure ha fun hsem => keeps_ensure ha fun _ => ?_
  rw [modify_bind_apply]
  have hb : Unmoved a (a.updateSession key fun s => { s with semCleanup := false }) :=
    .updateSession a key (fun _ => rfl) (fun _ => rfl) fun _ => ⟨fun h => (by cases h), id⟩
  have hkey := hb.keepsNone ha (ha.closing key s hs hsem).2
  have hkept := hb.kept ha
  refine keeps_ensure hkept fun _ => keeps_ensure hkept fun _ => ?_
  rw [modify_bind_apply]
  have hc := (Unmoved.eraseSession _ hkey).kept hkept
  refine keeps_ensure hc fun _ => ?_
  exact (notify_unmoved _ _).kept hc

theorem cancelReadEA_empty {n : ℕ} {rid : ResourceId}
    (h : (cancelReadEA env n rid a).1.isSome = true) : a.samplesAt (.read n) = [] := by
  obtain ⟨_, hret⟩ := Option.isSome_iff_exists.1 h
  have hret := eq_of_fst_eq_some hret
  unfold cancelReadEA at hret
  rw [read_bind_apply] at hret
  cases hreq : (a.attached n).readReq with
  | none => exact Agent.samplesAt_idle hreq
  | some rd =>
      rw [hreq] at hret
      obtain ⟨_, _, hpending, -⟩ := bind_eq_some.1 hret
      obtain ⟨hpending, -⟩ := ensure_eq_some.1 hpending
      rw [Agent.samplesAt_read hreq]
      simpa [Read.hasPendingSamples] using hpending

/-- An attached resource that could be detached has no records. -/
theorem detachResourceEA_empty {hand : Option ℕ} (ha : SamplesKept hand a)
    {key : ClientSessionKey} {n : ℕ} {del copyOut : Bool}
    (h : (detachResourceEA env key n del copyOut a).1.isSome = true) :
    a.samplesAt (.read n) = [] := by
  obtain ⟨_, hret⟩ := Option.isSome_iff_exists.1 h
  have hret := eq_of_fst_eq_some hret
  unfold detachResourceEA countOutEA at hret
  rw [read_bind_apply] at hret
  obtain ⟨_, _, hret, -⟩ := bind_eq_some.1 hret
  rw [read_bind_apply] at hret
  obtain ⟨_, _, hlock, hret⟩ := bind_eq_some.1 hret
  obtain ⟨-, rfl⟩ := ensure_eq_some.1 hlock
  obtain ⟨_, _, hlookup, hret⟩ := bind_eq_some.1 hret
  obtain ⟨-, -, rfl⟩ := lookupResource_eq_some.1 hlookup
  obtain ⟨_, _, hrequire, hret⟩ := bind_eq_some.1 hret
  obtain ⟨-, rfl⟩ := require_eq_some.1 hrequire
  obtain ⟨_, _, hcount, hret⟩ := bind_eq_some.1 hret
  obtain ⟨-, rfl⟩ := ensure_eq_some.1 hcount
  obtain ⟨_, _, hcancel, -⟩ := bind_eq_some.1 hret
  by_cases hcancelled : ((a.attached n).kind = .dataReader && (a.attached n).readReq.isSome) = true
  · rw [hcancelled, onlyIf_true] at hcancel
    exact cancelReadEA_empty (by rw [hcancel]; rfl)
  · rw [List.eq_nil_iff_forall_not_mem]
    intro d hd
    refine hcancelled ?_
    rw [decide_eq_true (ha.retained n d hd).1, Bool.true_and, Option.isSome_iff_ne_none]
    intro hnone
    rw [Agent.samplesAt_idle hnone] at hd
    cases hd

theorem finalizeSessionEA_sameOutlines (env : Env) (key : ClientSessionKey) :
    Within SameOutlines (finalizeSessionEA env key) := by
  refine .read fun a => .bind (.require _) fun s => .bind (.ensure _) fun _ => ?_
  refine .bind (.forEach fun n _ b => (endReadEA_frame env key n b).session) fun _ => ?_
  refine .bind (.forEach fun n _ => detachOnCloseEA_sameOutlines key n) fun _ => ?_
  refine .bind (fun b => (ReadFrame.drainSamples b key).session) fun _ => ?_
  exact .onlyIf fun _ => .ensure _

theorem detachOnCloseEA_unmoved (env : Env) (key : ClientSessionKey) (n : ℕ) :
    Within Unmoved (detachOnCloseEA env key n) :=
  .read fun _ => .bind (detachResourceEA_unmoved env key n _ _) fun _ => notify_unmoved _

/-- When all attached resources of a session are detached, none of them has a record. -/
theorem forEach_detachOnCloseEA_empty {key : ClientSessionKey} {l : List ℕ} {b : Agent}
    (ha : SamplesKept none a) (hb : Unmoved a b)
    (hres : (forEach l (fun n => detachOnCloseEA env key n) b).1 = some ⟨⟩) :
    ∀ n ∈ l, a.samplesAt (.read n) = [] := by
  -- the invariant is about those that are left
  have hyield := forEach_yields (f := fun n => detachOnCloseEA env key n)
    (I := fun left c => Unmoved a c ∧ ∀ n ∈ l, n ∈ left ∨ a.samplesAt (.read n) = [])
    (fun n left c d hI hret => ?_) l ⟨hb, fun _ hn => .inl hn⟩ (eq_of_fst_eq_some hres)
  · exact fun n hn => (hyield.2 n hn).resolve_left List.not_mem_nil
  · obtain ⟨hI, hrest⟩ := hI
    have hnext := detachOnCloseEA_unmoved env key n c
    rw [hret] at hnext
    refine ⟨IsTrans.trans _ _ _ hI hnext, fun m hm => ?_⟩
    rcases hrest m hm with hm | hm
    · rcases List.mem_cons.1 hm with rfl | hm
      · right
        unfold detachOnCloseEA at hret
        rw [read_bind_apply] at hret
        obtain ⟨_, _, hdetach, -⟩ := bind_eq_some.1 hret
        obtain ⟨hc, hat, -⟩ := hI none ha
        rw [← hat]
        exact detachResourceEA_empty hc (by rw [hdetach]; rfl)
      · exact .inl hm
    · exact .inr hm

/-- A session that was finalized has no records, and is deleted. -/
theorem finalizeSessionEA_kept (env : Env) (key : ClientSessionKey) (ha : SamplesKept none a) :
    SamplesKept none (finalizeSessionEA env key a).2 ∧
      ((finalizeSessionEA env key a).1.isSome = true →
        (finalizeSessionEA env key a).2.KeepsNone key ∧ ∀ s,
          (finalizeSessionEA env key a).2.sessions.lookup key = some s → s.deleted = true) := by
  have houtline := finalizeSessionEA_sameOutlines env key a key
  let K := fun (res : Option Unit) b => SamplesKept none b ∧ (res.isSome = true → b.KeepsNone key ∧
    ∃ s, a.sessions.lookup key = some s ∧ s.deleted = true)
  have hfailed : ∀ {b}, SamplesKept none b → K none b := fun hb => ⟨hb, by simp⟩
  have hK : K (finalizeSessionEA env key a).1 (finalizeSessionEA env key a).2 := by
    unfold finalizeSessionEA
    rw [read_bind_apply]
    refine exits_require (hfailed ha) fun s hs => exits_ensure (hfailed ha) fun hdeleted => ?_
    have hreads : Within Unmoved (forEach s.resources fun n => endReadEA env key n) :=
      .forEach fun n _ => endReadEA_unmoved env key n
    have hb := hreads a
    refine exits_bind (fun _ => hfailed (hb.kept ha)) fun _ _ => ?_
    generalize (forEach s.resources (fun n => endReadEA env key n) a).2 = b at hb
    have hdetach : Within Unmoved (forEach s.resources fun n => detachOnCloseEA env key n) :=
      .forEach fun n _ => detachOnCloseEA_unmoved env key n
    have hc := IsTrans.trans _ _ _ hb (hdetach b)
    refine exits_bind (fun _ => hfailed (hc.kept ha)) fun _ hres => ?_
    have hempty := forEach_detachOnCloseEA_empty ha hb hres
    obtain ⟨hkept, hat, hpool⟩ := hc none ha
    generalize (forEach s.resources (fun n => detachOnCloseEA env key n) b).2 = c at hkept hat hpool
    rw [modify_bind_apply]
    have hnone : (c.drainSamples key).KeepsNone key := by
      refine hkept.keepsNone_drainSamples fun n d hd heq => ?_
      rw [hat] at hd
      rw [Agent.ownerOf, hpool] at heq
      obtain ⟨-, s', hs', hn⟩ := ha.retained n d hd
      rw [show a.ownerOf d = key from heq, hs] at hs'
      obtain rfl := Option.some.inj hs'
      rw [hempty n hn] at hd
      cases hd
    have hend : ∀ res, K res (c.drainSamples key) := fun _ => ⟨hkept.drainSamples key, fun _ =>
      ⟨hnone, s, hs, hdeleted⟩⟩
    rw [onlyIf_ensure]
    exact hend _
  refine ⟨hK.1, fun hret => ?_⟩
  obtain ⟨hnone, s, hs, hdeleted⟩ := hK.2 hret
  refine ⟨hnone, fun s' hs' => ?_⟩
  rw [hs, hs'] at houtline
  obtain ⟨-, hdel, -⟩ := ClientSession.eq_of_outline (Option.some.inj houtline)
  exact hdel.trans hdeleted

theorem cleanupSessionEA_kept (env : Env) (key : ClientSessionKey) :
    Preserves (SamplesKept none) (cleanupSessionEA env key) := by
  intro a ha
  unfold cleanupSessionEA
  refine keeps_ensure ha fun _ => ?_
  rw [read_bind_apply]
  cases hs : a.sessions.lookup key with
  | none => exact ha
  | some s =>
      obtain ⟨hb, hdone⟩ := finalizeSessionEA_kept env key ha
      refine keeps_onlyIf ha fun _ => keeps_bind (fun _ => hb) fun _ hret => ?_
      obtain ⟨hnone, hdeleted⟩ := hdone (by rw [hret]; rfl)
      generalize (finalizeSessionEA env key a).2 = b at hb hnone hdeleted
      unfold releaseFinalizedEA
      split
      · refine keeps_ensure hb fun _ => keeps_ensure hb fun _ => ?_
        rw [modify_bind_apply]
        exact (notify_unmoved _ _).kept ((Unmoved.eraseSession b hnone).kept hb)
      · rw [modify_bind_apply]
        have hc := hb.giveCleanup hnone hdeleted
        exact hc

theorem onCleanupSessions_kept (env : Env) :
    Preserves (SamplesKept none) (onCleanupSessions env) := by
  refine .bind (.ensure _) fun _ => .bind (.ensure _) fun _ => .bind (fun a ha => ?_) fun _ => ?_
  · have hsame : Unmoved a { a with condCleanupSessions := false } := .of_same rfl rfl rfl rfl
    exact hsame.kept ha
  · exact .read fun _ => .forEach fun key _ => cleanupSessionEA_kept env key

theorem registerReadEA_unmoved {key : ClientSessionKey} {n : ℕ} {rid : ResourceId} {r : Resource}
    {spec : ReadSpecification} (hidle : a.samplesAt (.read n) = [])
    (hn : n < a.poolResources.next) : Unmoved a (registerReadEA env key n rid r spec a).2 := by
  unfold registerReadEA
  rw [read_bind_apply]
  refine keeps_ensure (refl a) fun _ => ?_
  rw [modify_bind_apply]
  refine IsTrans.trans _ _ _ (.takeRead a key hidle hn) ?_
  refine Within.bind (.ensure _) (fun _ => ?_) _
  refine .bind (.modify fun b => .updateRead b _ fun _ => rfl) fun _ => ?_
  refine .bind (.onlyIf fun _ => .ensure _) fun _ => .bind (.ensure _) fun _ => ?_
  refine .bind (updateRead_unmoved _ fun _ => rfl) fun _ => ?_
  refine .bind (fun b => .of_native (deref_nativeFrame rid r b)) fun reader => ?_
  exact .bind (fun b => .of_native (onReader_nativeFrame reader _ b)) fun _ => .ensure _

/-- A read is started where no read has records that were not returned. -/
theorem readEA_unmoved {key : ClientSessionKey} {n : ℕ} {spec : ReadSpecification}
    (hidle : a.samplesAt (.read n) = []) (hn : n < a.poolResources.next) :
    Unmoved a (readEA env key n spec a).2 := by
  intro hand ha
  have hstart : Unmoved a (startReadEA env key n spec a).2 := by
    unfold startReadEA
    rw [read_bind_apply]
    refine keeps_lookupResource (refl a) fun _ => keeps_require (refl a) fun r _ => ?_
    refine keeps_ensure (refl a) fun _ => ?_
    have hcancel : Within Unmoved (onlyIf (a.attached n).readReq.isSome
        (cancelReadEA env n (a.attached n).resource)) :=
      .onlyIf fun _ => cancelReadEA_unmoved env n _
    have hframe : Within ReadFrame (onlyIf (a.attached n).readReq.isSome
        (cancelReadEA env n (a.attached n).resource)) :=
      .onlyIf fun _ => cancelReadEA_frame env n _
    refine keeps_bind (fun _ => hcancel a) fun _ _ => IsTrans.trans _ _ _ (hcancel a) ?_
    refine registerReadEA_unmoved ?_ ?_
    · rw [(hcancel a hand ha).2.1]
      exact hidle
    · rw [(hframe a).next]
      exact hn
  have hfailed : Unmoved a ((startReadEA env key n spec a).2.discardRead n) := by
    refine IsTrans.trans _ _ _ hstart (.discardRead _ ?_)
    rw [(hstart hand ha).2.1]
    exact hidle
  have hexit : Unmoved a (onFailure (startReadEA env key n spec)
      (modify fun a => a.discardRead n) a).2 :=
    keeps_onFailure hstart fun _ => hfailed
  have hread : Unmoved a (readEA env key n spec a).2 :=
    keeps_bind (fun _ => hexit) fun _ _ => hexit
  exact hread hand ha

theorem readData_kept {key : ClientSessionKey} {id : ℕ} {spec : ReadSpecification}
    (ha : SamplesKept none a)
    (hidle : ∀ n, Addressed a key id n → (a.attached n).kind = .dataReader →
      a.samplesAt (.read n) = []) : SamplesKept none (readData env key id spec a).2 := by
  refine keeps_findAttachedReader ha fun s n hs hactive hn hkind => ?_
  have hread : Unmoved a (readEA env key n spec a).2 :=
    readEA_unmoved (hidle n ⟨s, hs, hactive, hn⟩ hkind)
      (ha.linked key s hs n (List.mem_of_find?_eq_some hn))
  have hkept := hread.kept ha
  refine keeps_bind (fun _ => hkept) fun _ _ => ?_
  refine Within.ite (R := fun b c => SamplesKept none b → SamplesKept none c)
    (fun _ => fun b hb => (notify_unmoved _ b).kept hb) (fun _ => ?_) _ hkept
  exact .bind (.ignore fun b hb => (cancelReadI_unmoved env n b).kept hb) fun _ => .fail

/-- The read `rd` of the data reader `n`, attached to the session `key`, is served. -/
structure Receives (key : ClientSessionKey) (n rd : ℕ) (a : Agent) : Prop where
  kind : (a.attached n).kind = .dataReader
  session : ∃ s, a.sessions.lookup key = some s ∧ s.deleted = false ∧ n ∈ s.resources
  reading : (a.attached n).readReq = some rd
  live : rd ∉ a.poolReads.returned

theorem Receives.mono {key : ClientSessionKey} {n rd : ℕ} {b : Agent} (h : Receives key n rd a)
    (hf : ReadFrame a b) (hr : RegFrame a b) : Receives key n rd b where
  kind := (hr.kind n).trans h.kind
  session := by
    obtain ⟨s, hs, hdel, hn⟩ := h.session
    obtain ⟨s', hs', houtline⟩ := hf.exists_session hs
    obtain ⟨hres, hdel', -⟩ := ClientSession.eq_of_outline houtline
    exact ⟨s', hs', hdel'.trans hdel, by rw [hres]; exact hn⟩
  reading := (hr.readReq n).trans h.reading
  live := by
    rw [hr.returned]
    exact h.live

/-- A record in hand goes to the pool of the session that is served. -/
theorem Receives.recycle {key : ClientSessionKey} {n rd d : ℕ} (h : Receives key n rd a)
    (ha : SamplesKept (some d) a) (howner : a.ownerOf d = key) :
    SamplesKept none (a.recycle key d) := by
  obtain ⟨s, hs, hdel, -⟩ := h.session
  exact ha.recycle howner hs (ha.semCleanup_eq_false hs hdel)

/-- The record in hand was filled for the session. -/
def FilledFor (key : ClientSessionKey) (d : ℕ) (a : Agent) : Prop :=
  SamplesKept (some d) a ∧ a.ownerOf d = key

theorem fill_filledFor {key : ClientSessionKey} {d : ℕ} {f : Agent → ReceivedData → ReceivedData}
    (hf : ∀ a x, (f a x).sessionKey = x.sessionKey) : Preserves (FilledFor key d)
      (modify fun a : Agent => { a with poolSamples := a.poolSamples.update d (f a) }) := by
  rintro a ⟨ha, howner⟩
  have hself := congrArg ReceivedData.sessionKey
    (BufferPool.content_update_self a.poolSamples d (f a))
  exact ⟨ha.fill (f a), (hself.trans (hf a _)).trans howner⟩

theorem fillReceivedData_filledFor (env : Env) (key : ClientSessionKey) (n : ℕ) (smp : Sample)
    {d : ℕ} (ha : SamplesKept (some d) a) :
    FilledFor key d (fillReceivedData env key n d smp a).2 := by
  unfold fillReceivedData
  rw [read_bind_apply, modify_bind_apply]
  have hself := congrArg ReceivedData.sessionKey
    (BufferPool.content_update_self a.poolSamples d fun x =>
      { x with sessionKey := key, read := (a.attached n).readReq,
               dataLen := env.serializedSize smp })
  have hfirst : FilledFor key d { a with poolSamples := a.poolSamples.update d fun x =>
      { x with sessionKey := key, read := (a.attached n).readReq,
               dataLen := env.serializedSize smp } } := ⟨ha.fill _, hself⟩
  refine Within.bind (R := fun b c => FilledFor key d b → FilledFor key d c) (.onlyIf fun _ => ?_)
    (fun _ => ?_) _ hfirst
  · exact .bind (.ensure _) fun _ => fill_filledFor fun _ _ => rfl
  · refine .bind (.ensure _) fun _ => .bind (fill_filledFor fun _ _ => rfl) fun _ => ?_
    exact .bind (.require _) fun _ => fill_filledFor fun _ _ => rfl

theorem obtainReceivedData_kept (env : Env) (key : ClientSessionKey) (smp : Sample)
    (ha : SamplesKept none a) : SamplesKept (obtainReceivedData env key smp a).1
      (obtainReceivedData env key smp a).2 := by
  unfold obtainReceivedData
  rw [read_bind_apply]
  refine exits_require ha fun s hs => ?_
  cases hpool : s.rcvdDataPool with
  | cons d l => exact ha.reuse hs hpool _
  | nil => exact exits_ensure ha fun _ => ha.takeReceivedData

theorem obtainReceivedData_regFrame (env : Env) (key : ClientSessionKey) (smp : Sample) :
    Within RegFrame (obtainReceivedData env key smp) := by
  refine .read fun a => .bind (.require _) fun s => ?_
  cases s.rcvdDataPool with
  | nil =>
      refine .bind (.ensure _) fun _ => .bind (.modify fun _ => ?_) fun _ => .pure _
      exact .of_same rfl rfl rfl rfl rfl
  | cons d l =>
      refine .bind (.modify fun _ => ?_) fun _ => .pure _
      exact .of_same rfl rfl rfl rfl rfl

theorem convertSampleEA_kept (env : Env) {key : ClientSessionKey} {n rd : ℕ} (smp : Sample)
    (ha : SamplesKept none a) (hr : Receives key n rd a) :
    SamplesKept (convertSampleEA env key n smp a).1 (convertSampleEA env key n smp a).2 ∧
      ∀ d, (convertSampleEA env key n smp a).1 = some d →
        (convertSampleEA env key n smp a).2.ownerOf d = key := by
  have hr' : ∀ {b}, ReadFrame a b → RegFrame a b → Receives key n rd b := fun hf hg => hr.mono hf hg
  refine exits_bind (K := fun res b => SamplesKept res b ∧ ∀ d, res = some d → b.ownerOf d = key)
    (fun hnone => ?_) fun d hd => ?_
  · have hb := obtainReceivedData_kept env key smp ha
    rw [hnone] at hb
    exact ⟨hb, fun _ h => by cases h⟩
  · have hb := obtainReceivedData_kept env key smp ha
    have hf := obtainReceivedData_frame env key smp a
    have hg := obtainReceivedData_regFrame env key smp a
    rw [hd] at hb
    generalize (obtainReceivedData env key smp a).2 = b at hb hf hg
    have hfill := fillReceivedData_filledFor env key n smp hb
    have hrc : Receives key n rd (fillReceivedData env key n d smp b).2 :=
      (hr.mono hf hg).mono (fillReceivedData_frame env key n d smp b)
        (fillReceivedData_regFrame env key n d smp b)
    rw [bind_apply]
    unfold onFailure
    rcases hx : fillReceivedData env key n d smp b with ⟨_ | _, c⟩
    · rw [hx] at hfill hrc
      exact ⟨hrc.recycle hfill.1 hfill.2, fun _ h => by cases h⟩
    · rw [hx] at hfill
      refine ⟨hfill.1, fun d' hd' => ?_⟩
      obtain rfl := Option.some.inj hd'
      exact hfill.2

/-- A sample that is accepted is retained, so that its record goes to the list of the read. -/
theorem acceptSample_kept {key : ClientSessionKey} {n rd d : ℕ} {smp : Sample} {now : ℕ}
    (hr : Receives key n rd a) (ha : SamplesKept (some d) a) (howner : a.ownerOf d = key) :
    SamplesKept none (a.acceptSample n rd d smp true now) := by
  obtain ⟨s, hs, hdel, hn⟩ := hr.session
  have hretain := ha.retain hr.reading hr.live hr.kind (by rw [howner]; exact hs) hn
    (ha.semCleanup_eq_false hs hdel)
  have hread : Unmoved _ _ := .updateRead (a.updateRead rd fun r =>
    { r with samples := r.samples ++ [d] }) rd (f := fun r =>
    { r with lastSample := smp.sn, lastSampleTs := now }) fun _ => rfl
  have hattached : Unmoved _ _ := .updateAttached ((a.updateRead rd fun r =>
    { r with samples := r.samples ++ [d] }).updateRead rd fun r =>
    { r with lastSample := smp.sn, lastSampleTs := now }) n (f := fun x =>
    { x with lastSampleForwarded := smp.sn }) (fun _ => rfl) fun _ => rfl
  exact (notify_unmoved _ _).kept (hattached.kept (hread.kept hretain))

theorem processSampleEA_kept {key : ClientSessionKey} {n rd : ℕ} {smp : Sample} (now : ℕ)
    (ha : SamplesKept none a) (hr : Receives key n rd a)
    (hdelivery : env.delivery smp ≠ .accepted false) :
    SamplesKept none (processSampleEA env key n smp now a).2 := by
  unfold processSampleEA
  rw [read_bind_apply]
  refine keeps_require ha fun rd' hrd' => ?_
  obtain rfl := Option.some.inj (hrd'.symm.trans hr.reading)
  split
  · exact ha
  split
  · exact ha
  refine keeps_ensure ha fun _ => ?_
  obtain ⟨hb, howner⟩ := convertSampleEA_kept env smp ha hr
  have hrb : Receives key n rd' (convertSampleEA env key n smp a).2 :=
    hr.mono (convertSampleEA_frame env key n smp a) (convertSampleEA_regFrame env key n smp a)
  refine keeps_bind (fun hnone => ?_) fun d hd => ?_
  · rw [hnone] at hb
    exact hb
  rw [hd] at hb
  have howner := howner d hd
  generalize (convertSampleEA env key n smp a).2 = b at hb howner hrb
  cases hres : env.delivery smp with
  | error => exact hrb.recycle hb howner
  | tryAgain => exact hrb.recycle hb howner
  | accepted retained =>
      cases retained with
      | false => exact absurd hres hdelivery
      | true => exact acceptSample_kept hrb hb howner

/-- The samples of a batch are offered one after the other, and the read stays served. -/
theorem processSamplesEA_kept {key : ClientSessionKey} {n rd : ℕ} (now : ℕ)
    {samples : List Sample} (updated : Bool) (ha : SamplesKept none a) (hr : Receives key n rd a)
    (hdelivery : ∀ smp ∈ samples, smp.validData = true → env.delivery smp ≠ .accepted false) :
    SamplesKept none (processSamplesEA env key n now samples updated a).2 := by
  induction samples generalizing a updated with
  | nil => exact ha
  | cons smp samples ih =>
      have hrest : ∀ smp ∈ samples, smp.validData = true → env.delivery smp ≠ .accepted false :=
        fun x hx => hdelivery x (List.mem_cons_of_mem _ hx)
      rw [processSamplesEA]
      split
      · rename_i hvalid
        have hb := processSampleEA_kept now ha hr (hdelivery smp List.mem_cons_self hvalid)
        have hrb := hr.mono (processSampleEA_frame env key n smp now a)
          (processSampleEA_regFrame env key n smp now a)
        rw [attempt_bind_apply]
        generalize (processSampleEA env key n smp now a).2 = b at hb hrb
        rcases (processSampleEA env key n smp now a).1 with _ | _ | _ | _
        · exact hb
        · exact ih _ hb hrb hrest
        · exact hb
        · exact ih _ hb hrb hrest
      · exact ih _ ha hr hrest

theorem returnLoanToReaderDdsEA_unmoved (env : Env) (n : ℕ) (updated : Bool) :
    Within Unmoved (returnLoanToReaderDdsEA env n updated) :=
  .read fun _ => .bind (lookupResource_frame _ _ _) fun _ => .bind (.require _) fun _ =>
    .bind (.ensure _) fun _ => .bind (fun b => .of_native (deref_nativeFrame _ _ b)) fun reader =>
    .bind (.require _) fun _ => .bind (.require _) fun _ => .bind (.ensure _) fun _ =>
    .bind (.onlyIf fun _ => fun b => .of_native (onReader_nativeFrame reader _ b)) fun _ =>
    .ensure _

theorem leaveReaderEA_unmoved (env : Env) (n rd : ℕ) (loan : Bool) (exit : LoopExit)
    (done : Bool) : Within Unmoved (leaveReaderEA env n rd loan exit done) := by
  refine .bind (updateRead_unmoved _ fun r => ?_) fun _ => ?_
  · cases exit.retry.isNone <;> rfl
  refine .bind (.attempt (within_postRetry (fun _ _ => .of_same rfl rfl rfl rfl) _ _ _)) fun _ => ?_
  refine .bind (.attempt (.onlyIf fun _ => returnLoanToReaderDdsEA_unmoved _ _ _)) fun _ => ?_
  exact .bind (.onlyIf fun _ => updateRead_unmoved _ fun _ => rfl) fun _ => .ensure _

theorem readFromReaderDdsEA_unmoved (env : Env) (n : ℕ) :
    Within Unmoved (readFromReaderDdsEA env n) :=
  .read fun _ => .bind (lookupResource_frame _ _ _) fun _ => .bind (.require _) fun _ =>
    .bind (.ensure _) fun _ => .bind (fun b => .of_native (deref_nativeFrame _ _ b)) fun _ =>
    .bind (.require _) fun _ => .bind (.require _) fun _ => .bind (.ensure _) fun _ =>
    .bind (.ensure _) fun _ => .pure _

theorem readFromReaderEA_kept {key : ClientSessionKey} {n rd : ℕ} (ha : SamplesKept none a)
    (hr : Receives key n rd a) (hdelivery : ∀ smp, env.delivery smp ≠ .accepted false) :
    SamplesKept none (readFromReaderEA env key n a).2 := by
  have hleave : ∀ {b} loan exit done, SamplesKept none b →
      SamplesKept none (leaveReaderEA env n rd loan exit done b).2 :=
    fun _ _ _ hb => (leaveReaderEA_unmoved env n rd _ _ _ _).kept hb
  unfold readFromReaderEA
  rw [read_bind_apply]
  refine keeps_require ha fun rd' hrd' => ?_
  obtain rfl := Option.some.inj (hrd'.symm.trans hr.reading)
  split
  · exact hleave _ _ _ ha
  split
  · exact hleave _ _ _ ha
  rw [attempt_bind_apply]
  have hb := (readFromReaderDdsEA_unmoved env n a).kept ha
  have hrb := hr.mono (readFromReaderDdsEA_frame env n a) (readFromReaderDdsEA_regFrame env n a)
  generalize (readFromReaderDdsEA env n a).2 = b at hb hrb
  cases (readFromReaderDdsEA env n a).1 with
  | none => exact hleave _ _ _ hb
  | some samples =>
      dsimp only
      have hc := processSamplesEA_kept (env.clock 0) false hb hrb fun smp
        (_ : smp ∈ samples.getD []) _ =>
        hdelivery smp
      refine keeps_bind (fun _ => hc) fun exit _ => ?_
      rw [read_bind_apply]
      split
      · split
        · exact hleave _ _ _ hc
        · exact hleave _ _ _ hc
      · exact hleave _ _ _ hc

theorem onDataOnReader_kept {rd : ℕ} (ha : SamplesKept none a)
    (hdelivery : ∀ smp, env.delivery smp ≠ .accepted false)
    (hlive : ∀ n req, Addressed a (a.readAt rd).sessionKey (a.readAt rd).readerId n →
      (a.attached n).readReq = some req → req ∉ a.poolReads.returned) :
    SamplesKept none (onDataOnReader env rd a).2 := by
  have htrigger : Within Unmoved (modify fun a : Agent => { a with condCleanupReads := true }) :=
    .modify fun _ => .of_same rfl rfl rfl rfl
  unfold onDataOnReader
  rw [read_bind_apply]
  refine keeps_ensure ha fun _ => keeps_findAttachedReader ha fun s n hs hactive hn hkind => ?_
  refine keeps_require ha fun req hreq => ?_
  have hopen : s.deleted = false := by
    rw [ClientSession.active] at hactive
    simp only [Bool.not_eq_true', Bool.or_eq_false_iff] at hactive
    exact hactive.1.1
  have hr : Receives (a.readAt rd).sessionKey n req a :=
    ⟨hkind, ⟨s, hs, hopen, List.mem_of_find?_eq_some hn⟩, hreq,
      hlive n req ⟨s, hs, hactive, hn⟩ hreq⟩
  split
  · exact (htrigger a).kept ha
  have hnote : Within Unmoved (onlyIf (!(a.readAt rd).delayed)
      (modify fun a => a.updateRead req fun x => { x with dataAvailable := true })) :=
    .onlyIf fun _ => updateRead_unmoved _ fun _ => rfl
  have hframe : Within ReadFrame (onlyIf (!(a.readAt rd).delayed)
      (modify fun a => a.updateRead req fun x => { x with dataAvailable := true })) :=
    .onlyIf fun _ => updateRead_frame _ _
  have hreg : Within RegFrame (onlyIf (!(a.readAt rd).delayed)
      (modify fun a => a.updateRead req fun x => { x with dataAvailable := true })) :=
    .onlyIf fun _ => updateRead_regFrame _ _
  have hb := (hnote a).kept ha
  have hrb := hr.mono (hframe a) (hreg a)
  refine keeps_bind (fun _ => hb) fun _ _ => ?_
  generalize (onlyIf (!(a.readAt rd).delayed)
    (modify fun a => a.updateRead req fun x => { x with dataAvailable := true }) a).2 = b at hb hrb
  rw [modify_bind_apply]
  have hserved := readFromReaderEA_kept
    ((updateRead_unmoved rd (f := fun x => { x with delayed := false }) (fun _ => rfl) b).kept hb)
    (hrb.mono (updateRead_frame rd _ b) (updateRead_regFrame rd _ b)) hdelivery
  refine keeps_bind (fun _ => hserved) fun _ _ => ?_
  rw [read_bind_apply]
  exact keeps_onlyIf hserved fun _ => (htrigger _).kept hserved

theorem closeReturn_unmoved (env : Env) (key : ClientSessionKey) (n rd : ℕ) (rid : ResourceId) :
    Within Unmoved (closeReturn env key n rd rid) := by
  refine .read fun b => .ite (fun _ => .bind (updateRead_unmoved rd fun _ => rfl) fun _ => ?_)
    fun _ => .ensure _
  refine .ite (fun _ => .bind (cancelReadEA_unmoved env n _) fun _ => ?_) fun _ => .ensure _
  exact .bind (.ensure _) fun _ => .modify fun _ => .of_same rfl rfl rfl rfl

/-- A loan that is returned takes the record from the list of its read to the pool of its
session. The session may be closed already, as long as it was not finalized. -/
theorem returnLoan_kept (env : Env) (src : ℕ) (key : ClientSessionKey) (d : ℕ) :
    Preserves (SamplesKept none) (returnLoan env src key d) := by
  intro a ha
  have hback : ∀ n rd, Lent a src key d n rd → SamplesKept none (a.takeBack key n rd d) := by
    intro n rd h
    obtain ⟨s, hs, -, -⟩ := h.session
    have howner : a.ownerOf d = key := h.sessionKey
    have hopen : s.semCleanup = false := Bool.eq_false_iff.2 fun hsem =>
      (ha.closing key s hs hsem).2 (.read n) d
        ((Agent.samplesAt_read h.readReq).symm ▸ h.held) howner
    have hrecycled := (ha.takeBack h.readReq h.held).recycle howner hs hopen
    have hmoved : Unmoved _ _ := .updateAttached ((a.updateRead rd fun r =>
      { r with samples := r.samples.erase d }).recycle key d) n (f := fun y =>
      { y with lastSampleReturned := max y.lastSampleReturned (a.poolSamples.content d).ddsSn })
      (fun _ => rfl) fun _ => rfl
    exact hmoved.kept hrecycled
  rcases returnLoan_cases env src key d a with ⟨-, h⟩ | ⟨n, rd, hlent, ⟨-, h⟩ | ⟨-, h⟩⟩
  · rw [h]
    exact ha
  · rw [h]
    exact hback n rd hlent
  · rw [h]
    have hcounted : SamplesKept none (a.countReturn key n rd d) :=
      (updateRead_unmoved rd (f := fun r => { r with samplesRcvd := r.samplesRcvd + 1 })
        (fun _ => rfl) _).kept (hback n rd hlent)
    exact (closeReturn_unmoved env key n rd _ _).kept hcounted

theorem returnLoans_kept (env : Env) (src : ℕ) (key : ClientSessionKey) (c : LoanCallback) :
    Preserves (SamplesKept none) (returnLoans env src key c) :=
  within_returnLoans fun d _ => returnLoan_kept (env.forLoan d) src key d

/-- A session is reset with the loans that its interface returns. -/
theorem resetSession_kept (env : Env) (src : ℕ) (key : ClientSessionKey) (s : ClientSession) :
    Preserves (SamplesKept none) (resetSession env src key s) := by
  have hflags : ∀ f : ClientSession → ClientSession, (∀ s, (f s).rcvdDataPool = s.rcvdDataPool) →
      (∀ s, (f s).resources = s.resources) → (∀ s, (f s).semCleanup = s.semCleanup) →
      (∀ s, (f s).deleted = s.deleted) →
      Preserves (SamplesKept none) (modify fun a : Agent => a.updateSession key f) := by
    intro f hpool hres hsem hdel
    exact kept_of_unmoved (updateSession_unmoved key hpool hres fun s =>
      ⟨fun h => (hsem s).symm.trans h, fun h => (hdel s).trans h⟩)
  have hmark : ∀ v, Preserves (SamplesKept none)
      (modify fun a : Agent => a.updateSession key fun s => { s with resetting := v }) :=
    fun _ => hflags _ (fun _ => rfl) (fun _ => rfl) (fun _ => rfl) fun _ => rfl
  refine .bind (.ensure _) fun _ => .bind (hmark true) fun _ => .bind (.ensure _) fun _ => ?_
  refine .bind (.bind (returnLoans_kept env src key _) fun _ => .ensure _) fun _ => ?_
  refine .bind (.onlyIf fun _ => ?_) fun _ => .bind (.forEach fun n _ => ?_) fun _ => hmark false
  · exact hflags _ (fun _ => rfl) (fun _ => rfl) (fun _ => rfl) fun _ => rfl
  · exact .read fun _ => .onlyIf fun _ => kept_of_unmoved (cancelReadI_unmoved env n)

theorem openSession_kept (env : Env) (src : ℕ) (key : ClientSessionKey) (timeout : ℕ)
    (data : Option ℕ) : Preserves (SamplesKept none) (openSession env src key timeout data) := by
  refine .bind (.ensure _) fun _ => .bind (fun a ha => ?_) fun _ => .read fun _ =>
    .bind (.require _) fun _ => .bind (.ensure _) fun _ => .ensure _
  unfold resetOrOpenSession
  rw [read_bind_apply]
  cases hs : a.sessions.lookup key with
  | none => exact openNewSession_kept ha hs
  | some s => exact resetSession_kept env src key s a ha

theorem onSessionTimeout_kept (env : Env) (key : ClientSessionKey) :
    Preserves (SamplesKept none) (onSessionTimeout env key) := by
  refine .bind (.ensure _) fun _ => .read fun _ => .bind (.require _) fun s => ?_
  refine .bind (.ensure _) fun _ => .bind (kept_of_unmoved ?_) fun _ => ?_
  · exact updateSession_unmoved key (fun _ => rfl) (fun _ => rfl) fun _ => ⟨id, id⟩
  · exact .bind (returnLoans_kept env s.intf key _) fun _ =>
      kept_of_unmoved (disposeSessionEA_unmoved env key s)

theorem cleanupReadEA_kept (env : Env) (src : ℕ) (key : ClientSessionKey) (n : ℕ) :
    Preserves (SamplesKept none) (cleanupReadEA env src key n) := by
  refine .read fun a => ?_
  dsimp only
  cases (a.attached n).readReq with
  | none => exact .pure _
  | some rd =>
      refine .onlyIf fun _ => .ite (fun _ => returnLoans_kept env src key _) fun _ => ?_
      refine kept_of_unmoved (.bind (lookupResource_frame _ _ _) fun _ => ?_)
      exact .bind (.require _) fun _ => .bind (cancelReadEA_unmoved env n _) fun _ => .ensure _

theorem onCleanupReads_kept (env : Env) : Preserves (SamplesKept none) (onCleanupReads env) := by
  refine .bind (.ensure _) fun _ => .bind (kept_of_unmoved (.modify fun _ => ?_)) fun _ => ?_
  · exact .of_same rfl rfl rfl rfl
  refine .read fun _ => .forEach fun key _ => .bind (.ensure _) fun _ => .read fun b => ?_
  cases b.sessions.lookup key with
  | none => exact .pure _
  | some s => exact .forEach fun n _ => cleanupReadEA_kept env s.intf key n

end AgentM

open AgentM

/-- The condition under which a step keeps the records. A read is started where no record
is left. An event is for a read that was not returned, and every sample that is accepted
is retained. -/
def KeepsSamples (a : Agent) (i : Operation × Env) : Prop :=
  match i.1 with
  | .readData key id _ => ∀ n, Addressed a key id n → (a.attached n).kind = .dataReader →
      a.samplesAt (.read n) = []
  | .dataEvent rd => (∀ smp, i.2.delivery smp ≠ .accepted false) ∧
      ∀ n req, Addressed a (a.readAt rd).sessionKey (a.readAt rd).readerId n →
        (a.attached n).readReq = some req → req ∉ a.poolReads.returned
  | _ => True

/-- One step under the condition. -/
theorem SamplesKept.step {a : Agent} (ha : SamplesKept none a) {i : Operation × Env}
    (h : KeepsSamples a i) : SamplesKept none (a.step i) := by
  obtain ⟨op, env⟩ := i
  cases op with
  | openSession src key timeout data => exact openSession_kept env src key timeout data a ha
  | closeSession src key => exact (closeSession_unmoved env src key a).kept ha
  | finishCloseSession key => exact finishCloseSession_kept env key a ha
  | sessionTimeout key => exact onSessionTimeout_kept env key a ha
  | createResource key q => exact (createResource_unmoved env key q a).kept ha
  | deleteResource key id => exact (deleteResource_unmoved env key id a).kept ha
  | readData key id spec => exact readData_kept ha h
  | cancelRead key id => exact (cancelRead_unmoved env key id a).kept ha
  | returnLoan src key d => exact returnLoan_kept env src key d a ha
  | writeData key id => exact (writeData_unmoved env key id a).kept ha
  | dataEvent rd => exact onDataOnReader_kept ha h.1 h.2
  | changeCache reader cache =>
      have hsame : Unmoved a (a.updateReader reader fun r => { r with cache := cache }) :=
        .of_same rfl rfl rfl rfl
      exact hsame.kept ha
  | cleanupSessions =>
      change SamplesKept none ((Prog.read >>= _) a).2
      rw [read_bind_apply]
      exact keeps_ensure ha fun _ => onCleanupSessions_kept env a ha
  | cleanupReads =>
      change SamplesKept none ((Prog.read >>= _) a).2
      rw [read_bind_apply]
      exact keeps_ensure ha fun _ => onCleanupReads_kept env a ha
  | cleanupResources =>
      change SamplesKept none ((Prog.read >>= _) a).2
      rw [read_bind_apply]
      exact keeps_ensure ha fun _ => (onCleanupResources_unmoved env a).kept ha

/-- The places of a session: its pool, and the reads of its data readers. -/
def Agent.PlaceOf (a : Agent) (key : ClientSessionKey) (s : ClientSession) : SamplePlace → Prop
  | .pool key' => key' = key
  | .read n => n ∈ s.resources ∧ (a.attached n).kind = .dataReader

/-- A record that was not returned is at one place of the session for which it was filled,
and there once. A record that was returned was returned once, and is at no place. -/
structure SamplesOwned (a : Agent) : Prop where
  kept : ∀ d < a.poolSamples.next, d ∉ a.poolSamples.returned →
    ∃ s, a.sessions.lookup (a.ownerOf d) = some s ∧ ∃ p, a.PlaceOf (a.ownerOf d) s p ∧
      (a.samplesAt p).count d = 1 ∧ ∀ p', d ∈ a.samplesAt p' → p' = p
  returned : ∀ d ∈ a.poolSamples.returned, d < a.poolSamples.next ∧
    a.poolSamples.returned.count d = 1 ∧ ∀ p, d ∉ a.samplesAt p

/-- A session has its records. -/
theorem SamplesKept.placeOf {a : Agent} (h : SamplesKept none a) {p : SamplePlace} {d : ℕ}
    (hd : d ∈ a.samplesAt p) :
    ∃ s, a.sessions.lookup (a.ownerOf d) = some s ∧ a.PlaceOf (a.ownerOf d) s p := by
  cases p with
  | read n =>
      obtain ⟨hkind, s, hs, hn⟩ := h.retained n d hd
      exact ⟨s, hs, hn, hkind⟩
  | pool key =>
      have howner := h.pooled key d hd
      cases hs : a.sessions.lookup key with
      | none => simp [Agent.samplesAt, hs] at hd
      | some s => exact ⟨s, howner ▸ hs, howner.symm⟩

theorem SamplesKept.owned {a : Agent} (h : SamplesKept none a) : SamplesOwned a where
  kept d hd hlive := by
    rcases h.accounted d hd with ⟨⟨o, ho, honly⟩, -⟩ | ⟨-, hcount⟩
    · cases o with
      | none => cases ho
      | some p =>
          obtain ⟨s, hs, hp⟩ := h.placeOf ho
          refine ⟨s, hs, p, hp, List.count_eq_one_of_mem (h.nodup p) ho, fun p' hp' => ?_⟩
          exact Option.some.inj (honly (some p') hp')
    · rw [List.count_eq_zero.2 hlive] at hcount
      cases hcount
  returned d hd := by
    have hlt := h.sound d hd
    rcases h.accounted d hlt with ⟨-, hlive⟩ | ⟨hnone, hcount⟩
    · exact absurd hd hlive
    · exact ⟨hlt, hcount, fun p => hnone (some p)⟩

end NanoAgent
