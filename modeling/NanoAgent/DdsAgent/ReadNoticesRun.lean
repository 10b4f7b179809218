import NanoAgent.DdsAgent.ReadReturns

/-!
# Read notifications over whole runs

A read that is cancelled, that completes on the return of a loan, or whose reader is
deleted or detached is announced when its record can be released. Completed reads that
the clean-up handler finds, reads ended by the reset of a session and reads replaced by a
new read are not announced, and a read that failed to start stays where it was put.
`NotifiesReads` says of each step that it does none of this; in the runs of such steps the
notifications are balanced (`readsBalanced_of_reached`).
-/

namespace NanoAgent

open Prog

namespace AgentM

variable {env : Env} {a : Agent}

/-- The first loop of finalizing a session. -/
theorem endReadEA_noticed {key : ClientSessionKey} {n : ℕ} (ha : Owing [] [] a)
    (hkey : (a.attached n).session = key) (hfree : a.Releasable env .finalizeSession) :
    Noticed a (endReadEA env key n a).2 := by
  have hstart := Noticed.start ha
  unfold endReadEA
  rw [read_bind_apply]
  refine keeps_onlyIf hstart fun hread => keeps_lookupResource hstart fun _ => ?_
  have hread : (a.attached n).readReq.isSome = true := (Bool.and_eq_true_iff.1 hread).2
  cases a.resources.lookup (a.attached n).resource with
  | none => exact hstart
  | some r =>
      dsimp only
      split
      · exact hstart
      · have hexit := cancelReadEA_exits env n (a.attached n).resource a
        refine keeps_bind (fun hnone => ?_) fun _ hsome => ?_
        · rw [hnone] at hexit
          cases hexit with
          | refused hquiet => exact hstart.uneventful hquiet
        · rw [hsome] at hexit
          generalize (cancelReadEA env n (a.attached n).resource a).2 = b at hexit
          cases hexit with
          | idle hnone =>
              rw [hnone] at hread
              cases hread
          | @ended c rd _ _ hquiet =>
              rw [hfree n hread, ensure_true_bind_apply, modify_apply]
              have hended := hquiet.owing_release ha hread rd
              rw [hkey] at hended
              refine ⟨hended.notifyComplete, ?_⟩
              exact IsTrans.trans _ _ _ (hquiet.drains_release n rd) (.of_same rfl rfl)

end AgentM

/-- The session `key` is still the one that had the list of `s`, while its reads end. -/
structure Finalizing (key : ClientSessionKey) (s : ClientSession) (a₀ a : Agent) : Prop where
  noticed : Noticed a₀ a
  session : ∃ s', a.sessions.lookup key = some s' ∧ s'.resources = s.resources ∧
    s'.deleted = s.deleted

namespace Finalizing

variable {key : ClientSessionKey} {s : ClientSession} {a₀ a b : Agent}

theorem session_eq (h : Finalizing key s a₀ a) {n : ℕ} (hn : n ∈ s.resources) :
    (a.attached n).session = key := by
  obtain ⟨s', hs', hlist, -⟩ := h.session
  exact (h.noticed.owing.owned key s' hs' n (hlist ▸ hn)).2

theorem next (h : Finalizing key s a₀ a) (hn : Noticed a b) (hs : SameOutlines a b) :
    Finalizing key s a₀ b := by
  obtain ⟨s', hs', hlist, hdel⟩ := h.session
  obtain ⟨s'', hs'', hlist', hdel'⟩ := hs.exists_session hs'
  exact ⟨h.noticed.trans hn, s'', hs'', hlist'.trans hlist, hdel'.trans hdel⟩

end Finalizing

namespace AgentM

variable {env : Env} {a : Agent}

/-- The second loop of finalizing a session. -/
theorem detachOnCloseEA_noticed (env : Env) {key : ClientSessionKey} {n : ℕ}
    (ha : Owing [] [] a)
    (hkey : (a.attached n).session = key) (hfree : a.Releasable env .detach) :
    DetachedExit a n (detachOnCloseEA env key n a).1 (detachOnCloseEA env key n a).2 := by
  unfold detachOnCloseEA
  rw [read_bind_apply]
  obtain ⟨hb, hidle⟩ := detachResourceEA_noticed env key n false true
    ha (fun _ => hkey) (hfree n)
  refine exits_bind (fun _ => .failed hb) fun _ hres => ?_
  rw [hres] at hidle
  generalize (detachResourceEA env key n false true a).2 = b at hb hidle
  have hquiet : Uneventful b (b.notify (.resourceDeleted key (a.attached n).id)) :=
    .notify b fun _ _ => ⟨by simp, by simp⟩
  exact ⟨hb.uneventful hquiet, fun _ => hquiet.idle (hidle rfl)⟩

theorem detachOnCloseEA_sameOutlines (key : ClientSessionKey) (n : ℕ) :
    Within SameOutlines (detachOnCloseEA env key n) :=
  .read fun _ => .bind (detachResourceEA_sameOutlines key n false true) fun _ =>
    .modify fun _ => .of_sessions rfl

/-- Finalizing a session ends its reads one by one. When it returns, the session is
deleted and no read is left on its attached resources. -/
theorem finalizeSessionEA_noticed (env : Env) (key : ClientSessionKey) (ha : Owing [] [] a)
    (hfinal : a.Releasable env .finalizeSession) (hdetach : a.Releasable env .detach) :
    Noticed a (finalizeSessionEA env key a).2 ∧
      ((finalizeSessionEA env key a).1.isSome = true → ∀ s,
        (finalizeSessionEA env key a).2.sessions.lookup key = some s → s.deleted = true ∧
          ∀ n ∈ s.resources, ((finalizeSessionEA env key a).2.attached n).readReq = none) := by
  let K := fun (res : Option Unit) b => Noticed a b ∧ (res.isSome = true → ∀ s,
    b.sessions.lookup key = some s → s.deleted = true ∧
      ∀ n ∈ s.resources, (b.attached n).readReq = none)
  have hfailed : ∀ {b}, Noticed a b → K none b := fun hb => ⟨hb, by simp⟩
  have hstart := Noticed.start ha
  change K (finalizeSessionEA env key a).1 (finalizeSessionEA env key a).2
  unfold finalizeSessionEA
  rw [read_bind_apply]
  refine exits_require (hfailed hstart) fun s hs => ?_
  refine exits_ensure (hfailed hstart) fun hdeleted => ?_
  have hopen : Finalizing key s a a := ⟨hstart, s, hs, rfl, rfl⟩
  have hreads : Preserves (Finalizing key s a)
    (forEach s.resources fun n => endReadEA env key n) := by
    refine .forEach fun n hn b hb => ?_
    refine hb.next (endReadEA_noticed hb.noticed.owing (hb.session_eq hn)
      (hfinal.mono hb.noticed.drains)) (endReadEA_frame env key n b).session
  have hb := hreads a hopen
  refine exits_bind (fun _ => hfailed hb.noticed) fun _ _ => ?_
  generalize (forEach s.resources (fun n => endReadEA env key n) a).2 = b at hb
  have hround : ∀ n ∈ s.resources, ∀ c, Finalizing key s a c →
      DetachedExit c n (detachOnCloseEA env key n c).1 (detachOnCloseEA env key n c).2 ∧
        Finalizing key s a (detachOnCloseEA env key n c).2 := by
    intro n hn c hc
    have hd := detachOnCloseEA_noticed env hc.noticed.owing (hc.session_eq hn)
      (hdetach.mono hc.noticed.drains)
    exact ⟨hd, hc.next hd.1 (detachOnCloseEA_sameOutlines key n c)⟩
  have hdetached : Preserves (Finalizing key s a)
      (forEach s.resources fun n => detachOnCloseEA env key n) :=
    .forEach fun n hn c hc => (hround n hn c hc).2
  have hc := hdetached b hb
  refine exits_bind (fun _ => hfailed hc.noticed) fun _ hres => ?_
  have hidle : ∀ n ∈ s.resources,
      ((forEach s.resources (fun n => detachOnCloseEA env key n) b).2.attached n).readReq =
        none := by
    have hyield := forEach_yields (f := fun n => detachOnCloseEA env key n)
      (I := fun l c => Finalizing key s a c ∧ (∀ n ∈ l, n ∈ s.resources) ∧
        ∀ n ∈ s.resources, n ∈ l ∨ (c.attached n).readReq = none)
      (fun n l c d hI hres => ?_) s.resources
      ⟨hb, fun _ hn => hn, fun _ hn => .inl hn⟩ (eq_of_fst_eq_some hres)
    · exact fun n hn => (hyield.2.2 n hn).resolve_left List.not_mem_nil
    · obtain ⟨hI, hsub, hrest⟩ := hI
      obtain ⟨hd, hnext⟩ := hround n (hsub n List.mem_cons_self) c hI
      rw [hres] at hd hnext
      refine ⟨hnext, fun m hm => hsub m (List.mem_cons_of_mem _ hm), fun m hm => ?_⟩
      rcases hrest m hm with hm | hm
      · rcases List.mem_cons.1 hm with rfl | hm
        · exact .inr (hd.2 rfl)
        · exact .inl hm
      · exact .inr (hd.1.drains.idle hm)
  generalize (forEach s.resources (fun n => detachOnCloseEA env key n) b).2 = c at hc hidle
  rw [modify_bind_apply]
  have hframe := ReadFrame.drainSamples c key
  have hquiet : Uneventful c (c.drainSamples key) := by
    refine .of_readFrame hframe (fun n => ?_) (.of_same ?_)
    · unfold Agent.drainSamples
      split <;> rfl
    · unfold Agent.drainSamples
      split <;> rfl
  have hdrained := hc.next ((Noticed.start hc.noticed.owing).uneventful hquiet) hframe.session
  rw [onlyIf_ensure]
  refine ⟨hdrained.noticed, fun _ s' hs' => ?_⟩
  obtain ⟨s₁, hs₁, hlist, hdel⟩ := hdrained.session
  have hsame : s₁ = s' := Option.some.inj (hs₁.symm.trans hs')
  rw [← hsame, hlist, hdel]
  exact ⟨hdeleted, fun n hn => hquiet.idle (hidle n hn)⟩

theorem releaseFinalizedEA_noticed {key : ClientSessionKey} (timedout : Bool)
    (ha : Owing [] [] a) (hdone : ∀ s, a.sessions.lookup key = some s → s.deleted = true ∧
      ∀ n ∈ s.resources, (a.attached n).readReq = none) :
    Noticed a (releaseFinalizedEA env key timedout a).2 := by
  have hstart := Noticed.start ha
  unfold releaseFinalizedEA
  cases timedout with
  | true =>
      rw [if_pos rfl]
      refine keeps_ensure hstart fun _ => keeps_ensure hstart fun _ => ?_
      rw [modify_bind_apply, modify_apply]
      have herased : Noticed a (a.eraseSession key) := by
        refine ⟨ha.eraseSession fun n hn => ?_, .eraseSession a key⟩
        rw [← Option.not_isSome_iff_eq_none]
        intro hread
        obtain ⟨-, s, hs, hmem⟩ := ha.linked n hread
        rw [hn] at hs
        rw [(hdone s hs).2 n hmem] at hread
        cases hread
      exact herased.uneventful (.notify _ fun _ _ => ⟨by simp, by simp⟩)
  | false =>
      rw [if_neg Bool.false_ne_true, modify_bind_apply]
      exact ⟨ha.giveCleanup hdone, .updateSession a key fun _ hd => hd⟩

theorem cleanupSessionEA_noticed {key : ClientSessionKey} (ha : Owing [] [] a)
    (hfinal : a.Releasable env .finalizeSession) (hdetach : a.Releasable env .detach) :
    Noticed a (cleanupSessionEA env key a).2 := by
  have hstart := Noticed.start ha
  unfold cleanupSessionEA
  refine keeps_ensure hstart fun _ => ?_
  rw [read_bind_apply]
  cases a.sessions.lookup key with
  | none => exact hstart
  | some s =>
      refine keeps_onlyIf hstart fun _ => ?_
      obtain ⟨hb, hdone⟩ := finalizeSessionEA_noticed env key ha hfinal hdetach
      refine keeps_bind (fun _ => hb) fun _ hres => hb.trans ?_
      exact releaseFinalizedEA_noticed s.timedout hb.owing (hdone (by rw [hres]; rfl))

theorem onCleanupSessions_noticed (ha : Owing [] [] a)
    (hfinal : a.Releasable env .finalizeSession) (hdetach : a.Releasable env .detach) :
    Owing [] [] (onCleanupSessions env a).2 := by
  unfold onCleanupSessions
  refine keeps_ensure ha fun _ => keeps_ensure ha fun _ => ?_
  rw [modify_bind_apply, read_bind_apply]
  have hb : Noticed a { a with condCleanupSessions := false } :=
    (Noticed.start ha).uneventful (.of_same rfl rfl (.of_same rfl))
  have hloop : Preserves (Noticed a) (forEach a.sessionKeys fun key => cleanupSessionEA env key) :=
    .forEach fun key _ b hb => hb.trans (cleanupSessionEA_noticed hb.owing
      (hfinal.mono hb.drains) (hdetach.mono hb.drains))
  exact (hloop _ hb).owing

/-- A round of the clean-up of resources. -/
theorem cleanupResourceEA_noticed {key : ClientSessionKey} {n : ℕ} (ha : Owing [] [] a)
    (hkey : (a.attached n).session = key) (hfree : a.Releasable env .detach) :
    Noticed a (cleanupResourceEA env key n a).2 := by
  have hstart := Noticed.start ha
  unfold cleanupResourceEA
  rw [read_bind_apply]
  refine keeps_lookupResource hstart fun _ => keeps_require hstart fun r _ => ?_
  refine keeps_ensure hstart fun _ => keeps_onlyIf hstart fun _ => ?_
  have hb := (detachResourceEA_noticed env key n true true ha
    (fun _ => hkey) (hfree n)).1
  exact keeps_bind (fun _ => hb) fun _ _ =>
    hb.uneventful (.notify _ fun _ _ => ⟨by simp, by simp⟩)

theorem cleanupResourceEA_sameOutlines (key : ClientSessionKey) (n : ℕ) :
    Within SameOutlines (cleanupResourceEA env key n) :=
  .read fun _ => .bind (lookupResource_frame _ _ _) fun _ => .bind (.require _) fun _ =>
    .bind (.ensure _) fun _ => .onlyIf fun _ =>
      .bind (detachResourceEA_sameOutlines key n true true) fun _ =>
        .modify fun _ => .of_sessions rfl

theorem link_noticed {a₀ : Agent} (h : Noticed a₀ a) (key : ClientSessionKey) (id : ℕ)
    (rid : ResourceId) (r : Resource) : Noticed a₀ (a.link key id rid r) := by
  refine ⟨h.owing.link key id rid r, IsTrans.trans _ _ _ h.drains ?_⟩
  refine .takeAttached a (x := .initial r.kind r.id id key) rfl rfl fun key' s' hs' => ?_
  change (a.sessions.modify key _).lookup key' = some s' at hs'
  rw [AList.lookup_modify] at hs'
  split at hs'
  · obtain ⟨s, hs, rfl⟩ := Option.map_eq_some_iff.1 hs'
    exact ⟨s, hs, fun hd => hd⟩
  · exact ⟨s', hs', fun hd => hd⟩

theorem accept_uneventful (n : ℕ) (u : Option ℕ) (key : ClientSessionKey) (id : ℕ) :
    Uneventful a ((a.updateAttached n fun x => { x with userData := u }).notify
      (.resourceCreated key id)) := by
  have hdata : Uneventful a (a.updateAttached n fun x => { x with userData := u }) :=
    .updateAttached a n (fun _ => rfl) fun _ => rfl
  exact IsTrans.trans _ _ _ hdata (.notify _ fun _ _ => ⟨by simp, by simp⟩)

/-- Attaching resources ends no read. -/
theorem attachSteps_noticed (env : Env) (a₀ : Agent) : AttachSteps env (Noticed a₀) where
  leak hx h := ⟨h.owing.leak hx, IsTrans.trans _ _ _ h.drains
    (.takeAttached _ hx rfl fun _ s hs => ⟨s, hs, id⟩)⟩
  link key id rid r h := link_noticed h key id rid r
  enable key id rid r h _ _ _ :=
    (link_noticed h key id rid r).uneventful (.of_native (enableResourceEA_nativeFrame env rid _))
  accept n u key id h := h.uneventful (accept_uneventful n u key id)
  refuse key n id _ h hidle := by
    refine h.trans (detachResourceEA_noticed env key n false false h.owing ?_ ?_).1
    · rw [hidle]
      exact fun hread => by cases hread
    · rw [hidle]
      exact fun hread => by cases hread

theorem onCleanupResources_noticed (ha : Owing [] [] a) (hdetach : a.Releasable env .detach) :
    Owing [] [] (onCleanupResources env a).2 := by
  unfold onCleanupResources
  refine keeps_ensure ha fun _ => ?_
  rw [modify_bind_apply]
  have hb : Noticed a { a with condCleanupResources := false } :=
    (Noticed.start ha).uneventful (.of_same rfl rfl (.of_same rfl))
  refine keeps_ensure hb.owing fun _ => ?_
  rw [read_bind_apply]
  refine Noticed.owing ((show Preserves (Noticed a) (forEach _ _) from ?_) _ hb)
  refine .forEach fun key _ => .bind (.ensure _) fun _ => ?_
  intro b hb
  rw [read_bind_apply]
  cases hs : b.sessions.lookup key with
  | none => exact hb
  | some s =>
      have hrounds : Preserves (Finalizing key s a)
          (forEach s.resources fun n => cleanupResourceEA env key n) := by
        refine .forEach fun n hn c hc => ?_
        exact hc.next (cleanupResourceEA_noticed hc.noticed.owing (hc.session_eq hn)
          (hdetach.mono hc.noticed.drains)) (cleanupResourceEA_sameOutlines key n c)
      have hc := (hrounds b ⟨hb, s, hs, rfl, rfl⟩).noticed
      exact keeps_bind (fun _ => hc) fun _ _ =>
        attachAllResourcesToSessionEA_steps (attachSteps_noticed env a) key _ hc

/-- A new session that could not be opened is removed without any read on it. -/
theorem openNewSession_noticed {src : ℕ} {key : ClientSessionKey} {timeout : ℕ} {data : Option ℕ}
    (ha : Owing [] [] a) (hnew : a.sessions.lookup key = none) :
    Owing [] [] (openNewSession env src key timeout data a).2 := by
  unfold openNewSession
  rw [modify_bind_apply]
  have hinsert : Owing [] [] (a.insertSession key (.initial src timeout data)) :=
    ha.insertSession hnew rfl rfl
  have hempty : ∀ n, ((a.insertSession key (.initial src timeout data)).attached n).readReq.isSome =
      true → ((a.insertSession key (.initial src timeout data)).attached n).session ≠ key := by
    intro n hread heq
    obtain ⟨-, s, hs, -⟩ := ha.linked n hread
    rw [show (a.attached n).session = key from heq, hnew] at hs
    cases hs
  generalize a.insertSession key (.initial src timeout data) = b at hinsert hempty
  have hpopulate : Preserves (Noticed b) (populateSession env key) :=
    .bind (.ensure _) fun _ => .bind (.ensure _) fun _ =>
      .bind (attachAllResourcesToSessionEA_steps (attachSteps_noticed env b) key) fun _ => .ensure _
  have hc := hpopulate b (.start hinsert)
  refine keeps_onFailure hc.owing fun _ => keeps_onlyIf hc.owing fun _ => ?_
  refine hc.owing.eraseSession fun n hn => ?_
  rw [← Option.not_isSome_iff_eq_none]
  intro hread
  obtain ⟨hread, -, hsession⟩ := hc.drains.reading n hread
  exact hempty n hread (hsession.symm.trans hn)

theorem disposeSessionEA_uneventful (key : ClientSessionKey) (s : ClientSession) :
    Within Uneventful (disposeSessionEA env key s) := by
  refine .ite (fun _ => .pure _) fun _ => .bind (.modify fun b => ?_) fun _ => ?_
  · exact .updateSession b key (fun _ => rfl) fun _ => ⟨fun h => h, fun _ => rfl⟩
  · exact .bind (.ensure _) fun _ => .modify fun b => .of_same rfl rfl (.of_same rfl)

theorem closeSession_uneventful (src : ℕ) (key : ClientSessionKey) :
    Within Uneventful (closeSession env src key) :=
  .bind (.ensure _) fun _ => .bind (.ensure _) fun _ => .read fun _ => .bind (.require _) fun s =>
    .bind (.ensure _) fun _ => .bind (.ensure _) fun _ => disposeSessionEA_uneventful key s

/-- The closer of a session goes on when no read is left on it. -/
theorem finishCloseSession_owing {key : ClientSessionKey} (ha : Owing [] [] a) :
    Owing [] [] (finishCloseSession env key a).2 := by
  unfold finishCloseSession
  rw [read_bind_apply]
  refine keeps_require ha fun s hs => keeps_ensure ha fun hsem => keeps_ensure ha fun _ => ?_
  rw [modify_bind_apply]
  have hb : Owing [] [] (a.updateSession key fun s => { s with semCleanup := false }) :=
    ha.uneventful (.updateSession a key (fun _ => rfl) fun _ => ⟨fun h => (by cases h), fun h => h⟩)
  have hidle : ∀ n, (a.attached n).session = key → (a.attached n).readReq = none := by
    intro n hn
    rw [← Option.not_isSome_iff_eq_none]
    intro hread
    obtain ⟨-, s', hs', hmem⟩ := ha.linked n hread
    rw [hn, hs] at hs'
    obtain rfl := Option.some.inj hs'
    rw [(ha.closing key s hs hsem).2 n hmem] at hread
    cases hread
  refine keeps_ensure hb fun _ => keeps_ensure hb fun _ => ?_
  rw [modify_bind_apply]
  have hc := hb.eraseSession hidle
  refine keeps_ensure hc fun _ => ?_
  exact hc.uneventful (.notify _ fun _ _ => ⟨by simp, by simp⟩)

end AgentM

/-- The read of the attached resource `n` can be ended: its record is found, and no call of
ending it fails. -/
def Agent.endsRead (env : Env) (a : Agent) (n : ℕ) : Bool :=
  a.locates env .cancelReadI n && match (a.attached n).readReq with
    | none => true
    | some rd => a.cancels env (a.attached n).resource rd

namespace AgentM

variable {env : Env} {a : Agent}

/-- Cancelling the read of `n` fails without doing anything to it, or ends it. -/
theorem cancelReadI_ended (env : Env) {n : ℕ} (hread : (a.attached n).readReq.isSome = true) :
    (Uneventful a (cancelReadI env n a).2 ∧ (cancelReadI env n a).1 = none) ∨
      a.endsRead env n = true ∧ (cancelReadI env n a).1 = some () ∧ ∃ b rd, Uneventful a b ∧
        (cancelReadI env n a).2 = b.releaseRead n rd := by
  obtain ⟨hexit, hfound⟩ := cancelReadI_exits env n a
  rcases hx : cancelReadI env n a with ⟨res, b⟩
  rw [hx] at hexit hfound
  dsimp only at hexit hfound ⊢
  cases hexit with
  | idle hnone =>
      rw [hnone] at hread
      cases hread
  | refused hquiet => exact .inl ⟨hquiet, rfl⟩
  | @ended c rd hrd hcancels hquiet =>
      refine .inr ⟨?_, rfl, c, rd, hquiet, rfl⟩
      rw [Agent.endsRead, hfound rfl, hrd]
      exact hcancels

/-- The loans that are returned in a callback announce the reads that they end. -/
theorem returnLoans_owing {i : Operation × Env} {src : ℕ} {key : ClientSessionKey}
    {c : LoanCallback} {b : Agent} (hcall : a.CallsBack i src key c b)
    (hnotified : a.LoansNotified i) (hb : Owing [] [] b) :
    Owing [] [] (returnLoans i.2 src key c b).2 :=
  returnLoans_keeps hb fun _ _ hturn ht =>
    returnLoan_owing ht (hnotified _ _ _ _ _ (.callback hcall hturn))

/-- The reads of a session that is reset are cancelled in turn, up to the first of them when it
cannot be ended. -/
theorem cancelReads_owing {l : List ℕ} (ha : Owing [] [] a)
    (hstuck : ∀ n, l.find? (fun n => (a.attached n).readReq.isSome) = some n →
      a.endsRead env n = false) :
    Owing [] [] (forEach l (fun n => (do
      let a ← read
      onlyIf (a.attached n).readReq.isSome (cancelReadI env n) : AgentM Unit)) a).2 := by
  refine (forEach_until (I := (· = a)) (p := fun n => (a.attached n).readReq.isSome)
    (fun t ht => ht ▸ ha) rfl (fun n t _ hn ht => ?_) fun n t _ hn ht => ?_).1
  · rw [ht, read_bind_apply, hn]
    rfl
  · have hread : (a.attached n).readReq.isSome = true :=
      List.find?_some (p := fun n => (a.attached n).readReq.isSome) hn
    rw [ht, read_bind_apply, hread, onlyIf_true]
    rcases cancelReadI_ended env hread with ⟨hquiet, hfail⟩ | ⟨hyes, -⟩
    · exact ⟨ha.uneventful hquiet, hfail⟩
    · rw [hstuck n hn] at hyes
      cases hyes

/-- A session is reset when the first read that is left by the callback cannot be ended. -/
theorem resetSession_owing {src timeout : ℕ} {data : Option ℕ} {key : ClientSessionKey}
    {s : ClientSession} (ha : Owing [] [] a) (hs : a.sessions.lookup key = some s)
    (hinsert : env.ok (.insertSession key) = true)
    (hnotified : a.LoansNotified (.openSession src key timeout data, env))
    (hstuck : s.active = true → s.intf = src → env.ok (.onSessionReset key) = true → ∀ n,
      s.resources.find? (fun n => ((a.atResetReturn env src key).attached n).readReq.isSome) =
        some n → (a.atResetReturn env src key).endsRead env n = false) :
    Owing [] [] (resetSession env src key s a).2 := by
  have hquiet : ∀ (b : Agent) (f : ClientSession → ClientSession),
      (∀ s, (f s).resources = s.resources) → (∀ s, (f s).semCleanup = s.semCleanup) →
      (∀ s, (f s).deleted = s.deleted) → Uneventful b (b.updateSession key f) := by
    intro b f hres hsem hdel
    exact .updateSession b key hres fun s => ⟨fun h => hsem s ▸ h, fun h => (hdel s).symm ▸ h⟩
  unfold resetSession
  refine keeps_ensure ha fun hactive => ?_
  rw [modify_bind_apply]
  have hmarked := ha.uneventful (hquiet a (fun s => { s with resetting := true })
    (fun _ => rfl) (fun _ => rfl) fun _ => rfl)
  refine keeps_ensure hmarked fun hsrc => ?_
  have hsrc : s.intf = src := by simpa using hsrc
  have hcalled : Owing [] [] (a.atResetReturn env src key) :=
    returnLoans_owing (.sessionReset hinsert hs hactive hsrc) hnotified hmarked
  rw [onSessionReset, bind_bind]
  refine keeps_bind (fun _ => hcalled) fun _ _ => ?_
  change Owing [] [] ((ensure _ >>= _) (a.atResetReturn env src key)).2
  refine keeps_ensure hcalled fun hreset => ?_
  have hstuck := hstuck hactive hsrc hreset
  generalize a.atResetReturn env src key = b at hcalled hstuck
  -- the new data of the session changes nothing about its reads
  let K := fun c : Agent => Owing [] [] c ∧ (∀ n, c.attached n = b.attached n) ∧
    ∀ n, c.endsRead env n = b.endsRead env n
  have hc : K (onlyIf env.sessionData.isSome (modify fun a => a.updateSession key fun s =>
      { s with userData := env.sessionData }) b).2 := by
    refine keeps_onlyIf (I := K) ⟨hcalled, fun _ => rfl, fun _ => rfl⟩ fun _ => ?_
    exact ⟨hcalled.uneventful (hquiet b _ (fun _ => rfl) (fun _ => rfl) fun _ => rfl),
      fun _ => rfl, fun _ => rfl⟩
  refine keeps_bind (fun _ => hc.1) fun _ _ => ?_
  generalize (onlyIf env.sessionData.isSome _ _).2 = c at hc
  obtain ⟨howing, hatt, hends⟩ := hc
  have hstuckc : ∀ n, s.resources.find? (fun n => (c.attached n).readReq.isSome) = some n →
      c.endsRead env n = false := by
    intro n hn
    simp only [hatt] at hn
    rw [hends]
    exact hstuck n hn
  have hloop := cancelReads_owing howing hstuckc
  refine keeps_bind (fun _ => hloop) fun _ _ => ?_
  exact hloop.uneventful (hquiet _ _ (fun _ => rfl) (fun _ => rfl) fun _ => rfl)

theorem openSession_owing {src : ℕ} {key : ClientSessionKey} {timeout : ℕ} {data : Option ℕ}
    (ha : Owing [] [] a) (hnotified : a.LoansNotified (.openSession src key timeout data, env))
    (hstuck : ∀ s, a.sessions.lookup key = some s → s.active = true → s.intf = src →
      env.ok (.insertSession key) = true → env.ok (.onSessionReset key) = true → ∀ n,
      s.resources.find? (fun n => ((a.atResetReturn env src key).attached n).readReq.isSome) =
        some n → (a.atResetReturn env src key).endsRead env n = false) :
    Owing [] [] (openSession env src key timeout data a).2 := by
  unfold openSession
  refine keeps_ensure ha fun hinsert => ?_
  have hb : Owing [] [] (resetOrOpenSession env src key timeout data a).2 := by
    unfold resetOrOpenSession
    rw [read_bind_apply]
    cases hs : a.sessions.lookup key with
    | none => exact openNewSession_noticed ha hs
    | some s =>
        exact resetSession_owing ha hs hinsert hnotified fun hactive hsrc hreset =>
          hstuck s hs hactive hsrc hinsert hreset
  refine keeps_bind (fun _ => hb) fun _ _ => ?_
  generalize (resetOrOpenSession env src key timeout data a).2 = b at hb
  rw [read_bind_apply]
  exact keeps_require hb fun s _ => keeps_ensure hb fun _ => hb

/-- The time-out of a session ends no read but those that the loans returned in its callback
end. -/
theorem onSessionTimeout_owing {key : ClientSessionKey} (ha : Owing [] [] a)
    (hnotified : a.LoansNotified (.sessionTimeout key, env)) :
    Owing [] [] (a.step (.sessionTimeout key, env)) :=
  a.step_sessionTimeout_keeps ha
    (fun b hb => hb.uneventful (.updateSession b key (fun _ => rfl) fun _ =>
    ⟨fun h => h, fun h => h⟩))
    (fun s b hb => hb.uneventful (disposeSessionEA_uneventful key s b))
    fun _ _ _ _ _ hloan ht => returnLoan_owing ht (hnotified _ _ _ _ _ hloan)

/-- Deleting a reader ends its read first. -/
theorem endReadI_noticed (env : Env) {key : ClientSessionKey} {n id : ℕ} (ha : Owing [] [] a)
    (hkey : (a.attached n).session = key) (hid : (a.attached n).id = id) :
    DetachedExit a n (endReadI env key n id a).1 (endReadI env key n id a).2 := by
  have hstart := Noticed.start ha
  unfold endReadI
  rw [read_bind_apply]
  cases hread : (a.attached n).readReq.isSome with
  | false =>
      rw [Bool.and_false]
      exact ⟨hstart, fun _ => Option.isNone_iff_eq_none.1 (by simpa using hread)⟩
  | true =>
      rw [(ha.linked n hread).1]
      simp only [decide_true, Bool.and_self, onlyIf_true]
      rcases cancelReadI_ended env hread with ⟨hquiet, hfail⟩ | ⟨-, hyes, b, rd, hquiet, heq⟩
      · refine exits_bind (fun _ => .failed (hstart.uneventful hquiet)) fun _ hsome => ?_
        rw [hfail] at hsome
        cases hsome
      · refine exits_bind (fun hnone => ?_) fun _ _ => ?_
        · rw [hyes] at hnone
          cases hnone
        · rw [heq, modify_apply]
          have hended := hquiet.owing_release ha hread rd
          rw [hkey, hid] at hended
          refine ⟨⟨hended.notifyComplete, ?_⟩, fun _ => ?_⟩
          · exact IsTrans.trans _ _ _ (hquiet.drains_release n rd) (.of_same rfl rfl)
          · change ((b.releaseRead n rd).attached n).readReq = none
            unfold Agent.releaseRead
            rw [Agent.attached_updateAttached, if_pos rfl]

theorem deleteResource_owing {key : ClientSessionKey} {id : ℕ} (ha : Owing [] [] a) :
    Owing [] [] (deleteResource env key id a).2 := by
  refine keeps_findAttached ha fun s hs _ => ?_
  cases hfind : a.findAttachedResource s id with
  | none => exact ha
  | some n =>
      have hkey := (ha.owned key s hs n (List.mem_of_find?_eq_some hfind)).2
      have hid : (a.attached n).id = id := by
        simpa using List.find?_some (p := fun m => decide ((a.attached m).id = id)) hfind
      obtain ⟨hb, hidle⟩ := endReadI_noticed env ha hkey hid
      refine keeps_bind (fun _ => hb.owing) fun _ hres => ?_
      rw [hres] at hidle
      have hidle := hidle rfl
      generalize (endReadI env key n id a).2 = b at hb hidle
      have hc := (detachResourceEA_noticed env key n true true hb.owing
        (fun hread => by rw [hidle] at hread; cases hread)
        fun hread => by rw [hidle] at hread; cases hread).1
      refine keeps_bind (fun _ => hc.owing) fun _ _ => ?_
      rw [modify_bind_apply]
      exact hc.owing.uneventful (.notify _ fun _ _ => ⟨by simp, by simp⟩)

theorem cancelRead_owing {key : ClientSessionKey} {id : ℕ} (ha : Owing [] [] a)
    (hread : ∀ n, Addressed a key id n → (a.attached n).kind = .dataReader →
      (a.attached n).readReq = none → a.locates env .cancelReadI n = false) :
    Owing [] [] (cancelRead env key id a).2 := by
  refine keeps_findAttachedReader ha fun s n hs hactive hfind hkind => ?_
  have hread := hread n ⟨s, hs, hactive, hfind⟩ hkind
  have hkey := (ha.owned key s hs n (List.mem_of_find?_eq_some hfind)).2
  have hid : (a.attached n).id = id := by
    simpa using List.find?_some (p := fun m => decide ((a.attached m).id = id)) hfind
  obtain ⟨hexit, hfound⟩ := cancelReadI_exits env n a
  refine keeps_bind (fun hnone => ?_) fun _ hsome => ?_
  · rw [hnone] at hexit
    cases hexit with
    | refused hquiet => exact ha.uneventful hquiet
  · have hfound := hfound hsome
    rw [hsome] at hexit
    generalize (cancelReadI env n a).2 = b at hexit
    cases hexit with
    | idle hnone =>
        rw [hread hnone] at hfound
        cases hfound
    | @ended c rd hrd _ hquiet =>
        have hended := hquiet.owing_release ha (by rw [hrd]; rfl) rd
        rw [hkey, hid] at hended
        exact hended.notifyComplete


end AgentM

namespace AgentM

variable {env : Env} {a : Agent}

theorem RegFrame.uneventful {a b : Agent} (hf : ReadFrame a b) (hr : RegFrame a b)
    (hc : Notifies Callback.Plain a b) : Uneventful a b :=
  .of_readFrame hf hr.readReq hc

theorem writeData_uneventful (key : ClientSessionKey) (id : ℕ) :
    Uneventful a (writeData env key id a).2 :=
  RegFrame.uneventful (writeData_frame env key id a) (writeData_regFrame env key id a)
    (writeData_notifies env (fun _ _ => ⟨by simp, by simp⟩) a)

theorem onDataOnReader_uneventful (rd : ℕ) : Uneventful a (onDataOnReader env rd a).2 :=
  RegFrame.uneventful (onDataOnReader_frame env rd a) (onDataOnReader_regFrame env rd a)
    (onDataOnReader_notifies env rd (fun _ _ _ _ => ⟨by simp, by simp⟩) a)

end AgentM

/-- No call of enabling the resource of the record `rid` fails. -/
def Agent.enables (env : Env) (a : Agent) (rid : ResourceId) : Bool :=
  match a.resources.lookup rid with
  | none => false
  | some r => !r.kind.isEntity || match r.native with
    | none => false
    | some ptr => env.ok (.ddsEntity .enable r.kind ptr)

/-- Creating the attached resource `n` again ends its read `rd`. -/
def Agent.recreationEnds (env : Env) (a : Agent) (q : CreateRequest) (n rd : ℕ) : Prop :=
  q.reuse = true ∧ (∃ r, a.resources.lookup (a.attached n).resource = some r ∧
    ResourceRepresentation.convertTo q.repr r.createRepr = some q.repr) ∧
    a.cancels env (a.attached n).resource rd = true

/-- Nothing fails between the end of the read and its notification. -/
def Agent.finishesCreation (env : Env) (a : Agent) (rid : ResourceId) : Bool :=
  a.enables env rid && env.ok (.releaseResource .create rid) && env.ok (.unlockResources .create)

namespace AgentM

variable {env : Env} {a : Agent}

theorem enableResourceEA_isSome (env : Env) (a : Agent) (rid : ResourceId) :
    (enableResourceEA env rid a).1.isSome = a.enables env rid := by
  unfold enableResourceEA Agent.enables
  rw [read_bind_apply]
  cases a.resources.lookup rid with
  | none => rfl
  | some r =>
      cases hk : r.kind.isEntity with
      | false => simp [bind_apply, hk]
      | true =>
          cases hn : r.native with
          | none => simp [bind_apply, hk, hn, access]
          | some ptr =>
              cases hok : env.ok (.ddsEntity .enable r.kind ptr) <;>
                simp [bind_apply, hk, hn, access, ensure, hok]

/-- What obtaining an attached resource leaves to be announced, when it returns one. -/
def OwedExit (env : Env) (key : ClientSessionKey) (res : Option (ℕ × ResourceId × Bool))
    (b : Agent) : Prop :=
  (res = none → Owing [] [] b) ∧ ∀ v, res = some v → (b.attached v.1).readReq = none ∧
    (v.2.2 = false → Owing [] [] b) ∧ (v.2.2 = true →
      Owing [] [(key, (b.attached v.1).id)] b ∧ b.finishesCreation env v.2.1 = true)

theorem OwedExit.failed {key : ClientSessionKey} {b : Agent} (h : Owing [] [] b) :
    OwedExit env key none b :=
  ⟨fun _ => h, fun _ hv => by cases hv⟩

theorem owedExit_reused {key : ClientSessionKey} {q : CreateRequest} {n : ℕ}
    (ha : Owing [] [] a) (hkey : (a.attached n).session = key)
    (hfinish : ∀ rd, (a.attached n).readReq = some rd → a.recreationEnds env q n rd →
      a.finishesCreation env (a.attached n).resource = true) :
    OwedExit env key (obtainAttachedEA env key q (some n) a).1
      (obtainAttachedEA env key q (some n) a).2 := by
  let K := fun (res : Option (ResourceId × Bool)) b =>
    OwedExit env key (res.map fun reused => (n, reused)) b
  have hfailed : ∀ {b}, Owing [] [] b → K none b := fun hb => .failed hb
  have hreuse : K (reuseAttachedEA env n q a).1 (reuseAttachedEA env n q a).2 := by
    unfold reuseAttachedEA
    rw [read_bind_apply]
    refine exits_lookupResource (hfailed ha) fun _ => exits_require (hfailed ha) fun r hr => ?_
    refine exits_ensure (hfailed ha) fun hreuse =>
      exits_require (hfailed ha) fun existing hconv => ?_
    refine exits_ensure (hfailed ha) fun _ => exits_ensure (hfailed ha) fun hsame => ?_
    have hsame : existing = q.repr := by simpa using hsame
    cases hrd : (a.attached n).readReq with
    | none =>
        refine ⟨fun h => (by cases h), fun v hv => ?_⟩
        obtain rfl := Option.some.inj hv
        exact ⟨hrd, fun _ => ha, fun h => by cases h⟩
    | some rd =>
        rw [Option.isSome_some, onlyIf_true]
        have hexit := cancelReadEA_exits env n (a.attached n).resource a
        have hres := (cancelReadEA_frame env n (a.attached n).resource a).resources
        refine exits_bind (fun hnone => ?_) fun _ hsome => ?_
        · rw [hnone] at hexit
          cases hexit with
          | refused hquiet => exact hfailed (ha.uneventful hquiet)
        · rw [hsome] at hexit
          generalize (cancelReadEA env n (a.attached n).resource a).2 = b at hexit hres
          cases hexit with
          | idle hnone =>
              rw [hrd] at hnone
              cases hnone
          | @ended c rd' hrd' hcancels hquiet =>
              obtain rfl : rd = rd' := Option.some.inj (hrd.symm.trans hrd')
              have hended := hquiet.owing_release ha (by rw [hrd]; rfl) rd
              have hatt : (c.releaseRead n rd).attached n =
                  { c.attached n with readReq := none } := by
                unfold Agent.releaseRead
                rw [Agent.attached_updateAttached, if_pos rfl]
                rfl
              refine ⟨fun h => (by cases h), fun v hv => ?_⟩
              obtain rfl := Option.some.inj hv
              refine ⟨congrArg (·.readReq) hatt, fun h => (by cases h), fun _ => ⟨?_, ?_⟩⟩
              · rw [hatt]
                rw [hkey, ← hquiet.id_eq] at hended
                exact hended
              · rw [Agent.finishesCreation, Agent.enables, hres]
                exact hfinish rd hrd ⟨hreuse, ⟨r, hr, by rw [hconv, hsame]⟩, hcancels⟩
  refine exits_bind (fun hnone => ?_) fun v hv => ?_
  · rw [hnone] at hreuse
    exact hreuse
  · rw [hv] at hreuse
    exact hreuse

theorem owedExit_new {key : ClientSessionKey} {q : CreateRequest} (ha : Owing [] [] a) :
    OwedExit env key (obtainAttachedEA env key q none a).1
      (obtainAttachedEA env key q none a).2 := by
  have hb : Owing [] [] (insertResourceRecordEA env q a).2 :=
    ha.uneventful (.of_recordFrame (insertResourceRecordEA_recordFrame env q a))
  refine exits_bind (fun _ => .failed hb) fun inserted _ => ?_
  generalize (insertResourceRecordEA env q a).2 = b at hb
  refine exits_require (.failed hb) fun rid _ => ?_
  have hc := attachResourceToSessionEA_steps (attachSteps_noticed env b) key q.id rid b
    (.start hb)
  refine exits_bind (fun _ => .failed hc.owing) fun n hn => ⟨fun h => (by cases h), fun v hv => ?_⟩
  obtain rfl := Option.some.inj hv
  refine ⟨?_, fun _ => hc.owing, fun h => by cases h⟩
  obtain ⟨r, -, -, rfl, heq⟩ := exists_of_attachResourceToSessionEA (eq_of_fst_eq_some hn)
  rw [heq, pure_apply, Agent.attached_link_self]
  rfl

theorem finishCreateEA_owing {key : ClientSessionKey} {n : ℕ} {rid : ResourceId}
    {cancelled : Bool} (hnew : cancelled = false → Owing [] [] a)
    (hreused : cancelled = true → Owing [] [(key, (a.attached n).id)] a ∧
      a.finishesCreation env rid = true) :
    Owing [] [] (finishCreateEA env key n rid cancelled a).2 := by
  have hquiet : Uneventful a (enableResourceEA env rid a).2 :=
    .of_native (enableResourceEA_nativeFrame env rid a)
  have henables := enableResourceEA_isSome env a rid
  cases cancelled with
  | false =>
      have hb := (hnew rfl).uneventful hquiet
      exact keeps_bind (fun _ => hb) fun _ _ => keeps_ensure hb fun _ => keeps_ensure hb fun _ => hb
  | true =>
      obtain ⟨ha, hfinish⟩ := hreused rfl
      rw [Agent.finishesCreation, Bool.and_eq_true, Bool.and_eq_true] at hfinish
      obtain ⟨⟨hen, hrelease⟩, hunlock⟩ := hfinish
      rw [hen] at henables
      refine keeps_bind (fun hnone => ?_) fun _ _ => ?_
      · rw [hnone] at henables
        cases henables
      · rw [hrelease, hunlock, ensure_true_bind_apply, ensure_true_bind_apply, onlyIf_true,
          modify_apply, hquiet.id_eq]
        exact (ha.uneventful hquiet).notifyComplete

/-- Creating a resource announces the end of the read of a reused one. -/
theorem createResourceEA_owing (env : Env) {key : ClientSessionKey} (q : CreateRequest)
    (ha : Owing [] [] a)
    (hfinish : ∀ s n rd, a.sessions.lookup key = some s →
      a.findAttachedResource s q.id = some n → (a.attached n).readReq = some rd →
      a.recreationEnds env q n rd → a.finishesCreation env (a.attached n).resource = true) :
    Owing [] [] (createResourceEA env key q a).2 ∧
      ∀ n, (createResourceEA env key q a).1 = some n →
        ((createResourceEA env key q a).2.attached n).readReq = none := by
  let K := fun (res : Option ℕ) b => Owing [] [] b ∧ ∀ n, res = some n →
    (b.attached n).readReq = none
  have hfailed : ∀ {b}, Owing [] [] b → K none b := fun hb => ⟨hb, by simp⟩
  change K (createResourceEA env key q a).1 (createResourceEA env key q a).2
  unfold createResourceEA
  rw [read_bind_apply]
  refine exits_require (hfailed ha) fun s hs => ?_
  have hsame : (checkCreate s q a).2 = a := (checkCreate_frame (R := Eq) s q a).symm
  refine exits_bind (fun _ => hfailed (by rw [hsame]; exact ha)) fun found hcheck => ?_
  obtain ⟨-, hfind⟩ := find_of_checkCreate (eq_of_fst_eq_some hcheck)
  rw [hsame]
  refine exits_ensure (hfailed ha) fun _ => ?_
  have hobtained : OwedExit env key (obtainAttachedEA env key q found a).1
      (obtainAttachedEA env key q found a).2 := by
    cases found with
    | none => exact owedExit_new ha
    | some n =>
        have hn := hfind n rfl
        exact owedExit_reused ha (ha.owned key s hs n (List.mem_of_find?_eq_some hn)).2
          fun rd => hfinish s n rd hs hn
  refine exits_bind (fun hnone => hfailed (hobtained.1 hnone)) fun v hv => ?_
  obtain ⟨hidle, hnew, hreused⟩ := hobtained.2 v hv
  generalize (obtainAttachedEA env key q found a).2 = b at hidle hnew hreused
  have hc : Owing [] [] (finishCreateEA env key v.1 v.2.1 v.2.2 b).2 :=
    finishCreateEA_owing hnew hreused
  have hreg := finishCreateEA_regFrame env key v.1 v.2.1 v.2.2 b
  refine exits_bind (fun _ => hfailed hc) fun _ _ => ⟨hc, fun n hn => ?_⟩
  obtain rfl := Option.some.inj hn
  exact (hreg.readReq v.1).trans hidle

theorem createResource_owing {key : ClientSessionKey} {q : CreateRequest} (ha : Owing [] [] a)
    (hfinish : ∀ n rd, Addressed a key q.id n → (a.attached n).readReq = some rd →
      a.recreationEnds env q n rd → a.finishesCreation env (a.attached n).resource = true) :
    Owing [] [] (createResource env key q a).2 := by
  unfold createResource
  rw [read_bind_apply]
  refine keeps_require ha fun s hs => keeps_ensure ha fun hactive => ?_
  obtain ⟨hb, hidle⟩ := createResourceEA_owing env q ha fun s' n rd hs' hn => by
    obtain rfl := Option.some.inj (hs.symm.trans hs')
    exact hfinish n rd ⟨s, hs, hactive, hn⟩
  refine keeps_bind (fun _ => hb) fun n hn => ?_
  have hidle := hidle n hn
  generalize (createResourceEA env key q a).2 = b at hb hidle
  rw [read_bind_apply]
  split
  · exact hb.uneventful (accept_uneventful n _ key _)
  · refine (detachResourceEA_noticed env key n false false hb ?_ ?_).1.owing
    · rw [hidle]
      exact fun hread => by cases hread
    · rw [hidle]
      exact fun hread => by cases hread

end AgentM

/-- A read that is started on the attached resource `n` is announced or taken back: there
is no read that it ends, and once it has been taken nothing fails, or the interface refuses it
and it can be ended again. -/
structure Agent.StartsNoticed (env : Env) (a : Agent) (key : ClientSessionKey) (id n : ℕ)
    (spec : ReadSpecification) : Prop where
  replace : ∀ rd, (a.attached n).readReq = some rd → a.locates env .read n = true →
    a.cancels env (a.attached n).resource rd = false
  start : (a.attached n).readReq = none → a.locates env .read n = true →
    env.ok (.getBuffer .read n) = true → ∀ r,
    a.resources.lookup (a.attached n).resource = some r →
    env.StartsRead n a.poolReads.next spec ∧
      env.ok (.releaseResource .read (a.attached n).resource) = true ∧
      (∃ reader, r.userData = some reader ∧
        a.poolReads.next ∉ (a.readerAt reader).registered) ∧
      (env.ok (.onReadCreated key id) = true ∨ (env.EndsReads ∧ r.id ≠ .none ∧
        env.ok (.lookupResource .cancelReadI (a.attached n).resource) = true))

namespace AgentM

variable {env : Env} {a : Agent}

/-- The state in which a read was taken and registered. -/
structure ReadRegistered (a : Agent) (key : ClientSessionKey) (n reader : ℕ) (b : Agent) :
    Prop where
  uneventful : Uneventful (a.takeRead key n) b
  resources : b.resources = a.resources
  attached : b.attached n = (a.takeRead key n).attached n
  registered : a.poolReads.next ∈ (b.readerAt reader).registered
  pending : (b.readAt a.poolReads.next).hasPendingSamples = false

theorem registerReadEA_registers (key : ClientSessionKey) {n reader : ℕ} (rid : ResourceId)
    {r : Resource} {spec : ReadSpecification} (hbuffer : env.ok (.getBuffer .read n) = true)
    (henv : env.StartsRead n a.poolReads.next spec) (hstate : r.userData = some reader)
    (hnew : a.poolReads.next ∉ (a.readerAt reader).registered) :
    ∃ b, registerReadEA env key n rid r spec a = (some (), b) ∧
      ReadRegistered a key n reader b := by
  have hfilter : (!spec.contentFilterExpr.isSome || env.ok (.allocate .read n)) = true := by
    cases hf : spec.contentFilterExpr.isSome with
    | false => rfl
    | true => simpa using (henv.filter hf).1
  obtain ⟨r', hres, hreg⟩ := Reader.newRequest_registers henv hnew
  unfold registerReadEA
  simp only [onlyIf_ensure, henv.semaphore, henv.time, henv.event, hfilter, hbuffer,
    modify_bind_apply, ensure_true_bind_apply, read_bind_apply]
  have hset : Uneventful (a.takeRead key n) (((a.takeRead key n).updateRead a.poolReads.next
      fun x => { x with lastSample := (a.takeRead key n).startPosition n,
                        samplePace := readPeriod spec.minPacePeriod,
                        maxElapsedTs := readPeriod spec.maxElapsedTime }).updateRead
                          a.poolReads.next
      fun x => { x with contentFilterExpr := spec.contentFilterExpr, samplesMax := spec.maxSamples,
                        startTs := env.clock 0 }) :=
    IsTrans.trans _ _ _ (.updateRead _ _ _) (.updateRead _ _ _)
  have hread : ((((a.takeRead key n).updateRead a.poolReads.next
      fun x => { x with lastSample := (a.takeRead key n).startPosition n,
                        samplePace := readPeriod spec.minPacePeriod,
                        maxElapsedTs := readPeriod spec.maxElapsedTime }).updateRead
                          a.poolReads.next
      fun x => { x with contentFilterExpr := spec.contentFilterExpr, samplesMax := spec.maxSamples,
                        startTs := env.clock 0 }).readAt a.poolReads.next).samples = [] := by
    simp [Agent.readAt, Agent.updateRead, Agent.takeRead, Agent.updateAttached, Read.initial]
  have hrest : ∀ c : Agent, Uneventful (a.takeRead key n) c → c.resources = a.resources →
      c.attached n = (a.takeRead key n).attached n → c.readerAt reader = a.readerAt reader →
      (c.readAt a.poolReads.next).samples = [] → ∃ b, (deref rid r >>= fun reader => do
        onReader reader (Reader.newRequest env a.poolReads.next spec.contentFilterExpr)
        Prog.ensure true) c = (some (), b) ∧ ReadRegistered a key n reader b := by
    intro c hc hresources hatt hreader hsamples
    have haccess := access_nativeFrame rid (!r.nativeDeleted && r.userData.isSome) c
    have hrecords : (access rid (!r.nativeDeleted && r.userData.isSome) c).2.resources =
        c.resources := (access_regFrame rid _ c).resources
    have hsame := access_readerAt rid (!r.nativeDeleted && r.userData.isSome) c reader
    rw [bind_apply, deref_apply]
    generalize (access rid (!r.nativeDeleted && r.userData.isSome) c).2 = d
      at haccess hrecords hsame
    rw [hstate]
    have hon : onReader reader (Reader.newRequest env a.poolReads.next spec.contentFilterExpr) d =
        (some (), d.updateReader reader fun _ => r') := by
      simp [onReader, hsame, hreader, hres]
    refine ⟨d.updateReader reader fun _ => r', ?_, ?_, ?_, ?_, ?_, ?_⟩
    · dsimp only
      rw [bind_apply, hon]
      rfl
    · exact IsTrans.trans _ _ _ (IsTrans.trans _ _ _ hc (.of_native haccess)) (.updateReader d _ _)
    · exact hrecords.trans hresources
    · change d.attached n = _
      rw [Agent.attached, haccess.poolResources]
      exact hatt
    · rw [Agent.readerAt_updateReader, if_pos rfl, hreg]
      exact List.mem_append_right _ (List.mem_singleton_self _)
    · change (d.readAt a.poolReads.next).hasPendingSamples = false
      rw [Agent.readAt, haccess.poolReads, Read.hasPendingSamples]
      rw [Agent.readAt] at hsamples
      rw [hsamples]
      rfl
  exact hrest _ hset rfl rfl rfl hread

/-- A read that was just registered can be ended. -/
theorem cancelReadI_withdraws {n rd reader : ℕ} {r : Resource} (henv : env.EndsReads)
    (hfound : env.ok (.lookupResource .cancelReadI (a.attached n).resource) = true)
    (hr : a.resources.lookup (a.attached n).resource = some r) (hdel : r.nativeDeleted = false)
    (hstate : r.userData = some reader) (hid : r.id ≠ .none)
    (has : env.ok (.dds .asDataReader rd) = true) (hrd : (a.attached n).readReq = some rd)
    (hreg : rd ∈ (a.readerAt reader).registered)
    (hpend : (a.readAt rd).hasPendingSamples = false) :
    ∃ b, cancelReadI env n a = (some (), b.releaseRead n rd) ∧ Uneventful a b := by
  have hderef : deref (a.attached n).resource r a = (some reader, a) := by
    simp [deref, access, hdel, hstate]
  have hid : (r.id != .none) = true := by simpa using hid
  rcases Reader.requestComplete_cases henv rd (a.readerAt reader) with
    ⟨-, hunreg⟩ | ⟨⟨r', hyes, -⟩, hpost, hwait⟩
  · exact absurd hreg (hunreg has)
  · have hdone : onReader reader (Reader.requestComplete env rd) a =
        (some (), a.updateReader reader fun _ => r') := by
      simp [onReader, hyes]
    refine ⟨a.updateReader reader fun _ => r', ?_, .updateReader a reader _⟩
    simp [cancelReadI, cancelReadEA, lookupResource, hfound, hr, hdel, hrd, hpend, hderef, hdone,
      hpost, hwait, hid, bind_apply, ensure]

/-- A read that cannot be ended is not replaced. -/
theorem startReadEA_stuck (env : Env) (key : ClientSessionKey) {n rd : ℕ} (spec : ReadSpecification)
    (hrd : (a.attached n).readReq = some rd) (hstuck : a.locates env .read n = true →
      a.cancels env (a.attached n).resource rd = false) :
    Uneventful a (startReadEA env key n spec a).2 ∧ (startReadEA env key n spec a).1 = none := by
  let K := fun (res : Option Unit) b => Uneventful a b ∧ res = none
  have hstop : K none a := ⟨refl a, rfl⟩
  change K (startReadEA env key n spec a).1 (startReadEA env key n spec a).2
  unfold startReadEA
  rw [read_bind_apply]
  refine exits_lookupResource hstop fun hok => exits_require hstop fun r hr => ?_
  refine exits_ensure hstop fun hdel => ?_
  have hlocated : a.locates env .read n = true := by
    simp only [Agent.locates, hok, hr, hdel, Bool.and_true]
  rw [hrd, Option.isSome_some, onlyIf_true]
  have hexit := cancelReadEA_exits env n (a.attached n).resource a
  refine exits_bind (fun hnone => ?_) fun _ hsome => ?_
  · rw [hnone] at hexit
    cases hexit with
    | refused hquiet => exact ⟨hquiet, rfl⟩
  · rw [hsome] at hexit
    generalize (cancelReadEA env n (a.attached n).resource a).2 = b at hexit
    cases hexit with
    | idle hnone =>
        rw [hrd] at hnone
        cases hnone
    | @ended c rd' hrd' hcancels _ =>
        obtain rfl := Option.some.inj (hrd.symm.trans hrd')
        rw [hstuck hlocated] at hcancels
        cases hcancels

/-- Starting a read on an attached resource without one. -/
theorem startReadEA_idle (env : Env) (key : ClientSessionKey) {n : ℕ} (spec : ReadSpecification)
    (hrd : (a.attached n).readReq = none) : startReadEA env key n spec a = (none, a) ∨
      ∃ r, a.locates env .read n = true ∧ env.ok (.getBuffer .read n) = true ∧
        a.resources.lookup (a.attached n).resource = some r ∧ r.nativeDeleted = false ∧
        startReadEA env key n spec a = registerReadEA env key n
          (a.attached n).resource r spec a := by
  cases hok : env.ok (.lookupResource .read (a.attached n).resource) with
  | false => exact .inl (by simp [startReadEA, lookupResource, hok, bind_apply, ensure])
  | true =>
      cases hr : a.resources.lookup (a.attached n).resource with
      | none => exact .inl (by simp [startReadEA, lookupResource, hok, bind_apply, hr, ensure])
      | some r =>
          cases hdel : r.nativeDeleted with
          | true =>
              exact .inl (by simp [startReadEA, lookupResource, hok, bind_apply, hr, hdel, ensure])
          | false =>
              have hstart : startReadEA env key n spec a =
                  registerReadEA env key n (a.attached n).resource r spec a := by
                simp [startReadEA, lookupResource, hok, bind_apply, hr, hdel, hrd, ensure]
              cases hbuffer : env.ok (.getBuffer .read n) with
              | false =>
                  refine .inl (hstart.trans ?_)
                  simp [registerReadEA, hbuffer]
              | true => exact .inr ⟨r, by simp [Agent.locates, hok, hr, hdel], rfl, rfl,
                hdel, hstart⟩

theorem readData_owing {key : ClientSessionKey} {id : ℕ} {spec : ReadSpecification}
    (ha : Owing [] [] a) (hnoticed : ∀ n, Addressed a key id n →
      (a.attached n).kind = .dataReader → a.StartsNoticed env key id n spec) :
    Owing [] [] (readData env key id spec a).2 := by
  refine keeps_findAttachedReader ha fun s n hs hactive hfind hkind => ?_
  obtain ⟨hreplace, hstart⟩ := hnoticed n ⟨s, hs, hactive, hfind⟩ hkind
  have hmem := List.mem_of_find?_eq_some hfind
  have hkey := (ha.owned key s hs n hmem).2
  have hid : (a.attached n).id = id := by
    simpa using List.find?_some (p := fun m => decide ((a.attached m).id = id)) hfind
  -- a read that is not started leaves everything as it was
  have hstuck : ∀ {b : Agent}, startReadEA env key n spec a = (none, b) → Uneventful a b →
      Owing [] [] ((readEA env key n spec >>= fun _ =>
        if env.ok (.onReadCreated key id) then modify fun a => a.notify (.readCreated key id)
        else do
          ignore (cancelReadI env n)
          fail) a).2 := by
    intro b hfail hquiet
    have hdiscard : Uneventful b (b.discardRead n) := by
      unfold Agent.discardRead
      split
      · exact .of_same rfl rfl (.of_same rfl)
      · exact refl b
    have hres : readEA env key n spec a = (none, b.discardRead n) := by
      simp [readEA, bind_apply, onFailure, hfail]
    rw [bind_apply, hres]
    exact ha.uneventful (IsTrans.trans _ _ _ hquiet hdiscard)
  cases hrd : (a.attached n).readReq with
  | some rd =>
      obtain ⟨hquiet, hnone⟩ := startReadEA_stuck env key spec hrd
        (hreplace rd hrd)
      exact hstuck (Prod.ext hnone rfl) hquiet
  | none =>
      rcases startReadEA_idle env key spec hrd with
        hfail | ⟨r, hlocated, hbuffer, hr, hdel, heq⟩
      · exact hstuck hfail (refl a)
      · obtain ⟨hstarts, hrelease, ⟨reader, hstate, hnew⟩, hoffer⟩ :=
          hstart hrd hlocated hbuffer r hr
        obtain ⟨b, hres, hb⟩ := registerReadEA_registers key
          (a.attached n).resource hbuffer hstarts hstate hnew
        have htaken := ha.takeRead key hrd hkind (by rw [hkey]; exact hs) hmem
          (by simp only [ClientSession.active, Bool.not_eq_true', Bool.or_eq_false_iff] at hactive
              exact hactive.1.1)
        rw [hkey, hid] at htaken
        have hatt : b.attached n = { a.attached n with readReq := some a.poolReads.next } := by
          rw [hb.attached, Agent.takeRead, Agent.attached_updateAttached, if_pos rfl]
          rfl
        have hread : readEA env key n spec a = (some (), b) := by
          simp [readEA, bind_apply, onFailure, heq, hres, hatt, hrelease, ensure]
        rw [bind_apply, hread]
        dsimp only
        have hb' := htaken.uneventful hb.uneventful
        cases hok : env.ok (.onReadCreated key id) with
        | true =>
            rw [if_pos rfl]
            exact hb'.notifyCreated
        | false =>
            rw [if_neg Bool.false_ne_true]
            obtain ⟨hends, hid', hfound⟩ :=
              hoffer.resolve_left (by rw [hok]; exact Bool.false_ne_true)
            have hfound' : env.ok (.lookupResource .cancelReadI (b.attached n).resource) =
              true := by
              rw [hatt]
              exact hfound
            have hr' : b.resources.lookup (b.attached n).resource = some r := by
              rw [hb.resources, hatt]
              exact hr
            obtain ⟨c, hcancel, hc⟩ := cancelReadI_withdraws hends hfound' hr' hdel hstate hid'
              hstarts.reader (by rw [hatt]) hb.registered hb.pending
            have hc' := (hb'.uneventful hc).releaseRead (n := n)
              (by rw [hc.isSome_eq, hatt]; rfl) a.poolReads.next
            rw [hc.session_eq, hc.id_eq, hatt] at hc'
            change Owing [(key, id)] [((a.attached n).session, (a.attached n).id)] _ at hc'
            rw [hkey, hid] at hc'
            have hstate : ((do
                ignore (cancelReadI env n)
                fail : AgentM Unit) b).2 = c.releaseRead n a.poolReads.next := by
              simp [bind_apply, ignore, hcancel]
            rw [hstate]
            exact hc'.withdraw

end AgentM

open AgentM

/-- A step announces the end of every read that it ends, and leaves no read that was not
announced. -/
def NotifiesReads (a : Agent) (i : Operation × Env) : Prop :=
  a.LoansNotified i ∧ match i.1 with
  | .openSession src key _ _ => ∀ s, a.sessions.lookup key = some s → s.active = true →
      s.intf = src → i.2.ok (.insertSession key) = true → i.2.ok (.onSessionReset key) = true →
      ∀ n, s.resources.find?
          (fun n => ((a.atResetReturn i.2 src key).attached n).readReq.isSome) = some n →
        (a.atResetReturn i.2 src key).endsRead i.2 n = false
  | .createResource key q => ∀ n rd, Addressed a key q.id n → (a.attached n).readReq = some rd →
      a.recreationEnds i.2 q n rd → a.finishesCreation i.2 (a.attached n).resource = true
  | .readData key id spec => ∀ n, Addressed a key id n → (a.attached n).kind = .dataReader →
      a.StartsNoticed i.2 key id n spec
  | .cancelRead key id => ∀ n, Addressed a key id n → (a.attached n).kind = .dataReader →
      (a.attached n).readReq = none → a.locates i.2 .cancelReadI n = false
  | .cleanupReads => (a.condCleanupReads = true → i.2.ok (.setTrigger .cleanupReads) = true →
      a.CleansNoRead i.2) ∧ a.LoansEndFinished i
  | .cleanupSessions => a.Releasable i.2 .finalizeSession ∧ a.Releasable i.2 .detach
  | .cleanupResources => a.Releasable i.2 .detach
  | _ => True

/-- One step under the condition. -/
theorem Owing.step {a : Agent} (ha : Owing [] [] a) {i : Operation × Env}
    (h : NotifiesReads a i) : Owing [] [] (a.step i) := by
  obtain ⟨op, env⟩ := i
  obtain ⟨hloans, h⟩ := h
  cases op with
  | openSession src key timeout data => exact openSession_owing ha hloans h
  | closeSession src key => exact ha.uneventful (closeSession_uneventful src key a)
  | finishCloseSession key => exact finishCloseSession_owing ha
  | sessionTimeout key => exact onSessionTimeout_owing ha hloans
  | createResource key q => exact createResource_owing ha h
  | deleteResource key id => exact deleteResource_owing ha
  | readData key id spec => exact readData_owing ha h
  | cancelRead key id => exact cancelRead_owing ha h
  | returnLoan src key d => exact returnLoan_owing ha (hloans _ _ _ _ _ .operation)
  | writeData key id => exact ha.uneventful (writeData_uneventful key id)
  | dataEvent rd => exact ha.uneventful (onDataOnReader_uneventful rd)
  | changeCache reader cache => exact ha.uneventful (.updateReader a reader _)
  | cleanupSessions =>
      change Owing [] [] ((Prog.read >>= _) a).2
      rw [read_bind_apply]
      exact keeps_ensure ha fun _ => onCleanupSessions_noticed ha h.1 h.2
  | cleanupReads =>
      change Owing [] [] ((Prog.read >>= _) a).2
      rw [read_bind_apply]
      exact keeps_ensure ha fun hcond => onCleanupReads_owing ha hcond (h.1 hcond) hloans h.2
  | cleanupResources =>
      change Owing [] [] ((Prog.read >>= _) a).2
      rw [read_bind_apply]
      exact keeps_ensure ha fun _ => onCleanupResources_noticed ha h

/-- The notifications of reads are balanced: those sent match the reads in progress, the
end of a read is only announced when there is a read that was announced before, and every
read in progress belongs to a session. -/
structure ReadsBalanced (a : Agent) : Prop where
  balance : ∀ key id,
    a.readsCreated key id = a.readsCompleted key id + a.reading key id
  ordered : Callback.Ordered a.callbacks
  linked : ∀ n, (a.attached n).readReq.isSome = true →
    ∃ s, a.sessions.lookup (a.attached n).session = some s ∧ n ∈ s.resources

theorem Owing.balanced {a : Agent} (h : Owing [] [] a) : ReadsBalanced a :=
  ⟨fun key id => h.balance key id, h.ordered, fun n hn => (h.linked n hn).2⟩

end NanoAgent
