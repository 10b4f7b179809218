import NanoAgent.DdsAgent.ReadEnds

/-!
# Loan returns and the notification of reads

The return of a loan ends the read when it finds its bounds reached and no other sample
pending, and announces the end unless the record cannot be released. An interface may
return loans in the middle of the clean-up of reads, which ends completed reads without
notice. `KeepsFinished` says that such a return makes no other read fit for this, so that
the read that the handler stops at can be told before it runs.
-/

namespace NanoAgent

open Prog AgentM

namespace Agent

/-- The read `rd` as the return of its record `d` leaves it. -/
def readReturned (a : Agent) (rd d : ℕ) : Read :=
  { a.readAt rd with
    samples := (a.readAt rd).samples.erase d, samplesRcvd := (a.readAt rd).samplesRcvd + 1 }

/-- The return of the record `d` finds the bounds of the read `rd` reached. -/
def returnReaches (env : Env) (a : Agent) (n rd d : ℕ) : Prop :=
  a.countsReturn env n = true ∧ (a.readReturned rd d).isComplete (env.clock 0) = (true, true)

/-- The return of the record `d` ends the read `rd` of the attached resource `n`. -/
def returnEnds (env : Env) (a : Agent) (n rd d : ℕ) : Prop :=
  a.returnReaches env n rd d ∧ (a.readAt rd).samples.erase d = [] ∧
    a.unregisters env (a.attached n).resource rd = true

/-- The return of the record `d` leaves the read `rd` complete, if it does not end it, and
without pending samples. -/
def returnFinishes (env : Env) (a : Agent) (n rd d : ℕ) : Prop :=
  ((a.readAt rd).complete = true ∨ a.returnReaches env n rd d) ∧
    (a.readAt rd).samples.erase d = []

/-- The read of the attached resource `n` is complete, and all its samples were returned. -/
def finished (a : Agent) (n : ℕ) : Bool :=
  match (a.attached n).readReq with
  | none => false
  | some rd => (a.readAt rd).complete && !(a.readAt rd).hasPendingSamples

theorem finished_iff {a : Agent} {n : ℕ} : a.finished n = true ↔ ∃ rd,
    (a.attached n).readReq = some rd ∧ (a.readAt rd).complete = true ∧
      (a.readAt rd).samples = [] := by
  unfold finished
  cases (a.attached n).readReq with
  | none => simp
  | some rd => simp [Read.hasPendingSamples]

theorem readAt_takeBack (a : Agent) (key : ClientSessionKey) (n rd d q : ℕ) :
    (a.takeBack key n rd d).readAt q =
      if q = rd then { a.readAt q with samples := (a.readAt q).samples.erase d }
      else a.readAt q :=
  readAt_updateRead (a := a) rd q fun r => { r with samples := r.samples.erase d }

theorem readAt_countReturn (a : Agent) (key : ClientSessionKey) (n rd d q : ℕ) :
    (a.countReturn key n rd d).readAt q = if q = rd then a.readReturned q d else a.readAt q := by
  unfold countReturn
  rw [readAt_updateRead, readAt_takeBack]
  split <;> rfl

theorem attached_takeBack (a : Agent) (key : ClientSessionKey) (n rd d m : ℕ) :
    ((a.takeBack key n rd d).attached m).readReq = (a.attached m).readReq ∧
      ((a.takeBack key n rd d).attached m).resource = (a.attached m).resource := by
  unfold takeBack
  rw [attached_updateAttached]
  split <;> exact ⟨rfl, rfl⟩

end Agent

theorem Uneventful.recycle (a : Agent) (key : ClientSessionKey) (d : ℕ) :
    Uneventful a (a.recycle key d) :=
  .updateSession a key (fun _ => rfl) fun _ => ⟨fun h => h, fun h => h⟩

theorem Uneventful.takeBack (a : Agent) (key : ClientSessionKey) (n rd d : ℕ) :
    Uneventful a (a.takeBack key n rd d) := by
  have hsample : Uneventful a (a.updateRead rd fun r => { r with samples := r.samples.erase d }) :=
    .updateRead a rd _
  have hrecycle := IsTrans.trans _ _ _ hsample (.recycle _ key d)
  exact IsTrans.trans _ _ _ hrecycle (.updateAttached _ n (fun _ => rfl) fun _ => rfl)

theorem Uneventful.countReturn (a : Agent) (key : ClientSessionKey) (n rd d : ℕ) :
    Uneventful a (a.countReturn key n rd d) :=
  IsTrans.trans _ _ _ (.takeBack a key n rd d) (.updateRead _ rd _)

/-- The attached resource of a loan belongs to the session of its record. -/
theorem Lent.session_eq {a : Agent} {src : ℕ} {key : ClientSessionKey} {d n rd : ℕ}
    {started ended : List (ClientSessionKey × ℕ)} (h : Lent a src key d n rd)
    (ha : Owing started ended a) : (a.attached n).session = key := by
  obtain ⟨s, hs, -, hn⟩ := h.session
  exact (ha.owned key s hs n (List.mem_of_find?_eq_some hn)).2

namespace AgentM

variable {env : Env} {a : Agent}

/-- Ending a read fails exactly when one of its calls does. -/
theorem cancelReadEA_isSome (env : Env) {n rd : ℕ} (rid : ResourceId)
    (hrd : (a.attached n).readReq = some rd) :
    (cancelReadEA env n rid a).1.isSome = a.cancels env rid rd := by
  unfold cancelReadEA Agent.cancels Agent.unregisters
  rw [read_bind_apply]
  simp only [hrd]
  cases (a.readAt rd).hasPendingSamples with
  | true => rfl
  | false =>
  rw [Bool.not_false, ensure_true_bind_apply, Bool.true_and, bind_apply, require_apply]
  cases a.resources.lookup rid with
  | none => rfl
  | some r =>
  dsimp only
  rw [bind_apply, deref_apply]
  cases r.userData with
  | none => rfl
  | some reader =>
  have hreader := access_readerAt rid (!r.nativeDeleted && (some reader).isSome) a reader
  dsimp only
  rw [← hreader, ← Reader.requestComplete_isSome, bind_apply]
  generalize (access rid (!r.nativeDeleted && (some reader).isSome) a).2 = b
  have honReader : (onReader reader (Reader.requestComplete env rd) b).1 =
      (Reader.requestComplete env rd (b.readerAt reader)).1 := rfl
  rw [← honReader]
  rcases onReader reader (Reader.requestComplete env rd) b with ⟨_ | _, c⟩
  · rfl
  · cases env.ok (.postEvent .cancelRead rd) <;>
      cases r.id != .none && env.ok (.waitSemaphore .cancelRead rd) <;> rfl

/-- The end of the return of a loan, from the state in which the record is taken back. -/
theorem closeReturn_owing {key : ClientSessionKey} {n rd : ℕ} {rid : ResourceId}
    (ha : Owing [] [] a) (hrd : (a.attached n).readReq = some rd)
    (hkey : (a.attached n).session = key)
    (hfree : (a.readAt rd).isComplete (env.clock 0) = (true, true) →
      (a.readAt rd).samples = [] → a.unregisters env rid rd = true →
      env.ok (.releaseResource .returnLoan rid) = true) :
    Owing [] [] (closeReturn env key n rd rid a).2 := by
  unfold closeReturn
  rw [read_bind_apply]
  split
  · rename_i hbounds
    rw [Bool.and_eq_true] at hbounds
    rw [modify_bind_apply]
    have hcomplete : Uneventful a (a.updateRead rd fun r => { r with complete := true }) :=
      .updateRead a rd _
    split
    · rename_i hpend
      have hunregisters : (a.updateRead rd fun r => { r with complete := true }).cancels env rid
          rd = true → a.unregisters env rid rd = true := fun h => (Bool.and_eq_true_iff.1 h).2
      have hreq : ((a.updateRead rd fun r => { r with complete := true }).attached n).readReq =
          some rd := hrd
      have hid : ((a.updateRead rd fun r => { r with complete := true }).attached n).session =
          key := hkey
      generalize a.updateRead rd (fun r => { r with complete := true }) = b at *
      have hb := ha.uneventful hcomplete
      have hexit := cancelReadEA_exits env n rid b
      refine keeps_bind (fun hnone => ?_) fun _ hsome => ?_
      · rw [hnone] at hexit
        cases hexit with
        | refused hquiet => exact hb.uneventful hquiet
      · rw [hsome] at hexit
        generalize (cancelReadEA env n rid b).2 = c at hexit
        cases hexit with
        | idle hnone =>
            rw [hreq] at hnone
            cases hnone
        | @ended e rd' hrd' hcancels hquiet =>
            obtain rfl : rd = rd' := Option.some.inj (hreq.symm.trans hrd')
            rw [hfree (Prod.ext hbounds.1 hbounds.2) (by simpa [Read.hasPendingSamples] using hpend)
              (hunregisters hcancels), ensure_true_bind_apply, modify_apply]
            have hended := hquiet.owing_release hb (by rw [hreq]; rfl) rd
            have hsame : ((e.releaseRead n rd).attached n).id = (b.attached n).id := by
              rw [← hquiet.id_eq]
              unfold Agent.releaseRead
              rw [Agent.attached_updateAttached, if_pos rfl]
              rfl
            rw [hid, ← hsame] at hended
            exact hended.notifyComplete
    · exact ha.uneventful hcomplete
  · exact ha

/-- The return of a loan announces the end of the read that it ends, when the record can be
released. -/
theorem returnLoan_owing {src : ℕ} {key : ClientSessionKey} {d : ℕ} (ha : Owing [] [] a)
    (hfree : ∀ n rd, Lent a src key d n rd → a.returnEnds env n rd d →
      env.ok (.releaseResource .returnLoan (a.attached n).resource) = true) :
    Owing [] [] (returnLoan env src key d a).2 := by
  rcases returnLoan_cases env src key d a with
    ⟨-, h⟩ | ⟨n, rd, hlent, ⟨-, h⟩ | ⟨hcounts, h⟩⟩
  · rw [h]
    exact ha
  · rw [h]
    exact ha.uneventful (.takeBack a key n rd d)
  · rw [h]
    have hquiet := Uneventful.countReturn a key n rd d
    have hread : (a.countReturn key n rd d).readAt rd = a.readReturned rd d :=
      (a.readAt_countReturn key n rd d rd).trans (if_pos rfl)
    refine closeReturn_owing (ha.uneventful hquiet) ?_ ?_ fun hbounds hnone hunregisters => ?_
    · exact (a.attached_takeBack key n rd d n).1.trans hlent.readReq
    · exact (hquiet.session_eq n).trans (hlent.session_eq ha)
    · rw [hread] at hbounds hnone
      exact hfree n rd hlent ⟨⟨hcounts, hbounds⟩, hnone, hunregisters⟩

end AgentM

namespace Reader

/-- From `r` to `r'` no request was added, and only requests of the read `rd` were removed: a
read that can be completed afterwards can be completed before. -/
def CompletesLess (rd : ℕ) (r r' : Reader) : Prop :=
  ∀ env q, q ≠ rd → r'.completes env q = true → r.completes env q = true

instance (rd : ℕ) : IsPreorder Reader (CompletesLess rd) where
  refl _ _ _ _ h := h
  trans _ _ _ h h' env q hq hc := h env q hq (h' env q hq hc)

theorem CompletesLess.of_requests {rd : ℕ} {r r' : Reader} (h : r'.requests = r.requests) :
    CompletesLess rd r r' := by
  intro env q _ hc
  unfold completes findRequestByRead at hc ⊢
  rw [h] at hc
  exact hc

theorem CompletesLess.erase {rd : ℕ} {r : Reader} {req : ReaderRequest} (h : req.read = rd) :
    CompletesLess rd r { r with requests := r.requests.erase req } := by
  intro env q hq hc
  have hfind : (r.requests.erase req).find? (fun x => x.read = q) =
      r.requests.find? (fun x => x.read = q) := by
    rw [← List.head?_filter, ← List.erase_filter, List.erase_of_not_mem, List.head?_filter]
    intro hmem
    exact hq ((of_decide_eq_true (List.mem_filter.1 hmem).2).symm.trans h)
  unfold completes findRequestByRead at hc ⊢
  rw [hfind] at hc
  cases hreq : r.requests.find? (fun x => x.read = q) with
  | none =>
      rw [hreq] at hc
      exact hc
  | some req' =>
      rw [hreq] at hc
      simp only [Bool.and_eq_true, Bool.or_eq_true] at hc ⊢
      refine ⟨hc.1, hc.2.1, hc.2.2.imp_left fun hleft => ?_⟩
      rw [Bool.not_eq_true'] at hleft ⊢
      rw [List.erase_comm] at hleft
      cases hempty : (r.requests.erase req').isEmpty with
      | false => rfl
      | true =>
          rw [List.isEmpty_iff.1 hempty] at hleft
          cases hleft

theorem requestComplete_completesLess (env : Env) (rd : ℕ) :
    Within (CompletesLess rd) (requestComplete env rd) := by
  refine .bind (.ensure _) fun _ => ?_
  intro r
  rw [read_bind_apply]
  refine exits_require (K := fun _ r' => CompletesLess rd r r') (refl r) fun req hreq => ?_
  rw [modify_bind_apply]
  have herase : CompletesLess rd r { r with requests := r.requests.erase req } :=
    .erase (of_decide_eq_true (List.find?_some (p := fun x : ReaderRequest => x.read = rd) hreq))
  refine IsTrans.trans _ _ _ herase ?_
  refine Within.bind (.onlyIf fun _ => .ensure _) (fun _ => ?_) _
  refine .bind (.modify fun _ => .of_requests rfl) fun _ => .read fun r' => .onlyIf fun _ => ?_
  exact .bind (.ensure _) fun _ => .modify fun _ => .of_requests rfl

end Reader

/-- From `a` to `b` at most the read `rd` and the attached resource `n` have changed, as far as
reads are concerned, and requests of this read may be gone. -/
structure Spares (n rd : ℕ) (a b : Agent) : Prop where
  outlines : SameOutlines a b
  readAt : ∀ q, q ≠ rd → b.readAt q = a.readAt q
  attached : ∀ m, m ≠ n → b.attached m = a.attached m
  resources : b.resources = a.resources
  readers : ∀ reader, Reader.CompletesLess rd (a.readerAt reader) (b.readerAt reader)

namespace Spares

variable {n rd : ℕ} {a b : Agent}

instance : IsPreorder Agent (Spares n rd) where
  refl _ := ⟨refl _, fun _ _ => rfl, fun _ _ => rfl, rfl, fun _ => refl _⟩
  trans _ _ _ h h' :=
    ⟨IsTrans.trans _ _ _ h.outlines h'.outlines,
      fun q hq => (h'.readAt q hq).trans (h.readAt q hq),
      fun m hm => (h'.attached m hm).trans (h.attached m hm), h'.resources.trans h.resources,
      fun reader => IsTrans.trans _ _ _ (h.readers reader) (h'.readers reader)⟩

theorem updateRead (a : Agent) (f : Read → Read) : Spares n rd a (a.updateRead rd f) :=
  ⟨.of_sessions rfl, fun _ hq => (Agent.readAt_updateRead _ _ _).trans (if_neg hq), fun _ _ => rfl,
    rfl, fun _ => refl _⟩

theorem takeBack (a : Agent) (key : ClientSessionKey) (n rd d : ℕ) :
    Spares n rd a (a.takeBack key n rd d) := by
  refine ⟨(takeBack_frame a key n rd d).session, fun q hq => ?_, fun m hm => ?_, rfl,
    fun _ => refl _⟩
  · exact (a.readAt_takeBack key n rd d q).trans (if_neg hq)
  · exact (Agent.attached_updateAttached _ _ _).trans (if_neg hm)

theorem countReturn (a : Agent) (key : ClientSessionKey) (n rd d : ℕ) :
    Spares n rd a (a.countReturn key n rd d) :=
  IsTrans.trans _ _ _ (.takeBack a key n rd d) (.updateRead _ _)

/-- Another read that can be ended afterwards can be ended before. -/
theorem unregisters (h : Spares n rd a b) {env : Env} {rid : ResourceId} {q : ℕ} (hq : q ≠ rd)
    (hb : b.unregisters env rid q = true) : a.unregisters env rid q = true := by
  unfold Agent.unregisters at hb ⊢
  rw [h.resources] at hb
  cases hr : a.resources.lookup rid with
  | none =>
      rw [hr] at hb
      cases hb
  | some r =>
      rw [hr] at hb
      cases hstate : r.userData with
      | none =>
          dsimp only at hb
          rw [hstate] at hb
          cases hb
      | some reader =>
          dsimp only at hb ⊢
          rw [hstate] at hb ⊢
          simp only [Bool.and_eq_true] at hb ⊢
          exact ⟨⟨h.readers reader env q hq hb.1.1, hb.1.2⟩, hb.2⟩

end Spares

namespace AgentM

variable {env : Env} {a : Agent}

theorem cancelReadEA_spares (env : Env) {n rd : ℕ} (rid : ResourceId)
    (hrd : (a.attached n).readReq = some rd) : Spares n rd a (cancelReadEA env n rid a).2 := by
  unfold cancelReadEA
  rw [read_bind_apply]
  simp only [hrd]
  refine Within.bind (.ensure _) (fun _ => .bind (.require _) fun r => ?_) a
  refine .bind (.bind (.modify fun b => ?_) fun _ => .require _) fun reader => ?_
  · split
    · exact refl b
    · exact ⟨.of_sessions rfl, fun _ _ => rfl, fun _ _ => rfl, rfl, fun _ => refl _⟩
  refine .bind (fun b => ?_) fun _ => .bind (.ensure _) fun _ => .bind (.ensure _) fun _ =>
    .modify fun b => ?_
  · refine ⟨.of_sessions rfl, fun _ _ => rfl, fun _ _ => rfl, rfl, fun m => ?_⟩
    change Reader.CompletesLess rd _ ((b.updateReader reader _).readerAt m)
    rw [Agent.readerAt_updateReader]
    split
    · rename_i heq
      subst heq
      exact Reader.requestComplete_completesLess env rd _
    · exact refl _
  · refine ⟨.of_sessions rfl, fun _ _ => rfl, fun m hm => ?_, rfl, fun _ => refl _⟩
    exact (Agent.attached_updateAttached _ _ _).trans (if_neg hm)

/-- What the end of the return of a loan does with the read: it completes it when its bounds
are reached, and ends it when it can be ended then and has no pending samples. -/
structure ClosesReturn (env : Env) (a : Agent) (n rd : ℕ) (rid : ResourceId) (b : Agent) :
    Prop where
  spares : Spares n rd a b
  readReq : (b.attached n).readReq = some rd ∨ (b.attached n).readReq = none
  samples : (b.readAt rd).samples = (a.readAt rd).samples
  complete : (b.readAt rd).complete = true → (a.readAt rd).complete = true ∨
    (a.readAt rd).isComplete (env.clock 0) = (true, true)
  ends : (a.readAt rd).isComplete (env.clock 0) = (true, true) → (a.readAt rd).samples = [] →
    a.unregisters env rid rd = true → (b.attached n).readReq = none

theorem closeReturn_closes (env : Env) (key : ClientSessionKey) {n rd : ℕ} (rid : ResourceId)
    (hrd : (a.attached n).readReq = some rd) :
    ClosesReturn env a n rd rid (closeReturn env key n rd rid a).2 := by
  unfold closeReturn
  rw [read_bind_apply]
  split
  · rename_i hbounds
    rw [Bool.and_eq_true] at hbounds
    have hreached : (a.readAt rd).isComplete (env.clock 0) = (true, true) :=
      Prod.ext hbounds.1 hbounds.2
    rw [modify_bind_apply]
    have hmark : Spares n rd a (a.updateRead rd fun r => { r with complete := true }) :=
      .updateRead a _
    have hsamples : ((a.updateRead rd fun r => { r with complete := true }).readAt rd).samples =
        (a.readAt rd).samples := by
      rw [Agent.readAt_updateRead, if_pos rfl]
    have hunregisters : (a.updateRead rd fun r => { r with complete := true }).unregisters env rid
        rd = a.unregisters env rid rd := rfl
    have hreq : ((a.updateRead rd fun r => { r with complete := true }).attached n).readReq =
        some rd := hrd
    generalize a.updateRead rd (fun r => { r with complete := true }) = b at *
    split
    · have hsome := cancelReadEA_isSome env rid hreq
      have hexit := cancelReadEA_exits env n rid b
      have hended := IsTrans.trans _ _ _ hmark (cancelReadEA_spares env rid hreq)
      have hclosed : ClosesReturn env a n rd rid (cancelReadEA env n rid b).2 := by
        have hreads := cancelReadEA_endsReads env n rid b
        refine ⟨hended, ?_, ?_, fun _ => .inr hreached, fun _ hnone hcan => ?_⟩
        · exact (hreads.readReq n).imp_left fun heq => heq.trans hreq
        · rw [hreads.readAt, hsamples]
        · rw [Agent.cancels, hunregisters, hcan, Bool.and_true, Read.hasPendingSamples, hsamples,
            hnone] at hsome
          cases hres : (cancelReadEA env n rid b).1 with
          | none =>
              rw [hres] at hsome
              cases hsome
          | some _ =>
              rw [hres] at hexit
              generalize (cancelReadEA env n rid b).2 = e at hexit
              cases hexit with
              | idle hnone => exact hnone
              | ended _ _ _ =>
                  unfold Agent.releaseRead
                  rw [Agent.attached_updateAttached, if_pos rfl]
      refine keeps_bind (fun _ => hclosed) fun _ _ => keeps_ensure hclosed fun _ => ?_
      exact ⟨IsTrans.trans _ _ _ hclosed.spares ⟨.of_sessions rfl, fun _ _ => rfl, fun _ _ => rfl,
        rfl, fun _ => refl _⟩, hclosed.readReq, hclosed.samples, hclosed.complete, hclosed.ends⟩
    · rename_i hpend
      refine ⟨hmark, .inl hreq, hsamples, fun _ => .inr hreached, fun _ hnone _ => absurd ?_ hpend⟩
      rw [Read.hasPendingSamples, hnone]
      rfl
  · rename_i hbounds
    refine ⟨refl a, .inl hrd, rfl, fun h => .inl h, fun hreached _ _ => absurd ?_ hbounds⟩
    rw [hreached]
    rfl

end AgentM

/-- From `a` to `b` no read became complete without pending samples, and those that are stay as
they are: none of them can be ended in `b` that cannot be ended in `a`. -/
structure KeepsFinished (a b : Agent) : Prop where
  outlines : SameOutlines a b
  finished : ∀ n, b.finished n = true → a.finished n = true
  stays : ∀ n rd, (a.attached n).readReq = some rd → a.finished n = true →
    (b.attached n).readReq = some rd ∧ (b.attached n).resource = (a.attached n).resource ∧
      b.finished n = true ∧ ∀ env rid, b.cancels env rid rd = true → a.cancels env rid rd = true

namespace KeepsFinished

variable {a b : Agent}

instance : IsPreorder Agent KeepsFinished where
  refl a := ⟨refl a, fun _ h => h, fun _ _ hrd h => ⟨hrd, rfl, h, fun _ _ hc => hc⟩⟩
  trans a b c h h' := by
    refine ⟨IsTrans.trans _ _ _ h.outlines h'.outlines, fun n hn => h.finished n (h'.finished n hn),
      fun n rd hrd hn => ?_⟩
    obtain ⟨hrd₁, hres₁, hn₁, hcancels₁⟩ := h.stays n rd hrd hn
    obtain ⟨hrd₂, hres₂, hn₂, hcancels₂⟩ := h'.stays n rd hrd₁ hn₁
    exact ⟨hrd₂, hres₂.trans hres₁, hn₂, fun env rid hc => hcancels₁ env rid (hcancels₂ env rid hc)⟩

/-- A session that is still there has the resources that it had. -/
theorem session (h : KeepsFinished a b) {key : ClientSessionKey} {s : ClientSession}
    (hs : b.sessions.lookup key = some s) :
    ∃ s₀, a.sessions.lookup key = some s₀ ∧ s₀.resources = s.resources := by
  have hmap := h.outlines key
  rw [hs] at hmap
  obtain ⟨s₀, hs₀, houtline⟩ := Option.map_eq_some_iff.1 hmap.symm
  have hlist := congrArg ClientSession.resources houtline
  exact ⟨s₀, hs₀, hlist⟩

/-- The read `rd`, which has samples pending before, is the only one that changes, and no
attached resource is left with it complete and without any. -/
theorem of_spares {n rd : ℕ} (h : Spares n rd a b) (hrd : (a.attached n).readReq = some rd)
    (hheld : (a.readAt rd).samples ≠ [])
    (hdone : ∀ m, (a.attached m).readReq = some rd → b.finished m = false) :
    KeepsFinished a b := by
  refine ⟨h.outlines, fun m hm => ?_, fun m q hq hm => ?_⟩
  · by_cases hreq : (a.attached m).readReq = some rd
    · rw [hdone m hreq] at hm
      cases hm
    · have hne : m ≠ n := fun heq => hreq (heq ▸ hrd)
      rw [Agent.finished, h.attached m hne] at hm
      unfold Agent.finished
      cases hq : (a.attached m).readReq with
      | none =>
          rw [hq] at hm
          cases hm
      | some q =>
          rw [hq] at hm hreq
          dsimp only at hm ⊢
          rw [h.readAt q fun heq => hreq (congrArg some heq)] at hm
          exact hm
  · obtain ⟨q', hq', hcomplete, hnone⟩ := Agent.finished_iff.1 hm
    obtain rfl : q = q' := Option.some.inj (hq.symm.trans hq')
    have hne : q ≠ rd := fun heq => hheld (heq ▸ hnone)
    have hother : m ≠ n := by
      rintro rfl
      exact hne (Option.some.inj (hq.symm.trans hrd))
    have hread := h.readAt q hne
    rw [h.attached m hother, Agent.finished, h.attached m hother, hq]
    refine ⟨rfl, rfl, ?_, fun env rid hc => ?_⟩
    · dsimp only
      rw [hread, hcomplete, Read.hasPendingSamples, hnone]
      rfl
    · rw [Agent.cancels, Bool.and_eq_true] at hc ⊢
      rw [hread] at hc
      exact ⟨hc.1, h.unregisters hne hc.2⟩

end KeepsFinished

namespace AgentM

variable {env : Env} {a : Agent}

/-- The return of a loan makes no read complete without pending samples, when it ends the read
that it would leave so. -/
theorem returnLoan_keepsFinished {src : ℕ} {key : ClientSessionKey} {d : ℕ}
    (hends : ∀ n rd, Lent a src key d n rd → a.returnFinishes env n rd d →
      a.returnEnds env n rd d ∧ ∀ m, (a.attached m).readReq = some rd → m = n) :
    KeepsFinished a (returnLoan env src key d a).2 := by
  rcases returnLoan_cases env src key d a with
    ⟨-, h⟩ | ⟨n, rd, hlent, ⟨hcounts, h⟩ | ⟨hcounts, h⟩⟩
  · rw [h]
    exact refl a
  · rw [h]
    refine .of_spares (.takeBack a key n rd d) hlent.readReq (List.ne_nil_of_mem hlent.held) ?_
    refine fun m hm => Bool.eq_false_iff.2 fun hfinished => ?_
    obtain ⟨q, hq, hcomplete, hnone⟩ := Agent.finished_iff.1 hfinished
    rw [(a.attached_takeBack key n rd d m).1, hm] at hq
    obtain rfl := Option.some.inj hq
    rw [a.readAt_takeBack, if_pos rfl] at hcomplete hnone
    rw [(hends n rd hlent ⟨.inl hcomplete, hnone⟩).1.1.1] at hcounts
    cases hcounts
  · rw [h]
    have hread : (a.countReturn key n rd d).readAt rd = a.readReturned rd d :=
      (a.readAt_countReturn key n rd d rd).trans (if_pos rfl)
    have hreq : ((a.countReturn key n rd d).attached n).readReq = some rd :=
      (a.attached_takeBack key n rd d n).1.trans hlent.readReq
    have hclosed := closeReturn_closes env key (a.attached n).resource hreq
    generalize (closeReturn env key n rd (a.attached n).resource
      (a.countReturn key n rd d)).2 = b at *
    have hspares := IsTrans.trans _ _ _ (Spares.countReturn a key n rd d) hclosed.spares
    refine .of_spares hspares hlent.readReq (List.ne_nil_of_mem hlent.held) ?_
    refine fun m hm => Bool.eq_false_iff.2 fun hfinished => ?_
    obtain ⟨q, hq, hcomplete, hnone⟩ := Agent.finished_iff.1 hfinished
    have hrd : q = rd := by
      by_cases hmn : m = n
      · subst hmn
        rcases hclosed.readReq with hreq | hreq
        · exact Option.some.inj (hq.symm.trans hreq)
        · rw [hreq] at hq
          cases hq
      · rw [hspares.attached m hmn, hm] at hq
        exact (Option.some.inj hq).symm
    subst hrd
    have hcomplete := hclosed.complete hcomplete
    rw [hclosed.samples] at hnone
    rw [hread] at hcomplete hnone
    obtain ⟨hended, honly⟩ := hends n q hlent
      ⟨hcomplete.imp_right fun hreach => ⟨hcounts, hreach⟩, hnone⟩
    obtain rfl := honly m hm
    rw [hclosed.ends (by rw [hread]; exact hended.1.2)
      (by rw [hread]; exact hnone) hended.2.2] at hq
    cases hq

end AgentM

namespace Agent

/-- The session `key` has an attached resource with a finished read. -/
def hasFinished (a : Agent) (key : ClientSessionKey) : Bool :=
  (a.sessions.lookup key).any fun s => s.resources.any a.finished

/-- The first read that the clean-up handler would end cannot be ended. -/
def CleansNoRead (env : Env) (a : Agent) : Prop :=
  ∀ key s n rd, a.sessionKeys.find? a.hasFinished = some key →
    env.ok (.nextSession .cleanupReads key) = true → a.sessions.lookup key = some s →
    s.resources.find? a.finished = some n → (a.attached n).readReq = some rd →
    env.ok (.lookupResource .cleanupReads (a.attached n).resource) = true →
    a.cancels env (a.attached n).resource rd = false

/-- The records of the reads that are ended by the return of a loan can be released. -/
def LoansNotified (a : Agent) (i : Operation × Env) : Prop :=
  ∀ env src key d t, a.ReturnsLoan i env src key d t → ∀ n rd, Lent t src key d n rd →
    t.returnEnds env n rd d → env.ok (.releaseResource .returnLoan (t.attached n).resource) = true

/-- A read that the return of a loan finds complete without other pending samples belongs to one
attached resource, and is ended. -/
def LoansEndFinished (a : Agent) (i : Operation × Env) : Prop :=
  ∀ env src key d t, a.ReturnsLoan i env src key d t → ∀ n rd, Lent t src key d n rd →
    t.returnFinishes env n rd d →
      t.returnEnds env n rd d ∧ ∀ m, (t.attached m).readReq = some rd → m = n

end Agent

namespace AgentM

variable {env : Env} {a : Agent}

theorem cleanupReadEA_stops {src : ℕ} {key : ClientSessionKey} {n rd : ℕ} (h : a.finished n = true)
    (hrd : (a.attached n).readReq = some rd)
    (hstuck : env.ok (.lookupResource .cleanupReads (a.attached n).resource) = true →
      a.cancels env (a.attached n).resource rd = false) :
    Uneventful a (cleanupReadEA env src key n a).2 ∧ (cleanupReadEA env src key n a).1 = none := by
  let K := fun (res : Option Unit) b => Uneventful a b ∧ res = none
  have hstop : K none a := ⟨refl a, rfl⟩
  change K (cleanupReadEA env src key n a).1 (cleanupReadEA env src key n a).2
  unfold cleanupReadEA
  rw [read_bind_apply]
  rw [Agent.finished, hrd, Bool.and_eq_true, Bool.not_eq_true'] at h
  rw [hrd]
  dsimp only at h ⊢
  rw [h.1, h.2, onlyIf_true, if_neg Bool.false_ne_true]
  refine exits_lookupResource hstop fun hok => exits_require hstop fun _ _ => ?_
  have hexit := cancelReadEA_exits env n (a.attached n).resource a
  have hsome := cancelReadEA_isSome env (a.attached n).resource hrd
  rw [hstuck hok] at hsome
  refine exits_bind (fun hnone => ?_) fun _ hres => ?_
  · rw [hnone] at hexit
    cases hexit with
    | refused hquiet => exact ⟨hquiet, rfl⟩
  · rw [hres] at hsome
    cases hsome

/-- A visit to a reader whose read is not finished. -/
theorem cleanupReadEA_visits {I : Agent → Prop} {src : ℕ} {key : ClientSessionKey} {n : ℕ}
    (ha : I a) (hskip : a.finished n = false)
    (hloans : ∀ rd, (a.attached n).readReq = some rd → (a.readAt rd).complete = true →
      (a.readAt rd).hasPendingSamples = true →
      I (returnLoans env src key (.releaseReadSamples key (a.attached n).id) a).2) :
    I (cleanupReadEA env src key n a).2 := by
  unfold cleanupReadEA
  rw [read_bind_apply]
  unfold Agent.finished at hskip
  cases hrd : (a.attached n).readReq with
  | none => exact ha
  | some rd =>
      rw [hrd] at hskip
      refine keeps_onlyIf ha fun hcomplete => ?_
      cases hpend : (a.readAt rd).hasPendingSamples with
      | true =>
          rw [if_pos rfl]
          exact hloans rd hrd hcomplete hpend
      | false =>
          dsimp only at hskip
          rw [hcomplete, hpend] at hskip
          cases hskip

section Clean

variable {b₀ t : Agent} {key : ClientSessionKey} (ht : Owing [] [] t ∧ KeepsFinished b₀ t)
  (hvisit : ∀ {s n c}, env.ok (.nextSession .cleanupReads key) = true →
    t.sessions.lookup key = some s → Turn s.resources (cleanupReadEA env s.intf key) t n c →
    b₀.finished n = false → Owing [] [] c ∧ KeepsFinished b₀ c →
    Owing [] [] (cleanupReadEA env s.intf key n c).2 ∧
      KeepsFinished b₀ (cleanupReadEA env s.intf key n c).2)

include ht hvisit

/-- A session none of whose reads was finished when the clean-up began. -/
theorem cleanupReadsOfEA_skips (hnone : b₀.hasFinished key = false) :
    Owing [] [] (cleanupReadsOfEA env key t).2 ∧
      KeepsFinished b₀ (cleanupReadsOfEA env key t).2 := by
  let I := fun c => Owing [] [] c ∧ KeepsFinished b₀ c
  have hI : I t := ht
  change I (cleanupReadsOfEA env key t).2
  unfold cleanupReadsOfEA
  refine keeps_ensure hI fun hnext => ?_
  rw [read_bind_apply]
  cases hs : t.sessions.lookup key with
  | none => exact hI
  | some s =>
      obtain ⟨s₀, hs₀, hlist⟩ := ht.2.session hs
      rw [Agent.hasFinished, hs₀, Option.any_some, List.any_eq_false, hlist] at hnone
      refine forEach_keeps_turns hI fun n c hn hc => ?_
      have hmem : n ∈ s.resources := by
        obtain ⟨before, after, hsplit, -⟩ := hn
        rw [hsplit]
        simp
      exact hvisit hnext hs hn (Bool.eq_false_iff.2 (hnone n hmem)) hc

/-- One that had a finished read: the loop stops at the first of these, which cannot be ended. -/
theorem cleanupReadsOfEA_stops (hhas : b₀.hasFinished key = true)
    (hstuck : ∀ s₀ n rd, env.ok (.nextSession .cleanupReads key) = true →
      b₀.sessions.lookup key = some s₀ → s₀.resources.find? b₀.finished = some n →
      (b₀.attached n).readReq = some rd →
      env.ok (.lookupResource .cleanupReads (b₀.attached n).resource) = true →
      b₀.cancels env (b₀.attached n).resource rd = false) :
    Owing [] [] (cleanupReadsOfEA env key t).2 ∧ (cleanupReadsOfEA env key t).1 = none := by
  unfold cleanupReadsOfEA
  refine exits_ensure (K := fun res c => Owing [] [] c ∧ res = none) ⟨ht.1, rfl⟩ fun hnext => ?_
  rw [read_bind_apply]
  cases hs : t.sessions.lookup key with
  | none =>
      have hmap := ht.2.outlines key
      rw [hs] at hmap
      rw [Agent.hasFinished, Option.map_eq_none_iff.1 hmap.symm] at hhas
      cases hhas
  | some s =>
      obtain ⟨s₀, hs₀, hlist⟩ := ht.2.session hs
      rw [Agent.hasFinished, hs₀, Option.any_some, hlist] at hhas
      have hloop := forEach_until (I := fun c => Owing [] [] c ∧ KeepsFinished b₀ c)
        (J := Owing [] []) (p := b₀.finished) (l := s.resources)
        (f := cleanupReadEA env s.intf key) (fun _ ht => ht.1) ht
        (fun n c hn hskip hc => hvisit hnext hs hn hskip hc) fun n c hn hfirst hc => ?_
      · refine ⟨hloop.1, Option.not_isSome_iff_eq_none.1 fun hsome => ?_⟩
        have hnone := (hloop.2 hsome).2
        rw [List.find?_eq_none] at hnone
        obtain ⟨n, hn, hfinished⟩ := List.any_eq_true.1 hhas
        exact hnone n hn hfinished
      · have hfinished : b₀.finished n = true := List.find?_some hfirst
        obtain ⟨rd, hrd, -⟩ := Agent.finished_iff.1 hfinished
        obtain ⟨hrd', hres, hstill, hcancels⟩ := hc.2.stays n rd hrd hfinished
        have hstop : Uneventful c (cleanupReadEA env s.intf key n c).2 ∧
            (cleanupReadEA env s.intf key n c).1 = none := by
          refine cleanupReadEA_stops hstill hrd' fun hok => Bool.eq_false_iff.2 fun hcan => ?_
          rw [hres] at hok hcan
          have hno := hstuck s₀ n rd hnext hs₀ (hlist.symm ▸ hfirst) hrd hok
          rw [hcancels env _ hcan] at hno
          cases hno
        exact ⟨hc.1.uneventful hstop.1, hstop.2⟩

end Clean

/-- The clean-up of reads ends none, while the loans returned in it announce what they end. -/
theorem onCleanupReads_owing (ha : Owing [] [] a) (hcond : a.condCleanupReads = true)
    (hstuck : env.ok (.setTrigger .cleanupReads) = true → a.CleansNoRead env)
    (hnotified : a.LoansNotified (.cleanupReads, env))
    (hends : a.LoansEndFinished (.cleanupReads, env)) :
    Owing [] [] (onCleanupReads env a).2 := by
  unfold onCleanupReads
  refine keeps_ensure ha fun htrigger => ?_
  rw [modify_bind_apply, read_bind_apply]
  have hb : Owing [] [] { a with condCleanupReads := false } :=
    ha.uneventful (.of_same rfl rfl (.of_same rfl))
  have hstuck : { a with condCleanupReads := false }.CleansNoRead env := hstuck htrigger
  have hcalls : ∀ {key s n rd b c},
      Turn a.sessionKeys (cleanupReadsOfEA env) { a with condCleanupReads := false } key b →
      env.ok (.nextSession .cleanupReads key) = true → b.sessions.lookup key = some s →
      Turn s.resources (cleanupReadEA env s.intf key) b n c →
      (c.attached n).readReq = some rd → (c.readAt rd).complete = true →
      (c.readAt rd).hasPendingSamples = true →
      a.CallsBack (.cleanupReads, env) s.intf key (.releaseReadSamples key (c.attached n).id) c :=
    .releaseReadSamples hcond htrigger
  have hkeys : a.sessionKeys = { a with condCleanupReads := false }.sessionKeys := rfl
  change Owing [] [] (forEach a.sessionKeys _ _).2
  generalize { a with condCleanupReads := false } = b₀ at *
  let I := fun t => Owing [] [] t ∧ KeepsFinished b₀ t
  -- a visit to a reader whose read was not finished at the beginning
  have hvisit : ∀ {key s n b c},
      Turn a.sessionKeys (cleanupReadsOfEA env) b₀ key b →
      env.ok (.nextSession .cleanupReads key) = true → b.sessions.lookup key = some s →
      Turn s.resources (cleanupReadEA env s.intf key) b n c → b₀.finished n = false → I c →
      I (cleanupReadEA env s.intf key n c).2 := by
    intro key s n b c hkey hnext hs hn hskip hc
    refine cleanupReadEA_visits hc ?_ fun rd hrd hcomplete hpend => ?_
    · exact Bool.eq_false_iff.2 fun hfinished =>
        Bool.eq_false_iff.1 hskip (hc.2.finished n hfinished)
    · refine returnLoans_keeps hc fun d t hturn ht => ?_
      have hreturns := Agent.ReturnsLoan.callback
        (hcalls hkey hnext hs hn hrd hcomplete hpend) hturn
      exact ⟨returnLoan_owing ht.1 (hnotified _ _ _ _ _ hreturns), IsTrans.trans _ _ _ ht.2
        (returnLoan_keepsFinished (hends _ _ _ _ _ hreturns))⟩
  refine (forEach_until (I := I) (p := b₀.hasFinished) (fun _ ht => ht.1) ⟨hb, refl b₀⟩
    (fun key t hkey hnone ht => ?_) fun key t hkey hfind ht => ?_).1
  · exact cleanupReadsOfEA_skips ht (hvisit hkey) hnone
  · refine cleanupReadsOfEA_stops ht (hvisit hkey) (List.find?_some hfind) fun s₀ n rd => ?_
    exact hstuck key s₀ n rd (hkeys ▸ hfind)

end AgentM

end NanoAgent
