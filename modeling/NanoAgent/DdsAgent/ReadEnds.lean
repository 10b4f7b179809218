import NanoAgent.DdsAgent.ReadLifecycleRun
import NanoAgent.DdsAgent.ReadNotices

/-!
# How reads end

A read is ended by `cancelReadEA`, which does nothing that concerns reads before it
releases the read (`CancelExit`), and releases it when none of its calls fails
(`Agent.cancels`). Whether the interface is told is up to the caller. `Noticed a₀ a` says
that from `a₀` on no read has started and the end of every read has been announced.
-/

namespace NanoAgent

open Prog AgentM

/-- From `a` to `b` no read has started, and no session was opened or restored. -/
structure Drains (a b : Agent) : Prop where
  deleted : ∀ key s', b.sessions.lookup key = some s' → ∃ s, a.sessions.lookup key = some s ∧
    (s.deleted = true → s'.deleted = true)
  reading : ∀ n, (b.attached n).readReq.isSome = true → (a.attached n).readReq.isSome = true ∧
    (b.attached n).resource = (a.attached n).resource ∧
    (b.attached n).session = (a.attached n).session

namespace Drains

variable {a b : Agent}

instance : IsPreorder Agent Drains where
  refl _ := ⟨fun _ s hs => ⟨s, hs, id⟩, fun _ hn => ⟨hn, rfl, rfl⟩⟩
  trans a b c h h' := by
    refine ⟨fun key s'' hs'' => ?_, fun n hn => ?_⟩
    · obtain ⟨s', hs', hdel'⟩ := h'.deleted key s'' hs''
      obtain ⟨s, hs, hdel⟩ := h.deleted key s' hs'
      exact ⟨s, hs, fun hd => hdel' (hdel hd)⟩
    · obtain ⟨hn, hres', hkey'⟩ := h'.reading n hn
      obtain ⟨hn, hres, hkey⟩ := h.reading n hn
      exact ⟨hn, hres'.trans hres, hkey'.trans hkey⟩

theorem of_uneventful (h : Uneventful a b) : Drains a b where
  deleted key s' hs' := by
    obtain ⟨s, hs, -, hdel⟩ := h.flags key s' hs'
    exact ⟨s, hs, hdel⟩
  reading n hn := ⟨(h.isSome_eq n).symm.trans hn, h.resource n hn, h.session_eq n⟩

theorem of_same (hs : b.sessions = a.sessions) (hp : b.poolResources = a.poolResources) :
    Drains a b where
  deleted key s hkey := ⟨s, by rw [← hs]; exact hkey, id⟩
  reading n hn := by
    have heq : b.attached n = a.attached n := by rw [Agent.attached, hp, Agent.attached]
    rw [heq] at hn ⊢
    exact ⟨hn, rfl, rfl⟩

theorem releaseRead (a : Agent) (n rd : ℕ) : Drains a (a.releaseRead n rd) where
  deleted _ s hs := ⟨s, hs, id⟩
  reading m hm := by
    unfold Agent.releaseRead at hm ⊢
    rw [Agent.attached_updateAttached] at hm ⊢
    split at hm
    · cases hm
    · rename_i hne
      rw [if_neg hne]
      exact ⟨hm, rfl, rfl⟩

theorem takeAttached (a : Agent) {x : AttachedResource} (hx : x.readReq = none)
    (hp : b.poolResources = a.poolResources.take x)
    (hs : ∀ key s', b.sessions.lookup key = some s' → ∃ s, a.sessions.lookup key = some s ∧
      (s.deleted = true → s'.deleted = true)) : Drains a b where
  deleted := hs
  reading m hm := by
    by_cases heq : m = a.poolResources.next
    · subst heq
      rw [Agent.attached, hp, BufferPool.content_take_self, hx] at hm
      cases hm
    · have hold : b.attached m = a.attached m := by
        rw [Agent.attached, hp]
        exact BufferPool.content_take_of_ne _ _ heq
      rw [hold] at hm ⊢
      exact ⟨hm, rfl, rfl⟩

theorem updateSession (a : Agent) (key : ClientSessionKey) {f : ClientSession → ClientSession}
    (hf : ∀ s, s.deleted = true → (f s).deleted = true) : Drains a (a.updateSession key f) where
  deleted key' s' hs' := by
    rw [Agent.lookup_updateSession] at hs'
    split at hs'
    · obtain ⟨s, hs, rfl⟩ := Option.map_eq_some_iff.1 hs'
      exact ⟨s, hs, hf s⟩
    · exact ⟨s', hs', id⟩
  reading _ hm := ⟨hm, rfl, rfl⟩

theorem eraseSession (a : Agent) (key : ClientSessionKey) : Drains a (a.eraseSession key) where
  deleted _ s hs := ⟨s, AList.lookup_of_lookup_erase hs, id⟩
  reading _ hm := ⟨hm, rfl, rfl⟩

end Drains

/-- From `a₀` to `a` no read has started, and every end of a read has been announced. -/
structure Noticed (a₀ a : Agent) : Prop where
  owing : Owing [] [] a
  drains : Drains a₀ a

namespace Noticed

variable {a₀ a b : Agent}

theorem start (h : Owing [] [] a) : Noticed a a := ⟨h, refl a⟩

theorem uneventful (h : Noticed a₀ a) (hq : Uneventful a b) : Noticed a₀ b :=
  ⟨h.owing.uneventful hq, IsTrans.trans _ _ _ h.drains (.of_uneventful hq)⟩

theorem trans (h : Noticed a₀ a) (h' : Noticed a b) : Noticed a₀ b :=
  ⟨h'.owing, IsTrans.trans _ _ _ h.drains h'.drains⟩

end Noticed

namespace Reader

/-- No call of `requestComplete` fails. -/
def completes (env : Env) (rd : ℕ) (r : Reader) : Bool :=
  env.ok (.dds .asDataReader rd) && match r.findRequestByRead rd with
    | none => false
    | some req => (!req.queryCondition.isSome || env.ok (.dds .deleteReadCondition rd)) &&
        (!(r.requests.erase req).isEmpty || env.ok (.dds .resetListener rd))

theorem requestComplete_isSome (env : Env) (rd : ℕ) (r : Reader) :
    (requestComplete env rd r).1.isSome = r.completes env rd := by
  unfold requestComplete completes
  cases env.ok (.dds .asDataReader rd) with
  | false => rfl
  | true =>
      rw [ensure_true_bind_apply, read_bind_apply, Bool.true_and]
      cases r.findRequestByRead rd with
      | none => rfl
      | some req =>
          simp only [onlyIf_ensure, bind_apply, require_apply, modify_apply]
          cases hcond : !req.queryCondition.isSome || env.ok (.dds .deleteReadCondition rd) with
          | false => simp [ensure]
          | true =>
              cases hempty : (r.requests.erase req).isEmpty <;>
                cases env.ok (.dds .resetListener rd) <;> simp [ensure, bind_apply, hempty]

end Reader

namespace Agent

/-- No call of ending the read `rd` on the record `rid` fails. -/
def unregisters (env : Env) (a : Agent) (rid : ResourceId) (rd : ℕ) : Bool :=
  match a.resources.lookup rid with
  | none => false
  | some r => match r.userData with
    | none => false
    | some reader => (a.readerAt reader).completes env rd && env.ok (.postEvent .cancelRead rd) &&
        (r.id != .none && env.ok (.waitSemaphore .cancelRead rd))

/-- The read `rd` has no pending samples, and no call of ending it fails. -/
def cancels (env : Env) (a : Agent) (rid : ResourceId) (rd : ℕ) : Bool :=
  !(a.readAt rd).hasPendingSamples && a.unregisters env rid rd

end Agent

/-- The exits of ending the read of `n` on the record `rid`. -/
inductive CancelExit (env : Env) (a : Agent) (n : ℕ) (rid : ResourceId) :
    Option Unit → Agent → Prop
  | idle : (a.attached n).readReq = none → CancelExit env a n rid (some ()) a
  | refused {b : Agent} : Uneventful a b → CancelExit env a n rid none b
  | ended {b : Agent} {rd : ℕ} : (a.attached n).readReq = some rd →
      a.cancels env rid rd = true → Uneventful a b →
      CancelExit env a n rid (some ()) (b.releaseRead n rd)

namespace AgentM

variable {env : Env}

theorem deref_apply (rid : ResourceId) (r : Resource) (a : Agent) :
    deref rid r a = (r.userData, (access rid (!r.nativeDeleted && r.userData.isSome) a).2) := rfl

theorem access_readerAt (rid : ResourceId) (valid : Bool) (a : Agent) (n : ℕ) :
    (access rid valid a).2.readerAt n = a.readerAt n := by
  cases valid <;> rfl

theorem cancelReadEA_exits (env : Env) (n : ℕ) (rid : ResourceId) (a : Agent) :
    CancelExit env a n rid (cancelReadEA env n rid a).1 (cancelReadEA env n rid a).2 := by
  unfold cancelReadEA
  rw [read_bind_apply]
  cases hrd : (a.attached n).readReq with
  | none => exact .idle hrd
  | some rd =>
      refine exits_ensure (.refused (refl a)) fun hpend => ?_
      refine exits_require (.refused (refl a)) fun r hr => ?_
      have hderef : Uneventful a (deref rid r a).2 := .of_native (access_nativeFrame _ _ a)
      refine exits_bind (fun _ => .refused hderef) fun reader hstate => ?_
      rw [deref_apply] at hstate
      have hreader : (deref rid r a).2.readerAt reader = a.readerAt reader :=
        access_readerAt _ _ a reader
      generalize (deref rid r a).2 = b at hderef hreader
      have hdone : Uneventful a (onReader reader (Reader.requestComplete env rd) b).2 :=
        IsTrans.trans _ _ _ hderef (.updateReader b reader _)
      refine exits_bind (fun _ => .refused hdone) fun _ hcomplete => ?_
      have hcompletes : (a.readerAt reader).completes env rd = true := by
        have hsome : (Reader.requestComplete env rd (b.readerAt reader)).1 = some _ := hcomplete
        rw [← hreader, ← Reader.requestComplete_isSome, hsome]
        rfl
      refine exits_ensure (.refused hdone) fun hpost =>
        exits_ensure (.refused hdone) fun hwait => ?_
      refine .ended hrd ?_ hdone
      simp only [Agent.cancels, Agent.unregisters, hr, show r.userData = some reader from hstate,
        hpend, hcompletes,
        hpost, hwait, Bool.and_true]

theorem cancelReadI_exits (env : Env) (n : ℕ) (a : Agent) :
    CancelExit env a n (a.attached n).resource (cancelReadI env n a).1 (cancelReadI env n a).2 ∧
      ((cancelReadI env n a).1 = some () → a.locates env .cancelReadI n = true) := by
  let K := fun res b => CancelExit env a n (a.attached n).resource res b ∧
    (res = some () → a.locates env .cancelReadI n = true)
  have hrefused : K none a := ⟨.refused (refl a), by simp⟩
  change K (cancelReadI env n a).1 (cancelReadI env n a).2
  unfold cancelReadI
  rw [read_bind_apply]
  refine exits_lookupResource hrefused fun hok => exits_require hrefused fun r hr => ?_
  refine exits_ensure hrefused fun hdel => ⟨cancelReadEA_exits env n _ a, fun _ => ?_⟩
  simp only [Agent.locates, hok, hr, hdel, Bool.and_true]

end AgentM

/-- The records of the attached resources with a read can be released by `c`. -/
def Agent.Releasable (env : Env) (c : Caller) (a : Agent) : Prop :=
  ∀ n, (a.attached n).readReq.isSome = true →
    env.ok (.releaseResource c (a.attached n).resource) = true

theorem Agent.Releasable.mono {env : Env} {c : Caller} {a b : Agent} (h : a.Releasable env c)
    (hd : Drains a b) : b.Releasable env c := by
  intro n hn
  obtain ⟨hn, hres, -⟩ := hd.reading n hn
  rw [hres]
  exact h n hn

namespace Uneventful

variable {a b : Agent} {n : ℕ}

/-- The read of `n` has ended, and its notification is owed. -/
theorem owing_release (h : Uneventful a b) (ha : Owing [] [] a)
    (hn : (a.attached n).readReq.isSome = true) (rd : ℕ) :
    Owing [] [((a.attached n).session, (a.attached n).id)] (b.releaseRead n rd) := by
  have hb := (ha.uneventful h).releaseRead ((h.isSome_eq n).trans hn) rd
  rw [h.session_eq, h.id_eq] at hb
  exact hb

theorem drains_release (h : Uneventful a b) (n rd : ℕ) : Drains a (b.releaseRead n rd) :=
  IsTrans.trans _ _ _ (.of_uneventful h) (.releaseRead b n rd)

/-- An attached resource that has no read gets none. -/
theorem idle (h : Uneventful a b) (hn : (a.attached n).readReq = none) :
    (b.attached n).readReq = none := by
  rw [← Option.not_isSome_iff_eq_none, h.isSome_eq, hn]
  exact Bool.false_ne_true

end Uneventful

theorem Drains.idle {a b : Agent} (h : Drains a b) {n : ℕ} (hn : (a.attached n).readReq = none) :
    (b.attached n).readReq = none := by
  rw [← Option.not_isSome_iff_eq_none]
  intro hread
  have hread := (h.reading n hread).1
  rw [hn] at hread
  cases hread

/-- Every session has the same list and the same flags. -/
def SameOutlines (a b : Agent) : Prop :=
  ∀ key, (b.sessions.lookup key).map ClientSession.outline =
    (a.sessions.lookup key).map ClientSession.outline

instance : IsPreorder Agent SameOutlines where
  refl _ _ := rfl
  trans _ _ _ h h' key := (h' key).trans (h key)

theorem SameOutlines.of_sessions {a b : Agent} (h : b.sessions = a.sessions) :
    SameOutlines a b := fun key => by rw [h]

theorem SameOutlines.exists_session {a b : Agent} (h : SameOutlines a b) {key : ClientSessionKey}
    {s : ClientSession} (hs : a.sessions.lookup key = some s) :
    ∃ s', b.sessions.lookup key = some s' ∧ s'.resources = s.resources ∧
      s'.deleted = s.deleted := by
  have heq := h key
  rw [hs] at heq
  obtain ⟨s', hs', houtline⟩ := Option.map_eq_some_iff.1 heq
  exact ⟨s', hs', congrArg (·.resources) houtline, congrArg (·.deleted) houtline⟩

namespace AgentM

variable {env : Env} {a : Agent}

theorem detachResourceEA_sameOutlines (key : ClientSessionKey) (n : ℕ) (del copyOut : Bool) :
    Within SameOutlines (detachResourceEA env key n del copyOut) := by
  have hcount : Within SameOutlines (countOutEA env key n del) := by
    refine .read fun a => .bind (.ensure _) fun _ => .bind (lookupResource_frame _ _ _) fun _ => ?_
    refine .bind (.require _) fun r => .bind (.ensure _) fun _ => ?_
    refine .bind (.onlyIf fun _ => fun b => (cancelReadEA_frame env n _ b).session) fun _ => ?_
    refine .bind (.modify fun b => .of_sessions rfl) fun _ => .bind (.ensure _) fun _ => ?_
    exact .bind (.onlyIf fun _ => .modify fun b => .of_sessions rfl) fun _ => .pure _
  refine .read fun a => .bind hcount fun delete => ?_
  refine .bind (.onlyIf fun _ => ?_) fun _ => .bind (.onlyIf fun _ => .ensure _) fun _ => ?_
  · refine .bind (fun b => .of_sessions (deleteNativeResourceEA_frame env _ b).sessions) fun _ => ?_
    exact .bind (.ensure _) fun _ => .modify fun b => .of_sessions rfl
  · exact .bind (.modify fun b => .of_sessions rfl) fun _ => .ensure _

/-- The exits of counting out and detaching `n`: when it returns, `n` has no read. -/
def DetachedExit (a : Agent) (n : ℕ) {α : Type} (res : Option α) (b : Agent) : Prop :=
  Noticed a b ∧ (res.isSome = true → (b.attached n).readReq = none)

theorem DetachedExit.failed {n : ℕ} {α : Type} {b : Agent} (h : Noticed a b) :
    DetachedExit a n (none : Option α) b :=
  ⟨h, by simp⟩

theorem countOutEA_noticed {key : ClientSessionKey} {n : ℕ} (del : Bool) (ha : Owing [] [] a)
    (hkey : (a.attached n).readReq.isSome = true → (a.attached n).session = key)
    (hfree : (a.attached n).readReq.isSome = true →
      env.ok (.releaseResource .detach (a.attached n).resource) = true) :
    DetachedExit a n (countOutEA env key n del a).1 (countOutEA env key n del a).2 := by
  have hstart := Noticed.start ha
  unfold countOutEA
  rw [read_bind_apply]
  refine exits_ensure (.failed hstart) fun _ => exits_lookupResource (.failed hstart) fun _ => ?_
  refine exits_require (.failed hstart) fun r _ => exits_ensure (.failed hstart) fun _ => ?_
  cases hreq : (a.attached n).readReq with
  | none =>
      simp only [Option.isSome_none, Bool.and_false, onlyIf_false]
      rw [pure_then, modify_bind_apply]
      have hcounted : Uneventful a (a.countOut (a.attached n).resource del) :=
        .updateResource a _ _
      refine exits_ensure (.failed (hstart.uneventful hcounted)) fun _ => ?_
      exact ⟨hstart.uneventful hcounted, fun _ => hreq⟩
  | some rd =>
      have hread : (a.attached n).readReq.isSome = true := by rw [hreq]; rfl
      rw [(ha.linked n hread).1]
      simp only [Option.isSome_some, Bool.and_true, decide_true, onlyIf_true]
      have hexit := cancelReadEA_exits env n (a.attached n).resource a
      refine exits_bind (fun hnone => ?_) fun _ hsome => ?_
      · rw [hnone] at hexit
        cases hexit with
        | refused hquiet => exact .failed (hstart.uneventful hquiet)
      · rw [hsome] at hexit
        generalize (cancelReadEA env n (a.attached n).resource a).2 = b at hexit
        cases hexit with
        | idle hnone =>
            rw [hreq] at hnone
            cases hnone
        | @ended c rd' hrd _ hquiet =>
            rw [modify_bind_apply, hfree hread, ensure_true_bind_apply, modify_bind_apply]
            have hended := hquiet.owing_release ha hread rd'
            rw [hkey hread] at hended
            have hcounted := hended.uneventful
              (.updateResource (c.releaseRead n rd') (a.attached n).resource fun r =>
                { r with attachedCount := r.attachedCount - 1,
                         pendingDelete := r.pendingDelete || del })
            refine ⟨⟨hcounted.notifyComplete, ?_⟩, fun _ => ?_⟩
            · exact IsTrans.trans _ _ _ (hquiet.drains_release n rd') (.of_same rfl rfl)
            · change ((c.releaseRead n rd').attached n).readReq = none
              unfold Agent.releaseRead
              rw [Agent.attached_updateAttached, if_pos rfl]

theorem detachResourceEA_noticed (env : Env) (key : ClientSessionKey) (n : ℕ)
    (del copyOut : Bool) (ha : Owing [] [] a)
    (hkey : (a.attached n).readReq.isSome = true → (a.attached n).session = key)
    (hfree : (a.attached n).readReq.isSome = true →
      env.ok (.releaseResource .detach (a.attached n).resource) = true) :
    DetachedExit a n (detachResourceEA env key n del copyOut a).1
      (detachResourceEA env key n del copyOut a).2 := by
  unfold detachResourceEA
  rw [read_bind_apply]
  obtain ⟨hb, hidle⟩ := countOutEA_noticed del ha hkey hfree
  refine exits_bind (fun _ => .failed hb) fun delete hdelete => ?_
  rw [hdelete] at hidle
  generalize (countOutEA env key n del a).2 = b at hb hidle
  have hidle := hidle rfl
  have hremove : Within Uneventful (onlyIf delete (do
      deleteNativeResourceEA env (a.attached n).resource
      ensure (env.ok (.deleteResource (a.attached n).resource))
      modify fun a' => { a' with resources := a'.resources.erase (a.attached n).resource })) := by
    refine .onlyIf fun _ => .bind (fun c => .of_native (deleteNativeResourceEA_frame env _ c)) ?_
    exact fun _ => .bind (.ensure _) fun _ => .modify fun c => .of_same rfl rfl (.of_same rfl)
  have hc := hremove b
  refine exits_bind (fun _ => .failed (hb.uneventful hc)) fun _ _ => ?_
  generalize (onlyIf delete _ b).2 = c at hc
  rw [onlyIf_ensure]
  refine exits_ensure (.failed (hb.uneventful hc)) fun _ => ?_
  rw [modify_bind_apply]
  have hunlink : Uneventful c (c.unlink n) := .unlink c (hc.idle hidle)
  exact ⟨(hb.uneventful hc).uneventful hunlink, fun _ => hunlink.idle (hc.idle hidle)⟩

end AgentM

end NanoAgent
