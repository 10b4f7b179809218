import NanoAgent.DdsAgent.AttachmentCount
import NanoAgent.DdsAgent.NativeFrame

/-!
# Counting attachments along runs

A detached resource stays linked in its session, so a session may detach its
resources only when its record is removed in the same step. That is what happens
to a session that timed out, when nothing fails on the way: its resources are
counted out one by one (`AttachCore.detach`), and then the record goes
(`AttachCore.eraseSession`).

`KeepsAttachments` is the condition on a step, and `attachmentsCounted_of_reached`
says that the counts agree in every state of a run that meets it.
-/

namespace NanoAgent

open Prog

section Detach

variable {a : Agent} {n : ℕ} {rid : ResourceId}

theorem Agent.attached_detach (m : ℕ) : (((a.countOut rid false).unlink n).attached m).resource =
    if m = n then .none else (a.attached m).resource := by
  rw [Agent.attached_unlink]
  split <;> rfl

theorem Agent.exists_of_lookup_detach {rid' : ResourceId} {r' : Resource}
    (h : ((a.countOut rid false).unlink n).resources.lookup rid' = some r') :
    ∃ r₀, a.resources.lookup rid' = some r₀ ∧
      r' = { r₀ with attachedCount := r₀.attachedCount - if rid' = rid then 1 else 0 } := by
  change (a.resources.modify rid _).lookup rid' = some r' at h
  rw [AList.lookup_modify] at h
  split at h
  · obtain ⟨r₀, hr₀, rfl⟩ := Option.map_eq_some_iff.1 h
    exact ⟨r₀, hr₀, by simp [*]⟩
  · exact ⟨r', h, by simp [*]⟩

/-- A linked resource is counted once under the name it has. -/
theorem Agent.attachments_detach (ha : AttachCore a) (hn : n ∈ a.linked)
    (hname : (a.attached n).resource = rid) {rid' : ResourceId} (hrid : rid' ≠ .none) :
    ((a.countOut rid false).unlink n).attachments rid' =
      a.attachments rid' - if rid' = rid then 1 else 0 := by
  have hperm := List.perm_cons_erase hn
  have hnot : n ∉ a.linked.erase n := ha.nodup.not_mem_erase
  have hrest : (a.linked.erase n).countP
      (fun m => (((a.countOut rid false).unlink n).attached m).resource = rid') =
      (a.linked.erase n).countP fun m => (a.attached m).resource = rid' := by
    refine List.countP_congr fun m hm => ?_
    rw [Agent.attached_detach, if_neg]
    rintro rfl
    exact hnot hm
  unfold Agent.attachments
  change a.linked.countP _ = _
  rw [hperm.countP_eq, hperm.countP_eq, List.countP_cons, List.countP_cons, hrest,
    Agent.attached_detach, hname]
  by_cases h : rid' = rid
  · subst h
    simp [hrid.symm]
  · have hne : rid ≠ rid' := fun heq => h heq.symm
    simp [h, hne, hrid.symm]

/-- Detaching keeps the counts: the resource that is no longer named is counted
out, and stays linked under no name. -/
theorem AttachCore.detach (ha : AttachCore a) (hn : n ∈ a.linked)
    (hname : (a.attached n).resource = rid) :
    AttachCore ((a.countOut rid false).unlink n) := by
  have hne : ∀ m, (((a.countOut rid false).unlink n).attached m).resource ≠ .none →
      m ≠ n ∧ (((a.countOut rid false).unlink n).attached m).resource =
        (a.attached m).resource := by
    intro m hm
    rw [Agent.attached_detach] at hm ⊢
    by_cases h : m = n
    · rw [if_pos h] at hm
      exact absurd rfl hm
    · exact ⟨h, if_neg h⟩
  constructor
  · intro rid' r' hr'
    obtain ⟨r₀, hr₀, rfl⟩ := Agent.exists_of_lookup_detach hr'
    rw [Agent.attachments_detach ha hn hname (ha.valid _ _ hr₀), ← ha.count _ _ hr₀]
  · intro m hm hnamed
    obtain ⟨hmn, heq⟩ := hne m hnamed
    exact (ha.live m hm (heq ▸ hnamed)).giveBack hmn
  · exact ha.nodup
  · exact ha.allocated
  · exact ha.sound.giveBack (ha.allocated n hn)
  · intro m hm hnamed
    obtain ⟨hmn, heq⟩ := hne m hnamed
    obtain ⟨r, hr⟩ := ha.named m hm (heq ▸ hnamed)
    rw [heq]
    change ∃ r, (a.resources.modify rid _).lookup _ = some r
    rw [AList.lookup_modify, hr]
    split <;> simp
  · intro rid' r' hr'
    obtain ⟨r₀, hr₀, rfl⟩ := Agent.exists_of_lookup_detach hr'
    have hid := ha.ids _ r₀ hr₀
    exact hid
  · intro rid' r' hr'
    obtain ⟨r₀, hr₀, -⟩ := Agent.exists_of_lookup_detach hr'
    exact ha.valid _ _ hr₀
  · intro rid' r' hr'
    obtain ⟨r₀, hr₀, rfl⟩ := Agent.exists_of_lookup_detach hr'
    have hkept := ha.kept _ r₀ hr₀
    exact hkept

/-- The resources of two sessions are different. -/
theorem AttachCore.notMem_of_ne {a : Agent} (ha : AttachCore a) {key key' : ClientSessionKey}
    {s s' : ClientSession} (hs : a.sessions.lookup key = some s)
    (hs' : a.sessions.lookup key' = some s') (hne : key' ≠ key) {n : ℕ} (hn : n ∈ s'.resources) :
    n ∉ s.resources := by
  have hperm := AList.collect_perm_of_lookup (·.resources) hs
  have hdisj := (List.nodup_append.1 (hperm.nodup_iff.1 ha.nodup)).2.2
  intro hns
  refine hdisj n hns n (AList.mem_collect_iff.2 ⟨key', s', ?_, hn⟩) rfl
  rw [AList.lookup_erase_ne hne]
  exact hs'

/-- Removing a session whose resources have all been detached, when those of the
other sessions have not. -/
theorem AttachCore.eraseSession (ha : AttachCore a) {key : ClientSessionKey} {s : ClientSession}
    (hs : a.sessions.lookup key = some s)
    (hout : ∀ n ∈ s.resources, (a.attached n).resource = .none)
    (hin : ∀ n ∈ a.linked, n ∉ s.resources → (a.attached n).resource ≠ .none) :
    AttachInv (a.eraseSession key) := by
  have hperm : a.linked.Perm (s.resources ++ (a.eraseSession key).linked) :=
    AList.collect_perm_of_lookup _ hs
  have hmem : ∀ n ∈ (a.eraseSession key).linked, n ∈ a.linked ∧ n ∉ s.resources := by
    intro n hn
    refine ⟨hperm.mem_iff.2 (List.mem_append_right _ hn), ?_⟩
    intro hns
    exact (List.nodup_append.1 (hperm.nodup_iff.1 ha.nodup)).2.2 n hns n hn rfl
  have hcount : ∀ rid, rid ≠ .none → (a.eraseSession key).attachments rid = a.attachments rid := by
    intro rid hrid
    have hzero : s.resources.countP (fun n => (a.attached n).resource = rid) = 0 := by
      rw [List.countP_eq_zero]
      intro n hn h
      rw [hout n hn] at h
      exact hrid (of_decide_eq_true h).symm
    unfold Agent.attachments
    rw [hperm.countP_eq, List.countP_append, hzero, Nat.zero_add]
    rfl
  refine ⟨⟨?_, ?_, ?_, ?_, ha.sound, ?_, ha.ids, ha.valid, ha.kept⟩, ?_⟩
  · intro rid r hr
    rw [hcount rid (ha.valid rid r hr)]
    exact ha.count rid r hr
  · intro n hn
    exact ha.live n (hmem n hn).1
  · exact (List.nodup_append.1 (hperm.nodup_iff.1 ha.nodup)).2.1
  · intro n hn
    exact ha.allocated n (hmem n hn).1
  · intro n hn
    exact ha.named n (hmem n hn).1
  · intro n hn
    exact hin n (hmem n hn).1 (hmem n hn).2

end Detach

/-- What the clean-up of the session `key`, whose resources are `l`, leaves alone. -/
structure Elsewhere (key : ClientSessionKey) (l : List ℕ) (a b : Agent) : Prop where
  sessions : ∀ key', key' ≠ key → (b.sessions.lookup key').map ClientSession.outline =
    (a.sessions.lookup key').map ClientSession.outline
  attached : ∀ n, n ∉ l → b.attached n = a.attached n
  samples : ∀ rd, (b.readAt rd).samples = (a.readAt rd).samples

namespace Elsewhere

variable {key : ClientSessionKey} {l : List ℕ}

theorem rfl' (a : Agent) : Elsewhere key l a a := ⟨fun _ _ => rfl, fun _ _ => rfl, fun _ => rfl⟩

instance : IsPreorder Agent (Elsewhere key l) where
  refl := rfl'
  trans _ _ _ h h' :=
    ⟨fun k hk => (h'.sessions k hk).trans (h.sessions k hk),
      fun n hn => (h'.attached n hn).trans (h.attached n hn),
      fun rd => (h'.samples rd).trans (h.samples rd)⟩

theorem of_same {a b : Agent} (hs : b.sessions = a.sessions)
    (hp : b.poolResources = a.poolResources) (hr : b.poolReads = a.poolReads) :
    Elsewhere key l a b where
  sessions key' _ := by rw [hs]
  attached n _ := by rw [Agent.attached, hp, Agent.attached]
  samples rd := by rw [Agent.readAt, hr, Agent.readAt]

theorem updateAttached (a : Agent) {n : ℕ} (hn : n ∈ l) (f : AttachedResource → AttachedResource) :
    Elsewhere key l a (a.updateAttached n f) where
  sessions _ _ := rfl
  attached m hm := by
    refine BufferPool.content_update_of_ne _ _ ?_
    rintro rfl
    exact hm hn
  samples _ := rfl

theorem session_eq {a b : Agent} (h : Elsewhere key l a b) {key' : ClientSessionKey}
    (hne : key' ≠ key) {s : ClientSession} (hs : b.sessions.lookup key' = some s) :
    ∃ s₀, a.sessions.lookup key' = some s₀ ∧ s.resources = s₀.resources ∧
      s.deleted = s₀.deleted ∧ s.timedout = s₀.timedout := by
  have heq := h.sessions key' hne
  rw [hs] at heq
  obtain ⟨s₀, hs₀, ho⟩ := Option.map_eq_some_iff.1 heq.symm
  refine ⟨s₀, hs₀, ?_, ?_, ?_⟩
  · exact (congrArg ClientSession.resources ho).symm
  · exact (congrArg ClientSession.deleted ho).symm
  · exact (congrArg ClientSession.timedout ho).symm

end Elsewhere

namespace AgentM

section Elsewhere

variable {key : ClientSessionKey} {l : List ℕ}

theorem notify_elsewhere (c : Callback) : Within (Elsewhere key l) (modify fun a => a.notify c) :=
  .modify fun _ => .of_same rfl rfl rfl

theorem cancelReadEA_elsewhere (env : Env) {n : ℕ} (hn : n ∈ l) (rid : ResourceId) :
    Within (Elsewhere key l) (cancelReadEA env n rid) := by
  refine .read fun a => ?_
  cases (a.attached n).readReq with
  | none => exact .pure _
  | some rd =>
      refine .bind (.ensure _) fun _ => .bind (.require _) fun r => ?_
      refine .bind (.bind (fun a => ?_) fun _ => .require _) fun reader => ?_
      · have h := access_nativeFrame rid (!r.nativeDeleted && r.userData.isSome) a
        exact .of_same h.sessions h.poolResources h.poolReads
      refine .bind (fun a => .of_same rfl rfl rfl) fun _ => .bind (.ensure _) fun _ => ?_
      refine .bind (.ensure _) fun _ => .modify fun a => ?_
      have hpool : Elsewhere key l a { a with poolReads := a.poolReads.giveBack rd } :=
        ⟨fun _ _ => rfl, fun _ _ => rfl, fun _ => rfl⟩
      exact IsTrans.trans _ _ _ hpool (.updateAttached _ hn _)

theorem endReadEA_elsewhere (env : Env) {n : ℕ} (hn : n ∈ l) :
    Within (Elsewhere key l) (endReadEA env key n) := by
  refine .read fun a => .onlyIf fun _ => .bind (lookupResource_frame _ _ _) fun found => ?_
  cases found with
  | none => exact .pure _
  | some r =>
      refine .ite (fun _ => .ensure _) fun _ => .bind (cancelReadEA_elsewhere env hn _) fun _ => ?_
      exact .bind (.ensure _) fun _ => notify_elsewhere _

theorem countOutEA_elsewhere (env : Env) {n : ℕ} (hn : n ∈ l) (deleteRequest : Bool) :
    Within (Elsewhere key l) (countOutEA env key n deleteRequest) := by
  refine .read fun a => .bind (.ensure _) fun _ => .bind (lookupResource_frame _ _ _) fun _ => ?_
  refine .bind (.require _) fun r => .bind (.ensure _) fun _ => ?_
  refine .bind (.onlyIf fun _ => cancelReadEA_elsewhere env hn _) fun _ => ?_
  refine .bind (.modify fun _ => .of_same rfl rfl rfl) fun _ => .bind (.ensure _) fun _ => ?_
  exact .bind (.onlyIf fun _ => notify_elsewhere _) fun _ => .pure _

theorem detachResourceEA_elsewhere (env : Env) {n : ℕ} (hn : n ∈ l)
    (deleteRequest copyOut : Bool) :
    Within (Elsewhere key l) (detachResourceEA env key n deleteRequest copyOut) := by
  have hdelete : ∀ rid, Within (Elsewhere key l) (deleteNativeResourceEA env rid) := by
    intro rid a
    have h := deleteNativeResourceEA_frame env rid a
    exact .of_same h.sessions h.poolResources h.poolReads
  refine .read fun a => .bind (countOutEA_elsewhere env hn _) fun del => ?_
  refine .bind (.onlyIf fun _ => .bind (hdelete _) fun _ => .bind (.ensure _) fun _ => ?_)
    fun _ => ?_
  · exact .modify fun _ => .of_same rfl rfl rfl
  refine .bind (.onlyIf fun _ => .ensure _) fun _ => .bind (.modify fun a => ?_) fun _ => .ensure _
  refine IsTrans.trans _ _ _ (Elsewhere.updateAttached a hn fun x =>
    { x with resource := .none }) ?_
  exact ⟨fun _ _ => rfl, fun _ _ => rfl, fun _ => rfl⟩

theorem updateSession_elsewhere (f : ClientSession → ClientSession) :
    Within (Elsewhere key l) (modify fun a => a.updateSession key f) := by
  refine .modify fun a => ⟨fun key' hne => ?_, fun _ _ => rfl, fun _ => rfl⟩
  change ((a.sessions.modify key f).lookup key').map _ = _
  rw [AList.lookup_modify_of_ne _ _ hne]

theorem drainSamples_elsewhere : Within (Elsewhere key l) (modify fun a => a.drainSamples key) := by
  refine .modify fun a => ?_
  unfold Agent.drainSamples
  cases a.sessions.lookup key with
  | none => exact .rfl' a
  | some s =>
      refine ⟨fun key' hne => ?_, fun _ _ => rfl, fun _ => rfl⟩
      change ((a.sessions.insert key _).lookup key').map _ = _
      rw [AList.lookup_insert_ne hne]

/-- The clean-up of a session leaves the other sessions alone. -/
theorem cleanupSessionEA_elsewhere (env : Env) {a : Agent} {s : ClientSession}
    (hs : a.sessions.lookup key = some s) :
    Elsewhere key s.resources a (cleanupSessionEA env key a).2 := by
  refine keeps_ensure (.rfl' a) fun _ => ?_
  rw [read_bind_apply, hs]
  dsimp only
  cases hd : s.deleted with
  | false => exact .rfl' a
  | true =>
      have hfinal : Elsewhere key s.resources a (finalizeSessionEA env key a).2 := by
        unfold finalizeSessionEA
        rw [read_bind_apply, hs]
        refine Within.bind (R := Elsewhere key s.resources) (.ensure _) (fun _ => ?_) a
        refine .bind (.forEach fun n hn => endReadEA_elsewhere env hn) fun _ => ?_
        refine .bind (.forEach fun n hn => .read fun a => ?_) fun _ => ?_
        · exact .bind (detachResourceEA_elsewhere env hn _ _) fun _ => notify_elsewhere _
        · exact .bind drainSamples_elsewhere fun _ => .onlyIf fun _ => .ensure _
      have hrest : Within (Elsewhere key s.resources) (releaseFinalizedEA env key s.timedout) := by
        refine .ite (fun _ => .bind (.ensure _) fun _ => .bind (.ensure _) fun _ => ?_) fun _ => ?_
        · refine .bind (.modify fun a => ⟨fun key' hne => ?_, fun _ _ => rfl, fun _ => rfl⟩)
            fun _ => notify_elsewhere _
          change ((a.sessions.erase key).lookup key').map _ = _
          rw [AList.lookup_erase_ne hne]
        · exact .bind (updateSession_elsewhere _) fun _ => .ensure _
      rw [onlyIf_true]
      exact keeps_bind (fun _ => hfinal) fun _ _ => IsTrans.trans _ _ _ hfinal (hrest _)

end Elsewhere

section TimedOut

/-- An attached resource without a read that detaching would have to cancel. -/
def Quiet (a : Agent) (n : ℕ) : Prop :=
  (a.attached n).kind = .dataReader → (a.attached n).readReq = none

theorem detachResourceEA_eq {env : Env} (hyes : ∀ c, env.ok c = true) (key : ClientSessionKey)
    {n : ℕ} {a : Agent} {r : Resource} (hr : a.resources.lookup (a.attached n).resource = some r)
    (hcount : r.attachedCount ≠ 0) (hpend : r.pendingDelete = false) (hquiet : Quiet a n)
    (copyOut : Bool) :
    detachResourceEA env key n false copyOut a =
      (some (), (a.countOut (a.attached n).resource false).unlink n) := by
  have hcancel : (decide ((a.attached n).kind = .dataReader) &&
      (a.attached n).readReq.isSome) = false := by
    by_cases hk : (a.attached n).kind = .dataReader
    · rw [hquiet hk]
      simp
    · simp [hk]
  have hout : countOutEA env key n false a =
      (some false, a.countOut (a.attached n).resource false) := by
    simp [countOutEA, lookupResource, hyes, bind_apply, hr, hcount, hpend, hcancel, ensure]
  simp [detachResourceEA, bind_apply, hout, hyes, ensure, onlyIf_ensure]

/-- A cancelled read is forgotten. -/
theorem readReq_of_cancelReadEA {env : Env} {n : ℕ} {rid : ResourceId} {a b : Agent}
    (h : cancelReadEA env n rid a = (some (), b)) : (b.attached n).readReq = none := by
  unfold cancelReadEA at h
  rw [read_bind_apply] at h
  cases hread : (a.attached n).readReq with
  | none =>
      rw [hread] at h
      obtain ⟨-, rfl⟩ := pure_eq_some.1 h
      exact hread
  | some rd =>
      simp only [hread, bind_eq_some, modify_eq_some] at h
      obtain ⟨-, -, -, -, -, -, -, -, -, -, -, -, -, -, -, -, c, -, rfl⟩ := h
      unfold Agent.releaseRead
      rw [Agent.attached_updateAttached, if_pos rfl]

/-- The first loop of the finalization ends the read of a resource whose record
is there and not natively deleted. -/
theorem quiet_of_endReadEA {env : Env} {key : ClientSessionKey} {n : ℕ} {a b : Agent} {r : Resource}
    (hr : a.resources.lookup (a.attached n).resource = some r) (hdel : r.nativeDeleted = false)
    (h : endReadEA env key n a = (some (), b)) : Quiet b n := by
  unfold endReadEA at h
  rw [read_bind_apply] at h
  cases hc : (decide ((a.attached n).kind = .dataReader) && (a.attached n).readReq.isSome) with
  | false =>
      simp only [hc, onlyIf_false, pure_eq_some] at h
      obtain ⟨-, rfl⟩ := h
      intro hk
      simpa [hk] using hc
  | true =>
      simp only [hc, onlyIf_true, bind_eq_some, lookupResource_eq_some] at h
      obtain ⟨_, _, ⟨-, rfl, rfl⟩, h⟩ := h
      simp only [hr, hdel, Bool.false_eq_true, if_false, bind_eq_some, ensure_eq_some,
        modify_eq_some] at h
      obtain ⟨_, c, hcancel, _, _, ⟨-, rfl⟩, rfl⟩ := h
      intro _
      change (c.attached n).readReq = none
      exact readReq_of_cancelReadEA hcancel

/-- The second loop of the finalization of a session whose resources are `l`, with
`rest` still to be detached. -/
structure Emptying (key : ClientSessionKey) (l rest : List ℕ) (a : Agent) : Prop where
  core : AttachCore a
  session : ∃ s, a.sessions.lookup key = some s ∧ s.resources = l
  nodup : rest.Nodup
  left : ∀ n ∈ rest, n ∈ l ∧ (a.attached n).resource ≠ .none ∧ Quiet a n
  out : ∀ n ∈ l, n ∉ rest → (a.attached n).resource = .none
  others : ∀ n ∈ a.linked, n ∉ l → (a.attached n).resource ≠ .none

theorem Emptying.detach {key : ClientSessionKey} {l rest : List ℕ} {n : ℕ} {a : Agent}
    (h : Emptying key l (n :: rest) a) :
    Emptying key l rest ((a.countOut (a.attached n).resource false).unlink n) := by
  obtain ⟨s, hs, rfl⟩ := h.session
  obtain ⟨hnl, -, -⟩ := h.left n (by simp)
  obtain ⟨hnr, hnodup⟩ := List.nodup_cons.1 h.nodup
  have hlinked : n ∈ a.linked := AList.mem_collect_iff.2 ⟨key, s, hs, hnl⟩
  have hkeep : ∀ m, m ≠ n →
      ((a.countOut (a.attached n).resource false).unlink n).attached m = a.attached m := by
    intro m hm
    rw [Agent.attached_unlink, if_neg hm]
    rfl
  refine ⟨h.core.detach hlinked rfl, ⟨s, hs, rfl⟩, hnodup, ?_, ?_, ?_⟩
  · intro m hm
    have hmn : m ≠ n := by
      rintro rfl
      exact hnr hm
    unfold Quiet
    rw [hkeep m hmn]
    exact h.left m (by simp [hm])
  · intro m hm hmr
    rw [Agent.attached_detach]
    by_cases hmn : m = n
    · rw [if_pos hmn]
    · rw [if_neg hmn]
      exact h.out m hm (by simp [hmn, hmr])
  · intro m hm hml
    have hmn : m ≠ n := by
      rintro rfl
      exact hml hnl
    rw [hkeep m hmn]
    exact h.others m hm hml

/-- Every round of the second loop returns. -/
theorem detachOnCloseEA_returns {env : Env} (hyes : ∀ c, env.ok c = true) {key : ClientSessionKey}
    {l rest : List ℕ} {n : ℕ} {a : Agent} (h : Emptying key l (n :: rest) a) :
    ∃ b, detachOnCloseEA env key n a = (some (), b) ∧ Emptying key l rest b := by
  obtain ⟨s, hs, rfl⟩ := h.session
  obtain ⟨hnl, hne, hquiet⟩ := h.left n (by simp)
  have hlinked : n ∈ a.linked := AList.mem_collect_iff.2 ⟨key, s, hs, hnl⟩
  obtain ⟨r, hr⟩ := h.core.named n hlinked hne
  have hcount : r.attachedCount ≠ 0 := by
    rw [h.core.count _ _ hr]
    refine Nat.pos_iff_ne_zero.1 (List.countP_pos_iff.2 ⟨n, hlinked, ?_⟩)
    simp
  have heq := detachResourceEA_eq hyes key hr hcount (h.core.kept _ _ hr).2 hquiet true
  refine ⟨_, bind_eq_some.2 ⟨_, _, read_apply a, bind_eq_some.2 ⟨_, _, heq, modify_apply _ _⟩⟩, ?_⟩
  have hd := h.detach
  exact ⟨ReadFrame.attachCore (.notify (.rfl' _) _) hd.core, hd.session, hd.nodup, hd.left, hd.out,
    hd.others⟩

theorem Emptying.of_frame {key : ClientSessionKey} {l : List ℕ} {a b : Agent}
    (h : Emptying key l [] a) (hf : ReadFrame a b) : Emptying key l [] b := by
  obtain ⟨s, hs, hl⟩ := h.session
  obtain ⟨s', hs', ho⟩ := hf.exists_session hs
  have hl' : s'.resources = l := (congrArg ClientSession.resources ho).trans hl
  refine ⟨hf.attachCore h.core, ⟨s', hs', hl'⟩, h.nodup, by simp, ?_, ?_⟩
  · intro n hn hnot
    rw [hf.resource_eq]
    exact h.out n hn hnot
  · intro n hn hnl
    rw [hf.resource_eq]
    exact h.others n (hf.linked.mem_iff.1 hn) hnl

/-- The first loop of the finalization, when it ends without a failure, has ended
all reads of the session. -/
theorem quiet_of_endReads {env : Env} {key : ClientSessionKey} {l : List ℕ} {a b : Agent}
    (ha : AttachInv a) (hl : ∀ n ∈ l, n ∈ a.linked)
    (h : forEach l (fun n => endReadEA env key n) a = (some (), b)) : ∀ n ∈ l, Quiet b n := by
  have hloop := forEach_yields (f := fun n => endReadEA env key n)
    (I := fun rest c => ReadFrame a c ∧ rest ⊆ l ∧ ∀ n ∈ l, n ∉ rest → Quiet c n) ?_ l
    ⟨.rfl' a, fun _ h => h, fun n hn hnot => absurd hn hnot⟩ h
  · intro n hn
    exact hloop.2.2 n hn (by simp)
  · intro n rest c d hc hround
    obtain ⟨hframe, hsub, hquiet⟩ := hc
    have hd : ReadFrame c d := by
      have hd := endReadEA_frame env key n c
      rw [hround] at hd
      exact hd
    have helse : Elsewhere key [n] c d := by
      have helse := (endReadEA_elsewhere env (List.mem_singleton_self n) c : Elsewhere key [n] c _)
      rw [hround] at helse
      exact helse
    refine ⟨.trans' hframe hd, fun m hm => hsub (by simp [hm]), fun m hm hnot => ?_⟩
    by_cases hmn : m = n
    · subst hmn
      have hmem := hl m hm
      obtain ⟨r, hr⟩ := ha.named m hmem (ha.whole m hmem)
      refine quiet_of_endReadEA (r := r) ?_ (ha.kept _ _ hr).1 hround
      rw [hframe.resources, hframe.resource_eq]
      exact hr
    · have hq := hquiet m hm (by simp [hmn, hnot])
      unfold Quiet
      rw [helse.attached m (by simpa using hmn)]
      exact hq

/-- Finalizing a session either fails with everything still attached, or detaches
all its resources. -/
theorem finalizeSessionEA_cases {env : Env} (hyes : ∀ c, env.ok c = true)
    {key : ClientSessionKey} {s : ClientSession} {a : Agent} (ha : AttachInv a)
    (hs : a.sessions.lookup key = some s) :
    (∃ b, finalizeSessionEA env key a = (none, b) ∧ AttachInv b) ∨
      ∃ b, finalizeSessionEA env key a = (some (), b) ∧ Emptying key s.resources [] b := by
  have hlinked : ∀ n ∈ s.resources, n ∈ a.linked := by
    intro n hn
    exact AList.mem_collect_iff.2 ⟨key, s, hs, hn⟩
  have hnodup : s.resources.Nodup := by
    have hperm := AList.collect_perm_of_lookup (·.resources) hs
    exact (List.nodup_append.1 (hperm.nodup_iff.1 ha.nodup)).1
  unfold finalizeSessionEA
  rw [read_bind_apply, hs]
  cases hd : s.deleted with
  | false => exact .inl ⟨a, by simp [bind_apply, hd, ensure], ha⟩
  | true =>
      have hframe : ReadFrame a (forEach s.resources (fun n => endReadEA env key n) a).2 :=
        Within.forEach (R := ReadFrame) (fun n _ => endReadEA_frame env key n) a
      rcases hloop : forEach s.resources (fun n => endReadEA env key n) a with ⟨_ | _, b⟩
      · rw [hloop] at hframe
        exact .inl ⟨b, by simp [bind_apply, hd, hloop, ensure], hframe.attachInv ha⟩
      · rw [hloop] at hframe
        have hb := hframe.attachInv ha
        obtain ⟨s', hs', ho⟩ := hframe.exists_session hs
        have hl := congrArg ClientSession.resources ho
        have hstart : Emptying key s.resources s.resources b := by
          refine ⟨hb.toAttachCore, ⟨s', hs', hl⟩, hnodup,
            fun n hn => ⟨hn, ?_, quiet_of_endReads ha hlinked hloop n hn⟩,
            fun n hn hnot => absurd hn hnot, fun n hn _ => hb.whole n hn⟩
          exact hb.whole n (hframe.linked.mem_iff.2 (hlinked n hn))
        obtain ⟨c, hc, hend⟩ := forEach_returns (f := fun n => detachOnCloseEA env key n)
          (I := Emptying key s.resources) (fun n rest c h => detachOnCloseEA_returns hyes h)
          s.resources hstart
        refine .inr ⟨c.drainSamples key, ?_, hend.of_frame (.drainSamples c key)⟩
        simp [bind_apply, hd, hloop, hc, onlyIf_ensure, hyes, ensure]

/-- The clean-up of a session that timed out, when nothing outside the agent
fails. -/
theorem cleanupSessionEA_timedout {env : Env} (hyes : ∀ c, env.ok c = true)
    {key : ClientSessionKey} {s : ClientSession} {a : Agent} (ha : AttachInv a)
    (hs : a.sessions.lookup key = some s) (ht : s.timedout = true) :
    AttachInv (cleanupSessionEA env key a).2 := by
  cases hd : s.deleted with
  | false => simpa [cleanupSessionEA, hyes, bind_apply, hs, hd, ensure] using ha
  | true =>
      rcases finalizeSessionEA_cases hyes ha hs with ⟨b, hb, hinv⟩ | ⟨b, hb, hempty⟩
      · simpa [cleanupSessionEA, hyes, bind_apply, hs, hd, hb, ensure] using hinv
      · obtain ⟨s', hs', hl⟩ := hempty.session
        have herase : AttachInv (b.eraseSession key) := by
          refine hempty.core.eraseSession hs' ?_ ?_
          · intro n hn
            exact hempty.out n (hl ▸ hn) (by simp)
          · intro n hn hnot
            exact hempty.others n hn (hl ▸ hnot)
        have hdone : cleanupSessionEA env key a =
            (some (), (b.eraseSession key).notify (.sessionClosed key)) := by
          simp [cleanupSessionEA, releaseFinalizedEA, hyes, bind_apply, hs, hd, hb, ht, ensure]
        rw [hdone]
        exact ReadFrame.attachInv (.notify (.rfl' _) _) herase

end TimedOut

section CleanupSessions

/-- A data reader whose read has samples that the client has not returned. Its
read cannot be cancelled. -/
def Loaned (a : Agent) (n : ℕ) : Prop :=
  (a.attached n).kind = .dataReader ∧
    ∃ rd, (a.attached n).readReq = some rd ∧ (a.readAt rd).hasPendingSamples = true

/-- A session that the clean-up handler can finalize without leaving detached
resources behind. -/
def Retires (env : Env) (a : Agent) (s : ClientSession) : Prop :=
  s.resources = [] ∨ DetachRefused env ∨ (∃ n ∈ s.resources, Loaned a n) ∨
    (s.timedout = true ∧ ∀ c, env.ok c = true)

/-- The read of a resource with samples to be returned is not ended. -/
theorem not_endReadEA_of_loaned {env : Env} {key : ClientSessionKey} {n : ℕ} {a b : Agent}
    {r : Resource} (hr : a.resources.lookup (a.attached n).resource = some r)
    (hdel : r.nativeDeleted = false) (hl : Loaned a n) :
    endReadEA env key n a ≠ (some (), b) := by
  obtain ⟨hk, rd, hrd, hpend⟩ := hl
  intro h
  simp only [endReadEA, read_bind_apply, hk, hrd, Option.isSome_some, decide_true, Bool.and_self,
    onlyIf_true, bind_eq_some, lookupResource_eq_some] at h
  obtain ⟨_, _, ⟨-, rfl, rfl⟩, h⟩ := h
  simp only [hr, hdel, Bool.false_eq_true, if_false, cancelReadEA, bind_eq_some, read_eq_some,
    ensure_eq_some] at h
  obtain ⟨_, _, ⟨_, _, ⟨rfl, rfl⟩, h⟩, -⟩ := h
  simp only [hrd, bind_eq_some, ensure_eq_some, hpend] at h
  obtain ⟨_, _, ⟨hfalse, -⟩, -⟩ := h
  cases hfalse

theorem Loaned.of_elsewhere {key : ClientSessionKey} {l : List ℕ} {n : ℕ} {a b : Agent}
    (h : Loaned a n) (he : Elsewhere key l a b) (hn : n ∉ l) : Loaned b n := by
  obtain ⟨hk, rd, hrd, hpend⟩ := h
  refine ⟨?_, rd, ?_, ?_⟩
  · rw [he.attached n hn]
    exact hk
  · rw [he.attached n hn]
    exact hrd
  · unfold Read.hasPendingSamples at hpend ⊢
    rw [he.samples rd]
    exact hpend

/-- The first loop of the finalization does not get past a read with samples to be
returned. -/
theorem not_endReads_of_loaned {env : Env} {key : ClientSessionKey} {l : List ℕ} {a b : Agent}
    (ha : AttachInv a) (hl : ∀ n ∈ l, n ∈ a.linked) (hloan : ∃ n ∈ l, Loaned a n) :
    forEach l (fun n => endReadEA env key n) a ≠ (some (), b) := by
  intro h
  have hloop := forEach_yields (f := fun n => endReadEA env key n)
    (I := fun rest c => ReadFrame a c ∧ rest ⊆ l ∧ ∃ n ∈ rest, Loaned c n) ?_ l
    ⟨.rfl' a, fun _ h => h, hloan⟩ h
  · obtain ⟨-, -, n, hn, -⟩ := hloop
    cases hn
  · rintro i rest c d ⟨hframe, hsub, n, hn, hloan⟩ hround
    have hd := endReadEA_frame env key i c
    have he := (endReadEA_elsewhere env (List.mem_singleton_self i) c : Elsewhere key [i] c _)
    rw [hround] at hd he
    refine ⟨.trans' hframe hd, fun m hm => hsub (by simp [hm]), n, ?_⟩
    by_cases hni : n = i
    · subst hni
      have hmem := hl n (hsub hn)
      obtain ⟨r, hr⟩ := ha.named n hmem (ha.whole n hmem)
      refine absurd hround (not_endReadEA_of_loaned (r := r) ?_ (ha.kept _ _ hr).1 hloan)
      rw [hframe.resources, hframe.resource_eq]
      exact hr
    · refine ⟨?_, hloan.of_elsewhere he (by simpa using hni)⟩
      simpa [hni] using hn

/-- A finalization that is refused before anything is detached. -/
theorem finalizeSessionEA_refused {env : Env} {key : ClientSessionKey} {s : ClientSession}
    {a : Agent} (ha : AttachInv a) (hs : a.sessions.lookup key = some s) (hne : s.resources ≠ [])
    (hrefused : DetachRefused env ∨ ∃ n ∈ s.resources, Loaned a n) :
    (finalizeSessionEA env key a).1 = none ∧ AttachInv (finalizeSessionEA env key a).2 := by
  have hlinked : ∀ n ∈ s.resources, n ∈ a.linked := by
    intro n hn
    exact AList.mem_collect_iff.2 ⟨key, s, hs, hn⟩
  unfold finalizeSessionEA
  rw [read_bind_apply, hs]
  cases hd : s.deleted with
  | false => simpa [bind_apply, hd, ensure] using ha
  | true =>
      have hframe : ReadFrame a (forEach s.resources (fun n => endReadEA env key n) a).2 :=
        Within.forEach (R := ReadFrame) (fun n _ => endReadEA_frame env key n) a
      rcases hloop : forEach s.resources (fun n => endReadEA env key n) a with ⟨_ | _, b⟩
      · rw [hloop] at hframe
        simpa [bind_apply, hd, hloop, ensure] using hframe.attachInv ha
      · rw [hloop] at hframe
        rcases hrefused with hrefused | hloan
        · obtain ⟨n, rest, hl⟩ := List.exists_cons_of_ne_nil hne
          have hfirst : detachOnCloseEA env key n b = (none, b) := by
            simp [detachOnCloseEA, bind_apply, detachResourceEA_refused hrefused]
          have hsecond : forEach s.resources (fun n => detachOnCloseEA env key n) b =
            (none, b) := by
            rw [hl, forEach, bind_apply, hfirst]
          simpa [bind_apply, hd, hloop, hsecond, ensure] using hframe.attachInv ha
        · exact absurd hloop (not_endReads_of_loaned ha hlinked hloan)

/-- A session without resources. -/
def Bare (key : ClientSessionKey) (a : Agent) : Prop :=
  AttachInv a ∧ ∀ s, a.sessions.lookup key = some s → s.resources = []

theorem Bare.of_frame {key : ClientSessionKey} {a b : Agent} (ha : Bare key a)
    (h : ReadFrame a b) : Bare key b := by
  refine ⟨h.attachInv ha.1, fun s hs => ?_⟩
  have heq := h.session key
  rw [hs] at heq
  obtain ⟨s₀, hs₀, ho⟩ := Option.map_eq_some_iff.1 heq.symm
  have hl := congrArg ClientSession.resources ho
  exact hl.symm.trans (ha.2 s₀ hs₀)

theorem Bare.updateSession {key : ClientSessionKey} {a : Agent} (ha : Bare key a)
    {f : ClientSession → ClientSession} (hf : ∀ s, (f s).resources = s.resources) :
    Bare key (a.updateSession key f) := by
  refine ⟨ha.1.updateSession key hf, fun s hs => ?_⟩
  rw [Agent.lookup_updateSession, if_pos rfl] at hs
  obtain ⟨s₀, hs₀, rfl⟩ := Option.map_eq_some_iff.1 hs
  rw [hf]
  exact ha.2 s₀ hs₀

theorem finalizeSessionEA_bare (env : Env) (key : ClientSessionKey) :
    Preserves (Bare key) (finalizeSessionEA env key) := by
  intro a ha
  unfold finalizeSessionEA
  rw [read_bind_apply]
  refine keeps_require ha fun s hs => keeps_ensure ha fun _ => ?_
  rw [ha.2 s hs]
  have hdrain := ha.of_frame (.drainSamples a key)
  rw [onlyIf_ensure]
  exact hdrain

theorem cleanupSessionEA_bare (env : Env) (key : ClientSessionKey) {a : Agent} (ha : Bare key a) :
    AttachInv (cleanupSessionEA env key a).2 := by
  have hfinal : Preserves (Bare key) (releaseFinalizedEA env key false) :=
    .bind (fun b hb => hb.updateSession fun _ => rfl) fun _ => .ensure _
  unfold cleanupSessionEA
  refine keeps_ensure ha.1 fun _ => ?_
  rw [read_bind_apply]
  cases a.sessions.lookup key with
  | none => exact ha.1
  | some s =>
      dsimp only
      cases s.deleted with
      | false => exact ha.1
      | true =>
          have hb := finalizeSessionEA_bare env key a ha
          refine keeps_bind (fun _ => hb.1) fun _ _ => ?_
          cases s.timedout with
          | false => exact (hfinal _ hb).1
          | true =>
              refine keeps_ensure hb.1 fun _ => keeps_ensure hb.1 fun _ => ?_
              exact ReadFrame.attachInv (.notify (.rfl' _) _) (hb.1.eraseSession hb.2)

theorem cleanupSessionEA_keeps {env : Env} {key : ClientSessionKey} {a : Agent} (ha : AttachInv a)
    (h : ∀ s, a.sessions.lookup key = some s → s.deleted = true → Retires env a s) :
    AttachInv (cleanupSessionEA env key a).2 := by
  cases hs : a.sessions.lookup key with
  | none =>
      refine cleanupSessionEA_bare env key ⟨ha, fun s hs' => ?_⟩
      rw [hs] at hs'
      cases hs'
  | some s =>
      by_cases hbare : s.resources = []
      · refine cleanupSessionEA_bare env key ⟨ha, fun s' hs' => ?_⟩
        rw [hs] at hs'
        rw [← Option.some.inj hs']
        exact hbare
      · have hrefused : DetachRefused env ∨ (∃ n ∈ s.resources, Loaned a n) →
            s.deleted = true → AttachInv (cleanupSessionEA env key a).2 := by
          intro hr hd
          obtain ⟨hnone, hinv⟩ := finalizeSessionEA_refused ha hs hbare hr
          unfold cleanupSessionEA
          refine keeps_ensure ha fun _ => ?_
          rw [read_bind_apply, hs]
          dsimp only
          rw [hd, onlyIf_true]
          refine keeps_bind (fun _ => hinv) fun v hv => ?_
          rw [hnone] at hv
          cases hv
        cases hd : s.deleted with
        | false =>
            unfold cleanupSessionEA
            refine keeps_ensure ha fun _ => ?_
            rw [read_bind_apply, hs]
            dsimp only
            rw [hd]
            exact ha
        | true =>
            rcases h s hs hd with hnil | hno | hloan | ⟨ht, hyes⟩
            · exact absurd hnil hbare
            · exact hrefused (.inl hno) hd
            · exact hrefused (.inr hloan) hd
            · exact cleanupSessionEA_timedout hyes ha hs ht

/-- The condition of one session is not affected by the clean-up of another. -/
theorem Retires.of_elsewhere {env : Env} {key key' : ClientSessionKey} {a b : Agent}
    {s s₀ s' : ClientSession} (ha : AttachCore a) (hs : a.sessions.lookup key = some s)
    (he : Elsewhere key s.resources a b) (hne : key' ≠ key) (hs₀ : a.sessions.lookup key' = some s₀)
    (hl : s'.resources = s₀.resources) (ht : s'.timedout = s₀.timedout) (h : Retires env a s₀) :
    Retires env b s' := by
  unfold Retires
  rw [hl, ht]
  rcases h with hnil | hno | ⟨n, hn, hloan⟩ | hyes
  · exact .inl hnil
  · exact .inr (.inl hno)
  · exact .inr (.inr (.inl ⟨n, hn, hloan.of_elsewhere he (ha.notMem_of_ne hs hs₀ hne hn)⟩))
  · exact .inr (.inr (.inr hyes))

theorem onCleanupSessions_keeps {env : Env} {a : Agent} (ha : AttachInv a)
    (h : ∀ key s, a.sessions.lookup key = some s → s.deleted = true → Retires env a s) :
    AttachInv (onCleanupSessions env a).2 := by
  unfold onCleanupSessions
  refine keeps_ensure ha fun _ => keeps_ensure ha fun _ => ?_
  rw [modify_bind_apply, read_bind_apply]
  refine forEach_keeps (I := fun rest b => rest.Nodup ∧ AttachInv b ∧ ∀ key ∈ rest, ∀ s,
    b.sessions.lookup key = some s → s.deleted = true → Retires env b s) ?_ ?_ _ ?_
  · intro rest b hb
    exact hb.2.1
  · rintro key rest b ⟨hnodup, hb, hrest⟩
    obtain ⟨hkey, hnodup⟩ := List.nodup_cons.1 hnodup
    have hinv := cleanupSessionEA_keeps hb (hrest key (by simp))
    refine ⟨hnodup, hinv, fun key' hkey' s' hs' hd' => ?_⟩
    have hne : key' ≠ key := by
      rintro rfl
      exact hkey hkey'
    cases hs : b.sessions.lookup key with
    | none =>
        have hsame : (cleanupSessionEA env key b).2 = b := by
          refine keeps_ensure (I := fun c => c = b) rfl fun _ => ?_
          rw [read_bind_apply, hs]
          rfl
        rw [hsame] at hs' ⊢
        exact hrest key' (by simp [hkey']) s' hs' hd'
    | some s =>
        have he := cleanupSessionEA_elsewhere env hs
        obtain ⟨s₀, hs₀, hl, hd, ht⟩ := he.session_eq hne hs'
        refine .of_elsewhere hb.toAttachCore hs he hne hs₀ hl ht ?_
        exact hrest key' (by simp [hkey']) s₀ hs₀ (hd ▸ hd')
  · refine ⟨AList.nodup_keysBy, ha.of_linked rfl rfl (.refl _), ?_⟩
    intro key _ s hs hd
    exact h key s hs hd

end CleanupSessions

section Create

/-- The checks of a creation only read, and find the resource with the requested
identifier. -/
theorem find_of_checkCreate {s : ClientSession} {q : CreateRequest} {found : Option ℕ} {a b : Agent}
    (h : checkCreate s q a = (some found, b)) :
    a = b ∧ ∀ n, found = some n → a.findAttachedResource s q.id = some n := by
  have hb : a = b := by
    have hb := checkCreate_frame (R := Eq) s q a
    rw [h] at hb
    exact hb
  refine ⟨hb, ?_⟩
  rintro n rfl
  unfold checkCreate at h
  rw [read_bind_apply] at h
  obtain ⟨_, _, -, h⟩ := bind_eq_some.1 h
  obtain ⟨_, _, -, h⟩ := bind_eq_some.1 h
  obtain ⟨_, _, -, h⟩ := bind_eq_some.1 h
  by_cases hid : q.id = attachedResourceIdInvalid
  · simp [hid] at h
  · cases hfind : a.findAttachedResource s q.id with
    | none => simp [hid, hfind] at h
    | some m =>
        simp only [hid, if_false, hfind, bind_eq_some, pure_eq_some] at h
        obtain ⟨_, _, -, _, _, -, hm, -⟩ := h
        cases hm
        rfl

/-- What attaching has done when it returns. -/
theorem exists_of_attachResourceToSessionEA {env : Env} {key : ClientSessionKey} {id n : ℕ}
    {rid : ResourceId} {a b : Agent}
    (h : attachResourceToSessionEA env key id rid a = (some n, b)) :
    ∃ r, a.resources.lookup rid = some r ∧ r.id ≠ .none ∧ n = a.poolResources.next ∧
      b = a.link key id rid r := by
  unfold attachResourceToSessionEA at h
  rw [read_bind_apply] at h
  simp only [onlyIf_ensure, bind_eq_some, require_eq_some, ensure_eq_some] at h
  obtain ⟨r, _, ⟨hr, rfl⟩, _, _, ⟨-, rfl⟩, _, _, ⟨-, rfl⟩, h⟩ := h
  split at h
  · rename_i hid
    simp only [bind_eq_some, modify_eq_some, pure_eq_some] at h
    obtain ⟨_, _, rfl, rfl, rfl⟩ := h
    refine ⟨r, hr, ?_, rfl, rfl⟩
    simp only [Bool.and_eq_true, bne_iff_ne] at hid
    exact hid.1
  · simp at h

theorem id_of_attachResourceToSessionEA {env : Env} {key : ClientSessionKey} {id n : ℕ}
    {rid : ResourceId} {a b : Agent}
    (h : attachResourceToSessionEA env key id rid a = (some n, b)) : (b.attached n).id = id := by
  obtain ⟨r, -, -, rfl, rfl⟩ := exists_of_attachResourceToSessionEA h
  rw [Agent.attached_link_self]
  rfl

theorem id_of_obtainAttachedEA {env : Env} {key : ClientSessionKey} {q : CreateRequest}
    {found : Option ℕ} {v : ℕ × ResourceId × Bool} {a b : Agent}
    {s : ClientSession} (hfound : ∀ n, found = some n → a.findAttachedResource s q.id = some n)
    (h : obtainAttachedEA env key q found a = (some v, b)) : (b.attached v.1).id = q.id := by
  cases found with
  | some n =>
      obtain ⟨_, c, hreuse, h⟩ := bind_eq_some.1 h
      obtain ⟨rfl, rfl⟩ := pure_eq_some.1 h
      have hc := reuseAttachedEA_frame env n q a
      rw [hreuse] at hc
      refine (hc.id_eq n).trans ?_
      simpa using List.find?_some (hfound n rfl)
  | none =>
      obtain ⟨_, _, -, h⟩ := bind_eq_some.1 h
      obtain ⟨rid, c, -, h⟩ := bind_eq_some.1 h
      obtain ⟨n, d, hattach, h⟩ := bind_eq_some.1 h
      obtain ⟨rfl, rfl⟩ := pure_eq_some.1 h
      exact id_of_attachResourceToSessionEA hattach

/-- The attached resource that a creation returns has the requested identifier. -/
theorem id_of_createResourceEA {env : Env} {key : ClientSessionKey} {q : CreateRequest} {n : ℕ}
    {a b : Agent} (h : createResourceEA env key q a = (some n, b)) : (b.attached n).id = q.id := by
  unfold createResourceEA at h
  rw [read_bind_apply] at h
  obtain ⟨s, _, hs, h⟩ := bind_eq_some.1 h
  obtain ⟨-, rfl⟩ := require_eq_some.1 hs
  obtain ⟨found, c, hcheck, h⟩ := bind_eq_some.1 h
  obtain ⟨rfl, hfound⟩ := find_of_checkCreate hcheck
  obtain ⟨_, _, hlock, h⟩ := bind_eq_some.1 h
  obtain ⟨-, rfl⟩ := ensure_eq_some.1 hlock
  obtain ⟨v, c, hobtain, h⟩ := bind_eq_some.1 h
  have hc := id_of_obtainAttachedEA hfound hobtain
  obtain ⟨_, d, hfinish, h⟩ := bind_eq_some.1 h
  obtain ⟨rfl, rfl⟩ := pure_eq_some.1 h
  have hb := finishCreateEA_frame env key v.1 v.2.1 v.2.2 c
  rw [hfinish] at hb
  exact (hb.id_eq v.1).trans hc

theorem createResource_keeps {env : Env} {key : ClientSessionKey} {q : CreateRequest}
    (hok : Accepts env key q.id) {a : Agent} (ha : AttachInv a) :
    AttachInv (createResource env key q a).2 := by
  unfold createResource
  rw [read_bind_apply]
  refine keeps_require ha fun s hs => keeps_ensure ha fun _ => ?_
  have hkey : Attaching key a := ⟨ha, by rw [hs]; rfl⟩
  have hcreated := createResourceEA_preserves env key q a hkey
  refine keeps_bind (fun _ => hcreated.1) fun n hn => ?_
  rw [read_bind_apply]
  have hid : ((createResourceEA env key q a).2.attached n).id = q.id :=
    id_of_createResourceEA (eq_of_fst_eq_some hn)
  rw [hid]
  split
  · refine ReadFrame.attachInv (.notify (.updateAttached (.rfl' _) n ?_) _) hcreated.1
    intro x
    rfl
  · rename_i hno
    change AttachInv (detachResourceEA env key n false false _).2
    rw [detachResourceEA_refused (hok.resolve_left hno)]
    exact hcreated.1

end Create

section Open

/-- A record that can be attached automatically. -/
def Attachable (a : Agent) (r : Resource) : Prop :=
  r.id ≠ .none ∧ r.native.isSome ∧ (a.generateAttachedResourceId r.id r.kind).isSome

/-- A new session that does not lose what was attached to it: its opening fails
before anything is attached, or its record is not removed, or nothing fails. -/
def Opens (env : Env) (a : Agent) (key : ClientSessionKey) : Prop :=
  (∀ id, Accepts env key id) ∧
    (a.autoAttachResources = false ∨ a.resources = ∅ ∨ env.ok (.deleteSession key) = false ∨
      ((∀ c, env.ok c = true) ∧ ∀ rid r, a.resources.lookup rid = some r → Attachable a r))

theorem attachNewEA_eq {env : Env} (hyes : ∀ c, env.ok c = true) (key : ClientSessionKey)
    {rid : ResourceId} {r : Resource} (id : ℕ) {a : Agent} (hr : a.resources.lookup rid = some r)
    (hat : Attachable a r) (hdel : r.nativeDeleted = false) :
    attachNewEA env key rid id a =
      (some (), ((a.link key id rid r).updateAttached a.poolResources.next fun x =>
        { x with userData := env.resourceData id }).notify (.resourceCreated key id)) := by
  obtain ⟨hid, hnative, hgen⟩ := hat
  obtain ⟨ptr, hptr⟩ := Option.isSome_iff_exists.1 hnative
  have hattach : attachResourceToSessionEA env key id rid a =
      (some a.poolResources.next, a.link key id rid r) := by
    simp [attachResourceToSessionEA, bind_apply, hr, hgen, hyes, hid, onlyIf_ensure, ensure]
  have hlookup : (a.link key id rid r).resources.lookup rid =
      some { r with attachedCount := r.attachedCount + 1 } := by
    rw [Agent.lookup_link, if_pos rfl, hr]
    rfl
  have henable : enableResourceEA env rid (a.link key id rid r) =
    (some (), a.link key id rid r) := by
    cases hk : r.kind.isEntity with
    | false => simp [enableResourceEA, bind_apply, hlookup, hk]
    | true => simp [enableResourceEA, bind_apply, hlookup, hk, access, hptr, hdel, hyes, ensure]
  simp [attachNewEA, bind_apply, hattach, henable, hyes]

/-- What a session that is being opened needs for all records to be attached. -/
def Opening (key : ClientSessionKey) (a : Agent) : Prop :=
  Attaching key a ∧ ∀ rid r, a.resources.lookup rid = some r → Attachable a r

theorem attachOneEA_returns {env : Env} (hyes : ∀ c, env.ok c = true) {key : ClientSessionKey}
    (rid : ResourceId) {a : Agent} (ha : Opening key a) :
    ∃ b, attachOneEA env key rid a = (some (), b) ∧ Opening key b := by
  obtain ⟨s, hs⟩ := Option.isSome_iff_exists.1 ha.1.2
  cases hr : a.resources.lookup rid with
  | none => exact ⟨a, by simp [attachOneEA, hyes, hr], ha⟩
  | some r =>
      have hat := ha.2 rid r hr
      have hdel := (ha.1.1.kept rid r hr).1
      obtain ⟨id, hid⟩ := Option.isSome_iff_exists.1 hat.2.2
      by_cases hattach : a.autoAttachResources = true ∧ (a.findAttachedResource s id).isNone = true
      · refine ⟨((a.link key id rid r).updateAttached a.poolResources.next fun x =>
          { x with userData := env.resourceData id }).notify (.resourceCreated key id), ?_, ?_⟩
        · have hnew := attachNewEA_eq hyes key id hr hat hdel
          simp [attachOneEA, hyes, hr, hdel, hattach.1, hattach.2, bind_apply, hid, hs,
            hnew, ensure]
        · refine ⟨(ha.1.link id hr hat.1).of_frame (.notify (.updateAttached (.rfl' _) _ ?_) _), ?_⟩
          · intro x
            rfl
          · intro rid' r' hr'
            change (a.link key id rid r).resources.lookup rid' = some r' at hr'
            obtain ⟨r₀, hr₀, rfl⟩ := Agent.exists_of_lookup_link hr'
            have hat' := ha.2 rid' r₀ hr₀
            exact hat'
      · refine ⟨a, ?_, ha⟩
        cases hauto : a.autoAttachResources with
        | false => simp [attachOneEA, hyes, hr, hauto, bind_apply, ensure]
        | true =>
            have hfind : (a.findAttachedResource s id).isNone = false := by
              rw [Bool.eq_false_iff]
              intro hnone
              exact hattach ⟨hauto, hnone⟩
            simp [attachOneEA, hyes, hr, hauto, hdel, bind_apply, hid, hs, hfind, ensure]

/-- Nothing is attached automatically. -/
theorem attachAllResourcesToSessionEA_off (env : Env) (key : ClientSessionKey) {a : Agent}
    (h : a.autoAttachResources = false ∨ a.resources = ∅) :
    (attachAllResourcesToSessionEA env key a).2 = a := by
  unfold attachAllResourcesToSessionEA
  refine keeps_ensure (I := fun b => b = a) rfl fun _ => ?_
  rw [read_bind_apply]
  rcases h with hoff | hnil
  · refine Within.forEach (R := fun b c => b = a → c = a) (fun rid _ => ?_) a rfl
    rintro b rfl
    unfold attachOneEA
    rw [read_bind_apply]
    refine keeps_ensure (I := fun c => c = b) rfl fun _ => ?_
    cases b.resources.lookup rid with
    | none => rfl
    | some r =>
        dsimp only
        rw [hoff, Bool.and_false, onlyIf_false]
        exact keeps_bind (I := fun c => c = b) (fun _ => rfl) fun _ _ => rfl
  · have hkeys : a.resourceKeys = [] := AList.keysBy_eq_nil_iff.2 (by rw [hnil]; rfl)
    rw [hkeys]
    rfl

theorem populateSession_preserves (env : Env) (key : ClientSessionKey)
    (hok : ∀ id, Accepts env key id) : Preserves (Attaching key) (populateSession env key) :=
  .bind (.ensure _) fun _ => .bind (.ensure _) fun _ =>
    .bind (attachAllResourcesToSessionEA_preserves env key hok) fun _ => .ensure _

theorem populateSession_off {env : Env} {key : ClientSessionKey} {a : Agent}
    (h : a.autoAttachResources = false ∨ a.resources = ∅) : (populateSession env key a).2 = a := by
  have hall := attachAllResourcesToSessionEA_off env key h
  refine keeps_ensure (I := fun b => b = a) rfl fun _ =>
    keeps_ensure (I := fun b => b = a) rfl fun _ => ?_
  exact keeps_bind (I := fun b => b = a) (fun _ => hall) fun _ _ => hall

theorem populateSession_returns {env : Env} (hyes : ∀ c, env.ok c = true) {key : ClientSessionKey}
    {a : Agent} (ha : Opening key a) : (populateSession env key a).1 = some () := by
  obtain ⟨b, hb, -⟩ := forEach_returns (f := fun rid => attachOneEA env key rid)
    (I := fun _ => Opening key) (fun rid _ _ h => attachOneEA_returns hyes rid h)
    a.resourceKeys ha
  simp [populateSession, attachAllResourcesToSessionEA, hyes, bind_apply, hb, ensure]

theorem openNewSession_keeps {env : Env} {a : Agent} (ha : AttachInv a) (src : ℕ)
    {key : ClientSessionKey} (timeout : ℕ) (data : Option ℕ) (hnew : a.sessions.lookup key = none)
    (h : Opens env a key) : AttachInv (openNewSession env src key timeout data a).2 := by
  have hinv : AttachInv (a.insertSession key (.initial src timeout data)) :=
    ha.insertSession hnew rfl
  have hlookup : (a.insertSession key (.initial src timeout data)).sessions.lookup key =
      some (.initial src timeout data) := AList.lookup_insert _
  have hopening : Attaching key (a.insertSession key (.initial src timeout data)) :=
    ⟨hinv, by rw [hlookup]; rfl⟩
  obtain ⟨haccepts, hcase⟩ := h
  have hpopulated := populateSession_preserves env key haccepts _ hopening
  unfold openNewSession
  rw [modify_bind_apply]
  refine keeps_onFailure hpopulated.1 fun hfail => ?_
  rcases or_assoc.2 hcase with hoff | hkeep | ⟨hyes, hat⟩
  · rw [populateSession_off (a := a.insertSession key (.initial src timeout data)) hoff]
    cases env.ok (.deleteSession key) with
    | false => exact hinv
    | true =>
        refine hinv.eraseSession fun s hs => ?_
        rw [hlookup] at hs
        rw [← Option.some.inj hs]
        rfl
  · rw [hkeep, onlyIf_false]
    exact hpopulated.1
  · rw [populateSession_returns hyes ⟨hopening, hat⟩] at hfail
    cases hfail

/-- Resetting a session only ends its reads. -/
theorem resetSession_preserves (env : Env) (src : ℕ) (key : ClientSessionKey) (s : ClientSession) :
    Preserves AttachInv (resetSession env src key s) := by
  have hflag : ∀ f : ClientSession → ClientSession, (∀ s, (f s).resources = s.resources) →
      Preserves AttachInv (modify fun a : Agent => a.updateSession key f) :=
    fun f hf a ha => ha.updateSession key hf
  refine .bind (.ensure _) fun _ => .bind (hflag _ fun _ => rfl) fun _ => ?_
  refine .bind (.ensure _) fun _ => .bind (.bind ?_ fun _ => .ensure _) fun _ => ?_
  · intro b hb
    exact (returnLoans_frame env src key _ b).attachInv hb
  refine .bind (.onlyIf fun _ => hflag _ fun _ => rfl) fun _ => ?_
  refine .bind (.forEach fun n _ => .read fun a => .onlyIf fun _ => ?_) fun _ => ?_
  · intro b hb
    exact (cancelReadI_frame env n b).attachInv hb
  · exact hflag _ fun _ => rfl

theorem openSession_keeps {env : Env} {a : Agent} (ha : AttachInv a) (src : ℕ)
    {key : ClientSessionKey} (timeout : ℕ) (data : Option ℕ)
    (h : (a.sessions.lookup key).isSome ∨ Opens env a key) :
    AttachInv (openSession env src key timeout data a).2 := by
  unfold openSession
  refine keeps_ensure ha fun _ => ?_
  have hopened : AttachInv (resetOrOpenSession env src key timeout data a).2 := by
    unfold resetOrOpenSession
    rw [read_bind_apply]
    cases hs : a.sessions.lookup key with
    | some s => exact resetSession_preserves env src key s a ha
    | none =>
        refine openNewSession_keeps ha src timeout data hs (h.resolve_left ?_)
        rw [hs]
        exact Bool.false_ne_true
  refine keeps_bind (fun _ => hopened) fun _ _ => ?_
  rw [read_bind_apply]
  refine keeps_require hopened fun s _ => keeps_ensure hopened fun _ => ?_
  exact hopened

end Open

section Operations

/-- The attached resource `id` is not there, or its detaching is refused. -/
def DeleteRefused (env : Env) (a : Agent) (key : ClientSessionKey) (id : ℕ) : Prop :=
  DetachRefused env ∨ ∀ s, a.sessions.lookup key = some s → s.active = true →
    ∀ n, a.findAttachedResource s id = some n → Loaned a n

theorem not_cancelReadI_of_loaned {env : Env} {n : ℕ} {a b : Agent} (hl : Loaned a n) :
    cancelReadI env n a ≠ (some (), b) := by
  obtain ⟨-, rd, hrd, hpend⟩ := hl
  intro h
  simp only [cancelReadI, read_bind_apply, bind_eq_some, lookupResource_eq_some, require_eq_some,
    ensure_eq_some] at h
  obtain ⟨_, _, ⟨-, rfl, rfl⟩, r, _, ⟨-, rfl⟩, _, _, ⟨-, rfl⟩, h⟩ := h
  simp only [cancelReadEA, read_bind_apply, hrd, bind_eq_some, ensure_eq_some, hpend] at h
  obtain ⟨_, _, ⟨hfalse, -⟩, -⟩ := h
  cases hfalse

/-- Once the read of a resource that is deleted has been ended, nothing is left to
cancel. -/
theorem quiet_of_endReadI {env : Env} {key : ClientSessionKey} {n id : ℕ} {a b : Agent}
    (h : endReadI env key n id a = (some (), b)) : Quiet b n := by
  unfold endReadI at h
  rw [read_bind_apply] at h
  cases hc : decide ((a.attached n).kind = .dataReader) && (a.attached n).readReq.isSome with
  | false =>
      rw [hc] at h
      obtain ⟨-, rfl⟩ := pure_eq_some.1 h
      intro hk
      simpa [hk] using hc
  | true =>
      simp only [hc, onlyIf_true, cancelReadI, bind_eq_some, read_eq_some, lookupResource_eq_some,
        require_eq_some, ensure_eq_some, modify_eq_some] at h
      obtain ⟨_, c, ⟨_, _, ⟨rfl, rfl⟩, _, _, -, _, _, -, _, _, -, hcancel⟩, rfl⟩ := h
      intro _
      rw [Agent.attached_notify]
      exact readReq_of_cancelReadEA hcancel

theorem not_endReadI_of_loaned {env : Env} {key : ClientSessionKey} {n id : ℕ} {a b : Agent}
    (hl : Loaned a n) : endReadI env key n id a ≠ (some (), b) := by
  have hnot : ∀ c, cancelReadI env n a ≠ (some (), c) := fun c => not_cancelReadI_of_loaned hl
  intro h
  unfold endReadI at h
  rw [read_bind_apply] at h
  obtain ⟨hk, rd, hrd, -⟩ := hl
  simp only [hk, hrd, decide_true, Option.isSome_some, Bool.and_self, onlyIf_true] at h
  obtain ⟨_, c, hcancel, -⟩ := bind_eq_some.1 h
  exact hnot c hcancel

theorem deleteResource_keeps {env : Env} {a : Agent} (ha : AttachInv a) {key : ClientSessionKey}
    {id : ℕ} (h : DeleteRefused env a key id) : AttachInv (deleteResource env key id a).2 := by
  refine keeps_findAttached ha fun s hs hactive => ?_
  cases hfind : a.findAttachedResource s id with
  | none => exact ha
  | some n =>
      have hinv := (endReadI_frame env key n id a).attachInv ha
      refine keeps_bind (fun _ => hinv) fun _ hret => ?_
      rcases h with hrefused | hloan
      · refine keeps_bind (fun _ => ?_) fun _ hdetach => ?_
        · rw [detachResourceEA_refused hrefused]
          exact hinv
        · rw [detachResourceEA_refused hrefused] at hdetach
          cases hdetach
      · have hl := hloan s hs hactive n hfind
        exact absurd (eq_of_fst_eq_some hret) (not_endReadI_of_loaned hl)

theorem finishCloseSession_keeps {env : Env} {a : Agent} (ha : AttachInv a) {key : ClientSessionKey}
    (h : ∀ s, a.sessions.lookup key = some s → s.resources = []) :
    AttachInv (finishCloseSession env key a).2 := by
  have hbare : Bare key a := ⟨ha, h⟩
  unfold finishCloseSession
  rw [read_bind_apply]
  refine keeps_require ha fun s hs => keeps_ensure ha fun _ => keeps_ensure ha fun _ => ?_
  rw [modify_bind_apply]
  have hb := hbare.updateSession (f := fun s => { s with semCleanup := false }) fun _ => rfl
  refine keeps_ensure hb.1 fun _ => keeps_ensure hb.1 fun _ => ?_
  rw [modify_bind_apply]
  have herased := hb.1.eraseSession hb.2
  refine keeps_ensure herased fun _ => ?_
  exact ReadFrame.attachInv (.notify (.rfl' _) _) herased

theorem disposeSessionEA_preserves (env : Env) (key : ClientSessionKey) (s : ClientSession) :
    Preserves AttachInv (disposeSessionEA env key s) := by
  refine .ite (fun _ => .pure _) fun _ => .bind ?_ fun _ => .bind (.ensure _) fun _ => ?_
  · intro a ha
    exact ha.updateSession key fun _ => rfl
  · intro a ha
    exact ha.of_linked rfl rfl (.refl _)

theorem closeSession_preserves (env : Env) (src : ℕ) (key : ClientSessionKey) :
    Preserves AttachInv (closeSession env src key) :=
  .bind (.ensure _) fun _ => .bind (.ensure _) fun _ => .read fun _ => .bind (.require _) fun _ =>
    .bind (.ensure _) fun _ => .bind (.ensure _) fun _ => disposeSessionEA_preserves _ _ _

theorem onSessionTimeout_preserves (env : Env) (key : ClientSessionKey) :
    Preserves AttachInv (onSessionTimeout env key) := by
  refine .bind (.ensure _) fun _ => .read fun _ => .bind (.require _) fun _ => ?_
  refine .bind (.ensure _) fun _ => .bind ?_ fun _ => .bind ?_ fun _ =>
    disposeSessionEA_preserves _ _ _
  · intro a ha
    exact ha.updateSession key fun _ => rfl
  · intro a ha
    exact (returnLoans_frame env _ key _ a).attachInv ha

/-- Nothing is natively deleted, so the clean-up of resources detaches nothing. -/
theorem cleanupResourceEA_idle (env : Env) (key : ClientSessionKey) (n : ℕ) {a : Agent}
    (ha : AttachInv a) : (cleanupResourceEA env key n a).2 = a := by
  unfold cleanupResourceEA
  rw [read_bind_apply]
  refine keeps_lookupResource (I := fun b => b = a) rfl fun _ => ?_
  refine keeps_require (I := fun b => b = a) rfl fun r hr => ?_
  refine keeps_ensure (I := fun b => b = a) rfl fun _ => ?_
  obtain ⟨hdel, hpend⟩ := ha.kept _ _ hr
  rw [hdel, hpend]
  rfl

theorem onCleanupResources_preserves (env : Env) (hok : ∀ key id, Accepts env key id) :
    Preserves AttachInv (onCleanupResources env) := by
  refine .bind (.ensure _) fun _ => .bind ?_ fun _ => .bind (.ensure _) fun _ => .read fun a => ?_
  · intro a ha
    exact ha.of_linked rfl rfl (.refl _)
  refine .forEach fun key _ => .bind (.ensure _) fun _ => ?_
  intro b hb
  rw [read_bind_apply]
  cases hs : b.sessions.lookup key with
  | none => exact hb
  | some s =>
      have hkey : Attaching key b := ⟨hb, by rw [hs]; rfl⟩
      have hloop : Preserves (Attaching key)
          (forEach s.resources fun n => cleanupResourceEA env key n) := by
        refine .forEach fun n _ c hc => ?_
        rw [cleanupResourceEA_idle env key n hc.1]
        exact hc
      exact (Within.bind (R := fun b c => Attaching key b → Attaching key c) hloop
        (fun _ => attachAllResourcesToSessionEA_preserves env key (hok key)) b hkey).1

end Operations

end AgentM

open AgentM

/-- The condition under which a step keeps the counts: it does not detach a
resource from a session that stays in the table, and it does not remove a session
that has resources attached to it. -/
def KeepsAttachments (a : Agent) (i : Operation × Env) : Prop :=
  match i.1 with
  | .openSession _ key _ _ => (a.sessions.lookup key).isSome ∨ Opens i.2 a key
  | .createResource key q => Accepts i.2 key q.id
  | .deleteResource key id => DeleteRefused i.2 a key id
  | .finishCloseSession key => ∀ s, a.sessions.lookup key = some s → s.resources = []
  | .cleanupSessions =>
      ∀ key s, a.sessions.lookup key = some s → s.deleted = true → Retires i.2 a s
  | .cleanupResources => ∀ key id, Accepts i.2 key id
  | _ => True

theorem AttachInv.of_initial {a : Agent} (h : a.Initial) : AttachInv a := by
  have hr := h.resources
  have hs := h.sessions
  have hnext := h.attachedNext
  have hret := h.attachedReturned
  have hlinked : a.linked = [] := by
    unfold Agent.linked
    rw [hs]
    rfl
  have hlookup : ∀ rid r, a.resources.lookup rid ≠ some r := by
    intro rid r h
    rw [hr] at h
    cases h
  refine ⟨⟨?_, ?_, ?_, ?_, ?_, ?_, ?_, ?_, ?_⟩, ?_⟩
  · intro rid r h
    exact absurd h (hlookup rid r)
  · simp [hlinked]
  · simp [hlinked]
  · simp [hlinked]
  · simp [BufferPool.Sound, hret]
  · simp [hlinked]
  · intro rid r h
    exact absurd h (hlookup rid r)
  · intro rid r h
    exact absurd h (hlookup rid r)
  · intro rid r h
    exact absurd h (hlookup rid r)
  · simp [hlinked]

/-- One step under the condition. -/
theorem AttachInv.step {a : Agent} (ha : AttachInv a) {i : Operation × Env}
    (h : KeepsAttachments a i) : AttachInv (a.step i) := by
  obtain ⟨op, env⟩ := i
  cases op with
  | openSession src key timeout data => exact openSession_keeps ha src timeout data h
  | closeSession src key => exact closeSession_preserves env src key a ha
  | finishCloseSession key => exact finishCloseSession_keeps ha h
  | sessionTimeout key => exact onSessionTimeout_preserves env key a ha
  | createResource key q => exact createResource_keeps h ha
  | deleteResource key id => exact deleteResource_keeps ha h
  | readData key id spec => exact (readData_frame env key id spec a).attachInv ha
  | cancelRead key id => exact (cancelRead_frame env key id a).attachInv ha
  | returnLoan src key d => exact (returnLoan_frame env src key d a).attachInv ha
  | writeData key id => exact (writeData_frame env key id a).attachInv ha
  | dataEvent rd => exact (onDataOnReader_frame env rd a).attachInv ha
  | changeCache reader cache => exact ha.of_linked rfl rfl (.refl _)
  | cleanupSessions =>
      change AttachInv ((Prog.read >>= _) a).2
      rw [read_bind_apply]
      exact keeps_ensure ha fun _ => onCleanupSessions_keeps ha h
  | cleanupReads =>
      change AttachInv ((Prog.read >>= _) a).2
      rw [read_bind_apply]
      exact keeps_ensure ha fun _ => (onCleanupReads_frame env a).attachInv ha
  | cleanupResources =>
      change AttachInv ((Prog.read >>= _) a).2
      rw [read_bind_apply]
      exact keeps_ensure ha fun _ => onCleanupResources_preserves env h a ha

end NanoAgent
