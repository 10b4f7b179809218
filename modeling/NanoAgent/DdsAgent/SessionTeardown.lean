import NanoAgent.DdsAgent.SessionTurns

/-!
# Sessions are torn down once

A `SessionLog` follows the agent and its clean-up handler of sessions, which other threads
interrupt between any two of its steps, and keeps for every key which of the sessions that were
opened under it have been marked as deleted, finalized, removed and reported as closed.

A closed session that was finalized stays in the table, still marked, until its closer goes on.
If the handler starts again before that, it comes to the session a second time
(`not_tornDownOnce_of_pendingClose`).
-/

namespace NanoAgent

open Prog

/-- What has happened to the sessions under a key, which are numbered as they are opened;
`opened` is the number of the last one. -/
structure Teardown where
  opened : ℕ
  marked : List ℕ
  finalized : List ℕ
  removed : List ℕ
  closed : List ℕ

namespace Teardown

def initial : Teardown := ⟨0, [], [], [], []⟩

/-- What has happened after a step, from the session before and after it. -/
def next (t : Teardown) (opens finalizes : Bool) (before after : Option ClientSession)
    (closings : ℕ) : Teardown :=
  let n := if opens then t.opened + 1 else t.opened
  { opened := n
    marked := t.marked ++ if after.any (·.deleted) then [n] else []
    finalized := t.finalized ++ if finalizes then [n] else []
    removed := t.removed ++ if (before.isSome || opens) && after.isNone then [n] else []
    closed := t.closed ++ List.replicate closings n }

/-- No session was torn down twice, and none was reported as closed before it was finalized. A
session that was marked as deleted is not active. -/
structure Once (t : Teardown) (s : Option ClientSession) : Prop where
  finalized : t.finalized.Nodup
  closed : t.closed.Nodup
  closedFinalized : ∀ n ∈ t.closed, n ∈ t.finalized
  removed : t.removed.Nodup
  inactive : t.opened ∈ t.marked → ∀ s' ∈ s, s'.active = false

end Teardown

/-- What the handler is about to do with the session under a key: it goes on finalizing it
(`false`), or releases it (`true`). -/
def CleanupPhase.stage (key : ClientSessionKey) : CleanupPhase → Option Bool
  | .idle | .seeking => none
  | .endingReads key' _ | .detaching key' _ | .waiting key' =>
      if key' = key then some false else none
  | .releasing key' => if key' = key then some true else none

theorem CleanupPhase.stage_of_not_releasing {ph : CleanupPhase} (h : ∀ key', ph ≠ .releasing key')
    (key : ClientSessionKey) : ph.stage key = none ∨ ph.stage key = some false := by
  cases ph with
  | idle => exact .inl rfl
  | seeking => exact .inl rfl
  | endingReads key' rest => exact (ite_eq_or_eq _ _ _).symm
  | detaching key' rest => exact (ite_eq_or_eq _ _ _).symm
  | waiting key' => exact (ite_eq_or_eq _ _ _).symm
  | releasing key' => exact absurd rfl (h key')

namespace Teardown

/-- What every run keeps of the session under a key. -/
structure Kept (t : Teardown) (s : Option ClientSession) (stage : Option Bool) : Prop where
  nodupFinalized : t.finalized.Nodup
  nodupRemoved : t.removed.Nodup
  nodupClosed : t.closed.Nodup
  closedFinalized : ∀ n ∈ t.closed, n ∈ t.finalized
  closedRemoved : ∀ n ∈ t.closed, n ∈ t.removed
  bound : ∀ n, n ∈ t.marked ∨ n ∈ t.finalized ∨ n ∈ t.removed → n ≤ t.opened
  present : ∀ s' ∈ s, t.opened ∉ t.removed
  marked : ∀ s' ∈ s, t.opened ∈ t.marked → s'.deleted = true
  given : ∀ s' ∈ s, s'.semCleanup = true → s'.deleted = true ∧ t.opened ∈ t.finalized
  finalized : ∀ s' ∈ s, t.opened ∈ t.finalized → s'.semCleanup = true ∨ stage = some true
  held : ∀ done ∈ stage, ∃ s' ∈ s, s'.deleted = true ∧ s'.semCleanup = false ∧
    (t.opened ∈ t.finalized ↔ done = true)

variable {t : Teardown} {s s' : ClientSession} {stage : Option Bool} {after : Option ClientSession}

theorem Kept.once {o : Option ClientSession} (h : t.Kept o stage) : t.Once o where
  finalized := h.nodupFinalized
  closed := h.nodupClosed
  closedFinalized := h.closedFinalized
  removed := h.nodupRemoved
  inactive hmarked s hs := by
    unfold ClientSession.active
    rw [h.marked s hs hmarked]
    rfl

theorem Kept.initial : initial.Kept none none := by
  constructor <;> simp [Teardown.initial]

/-- The session that was opened last is marked, if it is deleted. -/
def mark (t : Teardown) (deleted : Bool) : Teardown :=
  { t with marked := t.marked ++ if deleted then [t.opened] else [] }

theorem next_kept : t.next false false (some s) (some s') 0 = t.mark s'.deleted := by
  simp [next, mark]

theorem next_finalized : t.next false true (some s) (some s') 0 =
    { t.mark s'.deleted with finalized := t.finalized ++ [t.opened] } := by
  simp [next, mark]

theorem next_absent : t.next false false none none 0 = t := by
  simp [next]

theorem mem_mark {deleted : Bool} {n : ℕ} :
    n ∈ (t.mark deleted).marked ↔ n ∈ t.marked ∨ deleted = true ∧ n = t.opened := by
  cases deleted <;> simp [mark]

/-- The session stays in the table. -/
theorem Kept.mark (h : t.Kept (some s) stage) (hdel : s.deleted = true → s'.deleted = true)
    (hsem : s'.semCleanup = s.semCleanup) : (t.mark s'.deleted).Kept (some s') stage where
  nodupFinalized := h.nodupFinalized
  nodupRemoved := h.nodupRemoved
  nodupClosed := h.nodupClosed
  closedFinalized := h.closedFinalized
  closedRemoved := h.closedRemoved
  bound n hn := by
    rw [mem_mark] at hn
    rcases hn with (hn | ⟨-, rfl⟩) | hn
    · exact h.bound n (.inl hn)
    · exact le_rfl
    · exact h.bound n (.inr hn)
  present _ _ := h.present s rfl
  marked s₁ hs₁ hmarked := by
    cases hs₁
    rcases mem_mark.1 hmarked with hold | ⟨hnow, -⟩
    · exact hdel (h.marked s rfl hold)
    · exact hnow
  given s₁ hs₁ hgiven := by
    cases hs₁
    rw [hsem] at hgiven
    exact (h.given s rfl hgiven).imp_left hdel
  finalized s₁ hs₁ hmem := by
    cases hs₁
    exact (h.finalized s rfl hmem).imp_left hsem.trans
  held done hdone := by
    obtain ⟨s₁, hs₁, hdeleted, hgiven, hmem⟩ := h.held done hdone
    cases hs₁
    exact ⟨s', rfl, hdel hdeleted, hsem.trans hgiven, hmem⟩

/-- The handler has finalized the session. -/
theorem Kept.finalize (h : t.Kept (some s) (some false)) :
    { t with finalized := t.finalized ++ [t.opened] }.Kept (some s) (some true) := by
  obtain ⟨s₁, hs₁, hdeleted, hgiven, hmem⟩ := h.held false rfl
  cases hs₁
  have hnew : t.opened ∉ t.finalized := fun hin => nomatch hmem.1 hin
  exact { h with
    nodupFinalized := h.nodupFinalized.append (List.nodup_singleton _) (by simpa using hnew)
    closedFinalized := fun n hn => List.mem_append_left _ (h.closedFinalized n hn)
    bound := by
      intro n hn
      simp only [List.mem_append, List.mem_singleton] at hn
      rcases hn with hn | (hn | rfl) | hn
      · exact h.bound n (.inl hn)
      · exact h.bound n (.inr (.inl hn))
      · exact le_rfl
      · exact h.bound n (.inr (.inr hn))
    given := fun s₂ hs₂ hg => (h.given s₂ hs₂ hg).imp_right (List.mem_append_left _)
    finalized := fun _ _ _ => .inr rfl
    held := fun done hdone => ⟨s, rfl, hdeleted, hgiven, by cases hdone; simp⟩ }

/-- The handler tells the closer to go on. -/
theorem Kept.give (h : t.Kept (some s) (some true)) :
    t.Kept (some { s with semCleanup := true }) none := by
  obtain ⟨s₁, hs₁, hdeleted, -, hmem⟩ := h.held true rfl
  cases hs₁
  exact { h with
    present := fun _ _ => h.present s rfl
    marked := by
      rintro _ ⟨⟩ -
      exact hdeleted
    given := by
      rintro _ ⟨⟩ -
      exact ⟨hdeleted, hmem.2 rfl⟩
    finalized := by
      rintro _ ⟨⟩ -
      exact .inl rfl
    held := by simp }

/-- A session is opened. -/
theorem Kept.open (h : t.Kept none stage) (hdel : s.deleted = false) (hsem : s.semCleanup = false) :
    (t.next true false none (some s) 0).Kept (some s) none := by
  have hnew : ∀ n, n ∈ t.marked ∨ n ∈ t.finalized ∨ n ∈ t.removed → n ≠ t.opened + 1 :=
    fun n hn => (Nat.lt_succ_of_le (h.bound n hn)).ne
  have hnext : t.next true false none (some s) 0 = { t with opened := t.opened + 1 } := by
    simp [next, hdel]
  rw [hnext]
  exact { h with
    bound := fun n hn => (h.bound n hn).trans (Nat.le_succ _)
    present := fun _ _ hin => hnew _ (.inr (.inr hin)) rfl
    marked := fun _ _ hin => absurd rfl (hnew _ (.inl hin))
    given := by
      rintro _ ⟨⟩ hgiven
      rw [hsem] at hgiven
      cases hgiven
    finalized := fun _ _ hin => absurd rfl (hnew _ (.inr (.inl hin)))
    held := by simp }

/-- A session is opened, and its record is removed again. -/
theorem Kept.discard (h : t.Kept none stage) : (t.next true false none none 0).Kept none none := by
  have hnew : t.opened + 1 ∉ t.removed := fun hin =>
    Nat.not_succ_le_self _ (h.bound _ (.inr (.inr hin)))
  have hnext : t.next true false none none 0 =
      { t with opened := t.opened + 1, removed := t.removed ++ [t.opened + 1] } := by
    simp [next]
  rw [hnext]
  exact { h with
    nodupRemoved := h.nodupRemoved.append (List.nodup_singleton _) (by simpa using hnew)
    closedRemoved := fun n hn => List.mem_append_left _ (h.closedRemoved n hn)
    bound := by
      intro n hn
      simp only [List.mem_append, List.mem_singleton] at hn
      rcases hn with hn | hn | hn | rfl
      · exact (h.bound n (.inl hn)).trans (Nat.le_succ _)
      · exact (h.bound n (.inr (.inl hn))).trans (Nat.le_succ _)
      · exact (h.bound n (.inr (.inr hn))).trans (Nat.le_succ _)
      · exact le_rfl
    present := by simp
    marked := by simp
    given := by simp
    finalized := by simp
    held := by simp }

/-- The record of a session that was finalized is removed. -/
theorem Kept.remove {n : ℕ} (h : t.Kept (some s) stage) (hmem : t.opened ∈ t.finalized)
    (hn : n ≤ 1) : (t.next false false (some s) none n).Kept none none := by
  have hnew : t.opened ∉ t.removed := h.present s rfl
  have hclosed : t.opened ∉ t.closed := fun hin => hnew (h.closedRemoved _ hin)
  have hnext : t.next false false (some s) none n = { t with
      removed := t.removed ++ [t.opened]
      closed := t.closed ++ List.replicate n t.opened } := by
    simp [next]
  rw [hnext]
  refine { h with
    nodupRemoved := h.nodupRemoved.append (List.nodup_singleton _) (by simpa using hnew)
    nodupClosed := ?_, closedFinalized := ?_, closedRemoved := ?_, bound := ?_
    present := by simp, marked := by simp, given := by simp, finalized := by simp, held := by simp }
  · refine h.nodupClosed.append (List.nodup_replicate.2 hn) fun x hx hx' => ?_
    rw [List.eq_of_mem_replicate hx'] at hx
    exact hclosed hx
  · intro x hx
    rcases List.mem_append.1 hx with hx | hx
    · exact h.closedFinalized x hx
    · rw [List.eq_of_mem_replicate hx]
      exact hmem
  · intro x hx
    rcases List.mem_append.1 hx with hx | hx
    · exact List.mem_append_left _ (h.closedRemoved x hx)
    · rw [List.eq_of_mem_replicate hx]
      exact List.mem_append_right _ (List.mem_singleton_self _)
  · intro x hx
    simp only [List.mem_append, List.mem_singleton] at hx
    rcases hx with hx | hx | hx | rfl
    · exact h.bound x (.inl hx)
    · exact h.bound x (.inr (.inl hx))
    · exact h.bound x (.inr (.inr hx))
    · exact le_rfl

/-- An operation of another thread. The handler finalizes a session that is in the table. -/
theorem Kept.turn {before : Option ClientSession} {opens : Bool} {n : ℕ} (h : t.Kept before stage)
    (hturn : SessionTurn before after opens n) :
    (t.next opens false before after n).Kept after stage := by
  have hnone : before = none → stage = none := by
    rintro rfl
    refine Option.eq_none_iff_forall_not_mem.2 fun done hdone => ?_
    obtain ⟨s, hs, -⟩ := h.held done hdone
    cases hs
  cases hturn with
  | absent hbefore hafter =>
      subst hbefore hafter
      rw [next_absent]
      exact h
  | kept hbefore hafter hdel hsem =>
      subst hbefore hafter
      rw [next_kept]
      exact h.mark hdel hsem
  | opened hbefore hnew =>
      obtain rfl := hnone hbefore
      subst hbefore
      cases after with
      | none => exact h.discard
      | some s => exact h.open (hnew s rfl).1 (hnew s rfl).2
  | removed hbefore hgiven hafter hn =>
      subst hbefore hafter
      obtain ⟨-, hmem⟩ := h.given _ rfl hgiven
      -- the handler is done with a session whose closer was told to go on
      have hstage : stage = none := by
        refine Option.eq_none_iff_forall_not_mem.2 fun done hdone => ?_
        obtain ⟨s, hs, -, hno, -⟩ := h.held done hdone
        cases hs
        rw [hno] at hgiven
        cases hgiven
      rw [hstage]
      exact h.remove hmem hn

/-- A step of the handler fails. -/
theorem Kept.leaves {o : Option ClientSession} (h : t.Kept o (some false)) : t.Kept o none :=
  { h with
    finalized := fun s hs hmem => .inl ((h.finalized s hs hmem).resolve_right (by simp))
    held := by simp }

/-- The handler has found a session that it has not finalized. -/
theorem Kept.finds (h : t.Kept (some s) none) (hdel : s.deleted = true)
    (hsem : s.semCleanup = false) : t.Kept (some s) (some false) :=
  { h with
    finalized := fun s hs hmem => .inl ((h.finalized s hs hmem).resolve_right (by simp))
    held := by
      intro done hdone
      cases hdone
      refine ⟨s, rfl, hdel, hsem, fun hmem => ?_, fun hno => nomatch hno⟩
      have hgiven := (h.finalized s rfl hmem).resolve_right (by simp)
      rw [hsem] at hgiven
      cases hgiven }

end Teardown

namespace AgentM

variable {env : Env} {found : Option ClientSessionKey} {ph ph' : CleanupPhase} {a b : Agent}
  {key : ClientSessionKey}

/-- Up to the release of a session, the handler leaves the sessions in the table. -/
theorem cleanupStep_quiet (env : Env) (found : Option ClientSessionKey)
    (hph : ∀ key', ph ≠ .releasing key') (key : ClientSessionKey) :
    Within (Steady key) (cleanupStep env found ph) ∧ Within Silent (cleanupStep env found ph) := by
  cases ph with
  | idle =>
      constructor
      · refine .read fun a => .bind (.ensure _) fun _ => .bind (.ensure _) fun _ => ?_
        exact .bind (.ensure _) fun _ => .bind (.modify fun b => .of_sessions rfl) fun _ => .pure _
      · refine .read fun a => .bind (.ensure _) fun _ => .bind (.ensure _) fun _ => ?_
        exact .bind (.ensure _) fun _ => .bind (silent fun _ => rfl) fun _ => .pure _
  | seeking =>
      cases found with
      | none => exact ⟨.pure _, .pure _⟩
      | some key' =>
          constructor
          all_goals
            refine .bind (.ensure _) fun _ => .read fun a => .bind (.require _) fun s => ?_
            exact .bind (.ensure _) fun _ => .pure _
  | endingReads key' rest =>
      cases rest with
      | nil =>
          exact ⟨.read fun a => .bind (.require _) fun s => .pure _,
            .read fun a => .bind (.require _) fun s => .pure _⟩
      | cons n rest =>
          constructor
          · refine .bind (fun b => .of_view (.of_frame ?_)) fun _ => .pure _
            exact endReadEA_frame env key' n b
          · exact .bind (endReadEA_notifies env n fun _ _ h => nomatch h) fun _ => .pure _
  | detaching key' rest =>
      cases rest with
      | nil =>
          constructor
          · refine .bind (fun b => .of_view (.of_frame (ReadFrame.drainSamples b key'))) fun _ => ?_
            refine .read fun c => .bind (.require _) fun s => .ite (fun _ => ?_) fun _ => .pure _
            exact .bind (.ensure _) fun _ => .pure _
          · refine .bind (silent fun b => ?_) fun _ => .read fun c => .bind (.require _) fun s => ?_
            · unfold Agent.drainSamples
              cases b.sessions.lookup key' <;> rfl
            · exact .ite (fun _ => .bind (.ensure _) fun _ => .pure _) fun _ => .pure _
      | cons n rest =>
          constructor
          · refine .bind (fun b => .of_view (.of_outlines ?_)) fun _ => .pure _
            exact detachOnCloseEA_sameOutlines key' n b
          · refine .bind (.read fun b => ?_) fun _ => .pure _
            refine .bind (detachResourceEA_silent env key' n false true) fun _ => ?_
            exact notify_notifies fun _ h => nomatch h
  | waiting key' =>
      exact ⟨.bind (.ensure _) fun _ => .pure _, .bind (.ensure _) fun _ => .pure _⟩
  | releasing key' => exact absurd rfl (hph key')

/-- What a step of the handler is for the session under the key, up to its release: the handler
stays where it is with it, has finalized it, or has found it. -/
inductive StageStep (key : ClientSessionKey) (found : Option ClientSessionKey) (a : Agent)
    (ph ph' : CleanupPhase) : Prop
  | stays : ph'.stage key = ph.stage key → ph' ≠ .releasing key → StageStep key found a ph ph'
  | finalized : ph.stage key = some false → ph' = .releasing key → StageStep key found a ph ph'
  | finds {s : ClientSession} : ph = .seeking → found = some key → ph'.stage key = some false →
      ph' ≠ .releasing key → a.sessions.lookup key = some s → s.deleted = true →
      StageStep key found a ph ph'

theorem StageStep.releasing {key' : ClientSessionKey}
    (h : ph.stage key = if key' = key then some false else none) :
    StageStep key found a ph (.releasing key') := by
  by_cases hkey : key' = key
  · subst hkey
    exact .finalized (h.trans (if_pos rfl)) rfl
  · refine .stays ?_ (by simpa using hkey)
    rw [h, if_neg hkey]
    exact if_neg hkey

theorem cleanupStep_stage (hph : ∀ key', ph ≠ .releasing key')
    (h : cleanupStep env found ph a = (some ph', b)) (key : ClientSessionKey) :
    StageStep key found a ph ph' := by
  cases ph with
  | idle =>
      rw [cleanupStep, read_bind_apply] at h
      obtain ⟨_, _, -, h⟩ := bind_eq_some.1 h
      obtain ⟨_, _, -, h⟩ := bind_eq_some.1 h
      obtain ⟨_, _, -, h⟩ := bind_eq_some.1 h
      obtain ⟨_, _, -, h⟩ := bind_eq_some.1 h
      rw [← (pure_eq_some.1 h).1]
      exact .stays rfl (by simp)
  | seeking =>
      cases found with
      | none =>
          rw [← (pure_eq_some.1 h).1]
          exact .stays rfl (by simp)
      | some key' =>
          obtain ⟨_, _, hnext, h⟩ := bind_eq_some.1 h
          obtain ⟨-, rfl⟩ := ensure_eq_some.1 hnext
          rw [read_bind_apply] at h
          obtain ⟨s, _, hrequire, h⟩ := bind_eq_some.1 h
          obtain ⟨hs, rfl⟩ := require_eq_some.1 hrequire
          obtain ⟨_, _, hensure, h⟩ := bind_eq_some.1 h
          obtain ⟨hdel, rfl⟩ := ensure_eq_some.1 hensure
          rw [← (pure_eq_some.1 h).1]
          by_cases hkey : key' = key
          · subst hkey
            exact .finds rfl rfl (if_pos rfl) (by simp) hs hdel
          · exact .stays (if_neg hkey) (by simp)
  | endingReads key' rest =>
      cases rest with
      | nil =>
          rw [cleanupStep, read_bind_apply] at h
          obtain ⟨s, _, -, h⟩ := bind_eq_some.1 h
          rw [← (pure_eq_some.1 h).1]
          exact .stays rfl (by simp)
      | cons n rest =>
          rw [cleanupStep] at h
          obtain ⟨_, _, -, h⟩ := bind_eq_some.1 h
          rw [← (pure_eq_some.1 h).1]
          exact .stays rfl (by simp)
  | detaching key' rest =>
      cases rest with
      | nil =>
          rw [cleanupStep, modify_bind_apply, read_bind_apply] at h
          obtain ⟨s, _, -, h⟩ := bind_eq_some.1 h
          split at h
          · obtain ⟨_, _, -, h⟩ := bind_eq_some.1 h
            rw [← (pure_eq_some.1 h).1]
            exact .stays rfl (by simp)
          · rw [← (pure_eq_some.1 h).1]
            exact .releasing rfl
      | cons n rest =>
          rw [cleanupStep] at h
          obtain ⟨_, _, -, h⟩ := bind_eq_some.1 h
          rw [← (pure_eq_some.1 h).1]
          exact .stays rfl (by simp)
  | waiting key' =>
      rw [cleanupStep] at h
      obtain ⟨_, _, -, h⟩ := bind_eq_some.1 h
      rw [← (pure_eq_some.1 h).1]
      exact .releasing rfl
  | releasing key' => exact absurd rfl (hph key')

/-- What the handler asks of the calls with which it removes a session that timed out, and of
the session that it finds next: nobody was told yet that it has been finalized. -/
def sparesFinalized (env : Env) (found : Option ClientSessionKey) (a : Agent) :
    CleanupPhase → Bool
  | .seeking => found.all fun key => (a.sessions.lookup key).all fun s => !s.semCleanup
  | .releasing key => (a.sessions.lookup key).all fun s => !s.timedout ||
      (env.ok (.releaseSession .cleanupSessions key) && env.ok (.deleteSession key))
  | _ => true

/-- The release of a session does nothing to the others. -/
theorem releaseFinalizedEA_elsewhere {key' : ClientSessionKey} (hkey : key' ≠ key)
    (timedout : Bool) :
    Steady key a (releaseFinalizedEA env key' timedout a).2 ∧
      closings a (releaseFinalizedEA env key' timedout a).2 key = 0 := by
  have hstay : Steady key a a ∧ closings a a key = 0 :=
    ⟨refl a, closings_of_silent (refl a) key⟩
  unfold releaseFinalizedEA
  cases timedout with
  | true =>
      rw [if_pos rfl]
      refine keeps_ensure (I := fun c => Steady key a c ∧ closings a c key = 0) hstay fun _ => ?_
      refine keeps_ensure (I := fun c => Steady key a c ∧ closings a c key = 0) hstay fun _ => ?_
      rw [modify_bind_apply]
      constructor
      · refine .of_bare ?_
        change ((a.sessions.erase key').lookup key).map _ = _
        rw [AList.lookup_erase_ne (Ne.symm hkey)]
      · exact (closings_notify (a := a) (b := a.eraseSession key') rfl key key').trans (if_neg hkey)
  | false =>
      rw [if_neg Bool.false_ne_true, modify_bind_apply]
      constructor
      · refine .of_bare ?_
        change ((a.sessions.modify key' _).lookup key).map _ = _
        rw [AList.lookup_modify, if_neg (Ne.symm hkey)]
      · exact closings_of_silent (Notifies.of_same rfl) key

/-- The handler releases the session `key'`: it removes its record, or tells its closer. -/
theorem releaseFinalizedEA_kept (env : Env) {key' : ClientSessionKey} {s : ClientSession}
    {t : Teardown} (hs : a.sessions.lookup key' = some s)
    (h : t.Kept (a.sessions.lookup key) ((CleanupPhase.releasing key').stage key))
    (hok : s.timedout = true →
      env.ok (.releaseSession .cleanupSessions key') = true ∧ env.ok (.deleteSession key') = true) :
    let b := (releaseFinalizedEA env key' s.timedout a).2
    (t.next false false (a.sessions.lookup key) (b.sessions.lookup key) (closings a b key)).Kept
      (b.sessions.lookup key) none := by
  intro b
  by_cases hkey : key' = key
  · subst hkey
    rw [CleanupPhase.stage, if_pos rfl, hs] at h
    obtain ⟨s₁, hs₁, -, -, hmem⟩ := h.held true rfl
    cases hs₁
    cases htimedout : s.timedout with
    | true =>
        obtain ⟨hrelease, hdelete⟩ := hok htimedout
        have hb : b = (a.eraseSession key').notify (.sessionClosed key') := by
          simp [b, releaseFinalizedEA, htimedout, hrelease, hdelete]
        have hgone : b.sessions.lookup key' = none := by
          rw [hb]
          exact AList.lookup_erase _ _
        have hclosings : closings a b key' ≤ 1 := by
          rw [hb, closings_notify (a := a) (b := a.eraseSession key') rfl, if_pos rfl]
        rw [hs, hgone]
        exact h.remove (hmem.2 rfl) hclosings
    | false =>
        have hb : b = a.updateSession key' fun s => { s with semCleanup := true } := by
          simp only [b, releaseFinalizedEA, htimedout]
          rfl
        have htold : b.sessions.lookup key' = some { s with semCleanup := true } := by
          rw [hb, Agent.updateSession, AList.lookup_modify, if_pos rfl, hs]
          rfl
        have hclosings : closings a b key' = 0 := by
          rw [hb]
          exact closings_of_silent (Notifies.of_same rfl) key'
        rw [hs, htold, hclosings, Teardown.next_kept]
        exact (h.mark id rfl).give
  · rw [CleanupPhase.stage, if_neg hkey] at h
    have hother : Steady key a b ∧ closings a b key = 0 :=
      releaseFinalizedEA_elsewhere hkey s.timedout
    exact h.turn (Turns.of_flags hother.1 hother.2)

theorem releasing_kept {key' : ClientSessionKey} {t : Teardown}
    (h : t.Kept (a.sessions.lookup key) ((CleanupPhase.releasing key').stage key))
    (hok : sparesFinalized env found a (.releasing key') = true) :
    let p := cleanupStep env found (.releasing key') a
    (t.next false (decide (p.1 = some (.releasing key))) (a.sessions.lookup key)
      (p.2.sessions.lookup key) (closings a p.2 key)).Kept (p.2.sessions.lookup key)
      ((p.1.getD .idle).stage key) := by
  rw [cleanupStep, read_bind_apply, bind_apply, require_apply]
  cases hs : a.sessions.lookup key' with
  | none =>
      -- the handler has no session then
      have hstage : (CleanupPhase.releasing key').stage key = none := by
        refine if_neg fun hkey => ?_
        subst hkey
        rw [CleanupPhase.stage, if_pos rfl, hs] at h
        obtain ⟨s, hmem, -⟩ := h.held true rfl
        cases hmem
      rw [hstage] at h
      exact h.turn (Turns.of_steady (refl a) (refl a))
  | some s =>
      have hkept := releaseFinalizedEA_kept env hs h fun htimedout => by
        simpa [sparesFinalized, hs, htimedout] using hok
      dsimp only
      rw [bind_apply]
      rcases hrun : releaseFinalizedEA env key' s.timedout a with ⟨_ | _, b⟩ <;>
        rw [hrun] at hkept <;> exact hkept

/-- What a step of the handler keeps. -/
theorem cleanupStep_kept {t : Teardown} (h : t.Kept (a.sessions.lookup key) (ph.stage key))
    (hok : sparesFinalized env found a ph = true) :
    let p := cleanupStep env found ph a
    (t.next false (decide (p.1 = some (.releasing key))) (a.sessions.lookup key)
      (p.2.sessions.lookup key) (closings a p.2 key)).Kept (p.2.sessions.lookup key)
      ((p.1.getD .idle).stage key) := by
  intro p
  by_cases hph : ∃ key', ph = .releasing key'
  · obtain ⟨key', rfl⟩ := hph
    exact releasing_kept h hok
  have hph : ∀ key', ph ≠ .releasing key' := fun key' heq => hph ⟨key', heq⟩
  have hquiet := cleanupStep_quiet env found hph key
  have hsteady : Steady key a p.2 := hquiet.1 a
  have hsilent : Silent a p.2 := hquiet.2 a
  have hkept := h.turn (Turns.of_steady hsteady hsilent)
  rcases hp : p with ⟨_ | ph', b⟩ <;> rw [hp] at hsteady hsilent hkept
  · -- a step that fails ends the pass
    rcases CleanupPhase.stage_of_not_releasing hph key with hstage | hstage <;>
      rw [hstage] at hkept
    · exact hkept
    · exact hkept.leaves
  · change Teardown.Kept _ _ (ph'.stage key)
    cases cleanupStep_stage hph hp key with
    | stays hsame hne =>
        rw [decide_eq_false (by simpa using hne), hsame]
        exact hkept
    | finalized hfalse hreleasing =>
        -- the session is in the table before and after, and is finalized now
        rw [hfalse] at h hkept
        obtain ⟨s, hs, -⟩ := h.held false rfl
        obtain ⟨s', hs', -⟩ := hkept.held false rfl
        rw [closings_of_silent hsilent] at hkept ⊢
        rw [hs, hs', Teardown.next_kept] at hkept
        rw [hs, hs', hreleasing, decide_eq_true rfl, Teardown.next_finalized, CleanupPhase.stage,
          if_pos rfl]
        exact hkept.finalize
    | finds hseeking hfound hfalse hne hs hdel =>
        rename_i s
        rw [decide_eq_false (by simpa using hne), hfalse]
        subst hseeking hfound
        have hsome : (b.sessions.lookup key).isSome = true := by
          rw [hsteady.1, hs]
          rfl
        obtain ⟨s', hs'⟩ := Option.isSome_iff_exists.1 hsome
        obtain ⟨hdeleted, hsem⟩ := hsteady.2 s hs s' hs'
        have hnot : s.semCleanup = false := by simpa [sparesFinalized, hs] using hok
        rw [hs'] at hkept ⊢
        exact hkept.finds (hdeleted hdel) (hsem.trans hnot)

end AgentM

/-- Something that happens to the sessions: an operation of another thread, or a step of the
clean-up handler, which comes to the session `found` when it looks for the next one. -/
inductive TeardownEvent
  | operation (o : Operation) (ho : o ≠ .cleanupSessions)
  | cleanup (found : Option ClientSessionKey)

/-- The agent, its clean-up handler, and what has happened to the sessions under each key. -/
structure SessionLog where
  agent : Agent
  handler : CleanupPhase
  teardown : ClientSessionKey → Teardown

namespace SessionLog

def start (a : Agent) : SessionLog := ⟨a, .idle, fun _ => .initial⟩

def step (h : SessionLog) : TeardownEvent × Env → SessionLog
  | (.operation o _, env) =>
      let b := h.agent.step (o, env)
      { agent := b
        handler := h.handler
        teardown := fun key => (h.teardown key).next (o.opens env h.agent key) false
          (h.agent.sessions.lookup key) (b.sessions.lookup key) (closings h.agent b key) }
  | (.cleanup found, env) =>
      let p := AgentM.cleanupStep env found h.handler h.agent
      { agent := p.2
        handler := p.1.getD .idle
        teardown := fun key => (h.teardown key).next false (decide (p.1 = some (.releasing key)))
          (h.agent.sessions.lookup key) (p.2.sessions.lookup key) (closings h.agent p.2 key) }

/-- What is asked of a step. The handler finds no session that it has finalized before and whose
closer has not gone on, and a record that is to be removed can be removed. -/
def spares (h : SessionLog) : TeardownEvent × Env → Bool
  | (.operation o _, env) => o.canRemove env h.agent
  | (.cleanup found, env) => AgentM.sparesFinalized env found h.agent h.handler

/-- The states of the runs from an agent that has just been started whose steps meet `ok`. -/
def ReachedWhen (ok : SessionLog → TeardownEvent × Env → Prop) : SessionLog → Prop :=
  Reachable (fun h => ∃ a : Agent, a.Initial ∧ h = start a) step ok

/-- Every session is torn down once. -/
def TornDownOnce (h : SessionLog) : Prop :=
  ∀ key, (h.teardown key).Once (h.agent.sessions.lookup key)

variable {h : SessionLog}

theorem kept_of_reached (hh : h.ReachedWhen fun h i => h.spares i = true)
    (key : ClientSessionKey) :
    (h.teardown key).Kept (h.agent.sessions.lookup key) (h.handler.stage key) := by
  refine Reachable.invariant
    (I := fun h => (h.teardown key).Kept (h.agent.sessions.lookup key) (h.handler.stage key))
    (fun h h₀ => ?_) (fun h i hkept hok => ?_) hh
  · obtain ⟨a, ha, rfl⟩ := h₀
    change Teardown.initial.Kept (a.sessions.lookup key) none
    rw [ha.sessions]
    exact .initial
  · obtain ⟨e, env⟩ := i
    cases e with
    | operation o ho => exact hkept.turn (h.agent.step_turns env ho hok key)
    | cleanup found => exact AgentM.cleanupStep_kept hkept hok

/-- In every run whose steps find no session that was finalized before, and can remove the
records that they are to remove, every session is torn down once. -/
theorem tornDownOnce_of_reached (hh : h.ReachedWhen fun h i => h.spares i = true) :
    h.TornDownOnce :=
  fun key => (kept_of_reached hh key).once

/-- The steps of a run meet what is asked of them. -/
def sparesAll : SessionLog → List (TeardownEvent × Env) → Bool
  | _, [] => true
  | h, i :: run => h.spares i && (h.step i).sparesAll run

theorem reached_foldl (hh : h.ReachedWhen fun h i => h.spares i = true)
    (run : List (TeardownEvent × Env)) (hok : h.sparesAll run = true) :
    (run.foldl step h).ReachedWhen fun h i => h.spares i = true := by
  induction run generalizing h with
  | nil => exact hh
  | cons i run ih =>
      obtain ⟨hspares, hrest⟩ := Bool.and_eq_true_iff.1 hok
      exact ih (.next i hh hspares) hrest

/-- Every call succeeds, and no loans are returned. -/
def allSucceed : Env := .obliging ⟨true, [], []⟩

/-- A pass of the handler that finds the given sessions, which have no resources. -/
def pass (keys : List ClientSessionKey) : List (TeardownEvent × Env) :=
  [(.cleanup none, allSucceed)] ++
    keys.flatMap (fun key => (.cleanup (some key), allSucceed) ::
      List.replicate 3 (.cleanup none, allSucceed)) ++ [(.cleanup none, allSucceed)]

/-- A session is closed and another one times out while its closer waits; the handler finalizes
both, and the closer goes on while it does. -/
def closingRun : List (TeardownEvent × Env) :=
  [(.operation (.openSession 0 ⟨1, 1⟩ 0 none) nofun, allSucceed),
    (.operation (.openSession 0 ⟨2, 1⟩ 5 none) nofun, allSucceed),
    (.operation (.closeSession 0 ⟨1, 1⟩) nofun, allSucceed),
    (.operation (.sessionTimeout ⟨2, 1⟩) nofun, allSucceed)] ++
  (pass [⟨1, 1⟩, ⟨2, 1⟩]).insertIdx 6 (.operation (.finishCloseSession ⟨1, 1⟩) nofun, allSucceed)

theorem tornDownOnce_closingRun :
    let h := closingRun.foldl step (start (.started false .firstCached))
    h.TornDownOnce ∧ (h.teardown ⟨1, 1⟩).closed = [1] ∧ (h.teardown ⟨2, 1⟩).closed = [1] :=
  ⟨tornDownOnce_of_reached (reached_foldl (.start ⟨_, Agent.started_initial _ _, rfl⟩) closingRun
    (by decide +kernel)), by decide +kernel, by decide +kernel⟩

/-- A session is closed and finalized. Before its closer goes on, another session is closed, and
the handler starts again. -/
def pendingCloseRun : List (TeardownEvent × Env) :=
  [(.operation (.openSession 0 ⟨1, 1⟩ 0 none) nofun, allSucceed),
    (.operation (.openSession 0 ⟨2, 1⟩ 0 none) nofun, allSucceed),
    (.operation (.closeSession 0 ⟨1, 1⟩) nofun, allSucceed)] ++ pass [⟨1, 1⟩] ++
  [(.operation (.closeSession 0 ⟨2, 1⟩) nofun, allSucceed)] ++ pass [⟨1, 1⟩, ⟨2, 1⟩]

/-- The first session is finalized twice. -/
theorem not_tornDownOnce_of_pendingClose :
    ¬ ∀ h : SessionLog, (h.ReachedWhen fun _ _ => True) → h.TornDownOnce := by
  intro hall
  have honce := hall (pendingCloseRun.foldl step (start (.started false .firstCached)))
    (Reachable.foldl _ (.start ⟨_, Agent.started_initial _ _, rfl⟩)) ⟨1, 1⟩
  have htwice : ((pendingCloseRun.foldl step
      (start (.started false .firstCached))).teardown ⟨1, 1⟩).finalized = [1, 1] := by
    decide +kernel
  have hnodup := honce.finalized
  rw [htwice] at hnodup
  exact absurd hnodup (by decide)

end SessionLog

end NanoAgent
