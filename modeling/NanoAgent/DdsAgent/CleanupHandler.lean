import NanoAgent.DdsAgent.SessionView
import NanoAgent.DdsAgent.Operation

/-!
# The clean-up handler of sessions, step by step

`NDDSA_Agent_on_cleanup_sessions` waits while it finalizes a session, and gives up its locks to
do so. Other threads go on meanwhile, and `cleanupStep` is what the handler does from one point
to the next at which they may. A pass that nobody interrupts is `onCleanupSessions`
(`cleanupSessions_handles`).
-/

namespace NanoAgent

open Prog Relation

/-- Where the handler is. -/
inductive CleanupPhase
  | idle
  | seeking
  | endingReads (key : ClientSessionKey) (rest : List ℕ)
  | detaching (key : ClientSessionKey) (rest : List ℕ)
  | waiting (key : ClientSessionKey)
  | releasing (key : ClientSessionKey)
  deriving DecidableEq, Repr

namespace AgentM

variable (env : Env)

/-- A step of `NDDSA_Agent_on_cleanup_sessions`, which comes to the session `found` when it looks
for the next one; in which order it finds them is left open. A step that fails ends the pass. -/
def cleanupStep (found : Option ClientSessionKey) : CleanupPhase → AgentM CleanupPhase
  | .idle => do
      let a ← read
      ensure a.condCleanupSessions
      ensure (env.ok (.lockSessions .cleanupSessions))
      ensure (env.ok (.setTrigger .cleanupSessions))
      modify fun a => { a with condCleanupSessions := false }
      pure .seeking
  | .seeking =>
      match found with
      | none => pure .idle
      | some key => do
          ensure (env.ok (.nextSession .cleanupSessions key))
          let a ← read
          let s ← require (a.sessions.lookup key)
          ensure s.deleted
          pure (.endingReads key s.resources)
  | .endingReads key [] => do
      let a ← read
      let s ← require (a.sessions.lookup key)
      pure (.detaching key s.resources)
  | .endingReads key (n :: rest) => do
      endReadEA env key n
      pure (.endingReads key rest)
  | .detaching key [] => do
      modify fun a => a.drainSamples key
      let a ← read
      let s ← require (a.sessions.lookup key)
      if s.timeout != 0 && !s.timedout then do
        ensure (env.ok (.postEvent .finalizeSession 0))
        pure (.waiting key)
      else pure (.releasing key)
  | .detaching key (n :: rest) => do
      detachOnCloseEA env key n
      pure (.detaching key rest)
  | .waiting key => do
      ensure (env.ok (.waitSemaphore .finalizeSession 0))
      pure (.releasing key)
  | .releasing key => do
      let a ← read
      let s ← require (a.sessions.lookup key)
      releaseFinalizedEA env key s.timedout
      pure .seeking

end AgentM

/-- The handler and the agent after a step of the handler. -/
def handlerStep (env : Env) (found : Option ClientSessionKey) (p : CleanupPhase × Agent) :
    CleanupPhase × Agent :=
  let r := AgentM.cleanupStep env found p.1 p.2
  (r.1.getD .idle, r.2)

/-- The handler gets from `p` to `q` without being interrupted. -/
def Handles (env : Env) : CleanupPhase × Agent → CleanupPhase × Agent → Prop :=
  ReflTransGen fun p q => ∃ found, q = handlerStep env found p

/-- The handler does what a program comes to, and is then at `ph`; if the program fails, the
pass is over. -/
def HandlesTo (env : Env) (p : CleanupPhase × Agent) (ph : CleanupPhase)
    (r : Option PUnit × Agent) : Prop :=
  Handles env p (if r.1.isSome then ph else .idle, r.2)

namespace HandlesTo

variable {env : Env} {p : CleanupPhase × Agent} {ph ph' : CleanupPhase} {a b : Agent}

theorem done : HandlesTo env (ph, a) ph (some ⟨⟩, a) := ReflTransGen.refl

/-- The handler first does what `x` comes to. -/
theorem bind {x y : AgentM PUnit} (hx : HandlesTo env p ph (x a))
    (hy : ∀ b, x a = (some ⟨⟩, b) → HandlesTo env (ph, b) ph' (y b)) :
    HandlesTo env p ph' ((x >>= fun _ => y) a) := by
  rw [bind_apply]
  rcases hrun : x a with ⟨_ | _, b⟩ <;> rw [hrun] at hx
  · exact hx
  · exact ReflTransGen.trans hx (hy b hrun)

/-- A step of the handler. -/
theorem step (found : Option ClientSessionKey) {r : Option PUnit × Agent}
    (h : HandlesTo env (handlerStep env found p) ph r) : HandlesTo env p ph r :=
  ReflTransGen.head ⟨found, rfl⟩ h

/-- A step that does `x` and nothing else. -/
theorem one (found : Option ClientSessionKey) {x : AgentM PUnit}
    (h : AgentM.cleanupStep env found ph a = (x >>= fun _ => pure ph') a) :
    HandlesTo env (ph, a) ph' (x a) := by
  refine .step found ?_
  unfold handlerStep
  rw [h, bind_apply]
  rcases x a with ⟨_ | _, b⟩ <;> exact ReflTransGen.refl

/-- A loop of the handler over a list. -/
theorem forEach {ι : Type} {P : List ι → CleanupPhase} {f : ι → AgentM PUnit}
    (h : ∀ i l, AgentM.cleanupStep env none (P (i :: l)) = f i >>= fun _ => pure (P l))
    (l : List ι) (a : Agent) : HandlesTo env (P l, a) (P []) (forEach l f a) := by
  induction l generalizing a with
  | nil => exact .done
  | cons i l ih => exact .bind (.one none (by rw [h])) fun b _ => ih b

end HandlesTo

namespace AgentM

variable {env : Env} {a : Agent}

/-- A session after a step that keeps its outline. -/
theorem exists_sameFlags {b : Agent} (h : SameOutlines a b) {key : ClientSessionKey}
    {s : ClientSession} (hs : a.sessions.lookup key = some s) :
    ∃ s', b.sessions.lookup key = some s' ∧ s'.resources = s.resources ∧
      s'.timeout = s.timeout ∧ s'.timedout = s.timedout := by
  have hkey := h key
  rw [hs] at hkey
  obtain ⟨s', hs', heq⟩ := Option.map_eq_some_iff.1 hkey
  exact ⟨s', hs', congrArg (·.resources) heq, congrArg (·.timeout) heq, congrArg (·.timedout) heq⟩

theorem cleanupStep_seeking {key : ClientSessionKey} {s : ClientSession}
    (hnext : env.ok (.nextSession .cleanupSessions key) = true)
    (hs : a.sessions.lookup key = some s) (hdeleted : s.deleted = true) :
    cleanupStep env (some key) .seeking a = (some (.endingReads key s.resources), a) := by
  rw [cleanupStep]
  simp [hnext, hs, hdeleted, bind_apply, ensure]

theorem cleanupStep_drains {key : ClientSessionKey} {s : ClientSession}
    (hs : (a.drainSamples key).sessions.lookup key = some s) :
    cleanupStep env none (.detaching key []) a =
      (if s.timeout != 0 && !s.timedout then
        if env.ok (.postEvent .finalizeSession 0) then some (.waiting key) else none
      else some (.releasing key), a.drainSamples key) := by
  rw [cleanupStep, modify_bind_apply, read_bind_apply, hs, bind_apply, require_apply]
  dsimp only
  cases s.timeout != 0 && !s.timedout with
  | false => rfl
  | true => cases env.ok (.postEvent .finalizeSession 0) <;> rfl

/-- The handler finalizes a session that it has found. -/
theorem finalizeSessionEA_handles {key : ClientSessionKey} {s : ClientSession}
    (hs : a.sessions.lookup key = some s) (hdeleted : s.deleted = true) :
    HandlesTo env (.endingReads key s.resources, a) (.releasing key)
      (finalizeSessionEA env key a) := by
  have hreads : Within SameOutlines (forEach s.resources fun n => endReadEA env key n) :=
    .forEach fun n _ b => (endReadEA_frame env key n b).session
  have hdetach : Within SameOutlines (forEach s.resources fun n => detachOnCloseEA env key n) :=
    .forEach fun n _ => detachOnCloseEA_sameOutlines key n
  unfold finalizeSessionEA
  rw [read_bind_apply, hs]
  change HandlesTo _ _ _ ((ensure s.deleted >>= _) a)
  rw [hdeleted, ensure_true_bind_apply]
  refine .bind (.forEach (P := .endingReads key) (fun _ _ => by rw [cleanupStep]) _ a) ?_
  intro b hb
  have hab : SameOutlines a b := by
    have h := hreads a
    rwa [hb] at h
  obtain ⟨s₁, hs₁, hresources, -⟩ := exists_sameFlags hab hs
  refine .step none ?_
  rw [handlerStep, cleanupStep, read_bind_apply, hs₁]
  change HandlesTo env (.detaching key s₁.resources, b) _ _
  rw [hresources]
  refine .bind (.forEach (P := .detaching key) (fun _ _ => by rw [cleanupStep]) _ b) ?_
  intro c hc
  -- the timeout and the flags of the session are still those that were read at the beginning
  have hbc : SameOutlines b c := by
    have h := hdetach b
    rwa [hc] at h
  have hac : SameOutlines a (c.drainSamples key) :=
    IsTrans.trans a c _ (IsTrans.trans a b c hab hbc) (ReadFrame.drainSamples c key).session
  obtain ⟨s', hs', -, htimeout, htimedout⟩ := exists_sameFlags hac hs
  rw [modify_bind_apply]
  refine .step none ?_
  rw [handlerStep, cleanupStep_drains hs', htimeout, htimedout]
  cases s.timeout != 0 && !s.timedout with
  | false => exact .done
  | true =>
      cases env.ok (.postEvent .finalizeSession 0) with
      | false => exact ReflTransGen.refl
      | true =>
          change HandlesTo env (.waiting key, _) _ _
          rw [Bool.true_and, onlyIf_true]
          exact .one none (by rw [cleanupStep])

/-- A round of the handler. -/
theorem cleanupSessionEA_handles (env : Env) (key : ClientSessionKey) (a : Agent) :
    HandlesTo env (.seeking, a) .seeking (cleanupSessionEA env key a) := by
  unfold cleanupSessionEA
  cases hnext : env.ok (.nextSession .cleanupSessions key) with
  | false =>
      refine .step (some key) ?_
      rw [handlerStep, cleanupStep, hnext]
      exact ReflTransGen.refl
  | true =>
      rw [ensure_true_bind_apply, read_bind_apply]
      cases hs : a.sessions.lookup key with
      | none => exact .done
      | some s =>
          cases hdeleted : s.deleted with
          | false => simpa [hdeleted] using HandlesTo.done
          | true =>
              simp only [hdeleted, onlyIf_true]
              refine .step (some key) ?_
              rw [handlerStep, cleanupStep_seeking hnext hs hdeleted]
              refine .bind (finalizeSessionEA_handles hs hdeleted) fun b hb => ?_
              have hab : SameOutlines a b := by
                have h := finalizeSessionEA_sameOutlines env key a
                rwa [hb] at h
              obtain ⟨s', hs', -, -, htimedout⟩ := exists_sameFlags hab hs
              refine .one none ?_
              rw [cleanupStep, read_bind_apply, hs', ← htimedout]
              rfl

/-- The handler from start to end, when it is not interrupted. -/
theorem cleanupSessions_handles (env : Env) (a : Agent) :
    Handles env (.idle, a) (.idle, a.step (.cleanupSessions, env)) := by
  have hrun : HandlesTo env (.idle, a) .seeking (Operation.cleanupSessions.run env a) := by
    have hstart : HandlesTo env (.idle, a) .seeking ((do
        ensure a.condCleanupSessions
        ensure (env.ok (.lockSessions .cleanupSessions))
        ensure (env.ok (.setTrigger .cleanupSessions))
        modify fun a => { a with condCleanupSessions := false } : AgentM PUnit) a) := by
      refine .one none ?_
      rw [cleanupStep]
      simp only [bind_bind, read_bind_apply]
    have hrounds : ∀ (keys : List ClientSessionKey) (b : Agent),
        HandlesTo env (.seeking, b) .seeking
          (forEach keys (fun key => cleanupSessionEA env key) b) := by
      intro keys
      induction keys with
      | nil => exact fun b => .done
      | cons key keys ih =>
          exact fun b => .bind (cleanupSessionEA_handles env key b) fun c _ => ih c
    have hall := hstart.bind (y := do
      let a ← read
      forEach a.sessionKeys fun key => cleanupSessionEA env key) fun b _ => hrounds b.sessionKeys b
    simpa only [Operation.run, onCleanupSessions, bind_bind, read_bind_apply] using hall
  have hend : ∀ b, Handles env (.seeking, b) (.idle, b) := fun b =>
    ReflTransGen.single ⟨none, by rw [handlerStep, cleanupStep]; rfl⟩
  unfold HandlesTo at hrun
  split at hrun
  · exact ReflTransGen.trans hrun (hend _)
  · exact hrun

end AgentM

end NanoAgent
