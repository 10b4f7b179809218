import NanoAgent.DdsAgent.ReadFrame

/-!
# The exits of detaching

Detaching an attached resource goes through several steps that may fail one by one:
its read is ended, it is counted out of its record, the resource may be deleted and
the buffer is returned. `CountOutExit` and `DetachExit` say what has been done at
each exit, in terms of the primitive changes `countOut` and `unlink`.
-/

namespace NanoAgent

open Prog AgentM

/-- Only reads have ended. -/
def ReadsEnded (a b : Agent) : Prop := ReadFrame a b ∧ EndsReads a b

instance : IsPreorder Agent ReadsEnded where
  refl a := ⟨.rfl' a, refl a⟩
  trans _ _ _ h h' := ⟨h.1.trans' h'.1, IsTrans.trans _ _ _ h.2 h'.2⟩

theorem ReadsEnded.notify (a : Agent) (c : Callback) : ReadsEnded a (a.notify c) :=
  ⟨.notify (.rfl' a) c, .of_same rfl rfl⟩

/-- How counting out the attached resource `n` ends: with a failure before it is
counted out, or after that, with the decision whether the resource is deleted. -/
inductive CountOutExit (a : Agent) (n : ℕ) (del : Bool) : Option Bool → Agent → Prop
  | failed {b : Agent} : ReadsEnded a b → CountOutExit a n del none b
  | counted {b c : Agent} {r : Resource} {res : Option Bool} :
      a.resources.lookup (a.attached n).resource = some r → r.attachedCount ≠ 0 →
      ReadsEnded a c → ReadsEnded (c.countOut (a.attached n).resource del) b →
      (∀ flag, res = some flag →
        flag = ((r.pendingDelete || del) && decide (r.attachedCount - 1 = 0))) →
      CountOutExit a n del res b

namespace AgentM

theorem cancelReadEA_readsEnded (env : Env) (n : ℕ) (rid : ResourceId) :
    Within ReadsEnded (cancelReadEA env n rid) :=
  fun a => ⟨cancelReadEA_frame env n rid a, cancelReadEA_endsReads env n rid a⟩

theorem countOutEA_exits (env : Env) (key : ClientSessionKey) (n : ℕ) (del : Bool) (a : Agent) :
    CountOutExit a n del (countOutEA env key n del a).1 (countOutEA env key n del a).2 := by
  unfold countOutEA
  rw [read_bind_apply]
  refine exits_ensure (.failed (refl a)) fun _ => ?_
  refine exits_lookupResource (.failed (refl a)) fun _ => ?_
  refine exits_require (.failed (refl a)) fun r hr =>
    exits_ensure (.failed (refl a)) fun hcount => ?_
  have hcancel : ReadsEnded a (onlyIf (decide ((a.attached n).kind = .dataReader) &&
      (a.attached n).readReq.isSome) (cancelReadEA env n (a.attached n).resource) a).2 :=
    Within.onlyIf (fun _ => cancelReadEA_readsEnded env n _) a
  refine exits_bind (fun _ => .failed hcancel) fun _ _ => ?_
  rw [modify_bind_apply]
  have hcount : r.attachedCount ≠ 0 := by simpa using hcount
  refine exits_ensure (.counted hr hcount hcancel (refl _) (by simp)) fun _ => ?_
  refine exits_bind (fun _ => .counted hr hcount hcancel ?_ (by simp)) fun _ _ =>
    .counted hr hcount hcancel ?_ ?_
  · exact Within.onlyIf (fun _ => .modify fun b => .notify b _) _
  · exact Within.onlyIf (fun _ => .modify fun b => .notify b _) _
  · intro flag hflag
    exact (Option.some.inj hflag).symm

/-- A record that was natively deleted is not deleted again. -/
theorem deleteNativeResourceEA_deleted {env : Env} {rid : ResourceId} {r : Resource} {a : Agent}
    (hr : a.resources.lookup rid = some r) (hdel : r.nativeDeleted = true) :
    (deleteNativeResourceEA env rid a).2 = a := by
  refine keeps_lookupResource (I := fun b => b = a) rfl fun _ => ?_
  rw [hr]
  dsimp only
  rw [if_pos hdel]
  rfl

end AgentM

end NanoAgent
