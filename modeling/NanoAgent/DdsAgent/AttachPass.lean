import NanoAgent.DdsAgent.AttachmentRun

/-!
# Attaching all resources

A new session, and every session after a clean-up of the resources, is given an
attached resource for each record that was not natively deleted. `AttachClosed` lists
the steps of such a pass; an invariant that is closed under them is kept by the whole
pass.
-/

namespace NanoAgent

open Prog

/-- An invariant that is kept by the steps of attaching resources automatically. -/
structure AttachClosed (env : Env) (I : Agent → Prop) : Prop where
  leak : ∀ {a} {x : AttachedResource}, x.readReq = none → I a →
    I { a with poolResources := a.poolResources.take x }
  link : ∀ {a} key id rid r, I a → I (a.link key id rid r)
  enable : ∀ {a} key id rid r, I a → a.resources.lookup rid = some r → r.id ≠ .none →
    r.nativeDeleted = false → I (AgentM.enableResourceEA env rid (a.link key id rid r)).2
  accept : ∀ {a} n u c, I a → I ((a.updateAttached n fun x => { x with userData := u }).notify c)
  refuse : ∀ {a} key n id, env.ok (.onResourceCreated key id) = false → I a →
    (a.attached n).readReq = none → I (AgentM.detachResourceEA env key n false false a).2

/-- The same with the announcements of the resources as the only notifications. -/
structure AttachSteps (env : Env) (I : Agent → Prop) : Prop where
  leak : ∀ {a} {x : AttachedResource}, x.readReq = none → I a →
    I { a with poolResources := a.poolResources.take x }
  link : ∀ {a} key id rid r, I a → I (a.link key id rid r)
  enable : ∀ {a} key id rid r, I a → a.resources.lookup rid = some r → r.id ≠ .none →
    r.nativeDeleted = false → I (AgentM.enableResourceEA env rid (a.link key id rid r)).2
  accept : ∀ {a} n u key id, I a →
    I ((a.updateAttached n fun x => { x with userData := u }).notify (.resourceCreated key id))
  refuse : ∀ {a} key n id, env.ok (.onResourceCreated key id) = false → I a →
    (a.attached n).readReq = none → I (AgentM.detachResourceEA env key n false false a).2

theorem AttachClosed.steps {env : Env} {I : Agent → Prop} (h : AttachClosed env I) :
    AttachSteps env I where
  leak := h.leak
  link := h.link
  enable := h.enable
  accept n u _ _ := h.accept n u _
  refuse := h.refuse

namespace AgentM

variable {env : Env} {I : Agent → Prop}

theorem enableResourceEA_nativeFrame (env : Env) (rid : ResourceId) :
    Within NativeFrame (enableResourceEA env rid) :=
  .read fun _ => .bind (.require _) fun _ => .onlyIf fun _ =>
    .bind (access_nativeFrame _ _) fun _ => .bind (.require _) fun _ => .ensure _

theorem attachResourceToSessionEA_steps (hI : AttachSteps env I) (key : ClientSessionKey)
    (id : ℕ) (rid : ResourceId) : Preserves I (attachResourceToSessionEA env key id rid) := by
  refine .read fun a => .bind (.require _) fun r => .bind (.onlyIf fun _ => .ensure _) fun _ => ?_
  refine .bind (.ensure _) fun _ => .ite (fun _ => .bind ?_ fun _ => .pure _) fun _ => ?_
  · exact fun b hb => hI.link key id rid r hb
  · exact .bind (fun b hb => hI.leak rfl hb) fun _ => .fail

theorem attachResourceToSessionEA_closed (hI : AttachClosed env I) (key : ClientSessionKey)
    (id : ℕ) (rid : ResourceId) : Preserves I (attachResourceToSessionEA env key id rid) :=
  attachResourceToSessionEA_steps hI.steps key id rid

/-- Attaching a record that was not natively deleted. -/
theorem attachNewEA_steps (hI : AttachSteps env I) {key : ClientSessionKey}
    {rid : ResourceId} {id : ℕ} {a : Agent} (ha : I a)
    (hdel : ∀ r, a.resources.lookup rid = some r → r.nativeDeleted = false) :
    I (attachNewEA env key rid id a).2 := by
  have hattach := attachResourceToSessionEA_steps hI key id rid a ha
  refine keeps_bind (fun _ => hattach) fun n hn => ?_
  obtain ⟨r, hr, hid, rfl, heq⟩ := exists_of_attachResourceToSessionEA (eq_of_fst_eq_some hn)
  rw [heq] at hattach ⊢
  have henable := hI.enable key id rid r ha hr hid (hdel r hr)
  have hquiet : ((enableResourceEA env rid (a.link key id rid r)).2.attached
      a.poolResources.next).readReq = none := by
    rw [Agent.attached, (enableResourceEA_nativeFrame env rid _).poolResources]
    change ((a.link key id rid r).attached a.poolResources.next).readReq = none
    rw [Agent.attached_link_self]
    rfl
  refine keeps_bind (fun _ => henable) fun _ _ => ?_
  generalize (enableResourceEA env rid (a.link key id rid r)).2 = b at henable hquiet
  cases hok : env.ok (.onResourceCreated key id) with
  | true =>
      rw [if_pos rfl]
      exact hI.accept _ _ _ _ henable
  | false =>
      rw [if_neg Bool.false_ne_true]
      exact hI.refuse key _ id hok henable hquiet

theorem attachOneEA_steps (hI : AttachSteps env I) (key : ClientSessionKey)
    (rid : ResourceId) : Preserves I (attachOneEA env key rid) := by
  intro a ha
  unfold attachOneEA
  rw [read_bind_apply]
  refine keeps_ensure ha fun _ => ?_
  cases hr : a.resources.lookup rid with
  | none => exact ha
  | some r =>
      have hround : I (onlyIf (!r.nativeDeleted && a.autoAttachResources) (do
          let id ← require (a.generateAttachedResourceId r.id r.kind)
          let s ← require (a.sessions.lookup key)
          onlyIf (a.findAttachedResource s id).isNone (attachNewEA env key rid id)) a).2 := by
        refine keeps_onlyIf ha fun hc => keeps_require ha fun id _ => keeps_require ha fun s _ => ?_
        refine keeps_onlyIf ha fun _ => attachNewEA_steps hI ha fun r' hr' => ?_
        rw [hr] at hr'
        rw [← Option.some.inj hr']
        simpa using (Bool.and_eq_true_iff.1 hc).1
      exact keeps_bind (fun _ => hround) fun _ _ => hround

theorem attachAllResourcesToSessionEA_steps (hI : AttachSteps env I)
    (key : ClientSessionKey) : Preserves I (attachAllResourcesToSessionEA env key) :=
  .bind (.ensure _) fun _ => .read fun _ => .forEach fun rid _ => attachOneEA_steps hI key rid

theorem attachAllResourcesToSessionEA_closed (hI : AttachClosed env I)
    (key : ClientSessionKey) : Preserves I (attachAllResourcesToSessionEA env key) :=
  attachAllResourcesToSessionEA_steps hI.steps key

end AgentM

end NanoAgent
