import NanoAgent.DdsAgent.DatabaseShutdown
import NanoAgent.DdsAgent.Operation
import NanoAgent.DdsAgent.RecordChange

/-!
# The result of deleting the resources

The last part of the shutdown should report success exactly when nothing is left in the
tables. `RecordOrderly` is what this asks of the state in which a round of its loop begins.
-/

namespace NanoAgent

open Prog

namespace AgentM

variable (env : ShutdownEnv)

section Resources

variable (keys : List ResourceId)

/-- What is asked of a round of the loop over the resources. The record on top of the table is
not one that is held when the loop is left, or the return code of DDS is not set; and it is
not set when the native deletion fails. -/
def RecordOrderly (t : Unit × Agent) : Prop :=
  if env.ok (.nextResource ((t.2.resources.first keys).map Prod.fst)) then
    match t.2.resources.first keys with
    | none => True
    | some (rid, r) =>
        if holds env r then
          env.ok (.releaseResource rid) = false ∧ env.ok .unlockResources = true
        else (finalizeResourceRound env keys () t.2).1 = none → env.ok .unlockResources = true
  else env.ok .unlockResources = true ↔ ¬ t.2.Emptied

/-- What is asked of the deletion of the resources. -/
def ResourcesOrderly (a : Agent) : Prop :=
  if env.ok .lockResources then
    ∀ t, Begins (finalizeResourceRound env a.resourceKeys) ((), a) t →
      RecordOrderly env a.resourceKeys t
  else ¬ a.Emptied

variable {env} {keys}

/-- From `a` to `b` records were only removed or deleted natively. -/
def Deletes (a b : Agent) : Prop :=
  b.sessions = a.sessions ∧ ∀ rid, a.resources.lookup rid = none → b.resources.lookup rid = none

theorem deleteNativeResourceEA_deletes (e : Env) (rid : ResourceId) :
    Within Deletes (deleteNativeResourceEA e rid) := fun a =>
  ⟨(deleteNativeResourceEA_frame e rid a).sessions,
    (deleteNativeResourceEA_nativelyDeletes e rid a).new⟩

/-- The record is there after a native deletion, whether it succeeds or not. -/
theorem lookup_deleteNativeResourceEA (e : Env) (rid rid' : ResourceId) {a : Agent} {r : Resource}
    (hr : a.resources.lookup rid' = some r) :
    ((deleteNativeResourceEA e rid a).2.resources.lookup rid').isSome = true := by
  obtain ⟨r', hr', -⟩ := (deleteNativeResourceEA_nativelyDeletes e rid a).record rid' r hr
  rw [hr']
  rfl

/-- The part of a round that deletes a record. -/
theorem finalizeResourceRound_of_record {a : Agent} {rid : ResourceId} {r : Resource}
    (hnext : env.ok (.nextResource ((a.resources.first keys).map Prod.fst)) = true)
    (hfirst : a.resources.first keys = some (rid, r)) (hholds : holds env r = false) :
    finalizeResourceRound env keys () a =
      (do
        ensure (env.ok (.releaseResource rid))
        deleteNativeResourceEA env.calls r.id
        let b ← read
        ensure ((b.resources.lookup r.id).isSome && env.ok (.deleteResource r.id))
        modify fun a => { a with resources := a.resources.erase r.id }
        pure (.inr ()) : AgentM (Option ResourceId ⊕ Unit)) a := by
  unfold finalizeResourceRound
  rw [read_bind_apply, hnext, ensure_true_bind_apply, hfirst]
  simp only [hholds, Bool.false_eq_true, if_false]

/-- A round that goes on has removed a record. -/
theorem removed_of_leads {t t' : Unit × Agent} (h : Leads (finalizeResourceRound env keys) t t') :
    Deletes t.2 t'.2 ∧ t'.2.resources.keys.length < t.2.resources.keys.length := by
  unfold Leads finalizeResourceRound at h
  rw [read_bind_apply] at h
  obtain ⟨_, s, hnext, h⟩ := bind_eq_some.1 h
  obtain ⟨-, rfl⟩ := ensure_eq_some.1 hnext
  cases hfirst : t.2.resources.first keys with
  | none =>
      rw [hfirst, pure_eq_some] at h
      cases h.1
  | some found =>
      obtain ⟨rid, r⟩ := found
      simp only [hfirst] at h
      cases hholds : holds env r with
      | true =>
          rw [hholds, if_pos rfl, pure_eq_some] at h
          cases h.1
      | false =>
          rw [hholds, if_neg Bool.false_ne_true] at h
          obtain ⟨_, s, hrelease, h⟩ := bind_eq_some.1 h
          obtain ⟨-, rfl⟩ := ensure_eq_some.1 hrelease
          obtain ⟨_, b, hdelete, h⟩ := bind_eq_some.1 h
          rw [read_bind_apply] at h
          obtain ⟨_, s, hthere, h⟩ := bind_eq_some.1 h
          obtain ⟨hthere, rfl⟩ := ensure_eq_some.1 hthere
          rw [modify_bind_apply, pure_eq_some] at h
          obtain ⟨-, h⟩ := h
          have hdel := deleteNativeResourceEA_deletes env.calls r.id t.2
          rw [hdelete] at hdel
          rw [← h]
          have hnone : ∀ rid', t.2.resources.lookup rid' = none →
              (b.resources.erase r.id).lookup rid' = none := by
            intro rid' hrid'
            by_cases heq : rid' = r.id
            · rw [heq, AList.lookup_erase]
            · rw [AList.lookup_erase_ne heq]
              exact hdel.2 rid' hrid'
          use ⟨hdel.1, hnone⟩
          apply AList.length_keys_lt hnone (k := r.id)
          · intro hgone
            rw [hdel.2 r.id hgone] at hthere
            cases hthere
          · exact AList.lookup_erase _ _

/-- A round that deletes a record either goes on or leaves this record behind. -/
theorem leads_or_left {a : Agent} {rid : ResourceId} {r : Resource}
    (hnext : env.ok (.nextResource ((a.resources.first keys).map Prod.fst)) = true)
    (hfirst : a.resources.first keys = some (rid, r)) (hholds : holds env r = false) :
    (∃ b, finalizeResourceRound env keys () a = (some (.inr ()), b)) ∨
      ∃ b, finalizeResourceRound env keys () a = (none, b) ∧
        (b.resources.lookup rid).isSome = true := by
  have hr := (AList.first_eq_some hfirst).2
  rw [finalizeResourceRound_of_record hnext hfirst hholds]
  cases env.ok (.releaseResource rid) with
  | false =>
      right
      use a, rfl
      rw [hr]
      rfl
  | true =>
      have hleft := lookup_deleteNativeResourceEA env.calls r.id rid hr
      rw [ensure_true_bind_apply, bind_apply]
      rcases hdelete : deleteNativeResourceEA env.calls r.id a with ⟨_ | u, b⟩
      · rw [hdelete] at hleft
        exact .inr ⟨b, rfl, hleft⟩
      · rw [hdelete] at hleft
        dsimp only
        rw [read_bind_apply]
        cases (b.resources.lookup r.id).isSome && env.ok (.deleteResource r.id) with
        | false => exact .inr ⟨b, rfl, hleft⟩
        | true => exact .inl ⟨_, rfl⟩

theorem not_emptied_of_resource {a : Agent} {rid : ResourceId}
    (h : (a.resources.lookup rid).isSome = true) : ¬ a.Emptied := by
  intro hempty
  rw [AList.keys_eq_nil_iff.1 hempty.2 rid] at h
  cases h

/-- A round that goes on is an orderly one. -/
theorem recordOrderly_of_leads {t t' : Unit × Agent}
    (h : Leads (finalizeResourceRound env keys) t t') : RecordOrderly env keys t := by
  unfold RecordOrderly
  have hround : finalizeResourceRound env keys () t.2 = (some (.inr t'.1), t'.2) := h
  have hret := hround
  unfold finalizeResourceRound at hret
  rw [read_bind_apply] at hret
  obtain ⟨_, s, hnext, hret⟩ := bind_eq_some.1 hret
  obtain ⟨hok, rfl⟩ := ensure_eq_some.1 hnext
  rw [if_pos hok]
  cases hfirst : t.2.resources.first keys with
  | none => trivial
  | some found =>
      obtain ⟨rid, r⟩ := found
      simp only [hfirst] at hret
      dsimp only
      cases hholds : holds env r with
      | true =>
          rw [hholds, if_pos rfl, pure_eq_some] at hret
          cases hret.1
      | false =>
          rw [if_neg Bool.false_ne_true, hround]
          rintro ⟨⟩

/-- At the last round the return code is right when the round is an orderly one. -/
theorem retcode_iff_of_last {t : Unit × Agent} (hsessions : t.2.sessions.keys = [])
    (hkeys : ∀ rid, t.2.resources.lookup rid ≠ none → rid ∈ keys)
    (hlast : ∀ t', ¬ Leads (finalizeResourceRound env keys) t t') :
    (resourcesRetcode env (leave (finalizeResourceRound env keys () t.2)).1 = true ↔
      (leave (finalizeResourceRound env keys () t.2)).2.Emptied) ↔ RecordOrderly env keys t := by
  unfold RecordOrderly
  cases hnext : env.ok (.nextResource ((t.2.resources.first keys).map Prod.fst)) with
  | false =>
      have hround : finalizeResourceRound env keys () t.2 = (none, t.2) := by
        unfold finalizeResourceRound
        rw [read_bind_apply, hnext, ensure_false_bind_apply]
      rw [hround]
      simp only [leave, resourcesRetcode, Bool.false_eq_true, if_false]
      cases env.ok .unlockResources <;> simp
  | true =>
      rw [if_pos rfl]
      cases hfirst : t.2.resources.first keys with
      | none =>
          have hround : finalizeResourceRound env keys () t.2 = (some (.inl none), t.2) := by
            unfold finalizeResourceRound
            rw [read_bind_apply, hnext, ensure_true_bind_apply, hfirst]
            rfl
          have hempty : t.2.Emptied := by
            use hsessions
            apply AList.keys_eq_nil_iff.2
            intro rid
            by_contra hrid
            exact hrid (AList.first_eq_none.1 hfirst rid (hkeys rid hrid))
          rw [hround]
          simp only [leave, resourcesRetcode, hempty]
      | some found =>
          obtain ⟨rid, r⟩ := found
          dsimp only
          cases hholds : holds env r with
          | true =>
              have hround : finalizeResourceRound env keys () t.2 =
                  (some (.inl (some rid)), t.2) := by
                unfold finalizeResourceRound
                rw [read_bind_apply, hnext, ensure_true_bind_apply, hfirst]
                simp only [hholds, if_true]
                rfl
              have hleft : ¬ t.2.Emptied :=
                not_emptied_of_resource (Option.isSome_of_eq_some (AList.first_eq_some hfirst).2)
              rw [hround]
              simp only [leave, resourcesRetcode, hleft, if_true]
              cases env.ok (.releaseResource rid) <;> cases env.ok .unlockResources <;> simp
          | false =>
              rw [if_neg Bool.false_ne_true]
              rcases leads_or_left hnext hfirst hholds with ⟨b, hround⟩ | ⟨b, hround, hleft⟩
              · exact absurd hround (hlast ((), b))
              · rw [hround]
                simp only [leave, resourcesRetcode, not_emptied_of_resource hleft]
                cases env.ok .unlockResources <;> simp

/-- The loop over the resources gets to a last round, which decides what is reported. -/
theorem finalizeDatabaseResources_last {a : Agent} (hlock : env.ok .lockResources = true) :
    ∃ q, Begins (finalizeResourceRound env a.resourceKeys) ((), a) q ∧ Deletes a q.2 ∧
      (∀ t, ¬ Leads (finalizeResourceRound env a.resourceKeys) q t) ∧
      finalizeDatabaseResources env a =
        (if resourcesRetcode env (leave (finalizeResourceRound env a.resourceKeys () q.2)).1 then
          some () else none, (leave (finalizeResourceRound env a.resourceKeys () q.2)).2) := by
  have hkept : ∀ t t' : Unit × Agent, Deletes a t.2 →
      Leads (finalizeResourceRound env a.resourceKeys) t t' →
      Deletes a t'.2 ∧ t'.2.resources.keys.length < t.2.resources.keys.length := by
    intro t t' ht hleads
    obtain ⟨hdel, hlength⟩ := removed_of_leads hleads
    exact ⟨⟨hdel.1.trans ht.1, fun rid hrid => hdel.2 rid (ht.2 rid hrid)⟩, hlength⟩
  obtain ⟨q, hq, hdel, hlast, hrun⟩ := rounds_last
    (finalizeResourceRound env a.resourceKeys) (fun t => t.2.resources.keys.length) hkept
    (p := ((), a)) ⟨rfl, fun _ h => h⟩ (n := a.resourceKeys.length + 1)
    (by rw [Agent.resourceKeys, AList.length_keysBy]; exact Nat.lt_succ_self _)
  use q, hq, hdel, hlast
  unfold finalizeDatabaseResources
  rw [hlock, ensure_true_bind_apply, read_bind_apply, attempt_bind_apply, hrun]
  rfl

/-- The deletion of the resources reports success exactly when nothing is left, if and only if
its rounds are orderly. -/
theorem resources_reported_iff {a : Agent} (hsessions : a.sessions.keys = []) :
    ((finalizeDatabaseResources env a).1 = some () ↔ (finalizeDatabaseResources env a).2.Emptied) ↔
      ResourcesOrderly env a := by
  unfold ResourcesOrderly
  cases hlock : env.ok .lockResources with
  | false =>
      have hrun : finalizeDatabaseResources env a = (none, a) := by
        unfold finalizeDatabaseResources
        rw [hlock, ensure_false_bind_apply]
      rw [hrun]
      simp
  | true =>
      obtain ⟨q, hq, hdel, hlast, hrun⟩ := finalizeDatabaseResources_last (a := a) hlock
      have hkeys : ∀ rid, q.2.resources.lookup rid ≠ none → rid ∈ a.resourceKeys := by
        intro rid hrid
        by_contra hnot
        rw [Agent.resourceKeys, AList.mem_keysBy] at hnot
        exact hrid (hdel.2 rid (AList.lookup_eq_none.2 hnot))
      rw [if_pos rfl, forall_begins_iff (fun _ _ _ => recordOrderly_of_leads) hq hlast,
        ← retcode_iff_of_last (hdel.1 ▸ hsessions) hkeys hlast, hrun]
      simp

end Resources

/-- Two sessions use a participant, and one of them its subscriber. -/
def containedSubscriberRun : List (Operation × Env) :=
  [(.openSession 0 ⟨1, 1⟩ 0 none, .obliging ⟨true, [], []⟩),
    (.createResource ⟨1, 1⟩ ⟨1, .domainParticipant, .xml "", 0, false, false⟩,
      .obliging (.one ⟨1, .domainParticipant, .guid 1, 0, 0⟩)),
    (.openSession 0 ⟨1, 2⟩ 0 none, .obliging ⟨true, [], []⟩),
    (.createResource ⟨1, 1⟩ ⟨2, .subscriber, .xml "", 1, false, false⟩,
      .obliging (.one ⟨2, .subscriber, .guid 2, 1, 0⟩))]

/-- The agent that is shut down after this run, when every call succeeds. -/
def containedSubscriberShutdown : Option Bool × Agent :=
  finalizeDatabase ⟨.obliging ⟨true, [], []⟩, fun _ => true⟩
    ((Agent.started true .firstCached).after containedSubscriberRun)

-- The name was taken from the record of the subscriber, and the record is held and released.
example : containedSubscriberShutdown.1 = some true ∧
    ¬ containedSubscriberShutdown.2.Emptied := by decide +kernel

end AgentM

end NanoAgent
