import NanoAgent.DdsAgent.Operation

/-!
# What native deletion and closing leave alone

Deleting native resources works on the resource records, the entities and the
reader and writer states. `NativeFrame a b` says that from `a` to `b` the sessions,
the attached resources, the reads and the received-data records have not changed.
Closing a session works on the table of sessions only (`SessionFrame`).
-/

namespace NanoAgent

open Prog

/-- From `a` to `b` only resource records, entities, reader and writer states have
changed. -/
structure NativeFrame (a b : Agent) : Prop where
  sessions : b.sessions = a.sessions
  poolResources : b.poolResources = a.poolResources
  poolReads : b.poolReads = a.poolReads
  poolSamples : b.poolSamples = a.poolSamples
  filterMatches : b.filterMatches = a.filterMatches
  callbacks : b.callbacks = a.callbacks

namespace NativeFrame

theorem rfl' (a : Agent) : NativeFrame a a := ⟨rfl, rfl, rfl, rfl, rfl, rfl⟩

instance : IsPreorder Agent NativeFrame where
  refl := rfl'
  trans _ _ _ h h' :=
    ⟨h'.1.trans h.1, h'.2.trans h.2, h'.3.trans h.3, h'.4.trans h.4, h'.5.trans h.5,
      h'.6.trans h.6⟩

end NativeFrame

namespace AgentM

theorem access_nativeFrame (id : ResourceId) (valid : Bool) :
    Within NativeFrame (access id valid) := by
  refine .modify fun a => ?_
  cases valid
  · exact ⟨rfl, rfl, rfl, rfl, rfl, rfl⟩
  · exact .rfl' a

theorem onReader_nativeFrame {α : Type} (n : ℕ) (x : Prog Reader α) :
    Within NativeFrame (onReader n x) :=
  fun _ => ⟨rfl, rfl, rfl, rfl, rfl, rfl⟩

theorem deleteTopicEntity_frame (env : Env) (ptr : ℕ) :
    Within NativeFrame (deleteTopicEntity env ptr) :=
  .onlyIf fun _ => .modify fun _ => ⟨rfl, rfl, rfl, rfl, rfl, rfl⟩

theorem deleteNativeEntityEA_frame (env : Env) {contained : ResourceKind → ℕ → AgentM Unit}
    (hc : ∀ k ptr, Within NativeFrame (contained k ptr)) (kind : ResourceKind) (e : Entity) :
    Within NativeFrame (deleteNativeEntityEA env contained kind e) := by
  refine .bind (.forEach fun k _ => .read fun a => .bind (.ensure _) fun _ => ?_) fun _ => ?_
  · exact .forEach fun c _ => hc k c.ptr
  refine .ite (fun _ => deleteTopicEntity_frame env _) fun _ => .bind (.ensure _) fun _ => ?_
  refine .bind (.modify fun _ => ⟨rfl, rfl, rfl, rfl, rfl, rfl⟩) fun _ => ?_
  exact .onlyIf fun _ => deleteTopicEntity_frame env _

theorem releaseUserDataEA_frame (env : Env) (rid : ResourceId) (r : Resource) :
    Within NativeFrame (releaseUserDataEA env rid r) := by
  refine .ite (fun _ => ?_) fun _ => .ite (fun _ => ?_) fun _ => .pure _
  · refine .bind (access_nativeFrame _ _) fun _ => .bind (.require _) fun reader => ?_
    refine .read fun a => .bind (.forEach fun q _ => onReader_nativeFrame _ _) fun _ => ?_
    refine .bind (onReader_nativeFrame _ _) fun _ => .modify fun _ => ?_
    exact ⟨rfl, rfl, rfl, rfl, rfl, rfl⟩
  · refine .bind (access_nativeFrame _ _) fun _ => .bind (.require _) fun writer => ?_
    exact .modify fun _ => ⟨rfl, rfl, rfl, rfl, rfl, rfl⟩

theorem deleteNativeResourceWith_frame (env : Env)
    {contained : ResourceKind → ℕ → AgentM Unit}
    (hc : ∀ k ptr, Within NativeFrame (contained k ptr)) (rid : ResourceId) :
    Within NativeFrame (deleteNativeResourceWith env contained rid) := by
  have hrecord : ∀ f, Within NativeFrame (modify fun a : Agent => a.updateResource rid f) :=
    fun f => .modify fun _ => ⟨rfl, rfl, rfl, rfl, rfl, rfl⟩
  refine .bind (.bind (.ensure _) fun _ => .read fun _ => .pure _) fun found => ?_
  cases found with
  | none => exact .pure _
  | some r =>
      refine .ite (fun _ => .pure _) fun _ => .bind (hrecord _) fun _ => ?_
      refine .ite (fun _ => hrecord _) fun _ => .bind (.ensure _) fun _ => ?_
      refine .bind (.ensure _) fun _ => .read fun a => ?_
      refine .bind (releaseUserDataEA_frame env rid r) fun _ => .bind (hrecord _) fun _ => ?_
      refine .bind (.ensure _) fun _ => ?_
      cases a.lookupEntity r.kind r.id with
      | none => exact .pure _
      | some e => exact deleteNativeEntityEA_frame env hc _ _

theorem findContainedResourceAndDeleteEA_frame (env : Env) (depth : ℕ) (kind : ResourceKind)
    (ptr : ℕ) : Within NativeFrame (findContainedResourceAndDeleteEA env depth kind ptr) := by
  induction depth generalizing kind ptr with
  | zero => exact .pure _
  | succ depth ih =>
      refine .read fun a => .bind (.ensure _) fun _ => ?_
      cases a.findResourceByNative kind ptr with
      | some c =>
          refine .bind (.ensure _) fun _ => .bind (.ensure _) fun _ => ?_
          exact deleteNativeResourceWith_frame env ih _
      | none =>
          dsimp only
          cases a.entities.find? _ with
          | some x => exact deleteNativeEntityEA_frame env ih _ _
          | none => exact .pure _

theorem deleteNativeResourceEA_frame (env : Env) (rid : ResourceId) :
    Within NativeFrame (deleteNativeResourceEA env rid) :=
  deleteNativeResourceWith_frame env (findContainedResourceAndDeleteEA_frame env 2) rid

end AgentM

/-- From `a` to `b` only the table of sessions, its trigger and the notifications
have changed. -/
structure SessionFrame (a b : Agent) : Prop where
  resources : b.resources = a.resources
  poolResources : b.poolResources = a.poolResources
  poolReads : b.poolReads = a.poolReads
  poolSamples : b.poolSamples = a.poolSamples
  poolReaders : b.poolReaders = a.poolReaders
  faults : b.faults = a.faults

instance : IsPreorder Agent SessionFrame where
  refl _ := ⟨rfl, rfl, rfl, rfl, rfl, rfl⟩
  trans _ _ _ h h' :=
    ⟨h'.1.trans h.1, h'.2.trans h.2, h'.3.trans h.3, h'.4.trans h.4, h'.5.trans h.5,
      h'.6.trans h.6⟩

namespace AgentM

theorem disposeSessionEA_frame (env : Env) (key : ClientSessionKey) (s : ClientSession) :
    Within SessionFrame (disposeSessionEA env key s) := by
  refine .ite (fun _ => .pure _) fun _ => ?_
  refine .bind (.modify fun _ => ⟨rfl, rfl, rfl, rfl, rfl, rfl⟩) fun _ => ?_
  exact .bind (.ensure _) fun _ => .modify fun _ => ⟨rfl, rfl, rfl, rfl, rfl, rfl⟩

theorem closeSession_frame (env : Env) (src : ℕ) (key : ClientSessionKey) :
    Within SessionFrame (closeSession env src key) :=
  .bind (.ensure _) fun _ => .bind (.ensure _) fun _ => .read fun _ => .bind (.require _) fun _ =>
    .bind (.ensure _) fun _ => .bind (.ensure _) fun _ => disposeSessionEA_frame _ _ _

theorem finishCloseSession_frame (env : Env) (key : ClientSessionKey) :
    Within SessionFrame (finishCloseSession env key) := by
  refine .read fun _ => .bind (.require _) fun _ => .bind (.ensure _) fun _ => ?_
  refine .bind (.ensure _) fun _ => .bind
    (.modify fun _ => ⟨rfl, rfl, rfl, rfl, rfl, rfl⟩) fun _ => ?_
  refine .bind (.ensure _) fun _ => .bind (.ensure _) fun _ => ?_
  refine .bind (.modify fun _ => ⟨rfl, rfl, rfl, rfl, rfl, rfl⟩) fun _ =>
    .bind (.ensure _) fun _ => ?_
  exact .modify fun _ => ⟨rfl, rfl, rfl, rfl, rfl, rfl⟩

end AgentM

end NanoAgent
