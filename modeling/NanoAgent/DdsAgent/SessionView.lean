import NanoAgent.DdsAgent.SampleOwnersRun

/-!
# Sessions as an interface sees them

An interface of the DDS agent knows of a session its owner, its timeout, its user data and
whether it is being reset, closed or has timed out. The attached resources and the
received-data records of a session are a matter of the agent. Only the functions that open
sessions, close them or let them time out, and the clean-up of sessions, change what an
interface sees (`Agent.step_sameView`).
-/

namespace NanoAgent

open Prog

/-- A session without its attached resources and its received-data records. -/
def ClientSession.bare (s : ClientSession) : ClientSession :=
  { s with resources := [], rcvdDataPool := [] }

/-- From `a` to `b` an interface sees the same sessions. -/
def SameView (a b : Agent) : Prop :=
  ∀ key, (b.sessions.lookup key).map ClientSession.bare =
    (a.sessions.lookup key).map ClientSession.bare

instance : IsPreorder Agent SameView where
  refl _ _ := rfl
  trans _ _ _ h h' key := (h' key).trans (h key)

variable {a b : Agent}

namespace SameView

theorem of_sessions (h : b.sessions = a.sessions) : SameView a b := fun key => by rw [h]

theorem of_outlines (h : SameOutlines a b) : SameView a b := by
  intro key
  have hbare : ClientSession.bare = ClientSession.bare ∘ ClientSession.outline := rfl
  rw [hbare, ← Option.map_map, h key, Option.map_map]

theorem of_frame (h : ReadFrame a b) : SameView a b := of_outlines h.session

theorem updateSession (a : Agent) (key : ClientSessionKey) {f : ClientSession → ClientSession}
    (hf : ∀ s, (f s).bare = s.bare) : SameView a (a.updateSession key f) := by
  intro key'
  rw [Agent.updateSession, AList.lookup_modify]
  split
  · rw [Option.map_map]
    exact congrArg (fun g => (a.sessions.lookup key').map g) (funext hf)
  · rfl

end SameView

namespace AgentM

variable (env : Env)

theorem within_sameView_of_frame {α : Type} {x : AgentM α} (h : Within ReadFrame x) :
    Within SameView x := fun a => .of_frame (h a)

theorem attachResourceToSessionEA_sameView (key : ClientSessionKey) (id : ℕ) (rid : ResourceId) :
    Within SameView (attachResourceToSessionEA env key id rid) := by
  refine .read fun a => .bind (.require _) fun r => .bind (.onlyIf fun _ => .ensure _) fun _ => ?_
  refine .bind (.ensure _) fun _ => .ite (fun _ => .bind (.modify fun b => ?_) fun _ => ?_) ?_
  · exact .updateSession b key fun _ => rfl
  · exact .pure _
  · exact fun _ => .bind (.modify fun b => .of_sessions rfl) fun _ => .fail

theorem attachOneEA_sameView (key : ClientSessionKey) (rid : ResourceId) :
    Within SameView (attachOneEA env key rid) := by
  have hnew : ∀ id, Within SameView (attachNewEA env key rid id) := by
    intro id
    refine .bind (attachResourceToSessionEA_sameView env key id rid) fun n => ?_
    refine .bind (within_sameView_of_frame (enableResourceEA_frame env rid)) fun _ => ?_
    refine .ite (fun _ => .modify fun b => .of_sessions rfl) fun _ => ?_
    refine .bind (.ignore fun b => .of_outlines ?_) fun _ => .fail
    exact detachResourceEA_sameOutlines key n false false b
  refine .read fun a => .bind (.ensure _) fun _ => ?_
  cases a.resources.lookup rid with
  | none => exact .pure _
  | some r =>
      refine .bind (.onlyIf fun _ => .bind (.require _) fun id => ?_) fun _ => .ensure _
      exact .bind (.require _) fun s => .onlyIf fun _ => hnew id

theorem attachAllResourcesToSessionEA_sameView (key : ClientSessionKey) :
    Within SameView (attachAllResourcesToSessionEA env key) :=
  .bind (.ensure _) fun _ => .read fun _ => .forEach fun rid _ => attachOneEA_sameView env key rid

theorem createResource_sameView (key : ClientSessionKey) (q : CreateRequest) :
    Within SameView (createResource env key q) := by
  have hobtain : ∀ o, Within SameView (obtainAttachedEA env key q o) := by
    intro o
    cases o with
    | some n =>
        refine .bind (.read fun a => .bind (lookupResource_frame _ _ _) fun _ => ?_) ?_
        swap
        · exact fun _ => .pure _
        refine .bind (.require _) fun r => .bind (.ensure _) fun _ => .bind (.require _) fun _ => ?_
        refine .bind (.ensure _) fun _ => .bind (.ensure _) fun _ => .bind (.onlyIf fun _ => ?_) ?_
        · exact within_sameView_of_frame (cancelReadEA_frame env n _)
        · exact fun _ => .pure _
    | none =>
        refine .bind (fun b => .of_sessions
          (insertResourceRecordEA_insertFrame env q b).sessions) ?_
        refine fun _ => .bind (.require _) fun rid => ?_
        exact .bind (attachResourceToSessionEA_sameView env key q.id rid) fun _ => .pure _
  have hcreate : Within SameView (createResourceEA env key q) := by
    refine .read fun a => .bind (.require _) fun s => .bind (checkCreate_frame s q) fun o => ?_
    refine .bind (.ensure _) fun _ => .bind (hobtain o) fun v => .bind ?_ fun _ => .pure _
    refine .bind (within_sameView_of_frame (enableResourceEA_frame env _)) fun _ => ?_
    refine .bind (.ensure _) fun _ => .bind (.ensure _) fun _ => .onlyIf fun _ =>
      .modify fun b => ?_
    exact .of_sessions rfl
  refine .read fun a => .bind (.require _) fun s => .bind (.ensure _) fun _ => .bind hcreate ?_
  refine fun n => .read fun b => .ite (fun _ => .modify fun c => .of_sessions rfl) fun _ => ?_
  refine .bind (.ignore fun b => .of_outlines ?_) fun _ => .fail
  exact detachResourceEA_sameOutlines key n false false b

theorem deleteResource_sameView (key : ClientSessionKey) (id : ℕ) :
    Within SameView (deleteResource env key id) := by
  refine .bind (findAttached_frame key id) fun found => ?_
  cases found with
  | none => exact .pure _
  | some n =>
      refine .bind (.read fun a => .onlyIf fun _ => .bind ?_ fun _ => .modify fun b => ?_) ?_
      · exact within_sameView_of_frame (cancelReadI_frame env n)
      · exact .of_sessions rfl
      · refine fun _ => .bind (fun b => .of_outlines ?_) fun _ => .bind (.modify fun b => ?_) ?_
        · exact detachResourceEA_sameOutlines key n true true b
        · exact .of_sessions rfl
        · exact fun _ => .ensure _

theorem onCleanupResources_sameView : Within SameView (onCleanupResources env) := by
  refine .bind (.ensure _) fun _ => .bind (.modify fun b => .of_sessions rfl) fun _ => ?_
  refine .bind (.ensure _) fun _ => .read fun a => .forEach fun key _ => .bind (.ensure _) ?_
  refine fun _ => .read fun b => ?_
  cases b.sessions.lookup key with
  | none => exact .pure _
  | some s =>
      refine .bind (.forEach fun n _ => fun c => .of_outlines ?_) fun _ => ?_
      · exact cleanupResourceEA_sameOutlines key n c
      · exact attachAllResourcesToSessionEA_sameView env key

end AgentM

/-- The operations that are not about a session as a whole. -/
def Operation.isInner : Operation → Bool
  | openSession _ _ _ _ => false
  | closeSession _ _ => false
  | finishCloseSession _ => false
  | sessionTimeout _ => false
  | cleanupSessions => false
  | _ => true

theorem Agent.step_sameView (a : Agent) {o : Operation} (env : Env) (h : o.isInner = true) :
    SameView a (a.step (o, env)) := by
  cases o with
  | openSession src key timeout data => cases h
  | closeSession src key => cases h
  | finishCloseSession key => cases h
  | sessionTimeout key => cases h
  | cleanupSessions => cases h
  | createResource key q => exact AgentM.createResource_sameView env key q a
  | deleteResource key id => exact AgentM.deleteResource_sameView env key id a
  | readData key id spec => exact .of_frame (AgentM.readData_frame env key id spec a)
  | cancelRead key id => exact .of_frame (AgentM.cancelRead_frame env key id a)
  | returnLoan src key d => exact .of_frame (AgentM.returnLoan_frame env src key d a)
  | writeData key id => exact .of_frame (AgentM.writeData_frame env key id a)
  | dataEvent rd => exact .of_frame (AgentM.onDataOnReader_frame env rd a)
  | changeCache reader cache => exact .of_sessions rfl
  | cleanupReads =>
      exact keeps_ensure (refl a) fun _ => .of_frame (AgentM.onCleanupReads_frame env a)
  | cleanupResources =>
      exact keeps_ensure (refl a) fun _ => AgentM.onCleanupResources_sameView env a

end NanoAgent
