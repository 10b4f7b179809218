import NanoAgent.DdsAgent.CleanupHandler
import NanoAgent.DdsAgent.Notification

/-!
# What an operation does to a session

An operation of the agent opens the session under a key, leaves it in the table or removes its
record (`SessionTurn`), and it tells an interface that the session is closed when it removes
it, or not at all. The clean-up of sessions is looked at step by step.
-/

namespace NanoAgent

open Prog

/-- The operation tells no interface that a session is closed. -/
def Silent (a b : Agent) : Prop := Notifies (fun c => ∀ key, c ≠ .sessionClosed key) a b

instance : IsPreorder Agent Silent := inferInstanceAs (IsPreorder Agent (Notifies _))

/-- From `a` to `b` the session under the key stays in the table, if there is one, stays deleted
if it was, and its closer is told nothing. -/
def Steady (key : ClientSessionKey) (a b : Agent) : Prop :=
  (b.sessions.lookup key).isSome = (a.sessions.lookup key).isSome ∧
    ∀ s ∈ a.sessions.lookup key, ∀ s' ∈ b.sessions.lookup key,
      (s.deleted = true → s'.deleted = true) ∧ s'.semCleanup = s.semCleanup

namespace Steady

variable {key : ClientSessionKey} {a b c : Agent}

theorem of_bare (hkey : (b.sessions.lookup key).map ClientSession.bare =
    (a.sessions.lookup key).map ClientSession.bare) : Steady key a b := by
  constructor
  · have hsome := congrArg Option.isSome hkey
    rwa [Option.isSome_map, Option.isSome_map] at hsome
  · intro s hs s' hs'
    rw [hs, hs'] at hkey
    have hbare : s'.bare = s.bare := by simpa using hkey
    have hdeleted : s'.deleted = s.deleted := congrArg (·.deleted) hbare
    have hsem : s'.semCleanup = s.semCleanup := congrArg (·.semCleanup) hbare
    exact ⟨fun h => hdeleted.trans h, hsem⟩

theorem of_view (h : SameView a b) : Steady key a b := .of_bare (h key)

instance : IsPreorder Agent (Steady key) where
  refl a := .of_view (refl a)
  trans a b c h h' := by
    refine ⟨h'.1.trans h.1, fun s hs s' hs' => ?_⟩
    have hsome : (b.sessions.lookup key).isSome = true := by
      rw [h.1, hs]
      rfl
    obtain ⟨t, ht⟩ := Option.isSome_iff_exists.1 hsome
    obtain ⟨hdel, hsem⟩ := h.2 s hs t ht
    obtain ⟨hdel', hsem'⟩ := h'.2 t ht s' hs'
    exact ⟨fun hs => hdel' (hdel hs), hsem'.trans hsem⟩

theorem of_sessions (h : b.sessions = a.sessions) : Steady key a b := .of_view (.of_sessions h)

theorem updateSession (a : Agent) (key' : ClientSessionKey) {f : ClientSession → ClientSession}
    (hdeleted : ∀ s, s.deleted = true → (f s).deleted = true)
    (hsem : ∀ s, (f s).semCleanup = s.semCleanup) : Steady key a (a.updateSession key' f) := by
  unfold Steady
  rw [Agent.updateSession, AList.lookup_modify]
  split
  · refine ⟨Option.isSome_map, fun s hs s' hs' => ?_⟩
    rw [hs] at hs'
    cases hs'
    exact ⟨hdeleted s, hsem s⟩
  · refine ⟨rfl, fun s hs s' hs' => ?_⟩
    rw [hs] at hs'
    cases hs'
    exact ⟨id, rfl⟩

end Steady

namespace AgentM

variable (env : Env)

theorem attachResourceToSessionEA_silent (key : ClientSessionKey) (id : ℕ) (rid : ResourceId) :
    Within Silent (attachResourceToSessionEA env key id rid) := by
  refine .read fun a => .bind (.require _) fun r => .bind (.onlyIf fun _ => .ensure _) fun _ => ?_
  refine .bind (.ensure _) fun _ => .ite (fun _ => .bind (silent fun _ => rfl) fun _ => ?_) ?_
  · exact .pure _
  · exact fun _ => .bind (silent fun _ => rfl) fun _ => .fail

theorem detachResourceEA_silent (key : ClientSessionKey) (n : ℕ) (del copyOut : Bool) :
    Within Silent (detachResourceEA env key n del copyOut) :=
  detachResourceEA_notifies env n del copyOut fun _ _ h => nomatch h

theorem attachAllResourcesToSessionEA_silent (key : ClientSessionKey) :
    Within Silent (attachAllResourcesToSessionEA env key) := by
  have hnew : ∀ rid id, Within Silent (attachNewEA env key rid id) := by
    intro rid id
    refine .bind (attachResourceToSessionEA_silent env key id rid) fun n => ?_
    refine .bind (enableResourceEA_notifies env rid) fun _ => .ite (fun _ => .modify fun b => ?_) ?_
    · exact ⟨[.resourceCreated key id], rfl, by simp⟩
    · exact fun _ => .bind (.ignore (detachResourceEA_silent env key n false false)) fun _ => .fail
  refine .bind (.ensure _) fun _ => .read fun _ => .forEach fun rid _ => ?_
  refine .read fun a => .bind (.ensure _) fun _ => ?_
  cases a.resources.lookup rid with
  | none => exact .pure _
  | some r =>
      refine .bind (.onlyIf fun _ => .bind (.require _) fun id => ?_) fun _ => .ensure _
      exact .bind (.require _) fun s => .onlyIf fun _ => hnew rid id

theorem createResource_silent (key : ClientSessionKey) (q : CreateRequest) :
    Within Silent (createResource env key q) := by
  have hobtain : ∀ o, Within Silent (obtainAttachedEA env key q o) := by
    intro o
    cases o with
    | some n => exact .bind (reuseAttachedEA_notifies env n q) fun _ => .pure _
    | none =>
        refine .bind (fun b => .of_native ?_) fun _ => .bind (.require _) fun rid => ?_
        · exact (insertResourceRecordEA_insertFrame env q b).1
        exact .bind (attachResourceToSessionEA_silent env key q.id rid) fun _ => .pure _
  refine .read fun a => .bind (.require _) fun s => .bind (.ensure _) fun _ => .bind ?_ fun n => ?_
  · refine .read fun b => .bind (.require _) fun s => .bind (checkCreate_frame s q) fun o => ?_
    refine .bind (.ensure _) fun _ => .bind (hobtain o) fun v => .bind ?_ fun _ => .pure _
    exact finishCreateEA_notifies env _ _ _ fun _ _ h => nomatch h
  · refine .read fun b => .ite (fun _ => .modify fun c => ?_) fun _ => ?_
    · exact ⟨[.resourceCreated key (b.attached n).id], rfl, by simp⟩
    · exact .bind (.ignore (detachResourceEA_silent env key n false false)) fun _ => .fail

theorem deleteResource_silent (key : ClientSessionKey) (id : ℕ) :
    Within Silent (deleteResource env key id) := by
  refine .bind (findAttached_frame key id) fun found => ?_
  cases found with
  | none => exact .pure _
  | some n =>
      refine .bind (endReadI_notifies env n fun _ h => nomatch h) fun _ => ?_
      refine .bind (detachResourceEA_silent env key n true true) fun _ => ?_
      exact .bind (notify_notifies fun _ h => nomatch h) fun _ => .ensure _

theorem onCleanupResources_silent : Within Silent (onCleanupResources env) := by
  refine .bind (.ensure _) fun _ => .bind (silent fun _ => rfl) fun _ => .bind (.ensure _) ?_
  refine fun _ => .read fun a => .forEach fun key _ => .bind (.ensure _) fun _ => .read fun b => ?_
  cases b.sessions.lookup key with
  | none => exact .pure _
  | some s =>
      refine .bind (.forEach fun n _ => ?_) fun _ => attachAllResourcesToSessionEA_silent env key
      refine .read fun c => .bind (lookupResource_frame _ _ _) fun _ => .bind (.require _) ?_
      refine fun r => .bind (.ensure _) fun _ => .onlyIf fun _ => ?_
      refine .bind (detachResourceEA_silent env key n true true) fun _ => ?_
      exact notify_notifies fun _ h => nomatch h

theorem returnLoans_silent (src : ℕ) (key : ClientSessionKey) (c : LoanCallback) :
    Within Silent (returnLoans env src key c) :=
  returnLoans_notifies env src c fun _ _ h => nomatch h

end AgentM

/-- How often the interface is told that a session under the key is closed. -/
def closings (a b : Agent) (key : ClientSessionKey) : ℕ :=
  b.callbacks.count (.sessionClosed key) - a.callbacks.count (.sessionClosed key)

/-- The operation opens a session under the key. -/
def Operation.opens (env : Env) (a : Agent) (key : ClientSessionKey) : Operation → Bool
  | openSession _ key' _ _ =>
      decide (key' = key) && (env.ok (.insertSession key') && (a.sessions.lookup key').isNone)
  | _ => false

/-- What an operation may do to the session under a key: the session before and after it, whether
it has opened one, and how often it has told that one is closed. -/
inductive SessionTurn (before after : Option ClientSession) : Bool → ℕ → Prop
  | absent : before = none → after = none → SessionTurn before after false 0
  | kept {s s' : ClientSession} : before = some s → after = some s' →
      (s.deleted = true → s'.deleted = true) → s'.semCleanup = s.semCleanup →
      SessionTurn before after false 0
  | opened : before = none →
      (∀ s ∈ after, s.deleted = false ∧ s.semCleanup = false) → SessionTurn before after true 0
  | removed {s : ClientSession} {n : ℕ} : before = some s → s.semCleanup = true → after = none →
      n ≤ 1 → SessionTurn before after false n

theorem closings_of_silent {a b : Agent} (h : Silent a b) (key : ClientSessionKey) :
    closings a b key = 0 := by
  obtain ⟨sent, hsent, hall⟩ := h
  unfold closings
  rw [hsent, List.count_append, List.count_eq_zero.2 fun hmem => hall _ hmem key rfl]
  simp

/-- What an operation that leads from `a` to `b` does to the session under the key. -/
def Turns (key : ClientSessionKey) (opens : Bool) (a b : Agent) : Prop :=
  SessionTurn (a.sessions.lookup key) (b.sessions.lookup key) opens (closings a b key)

theorem Turns.of_flags {a b : Agent} {key : ClientSessionKey} (h : Steady key a b)
    (hs : closings a b key = 0) : Turns key false a b := by
  unfold Turns
  rw [hs]
  obtain ⟨hsome, hflags⟩ := h
  cases ha : a.sessions.lookup key with
  | none =>
      rw [ha] at hsome
      exact .absent rfl (Option.not_isSome_iff_eq_none.1 (by simp [hsome]))
  | some s =>
      rw [ha] at hsome
      obtain ⟨s', hs'⟩ := Option.isSome_iff_exists.1 hsome
      obtain ⟨hdel, hsem⟩ := hflags s ha s' hs'
      exact .kept rfl hs' hdel hsem

theorem Turns.of_steady {a b : Agent} {key : ClientSessionKey} (h : Steady key a b)
    (hs : Silent a b) : Turns key false a b :=
  .of_flags h (closings_of_silent hs key)

/-- A record that the closer or the handler removes, and what they tell then. -/
theorem Turns.removes {a c : Agent} {key key' : ClientSessionKey} {s : ClientSession}
    (hs : a.sessions.lookup key' = some s) (hgiven : s.semCleanup = true)
    (hgone : c.sessions.lookup key' = none)
    (helse : ∀ k, k ≠ key' → c.sessions.lookup k = a.sessions.lookup k)
    (hclosings : closings a c key ≤ if key' = key then 1 else 0) : Turns key false a c := by
  by_cases hkey : key' = key
  · subst hkey
    rw [if_pos rfl] at hclosings
    exact .removed hs hgiven hgone hclosings
  · rw [if_neg hkey] at hclosings
    refine .of_flags (.of_bare ?_) (Nat.le_zero.1 hclosings)
    rw [helse key (Ne.symm hkey)]

theorem closings_notify {a b : Agent} (h : b.callbacks = a.callbacks)
    (key key' : ClientSessionKey) :
    closings a (b.notify (.sessionClosed key')) key = if key' = key then 1 else 0 := by
  unfold closings Agent.notify
  rw [h, List.count_append, List.count_singleton]
  simp

namespace AgentM

variable (env : Env) (key : ClientSessionKey)

theorem resetSession_steady (src : ℕ) (key' : ClientSessionKey) (s : ClientSession) :
    Within (Steady key) (resetSession env src key' s) := by
  have hupdate : ∀ {f : ClientSession → ClientSession},
      (∀ s, (f s).deleted = s.deleted ∧ (f s).semCleanup = s.semCleanup) →
      Within (Steady key) (modify fun a => a.updateSession key' f) := fun hf =>
    .modify fun a => .updateSession a key' (fun s hs => (hf s).1.trans hs) fun s => (hf s).2
  refine .bind (.ensure _) fun _ => .bind (hupdate fun _ => ⟨rfl, rfl⟩) fun _ => ?_
  refine .bind (.ensure _) fun _ => .bind (.bind (fun a => .of_view (.of_frame ?_)) fun _ => ?_) ?_
  · exact returnLoans_frame env src key' _ a
  · exact .ensure _
  refine fun _ => .bind (.onlyIf fun _ => hupdate fun _ => ⟨rfl, rfl⟩) fun _ => .bind ?_ fun _ => ?_
  · refine .forEach fun n _ => .read fun a => .onlyIf fun _ => fun b => .of_view (.of_frame ?_)
    exact cancelReadI_frame env n b
  · exact hupdate fun _ => ⟨rfl, rfl⟩

theorem resetSession_silent (src : ℕ) (key' : ClientSessionKey) (s : ClientSession) :
    Within Silent (resetSession env src key' s) := by
  refine .bind (.ensure _) fun _ => .bind (silent fun _ => rfl) fun _ => .bind (.ensure _) ?_
  refine fun _ => .bind (.bind (returnLoans_silent env src key' _) fun _ => .ensure _) fun _ => ?_
  refine .bind (.onlyIf fun _ => silent fun _ => rfl) fun _ => .bind ?_ fun _ => silent fun _ => rfl
  exact .forEach fun n _ => .read fun a => .onlyIf fun _ => cancelReadI_notifies env n

theorem disposeSessionEA_steady (key' : ClientSessionKey) (s : ClientSession) :
    Within (Steady key) (disposeSessionEA env key' s) := by
  refine .ite (fun _ => .pure _) fun _ => .bind (.modify fun a => ?_) fun _ => ?_
  · exact .updateSession a key' (fun _ _ => rfl) fun _ => rfl
  · exact .bind (.ensure _) fun _ => .modify fun a => .of_sessions rfl

theorem disposeSessionEA_silent (key' : ClientSessionKey) (s : ClientSession) :
    Within Silent (disposeSessionEA env key' s) :=
  .ite (fun _ => .pure _) fun _ => .bind (silent fun _ => rfl) fun _ =>
    .bind (.ensure _) fun _ => silent fun _ => rfl

theorem onSessionTimeout_steady (key' : ClientSessionKey) :
    Within (Steady key) (onSessionTimeout env key') := by
  refine .bind (.ensure _) fun _ => .read fun a => .bind (.require _) fun s => ?_
  refine .bind (.ensure _) fun _ => .bind (.modify fun b => ?_) fun _ => .bind (fun b => ?_) ?_
  · exact .updateSession b key' (fun _ hs => hs) fun _ => rfl
  · exact .of_view (.of_frame (returnLoans_frame env s.intf key' _ b))
  · exact fun _ => disposeSessionEA_steady env key key' s

theorem onSessionTimeout_silent (key' : ClientSessionKey) :
    Within Silent (onSessionTimeout env key') := by
  refine .bind (.ensure _) fun _ => .read fun a => .bind (.require _) fun s => ?_
  refine .bind (.ensure _) fun _ => .bind (silent fun _ => rfl) fun _ => .bind ?_ fun _ => ?_
  · exact returnLoans_silent env s.intf key' _
  · exact disposeSessionEA_silent env key' s

theorem closeSession_steady (src : ℕ) (key' : ClientSessionKey) :
    Within (Steady key) (closeSession env src key') := by
  refine .bind (.ensure _) fun _ => .bind (.ensure _) fun _ => .read fun a => ?_
  refine .bind (.require _) fun s => .bind (.ensure _) fun _ => .bind (.ensure _) fun _ => ?_
  exact disposeSessionEA_steady env key key' s

theorem closeSession_silent (src : ℕ) (key' : ClientSessionKey) :
    Within Silent (closeSession env src key') := by
  refine .bind (.ensure _) fun _ => .bind (.ensure _) fun _ => .read fun a => ?_
  refine .bind (.require _) fun s => .bind (.ensure _) fun _ => .bind (.ensure _) fun _ => ?_
  exact disposeSessionEA_silent env key' s

theorem populateSession_sameView (key' : ClientSessionKey) :
    Within SameView (populateSession env key') := by
  refine .bind (.ensure _) fun _ => .bind (.ensure _) fun _ => .bind ?_ fun _ => .ensure _
  exact attachAllResourcesToSessionEA_sameView env key'

theorem populateSession_silent (key' : ClientSessionKey) :
    Within Silent (populateSession env key') := by
  refine .bind (.ensure _) fun _ => .bind (.ensure _) fun _ => .bind ?_ fun _ => .ensure _
  exact attachAllResourcesToSessionEA_silent env key'

theorem openNewSession_turns (src : ℕ) (key' : ClientSessionKey) (timeout : ℕ)
    (data : Option ℕ) (a : Agent) (hnone : a.sessions.lookup key' = none) :
    Turns key (decide (key' = key)) a (openNewSession env src key' timeout data a).2 := by
  unfold openNewSession
  rw [modify_bind_apply]
  have hview := populateSession_sameView env key'
    (a.insertSession key' (.initial src timeout data)) key
  have hsilent := populateSession_silent env key' (a.insertSession key' (.initial src timeout data))
  revert hview hsilent
  generalize hb : (populateSession env key' (a.insertSession key' _)).2 = b
  intro hview hsilent
  have hsilent : Silent a b := hsilent
  -- the record stays as it was inserted, or is removed
  have hturn : ∀ c : Agent, Silent a c → (c.sessions.lookup key = b.sessions.lookup key ∨
      key' = key ∧ c.sessions.lookup key = none) → Turns key (decide (key' = key)) a c := by
    intro c hc hlookup
    by_cases hkey : key' = key
    · subst hkey
      unfold Turns
      rw [closings_of_silent hc, decide_eq_true rfl]
      refine .opened hnone fun s hs => ?_
      rcases hlookup with heq | ⟨-, hgone⟩
      · rw [heq] at hs
        rw [Agent.insertSession, AList.lookup_insert, hs] at hview
        have hbare : s.bare = (ClientSession.initial src timeout data).bare := by simpa using hview
        have hdeleted : s.deleted = false := congrArg (·.deleted) hbare
        have hsem : s.semCleanup = false := congrArg (·.semCleanup) hbare
        exact ⟨hdeleted, hsem⟩
      · rw [hgone] at hs
        cases hs
    · rw [decide_eq_false hkey]
      refine .of_steady (.of_bare ?_) hc
      rcases hlookup with heq | ⟨hsame, -⟩
      · rw [heq, hview, Agent.insertSession, AList.lookup_insert_ne (Ne.symm hkey)]
      · exact absurd hsame hkey
  refine keeps_onFailure (I := Turns key _ a) ?_ fun _ => ?_
  · rw [hb]
    exact hturn b hsilent (.inl rfl)
  · rw [hb]
    cases env.ok (.deleteSession key') with
    | false => exact hturn b hsilent (.inl rfl)
    | true =>
        refine hturn (b.eraseSession key') hsilent ?_
        by_cases hkey : key' = key
        · subst hkey
          exact .inr ⟨rfl, AList.lookup_erase _ _⟩
        · exact .inl (AList.lookup_erase_ne (Ne.symm hkey))

theorem resetOrOpenSession_turns (src : ℕ) (key' : ClientSessionKey) (timeout : ℕ)
    (data : Option ℕ) (a : Agent) :
    Turns key (decide (key' = key) && (a.sessions.lookup key').isNone) a
      (resetOrOpenSession env src key' timeout data a).2 := by
  unfold resetOrOpenSession
  rw [read_bind_apply]
  cases hs : a.sessions.lookup key' with
  | none =>
      rw [Option.isNone_none, Bool.and_true]
      exact openNewSession_turns env key src key' timeout data a hs
  | some s =>
      rw [Option.isNone_some, Bool.and_false]
      exact .of_steady (resetSession_steady env key src key' s a)
        (resetSession_silent env src key' s a)

theorem openSession_turns (src : ℕ) (key' : ClientSessionKey) (timeout : ℕ) (data : Option ℕ)
    (a : Agent) : Turns key ((Operation.openSession src key' timeout data).opens env a key) a
      (openSession env src key' timeout data a).2 := by
  change Turns key
    (decide (key' = key) && (env.ok (.insertSession key') && (a.sessions.lookup key').isNone)) _ _
  unfold openSession
  cases hinsert : env.ok (.insertSession key') with
  | false =>
      rw [ensure_false_bind_apply, Bool.false_and, Bool.and_false]
      exact .of_steady (refl a) (refl a)
  | true =>
      rw [ensure_true_bind_apply, Bool.true_and]
      have hturns := resetOrOpenSession_turns env key src key' timeout data a
      -- after the record was opened or reset, nothing is done to the table
      refine keeps_bind (fun _ => hturns) fun _ _ => ?_
      rw [read_bind_apply]
      refine keeps_require hturns fun s _ => keeps_ensure hturns fun _ => ?_
      exact hturns

/-- The closer goes on once it was told to, and the record is removed if that succeeds. -/
theorem finishCloseSession_turns (key' : ClientSessionKey) (a : Agent)
    (hspare : ∀ s ∈ a.sessions.lookup key', s.semCleanup = true →
      env.ok (.lookupSession .closeSession key') = true →
      env.ok (.releaseSession .closeSession key') = true ∧
        env.ok (.deleteSession key') = true) :
    Turns key false a (finishCloseSession env key' a).2 := by
  have hstay : Turns key false a a := .of_steady (refl a) (refl a)
  unfold finishCloseSession
  rw [read_bind_apply]
  refine keeps_require hstay fun s hs => keeps_ensure hstay fun hgiven => ?_
  refine keeps_ensure hstay fun hlookup => ?_
  obtain ⟨hrelease, hdelete⟩ := hspare s hs hgiven hlookup
  rw [modify_bind_apply, hrelease, ensure_true_bind_apply, hdelete, ensure_true_bind_apply,
    modify_bind_apply]
  have hgone : (((a.updateSession key' fun s =>
      { s with semCleanup := false }).eraseSession key').sessions.lookup key') = none :=
    AList.lookup_erase _ _
  have helse : ∀ k, k ≠ key' → ((a.updateSession key' fun s =>
      { s with semCleanup := false }).eraseSession key').sessions.lookup k =
        a.sessions.lookup k := by
    intro k hk
    rw [Agent.eraseSession, AList.lookup_erase_ne hk, Agent.updateSession, AList.lookup_modify,
      if_neg hk]
  refine keeps_ensure (.removes hs hgiven hgone helse ?_) fun _ => ?_
  · exact (closings_of_silent (Notifies.of_same rfl) key).le.trans (Nat.zero_le _)
  · exact .removes hs hgiven hgone helse (closings_notify rfl key key').le

end AgentM

/-- The operation, if it is a closer that goes on, can remove the record of its session. -/
def Operation.canRemove (env : Env) (a : Agent) : Operation → Bool
  | finishCloseSession key => (a.sessions.lookup key).all fun s =>
      !s.semCleanup || !env.ok (.lookupSession .closeSession key) ||
        (env.ok (.releaseSession .closeSession key) && env.ok (.deleteSession key))
  | _ => true

theorem Agent.step_silent (a : Agent) {o : Operation} (env : Env) (h : o.isInner = true) :
    Silent a (a.step (o, env)) := by
  cases o with
  | openSession src key timeout data => cases h
  | closeSession src key => cases h
  | finishCloseSession key => cases h
  | sessionTimeout key => cases h
  | cleanupSessions => cases h
  | createResource key q => exact AgentM.createResource_silent env key q a
  | deleteResource key id => exact AgentM.deleteResource_silent env key id a
  | readData key id spec =>
      exact AgentM.readData_notifies env spec (fun _ h => nomatch h) a
  | cancelRead key id => exact AgentM.cancelRead_notifies env (fun _ h => nomatch h) a
  | returnLoan src key d =>
      exact AgentM.returnLoan_notifies env src d (fun _ _ h => nomatch h) a
  | writeData key id => exact AgentM.writeData_notifies env (fun _ h => nomatch h) a
  | dataEvent rd => exact AgentM.onDataOnReader_notifies env rd (fun _ _ _ h => nomatch h) a
  | changeCache reader cache => exact .of_same rfl
  | cleanupReads =>
      exact keeps_ensure (refl a) fun _ =>
        AgentM.onCleanupReads_notifies env (fun _ _ _ h => nomatch h) a
  | cleanupResources =>
      exact keeps_ensure (refl a) fun _ => AgentM.onCleanupResources_silent env a

/-- What an operation does to a session, if it is not a pass of the handler. -/
theorem Agent.step_turns (a : Agent) {o : Operation} (env : Env) (ho : o ≠ .cleanupSessions)
    (hok : o.canRemove env a = true) (key : ClientSessionKey) :
    Turns key (o.opens env a key) a (a.step (o, env)) := by
  by_cases hinner : o.isInner = true
  · have hopens : o.opens env a key = false := by cases o <;> first | rfl | cases hinner
    rw [hopens]
    exact .of_steady (.of_view (a.step_sameView env hinner)) (a.step_silent env hinner)
  cases o with
  | openSession src key' timeout data =>
      exact AgentM.openSession_turns env key src key' timeout data a
  | closeSession src key' =>
      exact .of_steady (AgentM.closeSession_steady env key src key' a)
        (AgentM.closeSession_silent env src key' a)
  | finishCloseSession key' =>
      refine AgentM.finishCloseSession_turns env key key' a fun s hs hgiven hlookup => ?_
      rw [Operation.canRemove, Option.all_eq_true] at hok
      simpa [hgiven, hlookup] using hok s hs
  | sessionTimeout key' =>
      exact .of_steady (AgentM.onSessionTimeout_steady env key key' a)
        (AgentM.onSessionTimeout_silent env key' a)
  | cleanupSessions => exact absurd rfl ho
  | _ => exact absurd rfl hinner

end NanoAgent
