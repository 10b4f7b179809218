import Mathlib.Data.List.Range
import NanoAgent.DdsAgent.RecordChange

/-!
# The notifications owed for reads

The interface of a session is told of every read that it accepts, and should be told when the
read has ended. `Owing started ended a` counts the notifications of the two kinds against the
reads in progress, with the reads `started` that were not announced yet and the reads
`ended` whose end was not announced yet. It also says where reads are: on the data readers
attached to the sessions that are not closed.

`Uneventful a b` are the changes that concern no read. Only taking and releasing a read and the
two notifications change what is owed.
-/

namespace NanoAgent

open Prog AgentM

/-- Changing a predicate at one number changes the count below a bound by at most one. -/
theorem countP_range_change {p q : ℕ → Bool} {n m : ℕ} (hn : n < m)
    (h : ∀ k, k ≠ n → p k = q k) :
    (List.range m).countP p + (if q n then 1 else 0) =
      (List.range m).countP q + if p n then 1 else 0 := by
  induction m with
  | zero => exact absurd hn (Nat.not_lt_zero n)
  | succ m ih =>
      rw [List.range_succ, List.countP_append, List.countP_append, List.countP_singleton,
        List.countP_singleton]
      by_cases heq : n = m
      · subst heq
        have hsame : (List.range n).countP p = (List.range n).countP q := by
          apply List.countP_congr
          intro k hk
          rw [h k (Nat.ne_of_lt (List.mem_range.1 hk))]
        rw [hsame]
        omega
      · rw [h m (Ne.symm heq)]
        have := ih (by omega)
        omega

namespace Agent

variable (a : Agent)

/-- The attached resource `n` has a read, and is the reader `id` of the session `key`. -/
def readsFor (key : ClientSessionKey) (id n : ℕ) : Bool :=
  decide ((a.attached n).session = key) && decide ((a.attached n).id = id) &&
    (a.attached n).readReq.isSome

/-- The number of reads in progress for the reader `id` of the session `key`. -/
def reading (key : ClientSessionKey) (id : ℕ) : ℕ :=
  (List.range a.poolResources.next).countP (a.readsFor key id)

/-- A change at one attached resource changes the reads in progress by that resource. -/
theorem reading_change {a b : Agent} {n : ℕ} (hn : n < a.poolResources.next)
    (hnext : b.poolResources.next = a.poolResources.next)
    (hother : ∀ m, m ≠ n → b.attached m = a.attached m) (key : ClientSessionKey) (id : ℕ) :
    b.reading key id + (if a.readsFor key id n then 1 else 0) =
      a.reading key id + if b.readsFor key id n then 1 else 0 := by
  unfold reading
  rw [hnext]
  refine countP_range_change hn fun m hm => ?_
  unfold readsFor
  rw [hother m hm]

/-- How often `on_read_created` succeeded. -/
def readsCreated (key : ClientSessionKey) (id : ℕ) : ℕ := a.callbacks.count (.readCreated key id)

/-- How often `on_read_complete` was called. -/
def readsCompleted (key : ClientSessionKey) (id : ℕ) : ℕ :=
  a.callbacks.count (.readComplete key id)

end Agent

/-- Whenever the end of a read is announced, there is a read that was announced before. -/
def Callback.Ordered (l : List Callback) : Prop :=
  ∀ p, p <+: l → ∀ key id, p.count (.readComplete key id) ≤ p.count (.readCreated key id)

/-- The notifications sent, against the reads in progress, those that were `started` and not
announced, and those that `ended` without notice. -/
structure Owing (started ended : List (ClientSessionKey × ℕ)) (a : Agent) : Prop where
  balance : ∀ key id, a.readsCreated key id + started.count (key, id) =
    a.readsCompleted key id + a.reading key id + ended.count (key, id)
  ordered : Callback.Ordered a.callbacks
  linked : ∀ n, (a.attached n).readReq.isSome = true → (a.attached n).kind = .dataReader ∧
    ∃ s, a.sessions.lookup (a.attached n).session = some s ∧ n ∈ s.resources
  owned : ∀ key s, a.sessions.lookup key = some s → ∀ n ∈ s.resources,
    n < a.poolResources.next ∧ (a.attached n).session = key
  closing : ∀ key s, a.sessions.lookup key = some s → s.semCleanup = true →
    s.deleted = true ∧ ∀ n ∈ s.resources, (a.attached n).readReq = none

/-- A notification that does not concern a read. -/
def Callback.Plain (c : Callback) : Prop :=
  ∀ key id, c ≠ .readCreated key id ∧ c ≠ .readComplete key id

namespace Callback.Ordered

variable {l : List Callback}

theorem append_plain (h : Callback.Ordered l) {sent : List Callback}
    (hsent : ∀ c ∈ sent, c.Plain) : Callback.Ordered (l ++ sent) := by
  intro p hp key id
  rcases List.prefix_or_prefix_of_prefix hp (List.prefix_append l sent) with hshort | ⟨q, rfl⟩
  · exact h p hshort key id
  · have hq : q <+: sent := (List.prefix_append_right_inj l).1 hp
    have hnone : ∀ c : Callback, ¬ c.Plain → q.count c = 0 := fun c hc =>
      List.count_eq_zero_of_not_mem fun hmem => hc (hsent c (hq.subset hmem))
    rw [List.count_append, List.count_append, hnone _ fun hc => (hc key id).1 rfl,
      hnone _ fun hc => (hc key id).2 rfl]
    exact h l (List.prefix_refl l) key id

theorem concat (h : Callback.Ordered l) {c : Callback} (hc : ∀ key id,
    (l ++ [c]).count (.readComplete key id) ≤ (l ++ [c]).count (.readCreated key id)) :
    Callback.Ordered (l ++ [c]) := by
  intro p hp
  rcases List.prefix_concat_iff.1 hp with rfl | hp
  · exact hc
  · exact h p hp

end Callback.Ordered

/-- What is known of an attached resource when reads are counted. -/
def AttachedResource.stub (x : AttachedResource) : AttachedResource :=
  { x.outline with resource := .none, readReq := x.readReq.map fun _ => 0 }

theorem AttachedResource.isSome_stub (x : AttachedResource) :
    x.stub.readReq.isSome = x.readReq.isSome := by
  cases h : x.readReq <;> simp [stub, h]

/-- From `a` to `b` nothing has happened to reads, to the lists of the sessions or to whether
they close. -/
structure Uneventful (a b : Agent) : Prop where
  next : b.poolResources.next = a.poolResources.next
  stub : ∀ n, (b.attached n).stub = (a.attached n).stub
  resource : ∀ n, (b.attached n).readReq.isSome = true →
    (b.attached n).resource = (a.attached n).resource
  resources : ∀ key, (b.sessions.lookup key).map (·.resources) =
    (a.sessions.lookup key).map (·.resources)
  flags : ∀ key s', b.sessions.lookup key = some s' → ∃ s, a.sessions.lookup key = some s ∧
    (s'.semCleanup = true → s.semCleanup = true) ∧ (s.deleted = true → s'.deleted = true)
  callbacks : Notifies Callback.Plain a b

namespace Uneventful

variable {a b : Agent}

theorem isSome_eq (h : Uneventful a b) (n : ℕ) :
    (b.attached n).readReq.isSome = (a.attached n).readReq.isSome := by
  rw [← AttachedResource.isSome_stub, h.stub n, AttachedResource.isSome_stub]

instance : IsPreorder Agent Uneventful where
  refl a := ⟨rfl, fun _ => rfl, fun _ _ => rfl, fun _ => rfl, fun _ s hs => ⟨s, hs, id, id⟩, refl a⟩
  trans a b c h h' := by
    refine ⟨h'.next.trans h.next, fun n => (h'.stub n).trans (h.stub n), fun n hn => ?_,
      fun key => (h'.resources key).trans (h.resources key), fun key s'' hs'' => ?_,
      IsTrans.trans _ _ _ h.callbacks h'.callbacks⟩
    · exact (h'.resource n hn).trans (h.resource n ((h'.isSome_eq n).symm.trans hn))
    obtain ⟨s', hs', hsem', hdel'⟩ := h'.flags key s'' hs''
    obtain ⟨s, hs, hsem, hdel⟩ := h.flags key s' hs'
    exact ⟨s, hs, fun hc => hsem (hsem' hc), fun hd => hdel' (hdel hd)⟩

theorem of_same (hs : b.sessions = a.sessions) (hp : b.poolResources = a.poolResources)
    (hc : Notifies Callback.Plain a b) : Uneventful a b where
  next := by rw [hp]
  stub n := by rw [Agent.attached, hp, Agent.attached]
  resource n _ := by rw [Agent.attached, hp, Agent.attached]
  resources key := by rw [hs]
  flags key s hs' := ⟨s, by rw [← hs]; exact hs', id, id⟩
  callbacks := hc

theorem of_native (h : NativeFrame a b) : Uneventful a b :=
  of_same h.sessions h.poolResources (.of_native h)

theorem of_recordFrame (h : RecordFrame a b) : Uneventful a b :=
  of_same h.sessions h.poolResources (.of_same h.callbacks)

/-- A frame of the functions that serve reads, when no read started or ended. -/
theorem of_readFrame (h : ReadFrame a b)
    (hreq : ∀ n, (b.attached n).readReq = (a.attached n).readReq)
    (hc : Notifies Callback.Plain a b) : Uneventful a b where
  next := h.next
  stub n := by
    unfold AttachedResource.stub
    rw [h.attached n, hreq n]
  resource n _ := h.resource_eq n
  resources key := by
    have hmap := congrArg (Option.map ClientSession.resources) (h.session key)
    rw [Option.map_map, Option.map_map] at hmap
    exact hmap
  flags key s' hs' := by
    have hmap := h.session key
    rw [hs'] at hmap
    obtain ⟨s, hs, houtline⟩ := Option.map_eq_some_iff.1 hmap.symm
    refine ⟨s, hs, fun hsem => ?_, fun hdel => ?_⟩
    · exact (congrArg ClientSession.semCleanup houtline).trans hsem
    · exact (congrArg ClientSession.deleted houtline).symm.trans hdel
  callbacks := hc

theorem updateRead (a : Agent) (rd : ℕ) (f : Read → Read) : Uneventful a (a.updateRead rd f) :=
  of_same rfl rfl (.of_same rfl)

theorem updateReader (a : Agent) (reader : ℕ) (f : Reader → Reader) :
    Uneventful a (a.updateReader reader f) :=
  of_same rfl rfl (.of_same rfl)

theorem updateResource (a : Agent) (rid : ResourceId) (f : Resource → Resource) :
    Uneventful a (a.updateResource rid f) :=
  of_same rfl rfl (.of_same rfl)

theorem notify (a : Agent) {c : Callback} (hc : c.Plain) : Uneventful a (a.notify c) :=
  of_same rfl rfl (.notify a hc)

theorem updateAttached (a : Agent) (n : ℕ) {f : AttachedResource → AttachedResource}
    (hf : ∀ x, (f x).stub = x.stub) (hr : (f (a.attached n)).readReq.isSome = true →
      (f (a.attached n)).resource = (a.attached n).resource) : Uneventful a
        (a.updateAttached n f) where
  next := rfl
  stub m := by
    rw [Agent.attached_updateAttached]
    split
    · exact hf _
    · rfl
  resource m := by
    rw [Agent.attached_updateAttached]
    split
    · rename_i heq
      subst heq
      exact hr
    · exact fun _ => rfl
  resources _ := rfl
  flags _ s hs := ⟨s, hs, id, id⟩
  callbacks := .of_same rfl

theorem updateSession (a : Agent) (key : ClientSessionKey) {f : ClientSession → ClientSession}
    (hres : ∀ s, (f s).resources = s.resources)
    (hflags : ∀ s, ((f s).semCleanup = true → s.semCleanup = true) ∧
      (s.deleted = true → (f s).deleted = true)) : Uneventful a (a.updateSession key f) where
  next := rfl
  stub _ := rfl
  resource _ _ := rfl
  resources key' := by
    rw [Agent.lookup_updateSession]
    split
    · rw [Option.map_map]
      congr 1
      funext s
      exact hres s
    · rfl
  flags key' s' hs' := by
    rw [Agent.lookup_updateSession] at hs'
    split at hs'
    · obtain ⟨s, hs, rfl⟩ := Option.map_eq_some_iff.1 hs'
      exact ⟨s, hs, (hflags s).1, (hflags s).2⟩
    · exact ⟨s', hs', id, id⟩
  callbacks := .of_same rfl

/-- Returning the buffer of an attached resource without a read. -/
theorem unlink (a : Agent) {n : ℕ} (hn : (a.attached n).readReq = none) :
    Uneventful a (a.unlink n) where
  next := rfl
  stub m := by
    rw [Agent.attached_unlink]
    split <;> rfl
  resource m hm := by
    rw [Agent.attached_unlink] at hm ⊢
    split at hm
    · rename_i heq
      subst heq
      change (a.attached m).readReq.isSome = true at hm
      rw [hn] at hm
      cases hm
    · rename_i hne
      rw [if_neg hne]
  resources _ := rfl
  flags _ s hs := ⟨s, hs, id, id⟩
  callbacks := .of_same rfl

theorem session_eq (h : Uneventful a b) (n : ℕ) :
    (b.attached n).session = (a.attached n).session := by
  have hn := congrArg AttachedResource.session (h.stub n)
  exact hn

theorem id_eq (h : Uneventful a b) (n : ℕ) : (b.attached n).id = (a.attached n).id := by
  have hn := congrArg AttachedResource.id (h.stub n)
  exact hn

theorem kind_eq (h : Uneventful a b) (n : ℕ) : (b.attached n).kind = (a.attached n).kind := by
  have hn := congrArg AttachedResource.kind (h.stub n)
  exact hn

theorem readsFor_eq (h : Uneventful a b) (key : ClientSessionKey) (id : ℕ) :
    b.readsFor key id = a.readsFor key id := by
  funext n
  unfold Agent.readsFor
  rw [h.session_eq, h.id_eq, h.isSome_eq]

theorem exists_session (h : Uneventful a b) {key : ClientSessionKey} {s : ClientSession}
    (hs : a.sessions.lookup key = some s) :
    ∃ s', b.sessions.lookup key = some s' ∧ s'.resources = s.resources := by
  have hmap := h.resources key
  rw [hs] at hmap
  exact Option.map_eq_some_iff.1 hmap

theorem count_eq (h : Uneventful a b) {c : Callback} (hc : ¬ c.Plain) :
    b.callbacks.count c = a.callbacks.count c := by
  obtain ⟨sent, hsent, hall⟩ := h.callbacks
  have hnone : sent.count c = 0 := List.count_eq_zero_of_not_mem fun hmem => hc (hall c hmem)
  rw [hsent, List.count_append, hnone, Nat.add_zero]

end Uneventful

namespace Owing

variable {started ended : List (ClientSessionKey × ℕ)} {a b : Agent}

theorem of_initial (h : a.Initial) : Owing [] [] a where
  balance key id := by
    simp [Agent.readsCreated, Agent.readsCompleted, Agent.reading, h.callbacks, h.attachedNext]
  ordered p hp key id := by
    rw [h.callbacks, List.prefix_nil] at hp
    rw [hp]
    exact le_refl _
  linked n hn := by simp [h.readReq n] at hn
  owned key s hs := by
    rw [h.sessions] at hs
    cases hs
  closing key s hs := by
    rw [h.sessions] at hs
    cases hs

theorem uneventful (h : Owing started ended a) (hq : Uneventful a b) : Owing started ended b where
  balance key id := by
    have hcreated : b.readsCreated key id = a.readsCreated key id :=
      hq.count_eq fun hc => (hc key id).1 rfl
    have hcompleted : b.readsCompleted key id = a.readsCompleted key id :=
      hq.count_eq fun hc => (hc key id).2 rfl
    rw [hcreated, hcompleted, Agent.reading, hq.readsFor_eq, hq.next]
    exact h.balance key id
  ordered := by
    obtain ⟨sent, hsent, hall⟩ := hq.callbacks
    rw [hsent]
    exact h.ordered.append_plain hall
  linked n hn := by
    rw [hq.isSome_eq] at hn
    obtain ⟨hkind, s, hs, hmem⟩ := h.linked n hn
    obtain ⟨s', hs', hlist⟩ := hq.exists_session hs
    rw [hq.kind_eq, hq.session_eq]
    exact ⟨hkind, s', hs', hlist ▸ hmem⟩
  owned key s' hs' n hn := by
    obtain ⟨s, hs, -⟩ := hq.flags key s' hs'
    obtain ⟨s'', hs'', hlist⟩ := hq.exists_session hs
    obtain rfl := Option.some.inj (hs''.symm.trans hs')
    rw [hq.next, hq.session_eq]
    exact h.owned key s hs n (hlist ▸ hn)
  closing key s' hs' hsem := by
    obtain ⟨s, hs, hsem', hdel⟩ := hq.flags key s' hs'
    obtain ⟨s'', hs'', hlist⟩ := hq.exists_session hs
    obtain rfl := Option.some.inj (hs''.symm.trans hs')
    obtain ⟨hdeleted, hidle⟩ := h.closing key s hs (hsem' hsem)
    refine ⟨hdel hdeleted, fun n hn => ?_⟩
    have hn := hidle n (hlist ▸ hn)
    rw [← Option.not_isSome_iff_eq_none, hq.isSome_eq, hn]
    exact Bool.false_ne_true

theorem lt (h : Owing started ended a) {n : ℕ} (hn : (a.attached n).readReq.isSome = true) :
    n < a.poolResources.next := by
  obtain ⟨-, s, hs, hmem⟩ := h.linked n hn
  exact (h.owned _ s hs n hmem).1

/-- The read of one attached resource is set. -/
theorem setRead (h : Owing started ended a) {n : ℕ} (hn : n < a.poolResources.next)
    {o : Option ℕ} {started' ended' : List (ClientSessionKey × ℕ)}
    (hb : b.poolResources = a.poolResources.update n fun x => { x with readReq := o })
    (hs : b.sessions = a.sessions) (hc : b.callbacks = a.callbacks)
    (hlinked : o.isSome = true → (a.attached n).kind = .dataReader ∧
      ∃ s, a.sessions.lookup (a.attached n).session = some s ∧ n ∈ s.resources ∧
        s.deleted = false)
    (hcount : ∀ key id, started'.count (key, id) + ended.count (key, id) +
        (if a.readsFor key id n then 1 else 0) =
      started.count (key, id) + ended'.count (key, id) +
        if b.readsFor key id n then 1 else 0) : Owing started' ended' b := by
  have hatt : ∀ m, b.attached m =
      if m = n then { a.attached m with readReq := o } else a.attached m := by
    intro m
    rw [Agent.attached, hb]
    exact BufferPool.content_update _ _ _ _
  have hnext : b.poolResources.next = a.poolResources.next := by rw [hb]; rfl
  have hsession : ∀ m, (b.attached m).session = (a.attached m).session := by
    intro m
    rw [hatt]
    split <;> rfl
  refine ⟨fun key id => ?_, hc ▸ h.ordered, fun m hm => ?_, fun key s hkey m hm => ?_,
    fun key s hkey hsem => ?_⟩
  · have hbalance := h.balance key id
    have hreading := Agent.reading_change hn hnext (fun m hm => (hatt m).trans (if_neg hm)) key id
    have hcount := hcount key id
    rw [Agent.readsCreated, Agent.readsCompleted, hc]
    rw [Agent.readsCreated, Agent.readsCompleted] at hbalance
    omega
  · rw [hsession, hs]
    rw [hatt] at hm ⊢
    by_cases heq : m = n
    · subst heq
      rw [if_pos rfl] at hm ⊢
      obtain ⟨hkind, s, hs', hmem, -⟩ := hlinked hm
      exact ⟨hkind, s, hs', hmem⟩
    · rw [if_neg heq] at hm ⊢
      exact h.linked m hm
  · rw [hnext, hsession]
    rw [hs] at hkey
    exact h.owned key s hkey m hm
  · rw [hs] at hkey
    obtain ⟨hdeleted, hidle⟩ := h.closing key s hkey hsem
    refine ⟨hdeleted, fun m hm => ?_⟩
    rw [hatt]
    split
    · rename_i heq
      subst heq
      cases o with
      | none => rfl
      | some rd =>
          obtain ⟨-, s', hs', -, hactive⟩ := hlinked rfl
          rw [(h.owned key s hkey m hm).2] at hs'
          obtain rfl := Option.some.inj (hkey.symm.trans hs')
          rw [hdeleted] at hactive
          cases hactive
    · exact hidle m hm

theorem releaseRead (h : Owing started ended a) {n : ℕ}
    (hn : (a.attached n).readReq.isSome = true) (rd : ℕ) :
    Owing started (((a.attached n).session, (a.attached n).id) :: ended) (a.releaseRead n rd) := by
  refine h.setRead (h.lt hn) rfl rfl rfl (fun hnone => by cases hnone) fun key id => ?_
  have hended : (a.releaseRead n rd).readsFor key id n = false := by
    simp [Agent.readsFor, Agent.releaseRead, Agent.attached_updateAttached]
  rw [hended, List.count_cons]
  simp only [Agent.readsFor, hn, Bool.and_true, Bool.and_eq_true, decide_eq_true_eq, beq_iff_eq,
    Prod.mk.injEq, Bool.false_eq_true, if_false]
  omega

/-- A read is taken for a data reader of a session that is not closed. -/
theorem takeRead (h : Owing started ended a) (key : ClientSessionKey) {n : ℕ} {s : ClientSession}
    (hidle : (a.attached n).readReq = none) (hkind : (a.attached n).kind = .dataReader)
    (hs : a.sessions.lookup (a.attached n).session = some s) (hn : n ∈ s.resources)
    (hdeleted : s.deleted = false) :
    Owing (((a.attached n).session, (a.attached n).id) :: started) ended (a.takeRead key n) := by
  refine h.setRead (h.owned _ s hs n hn).1 rfl rfl rfl (fun _ => ⟨hkind, s, hs, hn, hdeleted⟩)
    fun key' id => ?_
  have hstarted : (a.takeRead key n).readsFor key' id n =
      (decide ((a.attached n).session = key') && decide ((a.attached n).id = id)) := by
    simp only [Agent.readsFor, Agent.takeRead, Agent.attached_updateAttached, if_pos,
      Option.isSome_some, Bool.and_true]
    rfl
  rw [hstarted, List.count_cons]
  simp only [Agent.readsFor, hidle, Bool.and_eq_true, decide_eq_true_eq, beq_iff_eq,
    Prod.mk.injEq, Option.isSome_none, Bool.and_false, Bool.false_eq_true, if_false]
  omega

theorem notifyCreated {key : ClientSessionKey} {id : ℕ}
    (h : Owing ((key, id) :: started) ended a) :
    Owing started ended (a.notify (.readCreated key id)) := by
  refine ⟨fun key' id' => ?_, h.ordered.concat fun key' id' => ?_, h.linked, h.owned, h.closing⟩
  · have hbalance := h.balance key' id'
    have hreading : (a.notify (.readCreated key id)).reading key' id' = a.reading key' id' := rfl
    rw [Agent.readsCreated, Agent.readsCompleted, Agent.notify, List.count_append,
      List.count_append, List.count_singleton, List.count_singleton, ← Agent.notify, hreading]
    rw [Agent.readsCreated, Agent.readsCompleted, List.count_cons] at hbalance
    simp only [beq_iff_eq, Prod.mk.injEq, Callback.readCreated.injEq, reduceCtorEq,
      if_false] at hbalance ⊢
    omega
  · have hbefore := h.ordered _ (List.prefix_refl _) key' id'
    rw [List.count_append, List.count_append, List.count_singleton, List.count_singleton]
    simp only [beq_iff_eq, reduceCtorEq, if_false]
    omega

theorem notifyComplete {key : ClientSessionKey} {id : ℕ} (h : Owing [] ((key, id) :: ended) a) :
    Owing [] ended (a.notify (.readComplete key id)) := by
  have hcount : ∀ key' id', (a.notify (.readComplete key id)).readsCreated key' id' =
      (a.notify (.readComplete key id)).readsCompleted key' id' + a.reading key' id' +
        ended.count (key', id') := by
    intro key' id'
    have hbalance := h.balance key' id'
    rw [Agent.readsCreated, Agent.readsCompleted, Agent.notify, List.count_append,
      List.count_append, List.count_singleton, List.count_singleton]
    rw [Agent.readsCreated, Agent.readsCompleted, List.count_cons, List.count_nil] at hbalance
    simp only [beq_iff_eq, Prod.mk.injEq, Callback.readComplete.injEq, reduceCtorEq,
      if_false] at hbalance ⊢
    omega
  refine ⟨hcount, h.ordered.concat fun key' id' => ?_, h.linked, h.owned, h.closing⟩
  change (a.notify (.readComplete key id)).readsCompleted key' id' ≤
    (a.notify (.readComplete key id)).readsCreated key' id'
  rw [hcount, Nat.add_assoc]
  exact Nat.le_add_right _ _

/-- A read that was not announced may end without notice. -/
theorem withdraw {p : ClientSessionKey × ℕ} (h : Owing (p :: started) (p :: ended) a) :
    Owing started ended a := by
  refine ⟨fun key id => ?_, h.ordered, h.linked, h.owned, h.closing⟩
  have hbalance := h.balance key id
  rw [List.count_cons, List.count_cons] at hbalance
  omega

/-- A new attached resource has no read, and is linked or lost. -/
theorem takeAttached (h : Owing started ended a) {x : AttachedResource} (hx : x.readReq = none)
    (hp : b.poolResources = a.poolResources.take x) (hc : b.callbacks = a.callbacks)
    (hold : ∀ key s', b.sessions.lookup key = some s' → ∃ s, a.sessions.lookup key = some s ∧
      s'.deleted = s.deleted ∧ s'.semCleanup = s.semCleanup ∧
      ∀ n ∈ s'.resources, n ∈ s.resources ∨ (n = a.poolResources.next ∧ x.session = key))
    (hnew : ∀ key s, a.sessions.lookup key = some s → ∃ s', b.sessions.lookup key = some s' ∧
      s.resources ⊆ s'.resources) : Owing started ended b := by
  have hnext : b.poolResources.next = a.poolResources.next + 1 := by rw [hp]; rfl
  have hself : b.attached a.poolResources.next = x := by
    rw [Agent.attached, hp]
    exact BufferPool.content_take_self _ _
  have hother : ∀ m, m ≠ a.poolResources.next → b.attached m = a.attached m := by
    intro m hm
    rw [Agent.attached, hp]
    exact BufferPool.content_take_of_ne _ _ hm
  refine ⟨fun key id => ?_, hc ▸ h.ordered, fun m hm => ?_, fun key s' hs' m hm => ?_,
    fun key s' hs' hsem => ?_⟩
  · have hreading : b.reading key id = a.reading key id := by
      rw [Agent.reading, hnext, List.range_succ, List.countP_append, List.countP_singleton,
        Agent.readsFor, hself, hx, Option.isSome_none, Bool.and_false, if_neg Bool.false_ne_true,
        Nat.add_zero]
      refine List.countP_congr fun m hm => ?_
      rw [Agent.readsFor, hother m (Nat.ne_of_lt (List.mem_range.1 hm)), Agent.readsFor]
    rw [Agent.readsCreated, Agent.readsCompleted, hc, hreading]
    exact h.balance key id
  · by_cases heq : m = a.poolResources.next
    · subst heq
      rw [hself, hx] at hm
      cases hm
    · rw [hother m heq] at hm ⊢
      obtain ⟨hkind, s, hs, hmem⟩ := h.linked m hm
      obtain ⟨s', hs', hsub⟩ := hnew _ s hs
      exact ⟨hkind, s', hs', hsub hmem⟩
  · obtain ⟨s, hs, -, -, hmem⟩ := hold key s' hs'
    rcases hmem m hm with hm | ⟨rfl, hkey⟩
    · obtain ⟨hlt, hsession⟩ := h.owned key s hs m hm
      rw [hnext, hother m (Nat.ne_of_lt hlt)]
      exact ⟨Nat.lt_succ_of_lt hlt, hsession⟩
    · rw [hnext, hself]
      exact ⟨Nat.lt_succ_self _, hkey⟩
  · obtain ⟨s, hs, hdel, hclean, hmem⟩ := hold key s' hs'
    obtain ⟨hdeleted, hidle⟩ := h.closing key s hs (hclean.symm.trans hsem)
    refine ⟨hdel.trans hdeleted, fun m hm => ?_⟩
    rcases hmem m hm with hm | ⟨rfl, -⟩
    · rw [hother m (Nat.ne_of_lt (h.owned key s hs m hm).1)]
      exact hidle m hm
    · rw [hself]
      exact hx

theorem leak (h : Owing started ended a) {x : AttachedResource} (hx : x.readReq = none) :
    Owing started ended { a with poolResources := a.poolResources.take x } :=
  h.takeAttached hx rfl rfl (fun _ s hs => ⟨s, hs, rfl, rfl, fun _ hn => .inl hn⟩)
    fun _ s hs => ⟨s, hs, fun _ hn => hn⟩

theorem link (h : Owing started ended a) (key : ClientSessionKey) (id : ℕ) (rid : ResourceId)
    (r : Resource) : Owing started ended (a.link key id rid r) := by
  have hlookup : ∀ key', (a.link key id rid r).sessions.lookup key' =
      if key' = key then (a.sessions.lookup key').map fun s =>
        { s with resources := s.resources ++ [a.poolResources.next] }
      else a.sessions.lookup key' := fun _ => AList.lookup_modify _ _ _ _
  refine h.takeAttached rfl rfl rfl (fun key' s' hs' => ?_) fun key' s hs => ?_
  · rw [hlookup] at hs'
    split at hs'
    · rename_i heq
      obtain ⟨s, hs, rfl⟩ := Option.map_eq_some_iff.1 hs'
      refine ⟨s, hs, rfl, rfl, fun n hn => ?_⟩
      rcases List.mem_append.1 hn with hn | hn
      · exact .inl hn
      · exact .inr ⟨List.mem_singleton.1 hn, heq.symm⟩
    · exact ⟨s', hs', rfl, rfl, fun _ hn => .inl hn⟩
  · rw [hlookup, hs]
    split
    · exact ⟨_, rfl, List.subset_append_left _ _⟩
    · exact ⟨s, rfl, fun _ hn => hn⟩

theorem insertSession (h : Owing started ended a) {key : ClientSessionKey} {s : ClientSession}
    (hnew : a.sessions.lookup key = none) (hempty : s.resources = [])
    (hopen : s.semCleanup = false) : Owing started ended (a.insertSession key s) := by
  have hlookup : ∀ key', (a.insertSession key s).sessions.lookup key' =
      if key' = key then some s else a.sessions.lookup key' := by
    intro key'
    split
    · rename_i heq
      rw [heq]
      exact AList.lookup_insert _
    · rename_i hne
      exact AList.lookup_insert_ne hne
  refine ⟨h.balance, h.ordered, fun m hm => ?_, fun key' s' hs' m hm => ?_,
    fun key' s' hs' hsem => ?_⟩
  · obtain ⟨hkind, s', hs', hmem⟩ := h.linked m hm
    refine ⟨hkind, s', ?_, hmem⟩
    have hne : (a.attached m).session ≠ key := by
      rintro heq
      rw [heq, hnew] at hs'
      cases hs'
    exact (hlookup _).trans ((if_neg hne).trans hs')
  · rw [hlookup] at hs'
    split at hs'
    · obtain rfl := Option.some.inj hs'
      rw [hempty] at hm
      cases hm
    · exact h.owned key' s' hs' m hm
  · rw [hlookup] at hs'
    split at hs'
    · obtain rfl := Option.some.inj hs'
      rw [hopen] at hsem
      cases hsem
    · exact h.closing key' s' hs' hsem

/-- A session is removed when none of its attached resources has a read. -/
theorem eraseSession (h : Owing started ended a) {key : ClientSessionKey}
    (hidle : ∀ n, (a.attached n).session = key → (a.attached n).readReq = none) :
    Owing started ended (a.eraseSession key) := by
  refine ⟨h.balance, h.ordered, fun m hm => ?_,
    fun key' s hs => h.owned key' s (AList.lookup_of_lookup_erase hs),
    fun key' s hs => h.closing key' s (AList.lookup_of_lookup_erase hs)⟩
  obtain ⟨hkind, s, hs, hmem⟩ := h.linked m hm
  refine ⟨hkind, s, ?_, hmem⟩
  have hne : (a.attached m).session ≠ key := by
    intro heq
    change (a.attached m).readReq.isSome = true at hm
    rw [hidle m heq] at hm
    cases hm
  exact (AList.lookup_erase_ne hne).trans hs

/-- The closer of a deleted session is told to go on when no read is left. -/
theorem giveCleanup (h : Owing started ended a) {key : ClientSessionKey}
    (hdone : ∀ s, a.sessions.lookup key = some s → s.deleted = true ∧
      ∀ n ∈ s.resources, (a.attached n).readReq = none) :
    Owing started ended (a.updateSession key fun s => { s with semCleanup := true }) := by
  have hold : ∀ key' s', (a.updateSession key fun s =>
      { s with semCleanup := true }).sessions.lookup key' = some s' →
      ∃ s, a.sessions.lookup key' = some s ∧ s'.resources = s.resources ∧
        s'.deleted = s.deleted ∧ (key' = key ∨ s' = s) := by
    intro key' s' hs'
    rw [Agent.lookup_updateSession] at hs'
    split at hs'
    · rename_i heq
      obtain ⟨s, hs, rfl⟩ := Option.map_eq_some_iff.1 hs'
      exact ⟨s, hs, rfl, rfl, .inl heq⟩
    · exact ⟨s', hs', rfl, rfl, .inr rfl⟩
  refine ⟨h.balance, h.ordered, fun m hm => ?_, fun key' s' hs' m hm => ?_,
    fun key' s' hs' hsem => ?_⟩
  · obtain ⟨hkind, s, hs, hmem⟩ := h.linked m hm
    refine ⟨hkind, ?_⟩
    change ∃ s', (a.updateSession key _).sessions.lookup (a.attached m).session = _ ∧ _
    rw [Agent.lookup_updateSession, hs]
    split
    · exact ⟨_, rfl, hmem⟩
    · exact ⟨s, rfl, hmem⟩
  · obtain ⟨s, hs, hlist, -⟩ := hold key' s' hs'
    exact h.owned key' s hs m (hlist ▸ hm)
  · obtain ⟨s, hs, hlist, hdel, heq⟩ := hold key' s' hs'
    rw [hlist, hdel]
    rcases heq with rfl | rfl
    · exact hdone s hs
    · exact h.closing key' s' hs hsem

end Owing

end NanoAgent
