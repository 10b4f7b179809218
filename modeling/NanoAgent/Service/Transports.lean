import NanoAgent.Foundations.StartStop

/-!
# Enabling and disabling the agents

`NDDSA_Agent_start` starts the interfaces of the DDS agent one after the other, and one of
these is the XRCE agent, whose start is `NANO_XRCE_Agent_enable`: it opens the transports of
the agent. When an interface fails, the DDS agent leaves those before it as they are.
When a transport fails, the XRCE agent closes all of its transports, and it does
so on its other errors as well.

`NANO_XRCE_Agent_disable` closes the transports in a loop that goes on with the same
transport after a failure.
-/

namespace NanoAgent

open Prog StartStop

/-- `NDDSA_Agent_start`. The members are the interfaces of the agent, and `onAgentStarted`
what they answer. -/
def startAgent (onAgentStarted : ℕ → Bool) : Prog (Components ℕ) Unit := do
  let a ← read
  if a.started then pure ()
  else do
    forEach a.members (startOne onAgentStarted)
    modify fun a => { a with started := true }

/-- `NANO_XRCE_Agent_enable`. The members are the transports of the agent, `listen` what they
answer when they are opened and `close` when they are closed. -/
def enable (listen close : ℕ → Bool) : Prog (Components ℕ) Unit :=
  onFailure
    (do
      let a ← read
      ensure (!a.started)
      ensure (!a.members.isEmpty)
      forEach a.members (startOne listen)
      modify fun a => { a with started := true })
    (do
      let a ← read
      forEach a.members (stopOne close))

/-- `NANO_XRCE_Agent_disable` in at most `n` rounds of its loop; the result is its return
code. A transport may answer differently when it is closed again. -/
def disable (close : ℕ → ℕ → Bool) (n : ℕ) (a : Components ℕ) : Option (Bool × Components ℕ) :=
  if a.started then
    (Loop.runLoop (stopPass close) n (a.members, [])).map fun calls =>
      (true, { a with started := false, calls := a.calls ++ calls })
  else some (false, a)

/-- What is asked of a call that fails: it comes to nothing, leaves open what was open
before, and marks nothing. -/
structure FailsClean (a b : Components ℕ) : Prop where
  undone : ∃ new, b.calls = a.calls ++ new ∧ AllOrNothing new ∧
    (a.started = true → ∀ i, stops i new = 0)
  unmarked : b.started = a.started

/-- What is asked of closing the transports: it ends, every transport is closed once, and
success means that none refused. -/
def ClosesOnce (close : ℕ → ℕ → Bool) (a : Components ℕ) : Prop :=
  ∃ n rc b new, disable close n a = some (rc, b) ∧ b.calls = a.calls ++ new ∧
    (∀ t ∈ a.members, stops t new = 1) ∧ (rc = true → ∀ t, .stop t false ∉ new)

/-- `NANO_XRCE_Udpv4AgentTransport`: its threads, and whether it has a socket for metadata. -/
structure Udpv4AgentTransport where
  recvThread : Bool
  metadataThread : Bool
  metadataSocket : Bool
  active : Bool
  deriving DecidableEq, Repr

/-- The answers of the system while a transport is opened or closed. -/
structure SystemAnswers where
  newRecvThread : Bool
  newMetadataThread : Bool
  sendWakeup : Bool
  sendMetadataWakeup : Bool
  deriving DecidableEq, Repr

namespace Udpv4AgentTransport

/-- `NANO_XRCE_Udpv4AgentTransport_listen`. -/
def listen (env : SystemAnswers) : Prog Udpv4AgentTransport Unit := do
  modify fun u => { u with active := true }
  onFailure
    (do
      modify fun u => { u with recvThread := env.newRecvThread }
      ensure env.newRecvThread
      let u ← read
      onlyIf u.metadataSocket do
        modify fun u => { u with metadataThread := env.newMetadataThread }
        ensure env.newMetadataThread)
    (modify fun u => { u with recvThread := false, metadataThread := false })

/-- `NANO_XRCE_Udpv4AgentTransport_close`. A thread is deleted when it was woken up. -/
def close (env : SystemAnswers) : Prog Udpv4AgentTransport Unit := do
  modify fun u => { u with active := false }
  ensure env.sendWakeup
  modify fun u => { u with recvThread := false }
  let u ← read
  onlyIf u.metadataThread do
    ensure env.sendMetadataWakeup
    modify fun u => { u with metadataThread := false }

/-- The precondition of `NANO_XRCE_Udpv4AgentTransport_close`. -/
def Closable (u : Udpv4AgentTransport) : Prop := u.recvThread = true

/-- A transport may be closed when it was opened, and not when that failed. -/
theorem closable_listen_iff (env : SystemAnswers) (u : Udpv4AgentTransport) :
    (listen env u).2.Closable ↔ (listen env u).1.isSome = true := by
  obtain ⟨recvThread, metadataThread, metadataSocket, active⟩ := u
  cases hrecv : env.newRecvThread <;> cases metadataSocket <;>
    cases hmetadata : env.newMetadataThread <;>
    simp [listen, onFailure, ensure, hrecv, hmetadata, Closable, bind_apply]

/-- A transport whose close failed may be closed again only if its receive thread was not
woken up. -/
theorem closable_close_iff (env : SystemAnswers) {u : Udpv4AgentTransport} (hu : u.Closable) :
    (close env u).2.Closable ↔ env.sendWakeup = false := by
  obtain ⟨recvThread, metadataThread, metadataSocket, active⟩ := u
  obtain rfl : recvThread = true := hu
  cases hwakeup : env.sendWakeup <;> cases metadataThread <;>
    cases hmetadata : env.sendMetadataWakeup <;>
    simp [close, ensure, hwakeup, hmetadata, Closable, bind_apply]

end Udpv4AgentTransport

section Start

variable {a : Components ℕ} {accepts close : ℕ → Bool}

theorem startAgent_of_stopped (h : a.started = false) : startAgent accepts a =
    if a.members.all accepts then
      (some (), { a with started := true, calls := a.calls ++ startCalls accepts a.members })
    else (none, { a with calls := a.calls ++ startCalls accepts a.members }) := by
  rw [startAgent, read_bind_apply, h, if_neg Bool.false_ne_true, bind_apply, forEach_startOne]
  cases a.members.all accepts with
  | false => simp [h]
  | true => rfl

theorem startAgent_failsClean_iff :
    ((startAgent accepts a).1 = none → FailsClean a (startAgent accepts a).2) ↔
      a.started = true ∨ (∀ i ∈ a.members, accepts i = true) ∨
        ∀ i ∈ a.members.head?, accepts i = false := by
  cases hstarted : a.started with
  | true =>
      refine iff_of_true (fun h => ?_) (.inl rfl)
      simp [startAgent, hstarted] at h
  | false =>
      rw [startAgent_of_stopped hstarted]
      by_cases hall : ∀ i ∈ a.members, accepts i = true
      · rw [if_pos (List.all_eq_true.2 hall)]
        exact iff_of_true (fun h => by cases h) (.inr (.inl hall))
      · rw [if_neg fun h => hall (List.all_eq_true.1 h)]
        simp only [hall, false_or, Bool.false_eq_true, true_implies]
        rw [← allOrNothing_startCalls_iff]
        constructor
        · rintro ⟨⟨new, hnew, hclean, -⟩, -⟩
          rwa [List.append_cancel_left hnew]
        · intro hclean
          refine ⟨⟨_, rfl, hclean, fun h => ?_⟩, rfl⟩
          rw [hstarted] at h
          cases h

theorem enable_of_started (h : a.started = true) : enable accepts close a =
    (none, { a with calls := a.calls ++ a.members.map fun t => .stop t (close t) }) := by
  simp [enable, onFailure, ensure, h, forEach_stopOne, bind_apply]

theorem enable_of_empty (h : a.members = []) : enable accepts close a = (none, a) := by
  cases hstarted : a.started <;> simp [enable, onFailure, ensure, h, hstarted, forEach, bind_apply]

theorem enable_of_stopped (h : a.started = false) (hne : a.members ≠ []) :
    enable accepts close a =
      if a.members.all accepts then
        (some (), { a with started := true, calls := a.calls ++ startCalls accepts a.members })
      else
        (none, { a with calls := a.calls ++ (startCalls accepts a.members ++
          a.members.map fun t => .stop t (close t)) }) := by
  have hempty : (!a.members.isEmpty) = true := by simp [hne]
  simp only [enable, onFailure, read_bind_apply, h, Bool.not_false, ensure_true_bind_apply, hempty]
  rw [bind_apply, forEach_startOne]
  cases a.members.all accepts with
  | false => simp [forEach_stopOne, h]
  | true => rfl

theorem enable_failsClean_iff :
    ((enable accepts close a).1 = none → FailsClean a (enable accepts close a).2) ↔
      a.members = [] ∨ a.started = false ∧ ∀ t ∈ a.members, accepts t = true := by
  by_cases hempty : a.members = []
  · rw [enable_of_empty hempty]
    exact iff_of_true (fun _ => ⟨⟨[], by simp, .nil, fun _ _ => rfl⟩, rfl⟩) (.inl hempty)
  · obtain ⟨t, l, hmembers⟩ := List.exists_cons_of_ne_nil hempty
    have ht : t ∈ a.members := by simp [hmembers]
    cases hstarted : a.started with
    | true =>
        rw [enable_of_started hstarted]
        -- the transports were opened by an earlier call, and are closed by this one
        refine iff_of_false (fun h => ?_) (by simp [hempty])
        obtain ⟨⟨new, hnew, -, hopen⟩, -⟩ := h rfl
        obtain rfl := List.append_cancel_left hnew
        exact absurd (hopen hstarted t) (Nat.ne_of_gt (stops_map_pos close ht))
    | false =>
        rw [enable_of_stopped hstarted hempty]
        by_cases hall : ∀ t ∈ a.members, accepts t = true
        · rw [if_pos (List.all_eq_true.2 hall)]
          exact iff_of_true (fun h => by cases h) (.inr ⟨rfl, hall⟩)
        · rw [if_neg fun h => hall (List.all_eq_true.1 h)]
          refine iff_of_false (fun h => ?_) (by simp [hempty, hall])
          obtain ⟨⟨new, hnew, hclean, -⟩, -⟩ := h rfl
          obtain rfl := List.append_cancel_left hnew
          obtain ⟨i, hi⟩ := not_forall.1 hall
          obtain ⟨hmem, hrefused⟩ := Classical.not_imp.1 hi
          exact not_allOrNothing_of_refused close hmem (by simpa using hrefused) hclean

/-- When a transport over UDP cannot be opened, one is closed without its receive thread. -/
theorem enable_closes_unopened (u : ℕ → Udpv4AgentTransport) (env : ℕ → SystemAnswers)
    (hstopped : a.started = false)
    (hfails : ∃ t ∈ a.members, ((u t).listen (env t)).1.isSome = false) :
    ∃ t, .stop t (close t) ∈
        (enable (fun t => ((u t).listen (env t)).1.isSome) close a).2.calls ∧
      ¬ ((u t).listen (env t)).2.Closable := by
  obtain ⟨t, ht, hrefused⟩ := hfails
  have hne : a.members ≠ [] := List.ne_nil_of_mem ht
  have hall : ¬ a.members.all (fun t => ((u t).listen (env t)).1.isSome) = true := by
    intro hall
    rw [List.all_eq_true.1 hall t ht] at hrefused
    cases hrefused
  refine ⟨t, ?_, ?_⟩
  · rw [enable_of_stopped hstopped hne, if_neg hall]
    simp [ht]
  · rw [Udpv4AgentTransport.closable_listen_iff, hrefused]
    simp

/-- **A start that fails.** The start of the DDS agent comes to nothing when it does not get
past its first interface, and the start of the XRCE agent only when there is no
transport. -/
theorem starts_failClean_iff (a : Components ℕ) (accepts close : ℕ → Bool) :
    (((startAgent accepts a).1 = none → FailsClean a (startAgent accepts a).2) ↔
      a.started = true ∨ (∀ i ∈ a.members, accepts i = true) ∨
        ∀ i ∈ a.members.head?, accepts i = false) ∧
    (((enable accepts close a).1 = none → FailsClean a (enable accepts close a).2) ↔
      a.members = [] ∨ a.started = false ∧ ∀ t ∈ a.members, accepts t = true) :=
  ⟨startAgent_failsClean_iff, enable_failsClean_iff⟩

/-- Two components to which no call was made. -/
def twoComponents (started : Bool) : Components ℕ := ⟨[0, 1], by decide, started, []⟩

/-- The second transport cannot be opened, and is closed. -/
theorem not_starts_failClean :
    ¬ ∀ (a : Components ℕ) (listen close : ℕ → Bool), (enable listen close a).1 = none →
      FailsClean a (enable listen close a).2 := by
  intro hall
  have hclean := hall (twoComponents false) (fun t => t = 0) (fun _ => true)
  exact absurd (enable_failsClean_iff.1 hclean) (by decide)

end Start

section Disable

variable {a : Components ℕ} {close : ℕ → ℕ → Bool}

theorem disable_of_stopped (h : a.started = false) (n : ℕ) :
    disable close n a = some (false, a) := by
  simp [disable, h]

/-- An agent that is not enabled closes nothing. -/
theorem closesOnce_of_stopped_iff (h : a.started = false) :
    ClosesOnce close a ↔ a.members = [] := by
  constructor
  · rintro ⟨n, rc, b, new, hrun, hnew, honce, -⟩
    rw [disable_of_stopped h, Option.some.injEq, Prod.mk.injEq] at hrun
    obtain ⟨-, rfl⟩ := hrun
    have hnil : new = [] := by simpa using hnew
    rw [List.eq_nil_iff_forall_not_mem]
    intro t ht
    have hzero := honce t ht
    rw [hnil] at hzero
    cases hzero
  · intro hempty
    refine ⟨0, false, a, [], disable_of_stopped h 0, by simp, ?_, fun hrc => by cases hrc⟩
    rw [hempty]
    exact fun t ht => by cases ht

theorem disable_of_started (h : a.started = true) (n : ℕ) : disable close n a =
    (Loop.runLoop (stopPass close) n (a.members, [])).map fun calls =>
      (true, { a with started := false, calls := a.calls ++ calls }) := by
  rw [disable, if_pos h]

theorem closesOnce_of_started_iff (h : a.started = true) :
    ClosesOnce close a ↔ ∀ t ∈ a.members, close t 0 = true := by
  constructor
  · rintro ⟨n, rc, b, new, hrun, hnew, honce, -⟩ t ht
    rw [disable_of_started h, Option.map_eq_some_iff] at hrun
    obtain ⟨calls, hcalls, heq⟩ := hrun
    rw [Prod.mk.injEq] at heq
    rw [← heq.2] at hnew
    obtain rfl := List.append_cancel_left hnew
    have hstops := stops_of_runLoop hcalls t
    rw [honce t ht, if_pos ht] at hstops
    by_contra hrefused
    rw [show stops t ([] : List (StartStop.Call ℕ)) = 0 from rfl, if_neg hrefused] at hstops
    omega
  · intro hclose
    have hrun := @runLoop_of_stopped _ _ _ _ a.distinct [] hclose
    refine ⟨_, true, _, _, (disable_of_started h _).trans (congrArg (Option.map _) hrun), rfl,
      fun t ht => ?_, fun _ t hmem => ?_⟩
    · rw [List.nil_append, stops_map_stop]
      exact List.count_eq_one_of_mem a.distinct ht
    · simp at hmem

/-- **Disabling the XRCE agent.** The loop ends with every transport closed once exactly when
the agent is enabled and no transport refuses to be closed. -/
theorem closesOnce_iff (a : Components ℕ) (close : ℕ → ℕ → Bool) :
    ClosesOnce close a ↔
      (a.started = true ∨ a.members = []) ∧ ∀ t ∈ a.members, close t 0 = true := by
  cases hstarted : a.started with
  | true =>
      rw [closesOnce_of_started_iff hstarted]
      simp
  | false =>
      rw [closesOnce_of_stopped_iff hstarted]
      simp only [Bool.false_eq_true, false_or]
      refine ⟨fun hempty => ⟨hempty, ?_⟩, And.left⟩
      rw [hempty]
      exact fun t ht => by cases ht

/-- The loop stays at the first transport when that never closes. -/
theorem disable_eq_none {t : ℕ} {l : List ℕ} (hstarted : a.started = true)
    (hmembers : a.members = t :: l) (h : ∀ k, close t k = false) (n : ℕ) :
    disable close n a = none := by
  rw [disable_of_started hstarted, Option.map_eq_none_iff, hmembers]
  by_contra hrun
  obtain ⟨calls, hcalls⟩ := Option.ne_none_iff_exists'.1 hrun
  exact not_ends_of_refusing h [] ⟨n, calls, hcalls⟩

/-- The first of two transports never closes. -/
theorem not_closesOnce : ¬ ∀ (a : Components ℕ) (close : ℕ → ℕ → Bool), a.started = true →
    ClosesOnce close a := by
  intro hall
  obtain ⟨n, rc, b, new, hrun, -⟩ := hall (twoComponents true) (fun t _ => t = 1) rfl
  rw [disable_eq_none rfl rfl fun _ => by decide] at hrun
  cases hrun

end Disable

end NanoAgent
