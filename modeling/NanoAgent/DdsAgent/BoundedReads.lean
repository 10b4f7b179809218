import NanoAgent.DdsAgent.ReadTally

/-!
# Bounded reads

A read may be limited to a number of samples and to a time. The limits are evaluated
outside the loop over a batch, a sample that the interface retains is counted when it is
returned, and a read with both limits is complete only when it has reached both.
`reads_bounded` is about the runs in which this makes no difference.
-/

namespace NanoAgent

open Prog

/-- Every read has at most one limit, and no more samples were accepted for it than its
limit allows. -/
structure WithinBounds (a : Agent) : Prop where
  known : ∀ n rd, (a.attached n).readReq = some rd → rd < a.poolReads.next
  unused : ∀ rd, a.poolReads.next ≤ rd → (a.tally rd).accepted = 0
  single : ∀ rd < a.poolReads.next, (a.tally rd).samplesMax = 0 ∨ (a.tally rd).maxElapsedTs = 0
  bounded : ∀ rd < a.poolReads.next, (a.tally rd).samplesMax ≠ 0 →
    (a.tally rd).accepted ≤ (a.tally rd).samplesMax

namespace WithinBounds

variable {a b : Agent}

theorem of_kept (h : WithinBounds a) (hb : TalliesKept a b) : WithinBounds b where
  known n rd hrd := hb.next ▸ h.known n rd (hb.readReq n rd hrd)
  unused rd hrd := by
    rw [hb.next] at hrd
    rw [hb.tally]
    exact h.unused rd hrd
  single rd hrd := by
    rw [hb.next] at hrd
    rw [hb.tally]
    exact h.single rd hrd
  bounded rd hrd := by
    rw [hb.next] at hrd
    rw [hb.tally]
    exact h.bounded rd hrd

theorem countReturn (h : WithinBounds a) (key : ClientSessionKey) (n rd d : ℕ) :
    WithinBounds (a.countReturn key n rd d) := by
  obtain ⟨hnext, htally, hreq⟩ := AgentM.countReturn_counted a key n rd d
  constructor
  · intro m q hq
    rw [hnext]
    exact h.known m q (hreq m q hq)
  · intro q hq
    rw [htally]
    exact h.unused q (hnext ▸ hq)
  · intro q hq
    rw [htally]
    exact h.single q (hnext ▸ hq)
  · intro q hq
    rw [htally]
    exact h.bounded q (hnext ▸ hq)

/-- A batch that fits into what is left of a limit. -/
theorem of_served (h : WithinBounds a) {req : ℕ} {unretained : Prop}
    (hb : Served req unretained a b) (hreq : req < a.poolReads.next)
    (hfit : (a.readAt req).samplesMax ≠ 0 → b.accepted req ≤ (a.readAt req).samplesMax) :
    WithinBounds b := by
  have hself : (b.tally req).samplesMax = (a.tally req).samplesMax ∧
      (b.tally req).maxElapsedTs = (a.tally req).maxElapsedTs := ⟨hb.samplesMax, hb.maxElapsedTs⟩
  constructor
  · intro n rd hrd
    rw [hb.next]
    exact h.known n rd (hb.readReq n ▸ hrd)
  · intro rd hrd
    rw [hb.next] at hrd
    rw [hb.others rd (by omega)]
    exact h.unused rd hrd
  · intro rd hrd
    rw [hb.next] at hrd
    by_cases hq : rd = req
    · subst hq
      rw [hself.1, hself.2]
      exact h.single rd hrd
    · rw [hb.others rd hq]
      exact h.single rd hrd
  · intro rd hrd
    rw [hb.next] at hrd
    by_cases hq : rd = req
    · subst hq
      rw [hself.1]
      exact hfit
    · rw [hb.others rd hq]
      exact h.bounded rd hrd

end WithinBounds

/-- From `a` to `b` a new read is started, with the limits `x` and `y`. -/
structure Starting (x y : ℕ) (a b : Agent) : Prop where
  next : b.poolReads.next = a.poolReads.next + 1
  others : ∀ q, q ≠ a.poolReads.next → b.tally q = a.tally q
  accepted : b.accepted a.poolReads.next = a.accepted a.poolReads.next
  samplesMax : (b.readAt a.poolReads.next).samplesMax = x
  maxElapsedTs : (b.readAt a.poolReads.next).maxElapsedTs = y
  readReq : ∀ m q, (b.attached m).readReq = some q →
    (a.attached m).readReq = some q ∨ q = a.poolReads.next

theorem WithinBounds.of_starting {x y : ℕ} {a b : Agent} (h : WithinBounds a)
    (hb : Starting x y a b) (hxy : x = 0 ∨ y = 0) : WithinBounds b := by
  constructor
  · intro m q hq
    rw [hb.next]
    rcases hb.readReq m q hq with hq | rfl
    · exact Nat.lt_succ_of_lt (h.known m q hq)
    · exact Nat.lt_succ_self _
  · intro q hq
    rw [hb.next] at hq
    rw [hb.others q (by omega)]
    exact h.unused q (by omega)
  · intro q hq
    rw [hb.next] at hq
    by_cases hnew : q = a.poolReads.next
    · subst hnew
      rw [← hb.samplesMax, ← hb.maxElapsedTs] at hxy
      exact hxy
    · rw [hb.others q hnew]
      exact h.single q (by omega)
  · intro q hq
    rw [hb.next] at hq
    by_cases hnew : q = a.poolReads.next
    · subst hnew
      intro _
      have hzero : b.accepted a.poolReads.next = 0 := hb.accepted.trans (h.unused _ le_rfl)
      change b.accepted a.poolReads.next ≤ _
      omega
    · rw [hb.others q hnew]
      exact h.bounded q (by omega)

theorem Starting.takeRead (a : Agent) (key : ClientSessionKey) (n : ℕ) :
    Starting 0 0 a (a.takeRead key n) where
  next := rfl
  others q hq := by
    have hread : (a.takeRead key n).readAt q = a.readAt q := BufferPool.content_take_of_ne _ _ hq
    rw [Agent.tally, hread]
    rfl
  accepted := rfl
  samplesMax := congrArg Read.samplesMax (BufferPool.content_take_self _ _)
  maxElapsedTs := congrArg Read.maxElapsedTs (BufferPool.content_take_self _ _)
  readReq m q hq := by
    rw [Agent.takeRead, Agent.attached_updateAttached] at hq
    split at hq
    · exact .inr (Option.some.inj hq).symm
    · exact .inl hq

/-- The limits of the new read are written. -/
theorem Starting.updateRead {x y x' y' : ℕ} {a b : Agent} (h : Starting x y a b)
    {f : Read → Read} (hx : (f (b.readAt a.poolReads.next)).samplesMax = x')
    (hy : (f (b.readAt a.poolReads.next)).maxElapsedTs = y') :
    Starting x' y' a (b.updateRead a.poolReads.next f) where
  next := h.next
  others q hq := by
    have hread : (b.updateRead a.poolReads.next f).readAt q = b.readAt q := by
      rw [Agent.readAt_updateRead, if_neg hq]
    rw [← h.others q hq, Agent.tally, hread]
    rfl
  accepted := h.accepted
  samplesMax := by
    rw [Agent.readAt_updateRead, if_pos rfl]
    exact hx
  maxElapsedTs := by
    rw [Agent.readAt_updateRead, if_pos rfl]
    exact hy
  readReq := h.readReq

namespace AgentM

variable (env : Env)

/-- A read that is started has one limit at most. -/
theorem registerReadEA_withinBounds {key : ClientSessionKey} {n : ℕ} {rid : ResourceId}
    {r : Resource} {spec : ReadSpecification}
    (hspec : spec.maxSamples = 0 ∨ spec.maxElapsedTime = 0) :
    Preserves WithinBounds (registerReadEA env key n rid r spec) := by
  intro a ha
  rw [registerReadEA, read_bind_apply]
  refine keeps_ensure ha fun _ => ?_
  rw [modify_bind_apply]
  have htake := Starting.takeRead a key n
  have h₁ := ha.of_starting htake (.inl rfl)
  refine keeps_ensure h₁ fun _ => ?_
  rw [modify_bind_apply]
  set b : Agent := (a.takeRead key n).updateRead a.poolReads.next fun x =>
    { x with lastSample := (a.takeRead key n).startPosition n,
             samplePace := readPeriod spec.minPacePeriod,
             maxElapsedTs := readPeriod spec.maxElapsedTime }
  have hb : Starting 0 (readPeriod spec.maxElapsedTime) a b := htake.updateRead htake.samplesMax rfl
  have h₂ := ha.of_starting hb (.inl rfl)
  refine keeps_bind (fun _ => ?_) fun _ _ => ?_
  · exact keeps_onlyIf h₂ fun _ => h₂
  have hstate : (onlyIf spec.contentFilterExpr.isSome (ensure (env.ok (.allocate .read n))) b).2 =
      b := by
    cases spec.contentFilterExpr.isSome <;> rfl
  rw [hstate]
  refine keeps_ensure h₂ fun _ => ?_
  rw [modify_bind_apply]
  have hc : Starting spec.maxSamples (readPeriod spec.maxElapsedTime) a
      (b.updateRead a.poolReads.next fun x =>
        { x with contentFilterExpr := spec.contentFilterExpr, samplesMax := spec.maxSamples,
                 startTs := env.clock 0 }) := hb.updateRead rfl hb.maxElapsedTs
  have hlimits : spec.maxSamples = 0 ∨ readPeriod spec.maxElapsedTime = 0 := by
    rcases hspec with hmax | helapsed
    · exact .inl hmax
    · exact .inr (by rw [helapsed, readPeriod_zero])
  have h₃ := ha.of_starting hc hlimits
  have hrest : Within TalliesKept (do
      let reader ← deref rid r
      onReader reader (Reader.newRequest env a.poolReads.next spec.contentFilterExpr)
      ensure (env.ok (.postEvent .read n))) := by
    refine .bind (fun d => .of_idle (deref_idle rid r d)) fun reader =>
      .bind (fun d => ?_) fun _ => ?_
    · exact .of_idle (.of_native (onReader_nativeFrame _ _ d))
    · exact .ensure _
  exact h₃.of_kept (hrest _)

theorem readData_withinBounds {key : ClientSessionKey} {id : ℕ} {spec : ReadSpecification}
    (hspec : spec.maxSamples = 0 ∨ spec.maxElapsedTime = 0) :
    Preserves WithinBounds (readData env key id spec) := by
  have hidle : ∀ {α : Type} {x : AgentM α}, Within Idle x → Preserves WithinBounds x :=
    fun h a ha => ha.of_kept (.of_idle (h a))
  have hread : ∀ n, Preserves WithinBounds (readEA env key n spec) := by
    intro n
    refine .bind (.onFailure (.read fun a => .bind ?_ fun found => ?_) ?_) fun _ => ?_
    · exact hidle (lookupResource_frame _ _ _)
    · refine .bind (.require _) fun r => .bind (.ensure _) fun _ => .bind ?_ fun _ => ?_
      · exact .onlyIf fun _ => hidle (cancelReadEA_idle env n _)
      · exact registerReadEA_withinBounds env hspec
    · refine hidle (.modify fun b => ?_)
      unfold Agent.discardRead
      cases (b.attached n).readReq with
      | none => exact .rfl' b
      | some rd => exact ⟨rfl, fun _ => rfl, fun _ => rfl, fun _ _ h => h⟩
    · exact .read fun _ => .ensure _
  refine .bind (hidle (findAttachedReader_frame key id)) fun n => .bind (hread n) fun _ => ?_
  refine .ite (fun _ => ?_) fun _ => .bind (.ignore (hidle (cancelReadI_idle env n))) fun _ => .fail
  exact hidle (.modify fun b => .notify b fun _ => rfl)

end AgentM

/-- The time that a read may take has passed. -/
def Read.TimeUp (r : Read) (now : ℕ) : Prop :=
  r.maxElapsedTs ≠ 0 ∧ r.maxElapsedTs ≤ now - r.startTs

/-- A read with one limit is complete when it has reached it. -/
theorem Read.isComplete_of_limit {r : Read} {now : ℕ}
    (hsingle : r.samplesMax = 0 ∨ r.maxElapsedTs = 0)
    (h : (r.samplesMax ≠ 0 ∧ r.samplesMax ≤ r.samplesRcvd) ∨ r.TimeUp now) :
    r.isComplete now = (true, true) := by
  unfold isComplete
  rcases h with ⟨hmax, hle⟩ | ⟨hmax, hle⟩
  · have helapsed : r.maxElapsedTs = 0 := hsingle.resolve_left hmax
    have hnot : ¬ r.samplesRcvd < r.samplesMax := Nat.not_lt.2 hle
    simp [helapsed, hmax, hnot]
  · have hsamples : r.samplesMax = 0 := hsingle.resolve_right hmax
    have hnot : ¬ now - r.startTs < r.maxElapsedTs := Nat.not_lt.2 hle
    simp [hsamples, hmax, hnot]

namespace Agent

/-- A limit of a read has been reached: as many samples were accepted as it may have, or its
time has passed. -/
def LimitReached (a : Agent) (rd now : ℕ) : Prop :=
  ((a.readAt rd).samplesMax ≠ 0 ∧ (a.readAt rd).samplesMax ≤ a.accepted rd) ∨
    (a.readAt rd).TimeUp now

/-- The calls of `Read.isComplete` in an operation: the read, the time and the state in which
it is called. -/
inductive Evaluates (a : Agent) : Operation × Env → ℕ → ℕ → Agent → Prop
  | first {env : Env} {rd n req : ℕ} {b : Agent} :
      AgentM.toFirstEvaluation env rd a = (some (n, req), b) →
      Evaluates a (.dataEvent rd, env) req (env.clock 0) b
  | last {env : Env} {rd n req : ℕ} {b : Agent} :
      AgentM.toLastEvaluation env rd a = (some (n, req), b) →
      Evaluates a (.dataEvent rd, env) req (env.clock 1) b
  | loan {i : Operation × Env} {env : Env} {src d n rd : ℕ} {key : ClientSessionKey}
      {b : Agent} : a.ReturnsLoan i env src key d b → Lent b src key d n rd →
      b.countsReturn env n = true → Evaluates a i rd (env.clock 0) (b.countReturn key n rd d)

/-- What the limits of reads mean for an operation: no sample is processed when the time of
its read has passed, and a read that has reached a limit is found and marked complete. -/
structure RespectsLimits (a : Agent) (i : Operation × Env) : Prop where
  timely : ∀ rd env n req samples b, i = (.dataEvent rd, env) →
    AgentM.toLoop env rd a = (some (n, req, samples), b) →
    (∃ smp ∈ samples, smp.validData = true) → ¬ (b.readAt req).TimeUp (env.clock 0)
  completes : ∀ rd now b, Evaluates a i rd now b → b.LimitReached rd now →
    (b.readAt rd).isComplete now = (true, true) ∧ ((a.step i).readAt rd).complete = true

/-- A read is started with one limit at most. A data event is served only when the samples
accepted so far and the new ones of the batch stay below the limit of the read, or just
reach it with no sample retained and all of them counted. -/
def FitsServing (a : Agent) : Operation × Env → Prop
  | (.readData _ _ spec, _) => spec.maxSamples = 0 ∨ spec.maxElapsedTime = 0
  | (.dataEvent rd, env) =>
      (∀ n req b, AgentM.toFirstEvaluation env rd a = (some (n, req), b) →
        (b.readAt req).samplesMax ≠ 0 → b.accepted req < (b.readAt req).samplesMax ∨
          b.accepted req ≤ (b.readAt req).samplesRcvd) ∧
      ∀ n req samples b, AgentM.toLoop env rd a = (some (n, req, samples), b) →
        (b.readAt req).samplesMax ≠ 0 →
        b.accepted req + (AgentM.freshSamples (b.readAt req).lastSample samples).length <
          (b.readAt req).samplesMax ∨
        (b.accepted req + (AgentM.freshSamples (b.readAt req).lastSample samples).length ≤
            (b.readAt req).samplesMax ∧
          b.accepted req ≤ (b.readAt req).samplesRcvd ∧
          ∀ smp ∈ samples, ∀ ret, env.delivery smp = .accepted ret → ret = false)
  | _ => True

/-- A loan is returned, by an operation or in a callback, only when fewer samples were
accepted than the limit says, or when it is the last one to be counted. -/
def FitsReturn (a : Agent) (rd : ℕ) : Prop :=
  (a.readAt rd).samplesMax ≠ 0 → a.accepted rd < (a.readAt rd).samplesMax ∨
    a.accepted rd ≤ (a.readAt rd).samplesRcvd + 1

/-- The step fits the limits of the reads that it starts, serves or takes loans back from. -/
def Fits (a : Agent) (i : Operation × Env) : Prop :=
  a.FitsServing i ∧ ∀ env src key d b, a.ReturnsLoan i env src key d b →
    ∀ n rd, Lent b src key d n rd → b.countsReturn env n = true → b.FitsReturn rd

end Agent

namespace WithinBounds

open Agent

variable {a : Agent} {env : Env}

theorem of_initial (h : a.Initial) : WithinBounds a where
  known n rd hrd := by
    rw [h.readReq n] at hrd
    cases hrd
  unused rd _ := by
    change a.accepted rd = 0
    rw [Agent.accepted, h.callbacks]
    rfl
  single rd hrd := by
    rw [h.readsNext] at hrd
    cases hrd
  bounded rd hrd := by
    rw [h.readsNext] at hrd
    cases hrd

/-- The read that a data event serves, up to its loop. -/
theorem toFirstEvaluation (h : WithinBounds a) {rd n req : ℕ} {b : Agent}
    (hfirst : AgentM.toFirstEvaluation env rd a = (some (n, req), b)) :
    WithinBounds b ∧ req < b.poolReads.next ∧ (b.attached n).readReq = some req := by
  obtain ⟨hkept, hreq⟩ := AgentM.toFirstEvaluation_kept env hfirst
  have hb := h.of_kept (.of_bare hkept)
  exact ⟨hb, hb.known n req hreq, hreq⟩

theorem toLoop (h : WithinBounds a) {rd n req : ℕ} {samples : List Sample} {b : Agent}
    (hloop : AgentM.toLoop env rd a = (some (n, req, samples), b)) :
    WithinBounds b ∧ req < b.poolReads.next ∧ (b.attached n).readReq = some req ∧
      (b.readAt req).isComplete (env.clock 0) ≠ (true, true) := by
  obtain ⟨c, batch, hfirst, hbounds, hdds, -⟩ := AgentM.toLoop_eq_some env hloop
  obtain ⟨hc, hlt, -⟩ := h.toFirstEvaluation hfirst
  obtain ⟨-, hreq⟩ := AgentM.toLoop_kept env hloop
  have hapart : Apart c b := by
    have h := AgentM.readFromReaderDdsEA_apart env n c
    rwa [hdds] at h
  refine ⟨hc.of_kept (.of_idle hapart.idle), ?_, hreq, fun hcomplete => ?_⟩
  · rw [hapart.poolReads]
    exact hlt
  · have hread : b.readAt req = c.readAt req := by
      rw [Agent.readAt, hapart.poolReads, Agent.readAt]
    rw [hread] at hcomplete
    rw [hcomplete] at hbounds
    cases hbounds

theorem dataEvent (h : WithinBounds a) {rd : ℕ} (hfit : a.FitsServing (.dataEvent rd, env)) :
    WithinBounds (a.step (.dataEvent rd, env)) := by
  rcases AgentM.onDataOnReader_cases env rd a with hkept | ⟨n, req, samples, b, hloop, -, -, hend⟩
  · exact h.of_kept (.of_bare hkept)
  obtain ⟨hb, hlt, hreq, -⟩ := h.toLoop hloop
  obtain ⟨hserved, hcount⟩ : Served req False b (AgentM.processSamplesEA env
      (a.readAt rd).sessionKey n (env.clock 0) samples false b).2 ∧ _ ≤ _ :=
    AgentM.processSamplesEA_served env samples false (fun h => h.elim) hreq
  refine (hb.of_served hserved hlt fun hmax => ?_).of_kept (.of_bare hend)
  rcases hfit.2 n req samples b hloop hmax with hlt | ⟨hle, -⟩
  · exact Nat.le_of_lt (Nat.lt_of_le_of_lt hcount hlt)
  · exact Nat.le_trans hcount hle

/-- The return of a loan keeps the bounds, whether or not it fits them. -/
theorem returnLoan (env : Env) (src : ℕ) (key : ClientSessionKey) (d : ℕ) :
    Preserves WithinBounds (AgentM.returnLoan env src key d) := by
  intro a ha
  rcases AgentM.returnLoan_cases env src key d a with ⟨-, h⟩ | ⟨n, rd, -, ⟨-, h⟩ | ⟨-, h⟩⟩
  · rw [h]
    exact ha
  · rw [h]
    exact ha.of_kept (.of_bare (AgentM.takeBack_kept a key n rd d))
  · rw [h]
    have hclose := AgentM.closeReturn_kept env key n rd (a.attached n).resource
      (a.countReturn key n rd d)
    exact (ha.countReturn key n rd d).of_kept (.of_bare hclose)

theorem step (h : WithinBounds a) {i : Operation × Env} (hfit : a.FitsServing i) :
    WithinBounds (a.step i) := by
  obtain ⟨o, env⟩ := i
  have hidle : ∀ {a b}, Idle a b → WithinBounds a → WithinBounds b :=
    fun hb ha => ha.of_kept (.of_idle hb)
  cases hserves : o.servesRead with
  | false => exact hidle (a.step_idle env hserves) h
  | true =>
      cases o with
      | readData key id spec => exact AgentM.readData_withinBounds env hfit a h
      | dataEvent rd => exact h.dataEvent hfit
      | returnLoan src key d => exact returnLoan env src key d a h
      | openSession src key timeout data =>
          exact AgentM.openSession_within hidle returnLoan src key timeout data a h
      | sessionTimeout key => exact AgentM.onSessionTimeout_within hidle returnLoan key a h
      | cleanupReads =>
          exact Within.read (R := fun b c => WithinBounds b → WithinBounds c) (fun _ =>
            .bind (.ensure _) fun _ => AgentM.onCleanupReads_within hidle returnLoan) a h
      | _ => cases hserves

/-- The limit that a read has reached is seen by the first evaluation of a data event. -/
theorem first_complete (h : WithinBounds a) {rd n req : ℕ} {b : Agent}
    (hfirst : AgentM.toFirstEvaluation env rd a = (some (n, req), b))
    (hfit : (b.readAt req).samplesMax ≠ 0 → b.accepted req < (b.readAt req).samplesMax ∨
      b.accepted req ≤ (b.readAt req).samplesRcvd)
    (hlimit : b.LimitReached req (env.clock 0)) :
    (b.readAt req).isComplete (env.clock 0) = (true, true) := by
  obtain ⟨hb, hlt, -⟩ := h.toFirstEvaluation hfirst
  refine Read.isComplete_of_limit (hb.single req hlt) ?_
  rcases hlimit with ⟨hmax, hle⟩ | htime
  · have hcounted : b.accepted req ≤ (b.readAt req).samplesRcvd := by
      rcases hfit hmax with hfit | hfit
      · omega
      · exact hfit
    exact .inl ⟨hmax, Nat.le_trans hle hcounted⟩
  · exact .inr htime

/-- The limit that a read has reached is seen by the evaluation that follows the loop. -/
theorem last_complete (h : WithinBounds a) {rd n req : ℕ} {b : Agent}
    (hfit : a.FitsServing (.dataEvent rd, env))
    (hlast : AgentM.toLastEvaluation env rd a = (some (n, req), b))
    (hlimit : b.LimitReached req (env.clock 1)) :
    (b.readAt req).isComplete (env.clock 1) = (true, true) := by
  rw [AgentM.toLastEvaluation, read_bind_apply] at hlast
  obtain ⟨⟨m, q, samples⟩, c, hloop, hlast⟩ := bind_eq_some.1 hlast
  rw [read_bind_apply] at hlast
  obtain ⟨exit, e, hexit, hlast⟩ := bind_eq_some.1 hlast
  obtain ⟨_, _, hensure, hlast⟩ := bind_eq_some.1 hlast
  obtain ⟨-, rfl⟩ := ensure_eq_some.1 hensure
  obtain ⟨_, _, hensure₂, hlast⟩ := bind_eq_some.1 hlast
  obtain ⟨-, rfl⟩ := ensure_eq_some.1 hensure₂
  obtain ⟨heq, rfl⟩ := pure_eq_some.1 hlast
  cases heq
  obtain ⟨hc, hlt, hreq, -⟩ := h.toLoop hloop
  change e.LimitReached q (env.clock 1) at hlimit
  change (e.readAt q).isComplete (env.clock 1) = (true, true)
  obtain ⟨hserved, hcount⟩ : Served q (∀ smp ∈ samples, ∀ ret, env.delivery smp = .accepted ret →
        ret = false) c e ∧ e.accepted q ≤
      c.accepted q + (AgentM.freshSamples (c.readAt q).lastSample samples).length := by
    have hstate : (AgentM.processSamplesEA env (a.readAt rd).sessionKey m (env.clock 0) samples
        false c).2 = e := congrArg Prod.snd hexit
    rw [← hstate]
    exact AgentM.processSamplesEA_served env samples false (fun h => h) hreq
  have hsingle : (e.readAt q).samplesMax = 0 ∨ (e.readAt q).maxElapsedTs = 0 := by
    rw [hserved.samplesMax, hserved.maxElapsedTs]
    exact hc.single q hlt
  refine Read.isComplete_of_limit hsingle ?_
  rcases hlimit with ⟨hmax, hle⟩ | htime
  · refine .inl ⟨hmax, ?_⟩
    rw [hserved.samplesMax] at hmax hle ⊢
    rcases hfit.2 m q samples c hloop hmax with hless | ⟨-, hcounted, hret⟩
    · omega
    · have hall := hserved.counted hret
      omega
  · exact .inr htime

/-- The limit that a read has reached is seen by the evaluation at the return of a loan. -/
theorem loan_complete (h : WithinBounds a) {key : ClientSessionKey} {n rd d : ℕ}
    (hknown : rd < a.poolReads.next) (hfit : a.FitsReturn rd)
    (hlimit : (a.countReturn key n rd d).LimitReached rd (env.clock 0)) :
    ((a.countReturn key n rd d).readAt rd).isComplete (env.clock 0) = (true, true) := by
  obtain ⟨hnext, htally, -⟩ := AgentM.countReturn_counted a key n rd d
  have hmax : ((a.countReturn key n rd d).readAt rd).samplesMax =
      (a.readAt rd).samplesMax := congrArg Tally.samplesMax (htally rd)
  have hacc : (a.countReturn key n rd d).accepted rd = a.accepted rd :=
    congrArg Tally.accepted (htally rd)
  have hrcvd : ((a.countReturn key n rd d).readAt rd).samplesRcvd =
      (a.readAt rd).samplesRcvd + 1 := by
    have hone := congrArg Tally.rcvd (htally rd)
    rw [if_pos rfl] at hone
    exact hone
  refine Read.isComplete_of_limit ((h.countReturn key n rd d).single rd (hnext ▸ hknown)) ?_
  rcases hlimit with ⟨hne, hle⟩ | htime
  · refine .inl ⟨hne, ?_⟩
    rw [hmax] at hne
    rw [hmax, hacc] at hle
    rw [hmax, hrcvd]
    rcases hfit hne with hfit | hfit
    · omega
    · omega
  · exact .inr htime

/-- A read that was marked complete stays so in the rest of a step with callbacks. -/
def KeepsComplete (a b : Agent) : Prop :=
  ∀ rd, (a.readAt rd).complete = true → (b.readAt rd).complete = true

instance : IsPreorder Agent KeepsComplete where
  refl _ _ h := h
  trans _ _ _ h h' rd hrd := h' rd (h rd hrd)

theorem KeepsComplete.of_idle {a b : Agent} (h : Idle a b) : KeepsComplete a b := by
  intro rd hrd
  rwa [h.readAt]

theorem KeepsComplete.updateRead (a : Agent) (rd : ℕ) {f : Read → Read}
    (hf : ∀ r, r.complete = true → (f r).complete = true) :
    KeepsComplete a (a.updateRead rd f) := by
  intro q hq
  rw [Agent.readAt_updateRead]
  split
  · exact hf _ hq
  · exact hq

theorem keepsComplete_returnLoan (env : Env) (src : ℕ) (key : ClientSessionKey) (d : ℕ) :
    Within KeepsComplete (AgentM.returnLoan env src key d) := by
  have hclose : ∀ n rd rid, Within KeepsComplete (AgentM.closeReturn env key n rd rid) := by
    intro n rd rid
    refine .read fun a => .ite (fun _ => ?_) fun _ => .ensure _
    refine .bind (.modify fun b => .updateRead b rd fun _ _ => rfl) fun _ => ?_
    refine .ite (fun _ => .bind (fun b => ?_) fun _ => .bind (.ensure _) fun _ => ?_) fun _ =>
      .ensure _
    · exact .of_idle (AgentM.cancelReadEA_idle env n rid b)
    · exact .modify fun _ _ h => h
  intro a
  have hback : ∀ n rd, KeepsComplete a (a.takeBack key n rd d) := fun n rd =>
    KeepsComplete.updateRead (f := fun r => { r with samples := r.samples.erase d }) a rd
      fun _ h => h
  rcases AgentM.returnLoan_cases env src key d a with ⟨-, h⟩ | ⟨n, rd, -, ⟨-, h⟩ | ⟨-, h⟩⟩
  · rw [h]
    exact refl a
  · rw [h]
    exact hback n rd
  · rw [h]
    have hcount : KeepsComplete a (a.countReturn key n rd d) :=
      IsTrans.trans _ _ _ (hback n rd) (.updateRead _ rd fun _ h => h)
    exact IsTrans.trans _ _ _ hcount (hclose n rd _ _)

theorem respectsLimits (h : WithinBounds a) {i : Operation × Env} (hfit : a.Fits i) :
    a.RespectsLimits i where
  timely := by
    rintro rd env n req samples b rfl hloop - htime
    obtain ⟨hb, hlt, -, hnot⟩ := h.toLoop hloop
    exact hnot (Read.isComplete_of_limit (hb.single req hlt) (.inr htime))
  completes := by
    intro rd now b heval hlimit
    cases heval with
    | first hfirst =>
        have hcomplete := h.first_complete hfirst (hfit.1.1 _ _ _ hfirst) hlimit
        exact ⟨hcomplete, AgentM.onDataOnReader_first_complete _ hfirst hcomplete⟩
    | last hlast =>
        have hcomplete := h.last_complete hfit.1 hlast hlimit
        exact ⟨hcomplete, AgentM.onDataOnReader_last_complete _ hlast hcomplete⟩
    | @loan _ env src d n _ key t hret hlent hcounts =>
        have ht : WithinBounds t := hret.before (R := fun b c => WithinBounds b → WithinBounds c)
          (fun hb ha => ha.of_kept (.of_idle hb)) returnLoan h
        have hcomplete := ht.loan_complete (ht.known n rd hlent.readReq)
          (hfit.2 env src key d t hret n rd hlent hcounts) hlimit
        refine ⟨hcomplete, hret.after (R := KeepsComplete) .of_idle keepsComplete_returnLoan rd ?_⟩
        rw [AgentM.returnLoan_lent hlent, if_pos hcounts]
        exact AgentM.closeReturn_complete env hcomplete

end WithinBounds

namespace Agent

/-- In a run whose steps fit the limits of the reads, no read is given more samples than its
limit, no sample is processed when the time of its read has passed, and a read that has
reached its limit is marked complete by the next evaluation. -/
theorem reads_bounded {a : Agent} (h : a.ReachedWhen Fits) :
    (∀ rd < a.poolReads.next, (a.readAt rd).samplesMax ≠ 0 →
      a.accepted rd ≤ (a.readAt rd).samplesMax) ∧
    ∀ i, a.Fits i → a.RespectsLimits i := by
  have hbounds : WithinBounds a :=
    Reachable.invariant (I := WithinBounds) (fun _ h₀ => .of_initial h₀)
      (fun _ _ hs hok => hs.step hok.1) h
  exact ⟨hbounds.bounded, fun i hi => hbounds.respectsLimits hi⟩

/-- A read of at most `limit` samples is served, on a data reader that has received two. -/
def twoCached (limit : ℕ) : List (Operation × Env) :=
  [(.openSession 0 ⟨1, 1⟩ 0 none, .obliging (.one ⟨12, .dataReader, .guid 3, 11, 13⟩)),
    (.createResource ⟨1, 1⟩ ⟨3, .dataReader, .xml "", 0, false, false⟩,
      .obliging (.one ⟨12, .dataReader, .guid 3, 11, 13⟩)),
    (.changeCache 0 [⟨1, true, 0⟩, ⟨2, true, 0⟩], .obliging ⟨true, [], []⟩),
    (.readData ⟨1, 1⟩ 3 ⟨0, 0, limit, none⟩, .obliging ⟨true, [], []⟩),
    (.dataEvent 0, .obliging ⟨true, [], []⟩)]

/-- Two samples fit into a read of at most three. -/
theorem reads_bounded_twoCached :
    ((started false .firstCached).after (twoCached 3)).accepted 0 ≤ 3 ∧
      ∀ i, ((started false .firstCached).after (twoCached 3)).Fits i →
        ((started false .firstCached).after (twoCached 3)).RespectsLimits i := by
  have hfits : ∀ {a : Agent} {o factory}, (∀ src key d, o ≠ Operation.returnLoan src key d) →
      a.FitsServing (o, .obliging factory) → a.Fits (o, .obliging factory) := by
    refine fun hno hserving => ⟨hserving, fun env src key d b hret => ?_⟩
    obtain ⟨heq, -⟩ := hret.eq_operation fun _ => rfl
    exact absurd (congrArg Prod.fst heq) (hno src key d)
  have h₄ : ((started false .firstCached).after ((twoCached 3).take 4)).ReachedWhen Fits :=
    .next _ (.next _ (.next _ (.next _ (.start (started_initial _ _)) (hfits (by simp) trivial))
      (hfits (by simp) trivial)) (hfits (by simp) trivial)) (hfits (by simp) (.inr rfl))
  have h₅ : ((started false .firstCached).after (twoCached 3)).ReachedWhen Fits := by
    refine .next _ h₄ (hfits (by simp)
      ⟨fun n req b hfirst _ => .inl ?_, fun n req samples b hloop _ => .inl ?_⟩)
    · obtain rfl : 0 = req := by
        have h := congrArg (fun x => x.1.map Prod.snd) hfirst
        exact Option.some.inj (Eq.trans (by decide) h)
      obtain rfl : _ = b := congrArg Prod.snd hfirst
      decide
    · obtain rfl : 0 = req := by
        have h := congrArg (fun x => x.1.map fun y => y.2.1) hloop
        exact Option.some.inj (Eq.trans (by decide) h)
      obtain rfl : [⟨1, true, 0⟩, ⟨2, true, 0⟩] = samples := by
        have h := congrArg (fun x => x.1.map fun y => y.2.2) hloop
        exact Option.some.inj (Eq.trans (by decide) h)
      obtain rfl : _ = b := congrArg Prod.snd hloop
      decide
  have hbounded := reads_bounded h₅
  exact ⟨hbounded.1 0 (by decide) (by decide), hbounded.2⟩

/-- Both samples of the batch are accepted for a read of at most one. -/
theorem exceeds_samplesMax :
    ¬ ∀ a : Agent, a.ReachedWhen (fun _ _ => True) →
      (∀ rd < a.poolReads.next, (a.readAt rd).samplesMax ≠ 0 →
        a.accepted rd ≤ (a.readAt rd).samplesMax) ∧ ∀ i, a.RespectsLimits i := by
  intro hall
  have hle := (hall _ (reached_after (started_initial false .firstCached) (twoCached 1))).1 0
    (by decide) (by decide)
  exact absurd hle (by decide)

end Agent

end NanoAgent
