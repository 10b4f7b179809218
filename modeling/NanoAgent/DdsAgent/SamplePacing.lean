import NanoAgent.DdsAgent.PostedRetries
import NanoAgent.DdsAgent.ResumePosition
import Mathlib.Data.List.Chain

/-!
# The pace of a read

A read may ask for a least time between its samples. `processSampleEA` compares the time
since the last accepted sample with it, and a data event takes all its samples at one
reading of the clock, so that a batch gives a paced read one sample at most (`Paces`).
`ReadTimes` follows the readings at which samples were accepted. A sample that is not taken
is offered again after `retryDelay`, with which the event of the read is posted: the agent
logs the events that were posted so (`Agent.retries`).
-/

namespace NanoAgent

open Prog

/-- Consecutive times are at least `pace` apart. -/
def Spaced (pace : ℕ) (times : List ℕ) : Prop := times.IsChain fun s t => s + pace ≤ t

theorem spaced_nil (pace : ℕ) : Spaced pace [] := List.isChain_nil

theorem Spaced.snoc {pace t : ℕ} {times : List ℕ} (h : Spaced pace times)
    (ht : times.getLastD 0 + pace ≤ t) : Spaced pace (times ++ [t]) := by
  refine List.isChain_append.2 ⟨h, List.isChain_singleton t, fun s hs u hu => ?_⟩
  have hlast : times.getLastD 0 = s := by
    rw [List.getLastD_eq_getLast?, hs, Option.getD_some]
  have hhead : t = u := Option.some.inj hu
  rw [← hlast, ← hhead]
  exact ht

/-- The delay after which a sample that is not taken at the time `now` is offered again: the
rest of the pace, or a millisecond when the interface does not take it. -/
def Read.retryDelay (r : Read) (now : ℕ) : ℕ :=
  if r.samplePace ≠ 0 ∧ now - r.lastSampleTs < r.samplePace then
    r.samplePace - (now - r.lastSampleTs)
  else packFromMillisec 0 1

/-- From `a` to `b` samples are accepted for the read `req` at the time `now`, one at most when
it has a pace, and then the pace has passed. -/
structure Paces (now req : ℕ) (a b : Agent) : Prop where
  next : b.poolReads.next = a.poolReads.next
  others : ∀ rd, rd ≠ req → b.readAt rd = a.readAt rd ∧ b.accepted rd = a.accepted rd
  samplePace : (b.readAt req).samplePace = (a.readAt req).samplePace
  grows : a.accepted req ≤ b.accepted req
  same : b.accepted req = a.accepted req → (b.readAt req).lastSampleTs = (a.readAt req).lastSampleTs
  stamped : b.accepted req ≠ a.accepted req → (b.readAt req).lastSampleTs = now
  paced : b.accepted req ≠ a.accepted req → (a.readAt req).samplePace ≠ 0 →
    b.accepted req = a.accepted req + 1 ∧
      (a.readAt req).lastSampleTs + (a.readAt req).samplePace ≤ now
  readReq : ∀ n, (b.attached n).readReq = (a.attached n).readReq

namespace Paces

variable {now req : ℕ} {a b c : Agent}

theorem of_apart (h : Apart a b) : Paces now req a b where
  next := by rw [h.poolReads]
  others rd _ := by simp only [Agent.readAt, Agent.accepted, h.poolReads, h.callbacks, and_self]
  samplePace := by rw [Agent.readAt, h.poolReads, Agent.readAt]
  grows := by rw [Agent.accepted, Agent.accepted, h.callbacks]
  same _ := by rw [Agent.readAt, h.poolReads, Agent.readAt]
  stamped hne := by
    rw [Agent.accepted, Agent.accepted, h.callbacks] at hne
    exact absurd rfl hne
  paced hne := by
    rw [Agent.accepted, Agent.accepted, h.callbacks] at hne
    exact absurd rfl hne
  readReq n := by rw [Agent.attached, h.poolResources, Agent.attached]

/-- After one sample of a batch the pace has not passed for the next. -/
theorem trans' (h : Paces now req a b) (h' : Paces now req b c) : Paces now req a c where
  next := h'.next.trans h.next
  others rd hrd := ⟨(h'.others rd hrd).1.trans (h.others rd hrd).1,
    (h'.others rd hrd).2.trans (h.others rd hrd).2⟩
  samplePace := h'.samplePace.trans h.samplePace
  grows := Nat.le_trans h.grows h'.grows
  same heq := by
    have hb := h.grows
    have hc := h'.grows
    rw [h'.same (by omega), h.same (by omega)]
  stamped hne := by
    by_cases hc : c.accepted req = b.accepted req
    · rw [h'.same hc]
      exact h.stamped (by omega)
    · exact h'.stamped hc
  paced hne hpace := by
    by_cases hb : b.accepted req = a.accepted req
    · have hc := h'.paced (by omega) (by rwa [h.samplePace])
      rw [hb, h.same hb, h.samplePace] at hc
      exact hc
    · have hone := h.paced hb hpace
      by_cases hc : c.accepted req = b.accepted req
      · rw [hc]
        exact hone
      · have hnext := (h'.paced hc (by rwa [h.samplePace])).2
        rw [h.stamped hb, h.samplePace] at hnext
        omega
  readReq n := (h'.readReq n).trans (h.readReq n)

end Paces

/-- An accepted sample, when the pace has passed. -/
theorem Agent.paces_acceptSample (a : Agent) (n rd d : ℕ) (smp : Sample) (retained : Bool)
    (now : ℕ) (hpace : (a.readAt rd).samplePace ≠ 0 →
      (a.readAt rd).lastSampleTs + (a.readAt rd).samplePace ≤ now) :
    Paces now rd a (a.acceptSample n rd d smp retained now) where
  next := by
    unfold acceptSample
    cases retained <;> rfl
  others q hq := by
    rw [readAt_acceptSample, if_neg hq, accepted_acceptSample, if_neg hq]
    exact ⟨rfl, rfl⟩
  samplePace := by rw [readAt_acceptSample, if_pos rfl]
  grows := by
    rw [accepted_acceptSample]
    exact Nat.le_add_right _ _
  same heq := by
    rw [accepted_acceptSample, if_pos rfl] at heq
    omega
  stamped _ := by rw [readAt_acceptSample, if_pos rfl]
  paced _ hne := by
    rw [accepted_acceptSample, if_pos rfl]
    exact ⟨rfl, hpace hne⟩
  readReq := readReq_acceptSample a n rd d smp retained now

namespace AgentM

variable (env : Env)

/-- The exits of offering a sample: it is passed over, it is to be offered again after the
delay of the read, or it is accepted. -/
inductive PaceExit (now req : ℕ) (a : Agent) : Option Processed → Agent → Prop
  | failed {b : Agent} : Apart a b → PaceExit now req a none b
  | old {b : Agent} : Apart a b → PaceExit now req a (some .old) b
  | retry {b : Agent} : Apart a b →
      PaceExit now req a (some (.retry ((a.readAt req).retryDelay now))) b
  | delivered {b : Agent} : Paces now req a b → PaceExit now req a (some .delivered) b

theorem processSampleEA_paces (key : ClientSessionKey) {n req : ℕ} (smp : Sample) (now : ℕ)
    {a : Agent} (hreq : (a.attached n).readReq = some req) :
    PaceExit now req a (processSampleEA env key n smp now a).1
      (processSampleEA env key n smp now a).2 := by
  have hstay : Apart a a := refl a
  rw [processSampleEA, read_bind_apply]
  refine exits_require (.failed hstay) fun rd hrd => ?_
  obtain rfl : req = rd := Option.some.inj (hreq.symm.trans hrd)
  split
  · exact .old hstay
  split
  · rename_i hwait
    simp only [Bool.and_eq_true, bne_iff_ne, decide_eq_true_eq] at hwait
    have hdelay : (a.readAt req).retryDelay now =
        (a.readAt req).samplePace - (now - (a.readAt req).lastSampleTs) := if_pos hwait
    change PaceExit now req a (some (.retry _)) a
    rw [← hdelay]
    exact .retry hstay
  · rename_i hgo
    simp only [Bool.and_eq_true, bne_iff_ne, decide_eq_true_eq] at hgo
    have hdelay : (a.readAt req).retryDelay now = packFromMillisec 0 1 := if_neg hgo
    refine exits_ensure (.failed hstay) fun _ => ?_
    have hconv := convertSampleEA_apart env key n smp a
    refine exits_bind (fun _ => .failed hconv) fun d _ => ?_
    generalize (convertSampleEA env key n smp a).2 = b at hconv
    have hrecycle : Apart a (b.recycle key d) := ⟨hconv.1, hconv.2, hconv.3⟩
    cases env.delivery smp with
    | error => exact .failed hrecycle
    | tryAgain =>
        change PaceExit now req a (some (.retry (packFromMillisec 0 1))) (b.recycle key d)
        rw [← hdelay]
        exact .retry hrecycle
    | accepted retained =>
        refine .delivered ((Paces.of_apart hconv).trans' (b.paces_acceptSample n req d smp retained
          now fun hpace => ?_))
        rw [Agent.readAt, hconv.poolReads] at hpace ⊢
        change (a.readAt req).samplePace ≠ 0 at hpace
        change (a.readAt req).lastSampleTs + (a.readAt req).samplePace ≤ now
        have hlong : ¬ now - (a.readAt req).lastSampleTs < (a.readAt req).samplePace :=
          fun h => hgo ⟨hpace, h⟩
        omega

/-- The loop over a batch, and the delay of a sample with which it is left. -/
theorem processSamplesEA_paces (key : ClientSessionKey) {n req : ℕ} (now : ℕ)
    (samples : List Sample) (updated : Bool) {a : Agent}
    (hreq : (a.attached n).readReq = some req) :
    Paces now req a (processSamplesEA env key n now samples updated a).2 ∧
      ∀ exit d, (processSamplesEA env key n now samples updated a).1 = some exit →
        exit.retry = some d →
        d = ((processSamplesEA env key n now samples updated a).2.readAt req).retryDelay now := by
  let K : Option LoopExit → Agent → Prop := fun res b =>
    Paces now req a b ∧ ∀ exit d, res = some exit → exit.retry = some d →
      d = (b.readAt req).retryDelay now
  change K _ _
  induction samples generalizing updated a with
  | nil =>
      refine ⟨.of_apart (refl a), fun exit d hexit hd => ?_⟩
      obtain rfl := Option.some.inj hexit
      cases hd
  | cons smp samples ih =>
      rw [processSamplesEA]
      by_cases hvalid : smp.validData = true
      · rw [if_pos hvalid, bind_apply]
        simp only [attempt]
        have hexit := processSampleEA_paces env key smp now hreq
        -- what follows the first sample starts in a state that has paced the read so far
        have hgo : ∀ updated b, Paces now req a b → K (processSamplesEA env key n now samples
            updated b).1 (processSamplesEA env key n now samples updated b).2 := by
          intro updated b hb
          obtain ⟨hrest, hdelay⟩ := ih updated ((hb.readReq n).trans hreq)
          exact ⟨hb.trans' hrest, hdelay⟩
        generalize processSampleEA env key n smp now a = res at hexit
        rcases res with ⟨res, b⟩
        cases hexit with
        | failed hb =>
            refine ⟨.of_apart hb, fun exit d hexit hd => ?_⟩
            obtain rfl := Option.some.inj hexit
            cases hd
        | old hb => exact hgo updated b (.of_apart hb)
        | retry hb =>
            refine ⟨.of_apart hb, fun exit d hexit hd => ?_⟩
            obtain rfl := Option.some.inj hexit
            obtain rfl := Option.some.inj hd
            rw [Agent.readAt, Agent.readAt, ← hb.poolReads]
            rfl
        | delivered hb => exact hgo true b hb
      · rw [if_neg hvalid]
        exact ih updated hreq

end AgentM

/-- The samples of every read were accepted at the given times, the last of which the read
remembers, with the pace of the read between them. -/
structure PacedBy (times : ℕ → List ℕ) (latest : ℕ) (a : Agent) : Prop where
  known : ∀ n rd, (a.attached n).readReq = some rd → rd < a.poolReads.next
  unused : ∀ rd, a.poolReads.next ≤ rd → times rd = []
  stamped : ∀ rd < a.poolReads.next, (a.readAt rd).lastSampleTs = (times rd).getLastD 0
  spaced : ∀ rd, (a.readAt rd).samplePace ≠ 0 → Spaced (a.readAt rd).samplePace (times rd)
  past : ∀ rd, (times rd).getLastD 0 ≤ latest
  counted : ∀ rd, a.accepted rd = (times rd).length

namespace PacedBy

variable {times : ℕ → List ℕ} {latest : ℕ} {a b : Agent}

theorem of_bare (h : PacedBy times latest a) (hb : BareKept a b) : PacedBy times latest b where
  known n rd hrd := hb.next ▸ h.known n rd (hb.readReq n rd hrd)
  unused rd hrd := h.unused rd (hb.next ▸ hrd)
  stamped rd hrd := by
    rw [hb.view (v := Read.lastSampleTs) fun _ => rfl]
    exact h.stamped rd (hb.next ▸ hrd)
  spaced rd := by
    rw [hb.view (v := Read.samplePace) fun _ => rfl]
    exact h.spaced rd
  past := h.past
  counted rd := (hb.accepted rd).trans (h.counted rd)

theorem mono (h : PacedBy times latest a) {latest' : ℕ} (hle : latest ≤ latest') :
    PacedBy times latest' a :=
  { h with past := fun rd => Nat.le_trans (h.past rd) hle }

/-- A new read, for which no sample was accepted. -/
theorem takeRead (h : PacedBy times latest a) (key : ClientSessionKey) (n : ℕ) :
    PacedBy times latest (a.takeRead key n) where
  known m rd hrd := by
    change rd < a.poolReads.next + 1
    rw [Agent.takeRead, Agent.attached_updateAttached] at hrd
    split at hrd
    · rw [← Option.some.inj hrd]
      exact Nat.lt_succ_self _
    · exact Nat.lt_succ_of_lt (h.known m rd hrd)
  unused rd hrd := h.unused rd (Nat.le_of_succ_le hrd)
  stamped rd hrd := by
    by_cases hnew : rd = a.poolReads.next
    · subst hnew
      rw [h.unused _ le_rfl]
      exact congrArg Read.lastSampleTs (BufferPool.content_take_self _ _)
    · have hread : (a.takeRead key n).readAt rd = a.readAt rd :=
        BufferPool.content_take_of_ne _ _ hnew
      rw [hread]
      exact h.stamped rd (Nat.lt_of_le_of_ne (Nat.le_of_lt_succ hrd) hnew)
  spaced rd := by
    by_cases hnew : rd = a.poolReads.next
    · subst hnew
      rw [h.unused _ le_rfl]
      exact fun _ => spaced_nil _
    · have hread : (a.takeRead key n).readAt rd = a.readAt rd :=
        BufferPool.content_take_of_ne _ _ hnew
      rw [hread]
      exact h.spaced rd
  past := h.past
  counted := h.counted

/-- The pace of a read is written only before its first sample. -/
theorem updateRead (h : PacedBy times latest a) {rd : ℕ} {f : Read → Read}
    (hf : ∀ r, (f r).lastSampleTs = r.lastSampleTs)
    (hpace : times rd = [] ∨ ∀ r, (f r).samplePace = r.samplePace) :
    PacedBy times latest (a.updateRead rd f) where
  known := h.known
  unused := h.unused
  stamped q hq := by
    rw [Agent.readAt_updateRead]
    split
    · rw [hf]
      exact h.stamped q hq
    · exact h.stamped q hq
  spaced q := by
    rw [Agent.readAt_updateRead]
    split
    · subst q
      rcases hpace with hnew | hsame
      · rw [hnew]
        exact fun _ => spaced_nil _
      · rw [hsame]
        exact h.spaced rd
    · exact h.spaced q
  past := h.past
  counted := h.counted

theorem countReturn (h : PacedBy times latest a) (key : ClientSessionKey) (n rd d : ℕ) :
    PacedBy times latest (a.countReturn key n rd d) :=
  (h.of_bare (AgentM.takeBack_kept a key n rd d)).updateRead (fun _ => rfl) (.inr fun _ => rfl)

theorem getLastD_append_replicate (l : List ℕ) (k t : ℕ) :
    (l ++ List.replicate k t).getLastD 0 = if k = 0 then l.getLastD 0 else t := by
  cases k with
  | zero => simp
  | succ k =>
      rw [List.replicate_succ', ← List.append_assoc, List.getLastD_concat]
      rfl

/-- A batch of samples that is offered to a read at the time `now`. -/
theorem of_paces (h : PacedBy times latest a) {now req : ℕ} (hb : Paces now req a b)
    (hreq : req < a.poolReads.next) (hnow : latest ≤ now) :
    PacedBy (fun rd => times rd ++ List.replicate (b.accepted rd - a.accepted rd) now) now b where
  known n rd hrd := by
    rw [hb.next]
    exact h.known n rd (hb.readReq n ▸ hrd)
  unused rd hrd := by
    rw [hb.next] at hrd
    rw [h.unused rd hrd, (hb.others rd (by omega)).2, Nat.sub_self]
    rfl
  stamped rd hrd := by
    rw [hb.next] at hrd
    rw [getLastD_append_replicate]
    by_cases hother : rd = req
    · subst hother
      have hgrows := hb.grows
      split
      · rw [hb.same (by omega)]
        exact h.stamped rd hrd
      · exact hb.stamped (by omega)
    · rw [(hb.others rd hother).1, (hb.others rd hother).2, Nat.sub_self, if_pos rfl]
      exact h.stamped rd hrd
  spaced rd := by
    by_cases hother : rd = req
    · subst hother
      rw [hb.samplePace]
      intro hpace
      by_cases hsame : b.accepted rd = a.accepted rd
      · rw [hsame, Nat.sub_self, List.replicate_zero, List.append_nil]
        exact h.spaced rd hpace
      · obtain ⟨hone, hle⟩ := hb.paced hsame hpace
        have hcount : b.accepted rd - a.accepted rd = 1 := by omega
        rw [hcount]
        refine (h.spaced rd hpace).snoc ?_
        rw [← h.stamped rd hreq]
        exact hle
    · rw [(hb.others rd hother).1, (hb.others rd hother).2, Nat.sub_self, List.replicate_zero,
        List.append_nil]
      exact h.spaced rd
  past rd := by
    rw [getLastD_append_replicate]
    split
    · exact Nat.le_trans (h.past rd) hnow
    · exact le_rfl
  counted rd := by
    rw [List.length_append, List.length_replicate, ← h.counted]
    by_cases hother : rd = req
    · subst hother
      have hgrows := hb.grows
      omega
    · rw [(hb.others rd hother).2]
      omega

end PacedBy

namespace AgentM

variable (env : Env) {times : ℕ → List ℕ} {latest : ℕ}

theorem registerReadEA_pacedBy (key : ClientSessionKey) (n : ℕ) (rid : ResourceId) (r : Resource)
    (spec : ReadSpecification) :
    Preserves (PacedBy times latest) (registerReadEA env key n rid r spec) := by
  intro a ha
  have hnew : times a.poolReads.next = [] := ha.unused _ le_rfl
  rw [registerReadEA, read_bind_apply]
  refine keeps_ensure ha fun _ => ?_
  rw [modify_bind_apply]
  have h₁ := ha.takeRead key n
  refine keeps_ensure h₁ fun _ => ?_
  rw [modify_bind_apply]
  have h₂ := h₁.updateRead (f := fun x =>
    { x with lastSample := (a.takeRead key n).startPosition n
             samplePace := readPeriod spec.minPacePeriod
             maxElapsedTs := readPeriod spec.maxElapsedTime }) (fun _ => rfl) (.inl hnew)
  revert h₂
  refine (show Preserves (PacedBy times latest) _ from ?_) _
  refine .bind (.onlyIf fun _ => .ensure _) fun _ => .bind (.ensure _) fun _ => .bind ?_ fun _ => ?_
  · exact .modify fun b hb => hb.updateRead (fun _ => rfl) (.inl hnew)
  · refine .bind (fun b hb => hb.of_bare (.of_idle (deref_idle rid r b))) fun reader =>
      .bind (fun b hb => ?_) fun _ => .ensure _
    exact hb.of_bare (.of_idle (.of_native (onReader_nativeFrame _ _ b)))

theorem readData_pacedBy (key : ClientSessionKey) (id : ℕ) (spec : ReadSpecification) :
    Preserves (PacedBy times latest) (readData env key id spec) := by
  have hidle : ∀ {α : Type} {x : AgentM α}, Within Idle x → Preserves (PacedBy times latest) x :=
    fun h a ha => ha.of_bare (.of_idle (h a))
  have hread : ∀ n, Preserves (PacedBy times latest) (readEA env key n spec) := by
    intro n
    refine .bind (.onFailure (.read fun a => .bind ?_ fun found => ?_) ?_) fun _ => ?_
    · exact hidle (lookupResource_frame _ _ _)
    · refine .bind (.require _) fun r => .bind (.ensure _) fun _ => .bind ?_ fun _ => ?_
      · exact .onlyIf fun _ => hidle (cancelReadEA_idle env n _)
      · exact registerReadEA_pacedBy env key n _ r spec
    · refine hidle (.modify fun b => ?_)
      unfold Agent.discardRead
      cases (b.attached n).readReq with
      | none => exact .rfl' b
      | some rd => exact ⟨rfl, fun _ => rfl, fun _ => rfl, fun _ _ h => h⟩
    · exact .read fun _ => .ensure _
  refine .bind (hidle (findAttachedReader_frame key id)) fun n => .bind (hread n) fun _ => ?_
  refine .ite (fun _ => ?_) fun _ => .bind (.ignore (hidle (cancelReadI_idle env n))) fun _ => .fail
  exact hidle (.modify fun b => .notify b fun _ => rfl)

theorem returnLoan_pacedBy (src : ℕ) (key : ClientSessionKey) (d : ℕ) :
    Preserves (PacedBy times latest) (returnLoan env src key d) := by
  intro a ha
  rcases returnLoan_cases env src key d a with ⟨-, h⟩ | ⟨n, rd, -, ⟨-, h⟩ | ⟨-, h⟩⟩
  · rw [h]
    exact ha
  · rw [h]
    exact ha.of_bare (takeBack_kept a key n rd d)
  · rw [h]
    exact (ha.countReturn key n rd d).of_bare (closeReturn_kept env key n rd _ _)

/-- A new read has the pace that was asked for. -/
theorem readEA_samplePace (key : ClientSessionKey) (n : ℕ) (spec : ReadSpecification) {a : Agent}
    (h : (readEA env key n spec a).1 = some ()) :
    ∃ rd, ((readEA env key n spec a).2.attached n).readReq = some rd ∧
      ((readEA env key n spec a).2.readAt rd).samplePace =
        packFromMillisec 0 spec.minPacePeriod := by
  let P : Agent → Prop := fun b => ∃ rd, (b.attached n).readReq = some rd ∧
    (b.readAt rd).samplePace = packFromMillisec 0 spec.minPacePeriod
  have hP : ∀ b c, NativeFrame b c → P b → P c := by
    rintro b c hframe ⟨rd, hrd, hpace⟩
    refine ⟨rd, ?_, ?_⟩
    · rwa [Agent.attached, hframe.poolResources]
    · rwa [Agent.readAt, hframe.poolReads]
  refine readEA_succeeds (P := P) env (fun b rid r _ hreg => ?_) h
  refine registerReadEA_succeeds (P := P) env hP ⟨b.poolReads.next, ?_, ?_⟩ hreg
  · simp [setUpRead, Agent.attached, Agent.updateRead, Agent.takeRead, Agent.updateAttached]
  · simp [setUpRead, Agent.readAt, Agent.updateRead, Agent.takeRead, Agent.updateAttached,
      readPeriod_eq]

end AgentM

/-- An agent with the readings of the clock at which the samples of each read were accepted,
and the latest reading. -/
structure ReadTimes where
  agent : Agent
  times : ℕ → List ℕ
  latest : ℕ

namespace ReadTimes

/-- The samples that an operation accepts are accepted at its first reading of the clock. -/
def step (h : ReadTimes) (i : Operation × Env) : ReadTimes where
  agent := h.agent.step i
  times rd := h.times rd ++
    List.replicate ((h.agent.step i).accepted rd - h.agent.accepted rd) (i.2.clock 0)
  latest := i.2.clock 1

structure Initial (h : ReadTimes) : Prop where
  agent : h.agent.Initial
  times : ∀ rd, h.times rd = []

/-- The readings of the clock do not decrease. -/
def Timely (h : ReadTimes) (i : Operation × Env) : Prop :=
  h.latest ≤ i.2.clock 0 ∧ i.2.clock 0 ≤ i.2.clock 1

/-- The runs with any operations, at readings of the clock that do not decrease. -/
abbrev Reached : ReadTimes → Prop := Reachable Initial step Timely

/-- The samples of the reads were accepted at the times of the history. -/
abbrev Paced (h : ReadTimes) : Prop := PacedBy h.times h.latest h.agent

/-- The read for which the loop of a data event ends with a sample to be offered again. -/
def postponed (a : Agent) (rd : ℕ) (env : Env) : Option ℕ :=
  match AgentM.toLoop env rd a with
  | (some (n, req, samples), b) =>
      (AgentM.processSamplesEA env (a.readAt rd).sessionKey n (env.clock 0) samples false b).1.bind
        fun exit => exit.retry.map fun _ => req
  | (none, _) => none

variable {h : ReadTimes}

theorem paced_of_initial (h₀ : h.Initial) : h.Paced where
  known n rd hrd := by
    rw [h₀.agent.readReq n] at hrd
    cases hrd
  unused rd _ := h₀.times rd
  stamped rd hrd := by
    rw [h₀.agent.readsNext] at hrd
    cases hrd
  spaced rd _ := by
    rw [h₀.times]
    exact spaced_nil _
  past rd := by
    rw [h₀.times]
    exact Nat.zero_le _
  counted rd := by
    rw [h₀.times, Agent.accepted, h₀.agent.callbacks]
    rfl

/-- An operation that accepts no sample. -/
theorem paced_of_same {i : Operation × Env} (hi : h.Timely i)
    (hp : PacedBy h.times h.latest (h.agent.step i)) (hpaced : h.Paced) : (h.step i).Paced := by
  have hsame : (h.step i).times = h.times := by
    funext rd
    simp only [step, hp.counted, hpaced.counted, Nat.sub_self, List.replicate_zero,
      List.append_nil]
  change PacedBy (h.step i).times _ _
  rw [hsame]
  exact hp.mono (Nat.le_trans hi.1 hi.2)

theorem dataEvent_paced (hp : h.Paced) {rd : ℕ} {env : Env}
    (hi : h.Timely (.dataEvent rd, env)) : (h.step (.dataEvent rd, env)).Paced := by
  rcases AgentM.onDataOnReader_cases env rd h.agent with
    hkept | ⟨n, req, samples, b, hloop, hbare, hreq, hend⟩
  · exact paced_of_same hi (hp.of_bare hkept) hp
  · have hb := hp.of_bare hbare
    have hpaces := (AgentM.processSamplesEA_paces env (h.agent.readAt rd).sessionKey
      (env.clock 0) samples false hreq).1
    have hdone := (hb.of_paces hpaces (hb.known n req hreq) hi.1).of_bare hend
    have htimes : (h.step (.dataEvent rd, env)).times = fun q => h.times q ++
        List.replicate ((AgentM.processSamplesEA env (h.agent.readAt rd).sessionKey n (env.clock 0)
          samples false b).2.accepted q - b.accepted q) (env.clock 0) := by
      funext q
      rw [← hend.accepted, hbare.accepted]
      rfl
    change PacedBy (h.step (.dataEvent rd, env)).times _ _
    rw [htimes]
    exact hdone.mono hi.2

theorem step_paced (hp : h.Paced) {i : Operation × Env} (hi : h.Timely i) : (h.step i).Paced := by
  obtain ⟨o, env⟩ := i
  let R : Agent → Agent → Prop := fun b c => PacedBy h.times h.latest b → PacedBy h.times h.latest c
  have hidle : ∀ {b c}, Idle b c → R b c := fun hc hb => hb.of_bare (.of_idle hc)
  have hloan : ∀ env src key d, Within R (AgentM.returnLoan env src key d) :=
    fun env => AgentM.returnLoan_pacedBy env
  cases hserves : o.servesRead with
  | false => exact paced_of_same hi (hp.of_bare (.of_idle (h.agent.step_idle env hserves))) hp
  | true =>
      cases o with
      | readData key id spec =>
          exact paced_of_same hi (AgentM.readData_pacedBy env key id spec _ hp) hp
      | dataEvent rd => exact dataEvent_paced hp hi
      | returnLoan src key d =>
          exact paced_of_same hi (AgentM.returnLoan_pacedBy env src key d _ hp) hp
      | openSession src key timeout data =>
          exact paced_of_same hi (AgentM.openSession_within hidle hloan src key timeout
            data _ hp) hp
      | sessionTimeout key =>
          exact paced_of_same hi (AgentM.onSessionTimeout_within hidle hloan key _ hp) hp
      | cleanupReads =>
          refine paced_of_same hi (Within.read (R := R) (fun _ => ?_) _ hp) hp
          exact .bind (.ensure _) fun _ => AgentM.onCleanupReads_within hidle hloan
      | _ => cases hserves

/-- The retry with which the loop of a data event ends is posted, and its delay is that of the
read as the event leaves it. -/
theorem postponed_posts {rd req : ℕ} {env : Env} {a : Agent}
    (hreq : postponed a rd env = some req) :
    (a.step (.dataEvent rd, env)).retries = a.retries ++ AgentM.posted env req
        (some (((a.step (.dataEvent rd, env)).readAt req).retryDelay (env.clock 0))) ∧
      (a.step (.dataEvent rd, env)).poolReads.next = a.poolReads.next ∧
      ∃ n, (a.attached n).readReq = some req := by
  unfold postponed at hreq
  rcases hloop : AgentM.toLoop env rd a with ⟨_ | ⟨n, q, samples⟩, b⟩
  · rw [hloop] at hreq
    cases hreq
  rw [hloop] at hreq
  simp only [Option.bind_eq_some_iff, Option.map_eq_some_iff] at hreq
  obtain ⟨exit, hexit, d, hd, rfl⟩ := hreq
  obtain ⟨hkept, hattached⟩ := AgentM.toLoop_kept env hloop
  obtain ⟨hpaces, hdelay⟩ := AgentM.processSamplesEA_paces env (a.readAt rd).sessionKey
    (env.clock 0) samples false hattached
  have hend := AgentM.onDataOnReader_of_loop env hloop
  have hretries := AgentM.onDataOnReader_retries_of_loop env hloop (eq_of_fst_eq_some hexit)
  have heq : d = ((a.step (.dataEvent rd, env)).readAt q).retryDelay (env.clock 0) := by
    rw [hdelay exit d hexit hd, ← hend.view (v := fun r => r.retryDelay (env.clock 0)) fun _ => rfl]
    rfl
  rw [hd, heq] at hretries
  exact ⟨hretries, hend.next.trans (hpaces.next.trans hkept.next), n, hkept.readReq n q hattached⟩

/-- A data event after which no sample is to be offered again posts no retry. -/
theorem postponed_eq_none {rd : ℕ} {env : Env} {a : Agent} (hnone : postponed a rd env = none) :
    (a.step (.dataEvent rd, env)).retries = a.retries := by
  unfold postponed at hnone
  rcases hloop : AgentM.toLoop env rd a with ⟨_ | ⟨n, q, samples⟩, b⟩
  · exact AgentM.onDataOnReader_retries_of_none env (congrArg Prod.fst hloop)
  rw [hloop] at hnone
  obtain ⟨exit, c, hexit⟩ := AgentM.processSamplesEA_returns env (a.readAt rd).sessionKey n
    (env.clock 0) samples false b
  simp only [hexit, Option.bind_some, Option.map_eq_none_iff] at hnone
  have hretries := AgentM.onDataOnReader_retries_of_loop env hloop hexit
  rw [hnone] at hretries
  exact hretries.trans (List.append_nil _)

/-- The last acceptance of a read is not after the operation's first reading of the clock. -/
theorem getLastD_step_le (hp : h.Paced) {i : Operation × Env} (hi : h.Timely i) (rd : ℕ) :
    ((h.step i).times rd).getLastD 0 ≤ i.2.clock 0 := by
  simp only [step, PacedBy.getLastD_append_replicate]
  split
  · exact Nat.le_trans (hp.past rd) hi.1
  · exact le_rfl

/-- **The pace of reads.** In every run the readings of the clock at which consecutive samples
of a paced read are accepted are at least its pace apart, the pace being the period that the
read was started with. A data event that postpones a sample posts the event of its read once,
to be offered again after exactly the time that is left of the pace, or after a millisecond
when it was the interface that did not take the sample. Any other data event posts none. -/
theorem paced_of_reached (hh : h.Reached) :
    (∀ rd, (h.agent.readAt rd).samplePace ≠ 0 →
      Spaced (h.agent.readAt rd).samplePace (h.times rd)) ∧
    (∀ rd req env, h.Timely (.dataEvent rd, env) → postponed h.agent rd env = some req →
      env.ok (.postEvent .readFromReader req) = true →
      let s := h.step (.dataEvent rd, env)
      let due := (s.times req).getLastD 0 + (s.agent.readAt req).samplePace
      ∃ delay, s.agent.retries = h.agent.retries ++ [(req, delay)] ∧
        (env.clock 0 < due → env.clock 0 + delay = due) ∧
        (due ≤ env.clock 0 → delay = packFromMillisec 0 1)) ∧
    (∀ rd env, (∀ req, postponed h.agent rd env = some req →
        env.ok (.postEvent .readFromReader req) = false) →
      (h.step (.dataEvent rd, env)).agent.retries = h.agent.retries) ∧
    ∀ env key n spec, (AgentM.readEA env key n spec h.agent).1 = some () →
      ∃ rd, ((AgentM.readEA env key n spec h.agent).2.attached n).readReq = some rd ∧
        ((AgentM.readEA env key n spec h.agent).2.readAt rd).samplePace =
          packFromMillisec 0 spec.minPacePeriod := by
  have hp : h.Paced :=
    Reachable.invariant (I := Paced) (fun _ h₀ => paced_of_initial h₀)
      (fun _ _ hs hok => step_paced hs hok) hh
  refine ⟨hp.spaced, fun rd req env hi hreq hpost => ?_, fun rd env hnone => ?_,
    fun env key n spec => AgentM.readEA_samplePace env key n spec⟩
  · obtain ⟨hretries, hnext, n, hattached⟩ := postponed_posts hreq
    have hpast := getLastD_step_le hp hi req
    have hstamped := (step_paced hp hi).stamped req ((hp.known n req hattached).trans_eq hnext.symm)
    have hlast : ((h.agent.step (.dataEvent rd, env)).readAt req).lastSampleTs =
        ((h.step (.dataEvent rd, env)).times req).getLastD 0 := hstamped
    rw [AgentM.posted, if_pos hpost, Read.retryDelay, hlast] at hretries
    change ((h.step (.dataEvent rd, env)).times req).getLastD 0 ≤ env.clock 0 at hpast
    intro s due
    have hdue : due = ((h.step (.dataEvent rd, env)).times req).getLastD 0 +
        ((h.agent.step (.dataEvent rd, env)).readAt req).samplePace := rfl
    refine ⟨_, hretries, fun hearly => ?_, fun hlate => if_neg (by omega)⟩
    rw [if_pos (by omega)]
    omega
  · cases hreq : postponed h.agent rd env with
    | none => exact postponed_eq_none hreq
    | some req =>
        refine (postponed_posts hreq).1.trans ?_
        rw [AgentM.posted, hnone req hreq]
        exact List.append_nil _

/-- Calls succeed, and the clock reads `ms` milliseconds. -/
def atMillisec (ms : ℕ) : Env :=
  { Env.obliging (.one ⟨12, .dataReader, .guid 3, 11, 13⟩) with
    clock := fun _ => packFromMillisec 0 ms }

/-- A read with a pace of two milliseconds finds two samples in the cache. The first is
accepted after ten milliseconds, the second at the retry. -/
def twoPaced : List (Operation × Env) :=
  [(.openSession 0 ⟨1, 1⟩ 0 none, atMillisec 1),
    (.createResource ⟨1, 1⟩ ⟨3, .dataReader, .xml "", 0, false, false⟩, atMillisec 1),
    (.changeCache 0 [⟨1, true, 0⟩, ⟨2, true, 0⟩], atMillisec 1),
    (.readData ⟨1, 1⟩ 3 ⟨2, 0, 0, none⟩, atMillisec 1),
    (.dataEvent 0, atMillisec 10),
    (.dataEvent 0, atMillisec 12)]

def pacedStart : ReadTimes := ⟨.started false .firstCached, fun _ => [], 0⟩

theorem reached_twoPaced : ((twoPaced.take 4).foldl step pacedStart).Reached ∧
    (twoPaced.foldl step pacedStart).Reached := by
  have h₄ : ((twoPaced.take 4).foldl step pacedStart).Reached := by
    refine .next _ (.next _ (.next _ (.next _ (.start ⟨Agent.started_initial _ _,
      fun _ => rfl⟩) ?_) ?_) ?_) ?_
    all_goals exact ⟨by decide, le_rfl⟩
  exact ⟨h₄, .next _ (.next _ h₄ ⟨by decide, le_rfl⟩) ⟨by decide, le_rfl⟩⟩

/-- The event is posted for the second sample with two milliseconds, and it is accepted then. -/
theorem paced_of_reached_twoPaced :
    Spaced (packFromMillisec 0 2) [packFromMillisec 0 10, packFromMillisec 0 12] ∧
      ∃ d, (((twoPaced.take 4).foldl step pacedStart).step
          (.dataEvent 0, atMillisec 10)).agent.retries = [(0, d)] ∧
        packFromMillisec 0 10 + d = packFromMillisec 0 12 := by
  have hspaced := (paced_of_reached reached_twoPaced.2).1 0 (by decide)
  obtain ⟨d, hretries, hdelay, -⟩ := (paced_of_reached reached_twoPaced.1).2.1 0 0
    (atMillisec 10) ⟨by decide, le_rfl⟩ (by decide) rfl
  refine ⟨?_, d, hretries, hdelay (by decide)⟩
  have htimes : (twoPaced.foldl step pacedStart).times 0 =
      [packFromMillisec 0 10, packFromMillisec 0 12] := by decide
  have hpace : ((twoPaced.foldl step pacedStart).agent.readAt 0).samplePace =
      packFromMillisec 0 2 := by decide
  rwa [htimes, hpace] at hspaced

end ReadTimes

end NanoAgent
