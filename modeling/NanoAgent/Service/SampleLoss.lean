import NanoAgent.Service.ReadAnswers
import NanoAgent.Service.Supersede

/-!
# Samples that are lost

A sample is lost when the read moves past it although its messages were not sent, and its
buffers are lost when they are neither sent nor released (`Offer.Sound`). The sending loop
loses the messages behind one that fails to be sent (`LosesMessage`), and a sample is answered
with success, without any message, while the last `READ_DATA` of its reader has not been
answered (`Carries`).
-/

namespace NanoAgent

open Prog

namespace Offer

/-- The read moved past the sample. -/
def Advanced (o : Offer) : Prop := o.before < o.sample ∧ o.sample ≤ o.after

/-- A read moves past a sample that is due when all of its messages were sent, in order, and
otherwise stays where it is; no buffer is left behind. -/
structure Sound (o : Offer) : Prop where
  forwarded : o.due = true → o.Advanced → o.allocated ≠ [] ∧ o.sent = o.allocated
  stays : ¬ o.Advanced → o.after = o.before
  accounted : ∀ b ∈ o.allocated, b ∈ o.sent ∨ b ∈ o.released

end Offer

/-- A record for the sample can be had in the session `s`: the first of its own, whose buffer is
long enough or can be allocated again, or else a new one. -/
def RecordAvailable (env : Env) (a : Agent) (s : ClientSession) (smp : Sample) : Prop :=
  match s.rcvdDataPool with
  | d :: _ =>
      (a.poolSamples.content d).buffer.isSome = true ∧
          env.serializedSize smp ≤ (a.poolSamples.content d).dataLen ∨
        env.ok (.allocate .convertSample smp.sn) = true
  | [] =>
      env.ok (.getBuffer .convertSample smp.sn) = true ∧
        env.ok (.allocate .convertSample smp.sn) = true

/-- The sample can be serialized into a record of the session. -/
def Convertible (env : Env) (a : Agent) (key : ClientSessionKey) (smp : Sample) : Prop :=
  (∃ s, a.sessions.lookup key = some s ∧ RecordAvailable env a s smp) ∧
    env.ok (.toCdr .convertSample smp.sn) = true ∧
    (decodeCdrHeader (env.cdrHeader smp)).isSome = true

/-- A sample is offered to the interface: it is new to the read, the pace of the read has
passed, and it can be serialized. -/
def Offered (env : Env) (a : Agent) (key : ClientSessionKey) (n : ℕ) (smp : Sample) (now : ℕ) :
    Prop :=
  (∃ rd, (a.attached n).readReq = some rd ∧ (a.readAt rd).lastSample < smp.sn ∧
      ((a.readAt rd).samplePace = 0 ∨
        (a.readAt rd).samplePace ≤ now - (a.readAt rd).lastSampleTs)) ∧
    env.ok (.toCdr .processSample smp.sn) = true ∧ Convertible env a key smp

namespace AgentM

variable {env : Env} {a : Agent} {key : ClientSessionKey} {n d : ℕ} {smp : Sample} {now : ℕ}

theorem fillReceivedData_isSome_iff :
    (fillReceivedData env key n d smp a).1.isSome = true ↔
      ((a.poolSamples.content d).buffer.isSome = true ∨
        env.ok (.allocate .convertSample smp.sn) = true) ∧
      env.ok (.toCdr .convertSample smp.sn) = true ∧
      (decodeCdrHeader (env.cdrHeader smp)).isSome = true := by
  unfold fillReceivedData
  rw [read_bind_apply, modify_bind_apply]
  cases (a.poolSamples.content d).buffer <;>
    cases env.ok (.allocate .convertSample smp.sn) <;>
    cases env.ok (.toCdr .convertSample smp.sn) <;>
    cases decodeCdrHeader (env.cdrHeader smp) <;> simp [bind_apply, ensure]

theorem convertSampleEA_isSome_iff :
    (convertSampleEA env key n smp a).1.isSome = true ↔ Convertible env a key smp := by
  have hfill : ∀ (b : Agent) (e : ℕ), (((onFailure (fillReceivedData env key n e smp)
      (modify fun a => a.recycle key e)) >>= fun _ => pure e) b).1.isSome =
        (fillReceivedData env key n e smp b).1.isSome := by
    intro b e
    rw [bind_apply, onFailure]
    rcases fillReceivedData env key n e smp b with ⟨_ | _, b'⟩ <;> rfl
  unfold convertSampleEA Convertible
  rw [bind_apply]
  cases hs : a.sessions.lookup key with
  | none => simp [obtainReceivedData, bind_apply, hs]
  | some s =>
      cases hpool : s.rcvdDataPool with
      | nil =>
          cases hget : env.ok (.getBuffer .convertSample smp.sn) with
          | false => simp [obtainReceivedData, bind_apply, hs, hpool, hget, ensure, RecordAvailable]
          | true =>
              have hobtain : obtainReceivedData env key smp a =
                  (some a.poolSamples.next, a.takeReceivedData) := by
                simp [obtainReceivedData, bind_apply, hs, hpool, hget, ensure]
              have hbuffer : (a.takeReceivedData.poolSamples.content
                  a.poolSamples.next).buffer = none := by
                simp [Agent.takeReceivedData]
              simp only [hobtain, hfill, fillReceivedData_isSome_iff, hbuffer]
              simp [RecordAvailable, hpool, hget]
      | cons d l =>
          have hobtain : obtainReceivedData env key smp a =
              (some d, a.reuse key d (env.serializedSize smp)) := by
            simp [obtainReceivedData, bind_apply, hs, hpool]
          have hbuffer : ((a.reuse key d (env.serializedSize smp)).poolSamples.content
              d).buffer.isSome = true ↔ (a.poolSamples.content d).buffer.isSome = true ∧
                env.serializedSize smp ≤ (a.poolSamples.content d).dataLen := by
            simp only [Agent.reuse, BufferPool.content_update_self, Agent.updateSession]
            cases hcap : (a.poolSamples.content d).buffer with
            | none => simp [hcap]
            | some cap =>
                by_cases hlen : (a.poolSamples.content d).dataLen < env.serializedSize smp
                · simp [hlen]
                · simp [hcap, hlen, Nat.le_of_not_lt hlen]
          simp only [hobtain, hfill, fillReceivedData_isSome_iff, hbuffer]
          simp [RecordAvailable, hpool]

theorem prepareSampleEA_offers_iff :
    (∃ x, (prepareSampleEA env key n smp now a).1 = some (.inr x)) ↔
      Offered env a key n smp now := by
  rw [Offered, ← convertSampleEA_isSome_iff (n := n)]
  unfold prepareSampleEA
  rw [read_bind_apply, bind_apply, require_apply]
  cases (a.attached n).readReq with
  | none => simp
  | some rd =>
      dsimp only
      split
      · rename_i hold
        simp [Nat.not_lt_of_le hold]
      · rename_i hnew
        split
        · rename_i hpace
          simp only [Bool.and_eq_true, bne_iff_ne, ne_eq, decide_eq_true_eq] at hpace
          refine iff_of_false (by simp) ?_
          rintro ⟨⟨_, hrd, -, hpassed⟩, -⟩
          cases hrd
          rcases hpassed with hnone | hpassed
          · exact hpace.1 hnone
          · exact absurd hpace.2 (Nat.not_lt_of_le hpassed)
        · rename_i hpace
          have hpassed : (a.readAt rd).samplePace = 0 ∨
              (a.readAt rd).samplePace ≤ now - (a.readAt rd).lastSampleTs := by
            by_contra hboth
            rw [not_or] at hboth
            exact hpace (by simpa [hboth.1] using Nat.lt_of_not_le hboth.2)
          have hread : ∃ q, some rd = some q ∧ (a.readAt q).lastSample < smp.sn ∧
              ((a.readAt q).samplePace = 0 ∨
                (a.readAt q).samplePace ≤ now - (a.readAt q).lastSampleTs) :=
            ⟨rd, rfl, Nat.lt_of_not_le hnew, hpassed⟩
          cases env.ok (.toCdr .processSample smp.sn) with
          | false => simp
          | true =>
              rw [ensure_true_bind_apply, bind_apply]
              rcases convertSampleEA env key n smp a with ⟨_ | d, b⟩
              · simp
              · exact iff_of_true ⟨_, rfl⟩ ⟨hread, rfl, rfl⟩

end AgentM

/-- One of `m` messages, from the message `k`, fails to be sent, and it is not the last one. -/
def LosesMessage (env : ServiceEnv) (k m : ℕ) : Prop :=
  ∃ j, j + 1 < m ∧ (∀ i ≤ j, env.ok (.getForward (k + i)) = true) ∧
    (∀ i < j, env.ok (.sendData (k + i)) = true) ∧ env.ok (.sendData (k + j)) = false

/-- What the answer to a sample depends on: the read was answered, and as far as its messages
are allocated there is a request to name in them, and none of them is lost. -/
def Carries (env : ServiceEnv) (a : Service) (c : ℕ) (st : ReaderState) : Prop :=
  st.forward = true ∧
    (a.StreamAvailable env c st.streamId → st.readFmt = .data → env.ok (.allocateData 0) = true →
      st.req.isSome = true ∧
        (env.ok (.allocateData 1) = true → ¬ LosesMessage env 0 env.fragments))

section Loss

variable {env : ServiceEnv} {k m : ℕ}

theorem not_losesMessage_one : ¬ LosesMessage env k 1 := by
  rintro ⟨j, hj, -⟩
  exact absurd hj (by omega)

theorem not_losesMessage_of_refused (h : env.ok (.getForward k) = false) :
    ¬ LosesMessage env k m := by
  rintro ⟨j, -, hforward, -⟩
  have hfirst := hforward 0 (Nat.zero_le j)
  rw [Nat.add_zero, h] at hfirst
  cases hfirst

theorem losesMessage_of_failed (hforward : env.ok (.getForward k) = true)
    (hsend : env.ok (.sendData k) = false) : LosesMessage env k (m + 2) := by
  refine ⟨0, by omega, fun i hi => ?_, fun i hi => absurd hi (Nat.not_lt_zero i), hsend⟩
  rw [Nat.le_zero.1 hi]
  exact hforward

theorem losesMessage_succ (hforward : env.ok (.getForward k) = true)
    (hsend : env.ok (.sendData k) = true) :
    LosesMessage env k (m + 1) ↔ LosesMessage env (k + 1) m := by
  have hshift : ∀ i, k + 1 + i = k + (i + 1) := fun i => by omega
  constructor
  · rintro ⟨j, hj, hforwards, hsends, hfail⟩
    cases j with
    | zero =>
        rw [Nat.add_zero, hsend] at hfail
        cases hfail
    | succ j =>
        refine ⟨j, by omega, fun i hi => ?_, fun i hi => ?_, ?_⟩
        · rw [hshift]
          exact hforwards (i + 1) (Nat.succ_le_succ hi)
        · rw [hshift]
          exact hsends (i + 1) (Nat.succ_lt_succ hi)
        · rw [hshift]
          exact hfail
  · rintro ⟨j, hj, hforwards, hsends, hfail⟩
    refine ⟨j + 1, by omega, fun i hi => ?_, fun i hi => ?_, ?_⟩
    · cases i with
      | zero => exact hforward
      | succ i =>
          rw [← hshift]
          exact hforwards i (Nat.le_of_succ_le_succ hi)
    · cases i with
      | zero => exact hsend
      | succ i =>
          rw [← hshift]
          exact hsends i (Nat.lt_of_succ_lt_succ hi)
    · rw [← hshift]
      exact hfail

end Loss

namespace Forwarding

/-- From `s` to `t` the XRCE agent allocates `m` buffers, passes `sent` to
`NANO_XRCE_Session_send` and releases `released`. -/
structure Moves (m : ℕ) (sent released : List ℕ) (s t : Forwarding) : Prop where
  agent : t.agent = s.agent
  buffers : t.buffers = s.buffers + m
  sent : t.sent = s.sent ++ sent
  released : t.released = s.released ++ released

namespace Moves

variable {m n : ℕ} {x y x' y' : List ℕ} {s t u : Forwarding}

theorem rfl' (s : Forwarding) : Moves 0 [] [] s s :=
  ⟨rfl, rfl, (List.append_nil _).symm, (List.append_nil _).symm⟩

theorem trans' (h : Moves m x y s t) (h' : Moves n x' y' t u) :
    Moves (m + n) (x ++ x') (y ++ y') s u where
  agent := h'.agent.trans h.agent
  buffers := by rw [h'.buffers, h.buffers, Nat.add_assoc]
  sent := by rw [h'.sent, h.sent, List.append_assoc]
  released := by rw [h'.released, h.released, List.append_assoc]

theorem onService {α : Type} (x : ServiceM α) (s : Forwarding) :
    Moves 0 [] [] s (onService x s).2 :=
  ⟨rfl, rfl, (List.append_nil _).symm, (List.append_nil _).symm⟩

theorem pass (s : Forwarding) (message : List ℕ) : Moves 0 message [] s (s.pass message) :=
  ⟨rfl, rfl, rfl, (List.append_nil _).symm⟩

theorem release (s : Forwarding) (l : List ℕ) : Moves 0 [] l s (s.release l) :=
  ⟨rfl, rfl, (List.append_nil _).symm, rfl⟩

theorem allocate (s : Forwarding) (n : ℕ) : Moves n [] [] s (s.allocate n) :=
  ⟨rfl, rfl, (List.append_nil _).symm, (List.append_nil _).symm⟩

end Moves

/-- All of the buffers are sent or released. -/
def Covers (sent released buffers : List ℕ) : Prop := ∀ b ∈ buffers, b ∈ sent ∨ b ∈ released

variable {env : ServiceEnv} {c id d stream : ℕ}

/-- What the sending loop does with the messages from the message `k` on: when it returns, all
of them were sent; and when none of them is lost, no buffer is. -/
theorem sendMessages_moves (env : ServiceEnv) (c id stream d : ℕ) (messages : List (List ℕ))
    (hne : ∀ l ∈ messages, l ≠ []) (hnodup : messages.flatten.Nodup) (k : ℕ) (s : Forwarding) :
    ∃ x y, Moves 0 x y s (sendMessages env c id stream d k messages s).2 ∧
      ((sendMessages env c id stream d k messages s).1.isSome = true → x = messages.flatten) ∧
      (Covers x y messages.flatten ↔ ¬ LosesMessage env k messages.length) := by
  induction messages generalizing k s with
  | nil =>
      refine ⟨[], [], .rfl' s, fun _ => rfl, ?_⟩
      refine iff_of_true (fun b hb => absurd hb List.not_mem_nil) ?_
      rintro ⟨j, hj, -⟩
      exact absurd hj (Nat.not_lt_zero _)
  | cons message messages ih =>
      rw [List.flatten_cons] at hnodup ⊢
      rw [List.length_cons]
      have hparts := List.nodup_append'.1 hnodup
      cases hforward : env.ok (.getForward k) with
      | false =>
          -- the chain from this message on is released
          rw [sendMessages_refused hforward]
          use [], message ++ messages.flatten, .release s _
          constructor
          · intro h
            cases h
          · exact iff_of_true (fun b hb => .inr hb) (not_losesMessage_of_refused hforward)
      | true =>
          cases hsend : env.ok (.sendData k) with
          | false =>
              rw [sendMessages_failed hforward hsend]
              use message, [], .pass s message
              constructor
              · intro h
                cases h
              · cases messages with
                | nil =>
                    rw [List.flatten_nil, List.append_nil]
                    exact iff_of_true (fun b hb => .inl hb) not_losesMessage_one
                | cons l messages =>
                    refine iff_of_false (fun hcovers => ?_) fun hkept =>
                      hkept (losesMessage_of_failed hforward hsend)
                    obtain ⟨b, hb⟩ := List.exists_mem_of_ne_nil l
                      (hne l (List.mem_cons_of_mem _ List.mem_cons_self))
                    have hrest : b ∈ (l :: messages).flatten := by
                      rw [List.flatten_cons]
                      exact List.mem_append_left _ hb
                    rcases hcovers b (List.mem_append_right _ hrest) with hsent | hreleased
                    · exact hparts.2.2 hsent hrest
                    · cases hreleased
          | true =>
              rw [sendMessages_sent hforward hsend]
              have hround := (Moves.pass s message).trans'
                (.onService (ServiceM.forwardData env c id stream d k) (s.pass message))
              generalize (onService (ServiceM.forwardData env c id stream d k)
                (s.pass message)).2 = t at hround
              obtain ⟨x, y, hmoves, hall, hcovers⟩ :=
                ih (fun l hl => hne l (List.mem_cons_of_mem _ hl)) hparts.2.1 (k + 1) t
              have hmoved := hround.trans' hmoves
              rw [List.append_nil, List.append_nil] at hmoved
              refine ⟨message ++ x, y, hmoved, fun h => ?_, ?_⟩
              · rw [hall h]
              · rw [losesMessage_succ hforward hsend, ← hcovers]
                constructor
                · intro h b hb
                  rcases h b (List.mem_append_right _ hb) with hsent | hreleased
                  · rcases List.mem_append.1 hsent with hfirst | hsent
                    · exact absurd hb fun hb => hparts.2.2 hfirst hb
                    · exact .inl hsent
                  · exact .inr hreleased
                · intro h b hb
                  rcases List.mem_append.1 hb with hfirst | hb
                  · exact .inl (List.mem_append_left _ hfirst)
                  · exact (h b hb).imp_left (List.mem_append_right _)

theorem flatten_chain (header : ℕ) (payload : List ℕ) :
    (chain header payload).flatten = header :: payload := by
  have hsingle : ∀ l : List ℕ, (l.map fun q => [q]).flatten = l := by
    intro l
    induction l with
    | nil => rfl
    | cons q l ih => rw [List.map_cons, List.flatten_cons, ih, List.singleton_append]
  cases payload with
  | nil => rfl
  | cons p payload =>
      rw [chain, List.flatten_cons, hsingle]
      rfl

theorem ne_nil_of_mem_chain {header : ℕ} {payload l : List ℕ} (h : l ∈ chain header payload) :
    l ≠ [] := by
  cases payload with
  | nil =>
      rw [List.mem_singleton.1 h]
      exact List.cons_ne_nil _ _
  | cons p payload =>
      rcases List.mem_cons.1 h with rfl | h
      · exact List.cons_ne_nil _ _
      · obtain ⟨q, -, rfl⟩ := List.mem_map.1 h
        exact List.cons_ne_nil _ _

/-- A message is lost of those of a payload exactly when it is lost of its fragments. -/
theorem losesMessage_chain (header base n : ℕ) :
    LosesMessage env 0 (chain header (List.range' base n)).length ↔ LosesMessage env 0 n := by
  cases n with
  | zero =>
      refine iff_of_false not_losesMessage_one ?_
      rintro ⟨j, hj, -⟩
      exact absurd hj (Nat.not_lt_zero _)
  | succ n => rw [length_chain (Nat.succ_pos n)]

/-- The answer to a sample, for which `m` buffers were allocated from `base` on, is faithful:
it accepts the sample only when all of them were sent, and it leaves none behind. -/
def Faithful (answer : Option Delivery) (base m : ℕ) (sent released : List ℕ) : Prop :=
  ((∃ retained, answer = some (.accepted retained)) → m ≠ 0 ∧ sent = List.range' base m) ∧
    Covers sent released (List.range' base m)

theorem faithful_of_none {answer : Option Delivery} {base : ℕ}
    (h : ∀ retained, answer ≠ some (.accepted retained)) : Faithful answer base 0 [] [] :=
  ⟨fun ⟨retained, heq⟩ => absurd heq (h retained), fun _ hb => absurd hb List.not_mem_nil⟩

theorem forwardSample_moves (env : ServiceEnv) (c id d : ℕ) (st : ReaderState) (s : Forwarding) :
    ∃ m x y, Moves m x y s (forwardSample env c id d st s).2 ∧
      (Faithful (forwardSample env c id d st s).1 s.buffers m x y ↔
        (env.ok (.allocateData 0) = true → st.req.isSome = true ∧
          (env.ok (.allocateData 1) = true → ¬ LosesMessage env 0 env.fragments))) := by
  unfold forwardSample
  cases hheader : env.ok (.allocateData 0) with
  | false =>
      refine ⟨0, [], [], .rfl' s, iff_of_true (faithful_of_none fun _ => by simp) ?_⟩
      intro h
      cases h
  | true =>
      rw [Bool.not_true, if_neg Bool.false_ne_true, read_bind_apply, modify_bind_apply]
      cases hreq : st.req with
      | none =>
          -- the header is in nobody's hands
          refine ⟨1, [], [], .allocate s 1, iff_of_false ?_ fun h => ?_⟩
          · intro h
            have hlost := h.2 s.buffers (by simp)
            simp at hlost
          · exact Bool.noConfusion (h rfl).1
      | some r =>
          cases hpayload : env.ok (.allocateData 1) with
          | false =>
              have hmoves := (Moves.allocate s 1).trans' (.release (s.allocate 1) [s.buffers])
              refine ⟨1, [], [s.buffers], hmoves, iff_of_true ⟨?_, fun b hb => .inr hb⟩ ?_⟩
              · rintro ⟨retained, h⟩
                cases h
              · exact fun _ => ⟨rfl, fun h => by cases h⟩
          | true =>
              set base := s.buffers
              set messages := chain base (List.range' (base + 1) env.fragments)
              have hall : messages.flatten = List.range' base (1 + env.fragments) := by
                rw [flatten_chain, Nat.add_comm 1, List.range'_succ]
              have hnodup : messages.flatten.Nodup := by
                rw [hall]
                exact List.nodup_range'
              set t := (s.allocate 1).allocate env.fragments
              have halloc : Moves (1 + env.fragments) [] [] s t :=
                (Moves.allocate s 1).trans' (.allocate _ _)
              obtain ⟨x, y, hmoves, hreturns, hcovers⟩ :=
                sendMessages_moves env c id st.streamId d messages
                  (fun l hl => ne_nil_of_mem_chain hl) hnodup 0 t
              rw [hall] at hreturns hcovers
              rw [losesMessage_chain] at hcovers
              refine ⟨1 + env.fragments, x, y, halloc.trans' hmoves, ?_⟩
              change Faithful (some (if (sendMessages env c id st.streamId d 0 messages t).1.isSome
                then .accepted (env.wire.streamReliable st.streamId) else .error)) _ _ x y ↔ _
              rw [Faithful, hcovers]
              constructor
              · exact fun h _ => ⟨rfl, fun _ => h.2⟩
              · refine fun h => ⟨?_, (h rfl).2 rfl⟩
                rintro ⟨retained, haccepted⟩
                refine ⟨by omega, hreturns ?_⟩
                by_contra hfailed
                rw [if_neg hfailed] at haccepted
                cases haccepted

/-- An offered sample that is due is answered faithfully exactly when it is carried. -/
theorem onDataReceived_moves (env : ServiceEnv) (d : ℕ) {st : ReaderState} {s : Forwarding}
    {len : ℕ} (hst : (s.service.client c).readers.lookup id = some st)
    (hdisposed : (s.service.client c).disposed = false) (hlen : 0 < len) :
    ∃ m x y, Moves m x y s (onDataReceived env c id d len s).2 ∧
      (Faithful (onDataReceived env c id d len s).1 s.buffers m x y ↔
        Carries env s.service c st) := by
  unfold onDataReceived
  rw [read_bind_apply, bind_apply, require_apply, hst, hdisposed]
  dsimp only
  rw [if_neg Bool.false_ne_true, if_neg (Nat.ne_of_gt hlen)]
  cases hforward : st.forward with
  | false =>
      refine ⟨0, [], [], .rfl' s, iff_of_false (fun h => ?_) fun h => ?_⟩
      · exact (h.1 ⟨false, rfl⟩).1 rfl
      · rw [Carries, hforward] at h
        cases h.1
  | true =>
      rw [Bool.not_true, if_neg Bool.false_ne_true, attempt_bind_apply]
      have hmoves := Moves.onService (ServiceM.lookupStream env c st.streamId) s
      rw [Carries, hforward]
      by_cases havailable : s.service.StreamAvailable env c st.streamId
      · obtain ⟨b, hb, -⟩ := ServiceM.lookupStream_available havailable
        have hfound : (onService (ServiceM.lookupStream env c st.streamId) s).1 = some () := by
          rw [onService, hb]
        rw [hfound, Option.isSome_some, Bool.true_and]
        by_cases hfmt : st.readFmt = .data
        · rw [if_pos (decide_eq_true hfmt)]
          obtain ⟨m, x, y, hforwards, hfaithful⟩ := forwardSample_moves env c id d st
            (onService (ServiceM.lookupStream env c st.streamId) s).2
          refine ⟨m, x, y, ?_, hfaithful.trans ?_⟩
          · have hboth := hmoves.trans' hforwards
            rwa [Nat.zero_add] at hboth
          · simp [havailable, hfmt]
        · rw [if_neg (by simpa using hfmt)]
          refine ⟨0, [], [], hmoves, iff_of_true (faithful_of_none fun _ => by simp) ?_⟩
          exact ⟨rfl, fun _ h => absurd h hfmt⟩
      · have hnone : (onService (ServiceM.lookupStream env c st.streamId) s).1 = none :=
          ServiceM.lookupStream_unavailable havailable
        rw [hnone, Option.isSome_none, Bool.false_and, if_neg Bool.false_ne_true]
        refine ⟨0, [], [], hmoves, iff_of_true (faithful_of_none fun _ => by simp) ?_⟩
        exact ⟨rfl, fun h => absurd h havailable⟩

/-- An event loses nothing: a sample that is due and offered is carried. -/
def Handles (s : Forwarding) : Event → Prop
  | .readData _ _ _ _ _ | .acknowledge _ _ _ _ | .releaseReadSamples _ _ _ _ => True
  | .sample env senv key n smp now =>
      Offered env s.agent key n smp now → s.due key (env.writtenLen smp) = true →
        ∀ c st, s.clientOf key = some c →
          (s.service.client c).readers.lookup (s.agent.attached n).id = some st →
          Carries senv s.service c st

end Forwarding

theorem Apart.position {a b : Agent} (h : Apart a b) (n : ℕ) : b.position n = a.position n := by
  simp only [Agent.position, Agent.attached, Agent.readAt, h.poolReads, h.poolResources]

namespace AgentM

variable {env : Env} {key : ClientSessionKey} {n : ℕ} {smp : Sample} {now : ℕ}

theorem prepareSampleEA_apart (env : Env) (key : ClientSessionKey) (n : ℕ) (smp : Sample)
    (now : ℕ) : Within Apart (prepareSampleEA env key n smp now) :=
  .read fun _ => .bind (.require _) fun _ => .ite (fun _ => .pure _) fun _ =>
    .ite (fun _ => .pure _) fun _ => .bind (.ensure _) fun _ =>
      .bind (convertSampleEA_apart env key n smp) fun _ => .pure _

/-- A sample is offered to the read of the attached data reader. -/
theorem prepareSampleEA_read {a b : Agent} {rd d : ℕ}
    (h : prepareSampleEA env key n smp now a = (some (.inr (rd, d)), b)) :
    (a.attached n).readReq = some rd := by
  unfold prepareSampleEA at h
  rw [read_bind_apply] at h
  obtain ⟨q, a', hq, h⟩ := bind_eq_some.1 h
  obtain ⟨hreq, rfl⟩ := require_eq_some.1 hq
  split at h
  · cases (pure_eq_some.1 h).1
  split at h
  · cases (pure_eq_some.1 h).1
  obtain ⟨_, a', -, h⟩ := bind_eq_some.1 h
  obtain ⟨e, a', -, h⟩ := bind_eq_some.1 h
  cases (pure_eq_some.1 h).1
  exact hreq

/-- The read moves to a sample that is accepted, and stays before any other. -/
theorem position_settleSampleEA {a : Agent} {rd : ℕ} (h : (a.attached n).readReq = some rd)
    (key : ClientSessionKey) (d : ℕ) (smp : Sample) (now : ℕ) (delivery : Delivery) :
    (settleSampleEA key n rd d smp now delivery a).2.position n =
      if ∃ retained, delivery = .accepted retained then smp.sn else a.position n := by
  cases delivery with
  | error => rw [if_neg (by simp)]; rfl
  | tryAgain => rw [if_neg (by simp)]; rfl
  | accepted retained =>
      rw [if_pos ⟨retained, rfl⟩]
      change (a.acceptSample n rd d smp retained now).position n = smp.sn
      rw [Agent.position, Agent.readReq_acceptSample, h, Option.elim_some,
        Agent.readAt_acceptSample, if_pos rfl]

end AgentM

namespace Forwarding

variable {env : Env} {senv : ServiceEnv} {key : ClientSessionKey} {n len : ℕ} {smp : Sample}
  {now : ℕ} {s t : Forwarding}

/-- An event that leaves the read and the buffers alone. -/
theorem offerOf_sound_of_idle (hbuffers : t.buffers = s.buffers)
    (hposition : t.agent.position n = s.agent.position n) :
    (s.offerOf t key n smp len).Sound where
  forwarded _ h := by
    obtain ⟨hbefore, hafter⟩ := h
    change s.agent.position n < smp.sn at hbefore
    change smp.sn ≤ t.agent.position n at hafter
    omega
  stays _ := hposition
  accounted b hb := by
    change b ∈ List.range' s.buffers (t.buffers - s.buffers) at hb
    rw [hbuffers, Nat.sub_self] at hb
    cases hb

/-- The answer to a sample that is due decides what becomes of it. -/
theorem offerOf_sound_iff {m : ℕ} {x y : List ℕ} {answer : Option Delivery}
    (hbuffers : t.buffers = s.buffers + m) (hsent : t.sent = s.sent ++ x)
    (hreleased : t.released = s.released ++ y) (hdue : s.due key len = true)
    (hnew : s.agent.position n < smp.sn)
    (hposition : t.agent.position n =
      if ∃ retained, answer = some (.accepted retained) then smp.sn else s.agent.position n) :
    (s.offerOf t key n smp len).Sound ↔ Faithful answer s.buffers m x y := by
  have hallocated : (s.offerOf t key n smp len).allocated = List.range' s.buffers m := by
    simp [offerOf, hbuffers]
  have hx : (s.offerOf t key n smp len).sent = x := by simp [offerOf, hsent]
  have hy : (s.offerOf t key n smp len).released = y := by simp [offerOf, hreleased]
  have hadvanced : (s.offerOf t key n smp len).Advanced ↔
      ∃ retained, answer = some (.accepted retained) := by
    change s.agent.position n < smp.sn ∧ smp.sn ≤ t.agent.position n ↔ _
    rw [hposition]
    split
    · rename_i haccepted
      exact iff_of_true ⟨hnew, Nat.le_refl _⟩ haccepted
    · rename_i hrefused
      refine iff_of_false (fun h => ?_) hrefused
      exact Nat.not_le_of_lt h.1 h.2
  constructor
  · intro h
    refine ⟨fun haccepted => ?_, ?_⟩
    · obtain ⟨hne, hall⟩ := h.forwarded hdue (hadvanced.2 haccepted)
      rw [hallocated] at hne hall
      rw [hx] at hall
      refine ⟨fun hm => hne ?_, hall⟩
      rw [hm]
      rfl
    · have haccounted := h.accounted
      rwa [hallocated, hx, hy] at haccounted
  · intro h
    refine ⟨fun _ hadv => ?_, fun hstay => ?_, ?_⟩
    · obtain ⟨hm, hall⟩ := h.1 (hadvanced.1 hadv)
      rw [hallocated, hx]
      refine ⟨fun hnil => hm ?_, hall⟩
      simpa using hnil
    · rw [hadvanced] at hstay
      rw [if_neg hstay] at hposition
      exact hposition
    · rw [hallocated, hx, hy]
      exact h.2

/-- A sample that is not due is accepted without any message. -/
theorem onDataReceived_of_not_due (senv : ServiceEnv) {c id : ℕ} (d : ℕ) {st : ReaderState}
    (hst : (s.service.client c).readers.lookup id = some st)
    (hdue : (decide (0 < len) && !(s.service.client c).disposed) = false) :
    onDataReceived senv c id d len s = (some (.accepted false), s) := by
  unfold onDataReceived
  rw [read_bind_apply, bind_apply, require_apply, hst]
  dsimp only
  split
  · rfl
  split
  · rfl
  rename_i hdisposed
  rw [if_pos]
  · rfl
  · rw [Bool.not_eq_true] at hdisposed
    rw [hdisposed, Bool.not_false, Bool.and_true, decide_eq_false_iff_not] at hdue
    exact Nat.eq_zero_of_not_pos hdue

/-- What the DDS agent makes of an answer leaves the buffers alone. -/
theorem settle_answer {x : Prog Forwarding Delivery} {rd : ℕ} (d : ℕ)
    (hread : ((x s).2.agent.attached n).readReq = some rd)
    (ht : t = ((x >>= fun delivery =>
      onAgent (AgentM.settleSampleEA key n rd d smp now delivery)) s).2) :
    t.buffers = (x s).2.buffers ∧ t.sent = (x s).2.sent ∧ t.released = (x s).2.released ∧
      t.agent.position n = if ∃ retained, (x s).1 = some (.accepted retained) then smp.sn
        else (x s).2.agent.position n := by
  rw [bind_apply] at ht
  rcases hx : x s with ⟨_ | delivery, v⟩
  · rw [hx] at ht
    rw [ht, if_neg (by simp)]
    exact ⟨rfl, rfl, rfl, rfl⟩
  · rw [hx] at ht hread
    rw [ht]
    refine ⟨rfl, rfl, rfl, ?_⟩
    simp only [Option.some.injEq]
    exact AgentM.position_settleSampleEA hread key d smp now delivery

section Answer

variable {c rd d : ℕ} {b : Agent} {st : ReaderState}

/-- An offered sample that is not due passes without any message. -/
theorem offer_sound_of_not_due (hread : (b.attached n).readReq = some rd)
    (hnew : s.agent.position n < smp.sn)
    (hst : (s.service.client c).readers.lookup (s.agent.attached n).id = some st)
    (hdue : (decide (0 < env.writtenLen smp) && !(s.service.client c).disposed) = false)
    (hnot : s.due key (env.writtenLen smp) = false)
    (ht : t = ((onDataReceived senv c (s.agent.attached n).id d (env.writtenLen smp) >>=
      fun delivery => onAgent (AgentM.settleSampleEA key n rd d smp now delivery))
        { s with agent := b }).2) :
    (s.offerOf t key n smp (env.writtenLen smp)).Sound := by
  have hx : onDataReceived senv c (s.agent.attached n).id d (env.writtenLen smp)
      { s with agent := b } = (some (.accepted false), { s with agent := b }) :=
    onDataReceived_of_not_due senv d hst hdue
  obtain ⟨hbuffers, -, -, hposition⟩ := settle_answer d (by rw [hx]; exact hread) ht
  rw [hx, if_pos ⟨false, rfl⟩] at hposition
  rw [hx] at hbuffers
  constructor
  · intro h
    exact absurd (hnot.symm.trans h) Bool.false_ne_true
  · intro h
    exact absurd ⟨hnew, Nat.le_of_eq hposition.symm⟩ h
  · intro e he
    change e ∈ List.range' s.buffers (t.buffers - s.buffers) at he
    rw [hbuffers, Nat.sub_self] at he
    cases he

/-- An offered sample that is due is dealt with as it should exactly when it is carried. -/
theorem offer_sound_iff_carries (hb : Apart s.agent b) (hread : (b.attached n).readReq = some rd)
    (hnew : s.agent.position n < smp.sn)
    (hst : (s.service.client c).readers.lookup (s.agent.attached n).id = some st)
    (hdue : (decide (0 < env.writtenLen smp) && !(s.service.client c).disposed) = true)
    (hall : s.due key (env.writtenLen smp) = true)
    (ht : t = ((onDataReceived senv c (s.agent.attached n).id d (env.writtenLen smp) >>=
      fun delivery => onAgent (AgentM.settleSampleEA key n rd d smp now delivery))
        { s with agent := b }).2) :
    (s.offerOf t key n smp (env.writtenLen smp)).Sound ↔ Carries senv s.service c st := by
  rw [Bool.and_eq_true, decide_eq_true_eq, Bool.not_eq_true'] at hdue
  have hanswer : ∃ m x y, Moves m x y { s with agent := b }
      (onDataReceived senv c (s.agent.attached n).id d (env.writtenLen smp)
        { s with agent := b }).2 ∧
      (Faithful (onDataReceived senv c (s.agent.attached n).id d (env.writtenLen smp)
        { s with agent := b }).1 s.buffers m x y ↔ Carries senv s.service c st) :=
    onDataReceived_moves senv d hst hdue.2 hdue.1
  obtain ⟨m, x, y, hmoves, hfaithful⟩ := hanswer
  obtain ⟨hbuffers, hsent, hreleased, hposition⟩ :=
    settle_answer d (by rw [hmoves.agent]; exact hread) ht
  rw [hmoves.agent, hb.position n] at hposition
  refine Iff.trans ?_ hfaithful
  exact offerOf_sound_iff (hbuffers.trans hmoves.buffers) (hsent.trans hmoves.sent)
    (hreleased.trans hmoves.released) hall hnew hposition

end Answer

/-- A sample is dealt with as it should exactly when it is handled. -/
theorem offer_sound_iff (s : Forwarding) (env : Env) (senv : ServiceEnv)
    (key : ClientSessionKey) (n : ℕ) (smp : Sample) (now : ℕ) :
    (s.offerOf (s.step (.sample env senv key n smp now)) key n smp (env.writtenLen smp)).Sound ↔
      s.Handles (.sample env senv key n smp now) := by
  have hapart := AgentM.prepareSampleEA_apart env key n smp now s.agent
  have hoffered : (∃ x, (AgentM.prepareSampleEA env key n smp now s.agent).1 = some (.inr x)) ↔
      Offered env s.agent key n smp now := AgentM.prepareSampleEA_offers_iff
  rw [step, processSample, read_bind_apply, bind_apply, onAgent, Handles]
  rcases hprepare : AgentM.prepareSampleEA env key n smp now s.agent with ⟨_ | p | ⟨rd, d⟩, b⟩
  · rw [hprepare] at hapart hoffered
    refine iff_of_true (offerOf_sound_of_idle rfl (hapart.position n)) fun h => ?_
    obtain ⟨x, hx⟩ := hoffered.2 h
    cases hx
  · rw [hprepare] at hapart hoffered
    refine iff_of_true (offerOf_sound_of_idle rfl (hapart.position n)) fun h => ?_
    obtain ⟨x, hx⟩ := hoffered.2 h
    cases hx
  have hread := AgentM.prepareSampleEA_read hprepare
  rw [hprepare] at hapart hoffered
  have hoff : Offered env s.agent key n smp now := hoffered.1 ⟨_, rfl⟩
  have hnew : s.agent.position n < smp.sn := by
    obtain ⟨⟨q, hq, hlast, -⟩, -⟩ := hoff
    rw [Agent.position, hq]
    exact hlast
  have hread' : (b.attached n).readReq = some rd := by
    rw [Agent.attached, hapart.poolResources]
    exact hread
  dsimp only
  cases hc : s.clientOf key with
  | none =>
      refine iff_of_true (offerOf_sound_of_idle rfl (hapart.position n)) fun _ _ c st h => ?_
      cases h
  | some c =>
      rw [bind_apply, require_apply]
      dsimp only
      have hduec : s.due key (env.writtenLen smp) =
          (decide (0 < env.writtenLen smp) && !(s.service.client c).disposed) := by
        rw [due, hc, Option.any_some]
      cases hst : (s.service.client c).readers.lookup (s.agent.attached n).id with
      | none =>
          have hx : onDataReceived senv c (s.agent.attached n).id d (env.writtenLen smp)
              { s with agent := b } = (none, { s with agent := b }) := by
            rw [onDataReceived, read_bind_apply, bind_apply, require_apply, hst]
          rw [bind_apply, hx]
          refine iff_of_true (offerOf_sound_of_idle rfl (hapart.position n)) ?_
          intro _ _ c' st hc' hst'
          cases hc'
          rw [hst] at hst'
          cases hst'
      | some st =>
          cases hdue : s.due key (env.writtenLen smp) with
          | false =>
              refine iff_of_true ?_ fun _ h => absurd h Bool.false_ne_true
              exact offer_sound_of_not_due hread' hnew hst (hduec.symm.trans hdue) hdue rfl
          | true =>
              refine (offer_sound_iff_carries hapart hread' hnew hst (hduec.symm.trans hdue) hdue
                rfl).trans ⟨?_, fun h => h hoff rfl c st rfl hst⟩
              intro h _ _ c' st' hc' hst'
              cases hc'
              cases hst.symm.trans hst'
              exact h

/-- In a run whose requests for a reader succeed, or are refused early, a sample of the reader is
dealt with as it should when no message of it is lost. -/
theorem sound_of_answered {c id : ℕ} {run : List Event} (hs : Answered c id s.service)
    (hrun : AnswersAll c id s run) (ht : run.foldl step s = t) (hc : t.clientOf key = some c)
    (hid : (t.agent.attached n).id = id) (hkept : ¬ LosesMessage senv 0 senv.fragments) :
    (t.offerOf (t.step (.sample env senv key n smp now)) key n smp (env.writtenLen smp)).Sound := by
  rw [offer_sound_iff]
  intro _ _ c' st hc' hst
  obtain rfl : c = c' := Option.some.inj (hc.symm.trans hc')
  obtain ⟨st', hst', hforward, hreq⟩ := run_answered hs hrun
  rw [ht, ← hid] at hst'
  obtain rfl : st' = st := Option.some.inj (hst'.symm.trans hst)
  exact ⟨hforward, fun _ _ _ => ⟨hreq, fun _ => hkept⟩⟩

end Forwarding

end NanoAgent
