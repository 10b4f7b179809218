import NanoAgent.DdsAgent.ReadFrame
import NanoAgent.DdsAgent.ResumePosition

/-!
# The buffers of received samples

A received-data record keeps its buffer when it goes back to the pool of its session. It
knows the length of the last sample only: `dataLen` is set to the size of the next sample
before the buffer is allocated or kept, and to the length that was written after it. What
makes the reuse safe is that the recorded length never exceeds what is allocated
(`Agent.Fitting`), although the length is all that the next conversion compares.

`convertSampleEA` is cut where it serializes the sample: `prepareReceivedData` is what it
does before, `serializeSample` is the rest.
-/

namespace NanoAgent

open Prog

namespace ReceivedData

/-- A buffer that the record has takes `size` bytes. -/
def HasRoom (size : ℕ) (x : ReceivedData) : Prop := ∀ cap, x.buffer = some cap → size ≤ cap

/-- The recorded length is within the buffer. -/
def Fits (x : ReceivedData) : Prop := x.HasRoom x.dataLen

variable {x : ReceivedData} {size size' : ℕ}

theorem hasRoom_of_isNone (h : x.buffer = none) : x.HasRoom size := by
  intro cap hcap
  rw [h] at hcap
  cases hcap

theorem HasRoom.mono (h : x.HasRoom size) (hle : size' ≤ size) : x.HasRoom size' := by
  intro cap hcap
  exact Nat.le_trans hle (h cap hcap)

end ReceivedData

/-- The recorded length of every record is within its buffer. -/
def Agent.Fitting (a : Agent) : Prop := ∀ d, (a.poolSamples.content d).Fits

/-- Records lose their buffers, or keep them with a length that does not grow. -/
def KeepsBuffers (a b : Agent) : Prop :=
  ∀ d, (b.poolSamples.content d).buffer = none ∨
    (b.poolSamples.content d).buffer = (a.poolSamples.content d).buffer ∧
      (b.poolSamples.content d).dataLen ≤ (a.poolSamples.content d).dataLen

namespace KeepsBuffers

variable {a b : Agent}

theorem of_same (h : b.poolSamples.content = a.poolSamples.content) : KeepsBuffers a b := by
  intro d
  rw [h]
  exact .inr ⟨rfl, Nat.le_refl _⟩

instance : IsPreorder Agent KeepsBuffers where
  refl _ := of_same rfl
  trans a b c hb hc := by
    intro d
    rcases hc d with hnone | ⟨hbuffer, hlen⟩
    · exact .inl hnone
    · rcases hb d with hnone | ⟨hbuffer', hlen'⟩
      · exact .inl (hbuffer.trans hnone)
      · exact .inr ⟨hbuffer.trans hbuffer', Nat.le_trans hlen hlen'⟩

theorem fitting (h : KeepsBuffers a b) (ha : a.Fitting) : b.Fitting := by
  intro d
  rcases h d with hnone | ⟨hbuffer, hlen⟩
  · exact ReceivedData.hasRoom_of_isNone hnone
  · intro cap hcap
    rw [hbuffer] at hcap
    exact Nat.le_trans hlen (ha d cap hcap)

/-- A change of one record. -/
theorem updateSample (a : Agent) (d : ℕ) {f : ReceivedData → ReceivedData}
    (hf : ∀ x, (f x).buffer = none ∨ (f x).buffer = x.buffer ∧ (f x).dataLen ≤ x.dataLen) :
    KeepsBuffers a { a with poolSamples := a.poolSamples.update d f } := by
  intro e
  simp only [BufferPool.content_update]
  split
  · exact hf _
  · exact .inr ⟨rfl, Nat.le_refl _⟩

theorem takeReceivedData (a : Agent) : KeepsBuffers a a.takeReceivedData := by
  intro d
  by_cases hd : d = a.poolSamples.next
  · subst hd
    exact .inl (by simp [Agent.takeReceivedData])
  · refine .inr ?_
    simp [Agent.takeReceivedData, BufferPool.content_take_of_ne _ _ hd]

/-- A buffer whose recorded length is too short is freed. -/
theorem reuse (a : Agent) (key : ClientSessionKey) (d size : ℕ) :
    KeepsBuffers a (a.reuse key d size) := by
  refine updateSample (a.updateSession key _) d fun x => ?_
  split
  · exact .inl rfl
  · exact .inr ⟨rfl, Nat.le_refl _⟩

end KeepsBuffers

/-- A record that is changed to one that fits. -/
theorem Agent.Fitting.updateSample {a : Agent} (ha : a.Fitting) {d : ℕ}
    {f : ReceivedData → ReceivedData} (hf : (f (a.poolSamples.content d)).Fits) :
    ({ a with poolSamples := a.poolSamples.update d f } : Agent).Fitting := by
  intro e
  simp only [BufferPool.content_update]
  split
  · subst e
    exact hf
  · exact ha e

namespace AgentM

variable (env : Env)

/-- The part of `NDDSA_Read_convert_sampleEA` that prepares the record `d` for the sample. -/
def prepareReceivedData (key : ClientSessionKey) (n d : ℕ) (smp : Sample) : AgentM Unit := do
  let a ← read
  modify fun a => { a with poolSamples := a.poolSamples.update d fun x =>
    { x with sessionKey := key, read := (a.attached n).readReq,
             dataLen := env.serializedSize smp } }
  onlyIf (a.poolSamples.content d).buffer.isNone do
    ensure (env.ok (.allocate .convertSample smp.sn))
    modify fun a => { a with poolSamples := a.poolSamples.update d fun x =>
      { x with buffer := some x.dataLen } }

/-- The part of `NDDSA_Read_convert_sampleEA` that serializes the sample into the record
`d` and reads the header that was written. -/
def serializeSample (n d : ℕ) (smp : Sample) : AgentM Unit := do
  ensure (env.ok (.toCdr .convertSample smp.sn))
  modify fun a => { a with poolSamples := a.poolSamples.update d fun x =>
    { x with dataLen := env.writtenLen smp } }
  let enc ← require (decodeCdrHeader (env.cdrHeader smp))
  modify fun a => { a with poolSamples := a.poolSamples.update d fun x =>
    { x with encoding := enc.1, littleEndian := enc.2, readerId := (a.attached n).id } }

theorem convertSampleEA_eq (key : ClientSessionKey) (n : ℕ) (smp : Sample) :
    convertSampleEA env key n smp =
      obtainReceivedData env key smp >>= fun d =>
        onFailure (prepareReceivedData env key n d smp >>= fun _ => serializeSample env n d smp)
          (modify fun a => a.recycle key d) >>= fun _ => pure d := by
  simp only [convertSampleEA, fillReceivedData, prepareReceivedData, serializeSample, bind_bind]

/-- In the state `b`, which it reaches from `a`, `convertSampleEA` serializes the sample into
the record `d`. -/
def Serializes (key : ClientSessionKey) (n : ℕ) (smp : Sample) (a : Agent) (d : ℕ) (b : Agent) :
    Prop :=
  ∃ a', obtainReceivedData env key smp a = (some d, a') ∧
    prepareReceivedData env key n d smp a' = (some ⟨⟩, b)

variable {env}

theorem reuse_hasRoom {a : Agent} (ha : a.Fitting) (key : ClientSessionKey) (d size : ℕ) :
    ((a.reuse key d size).poolSamples.content d).HasRoom size := by
  simp only [Agent.reuse, BufferPool.content_update_self]
  split
  · exact ReceivedData.hasRoom_of_isNone rfl
  · intro cap hcap
    have hlong := ‹¬ _›
    have hlen : (a.poolSamples.content d).dataLen ≤ cap := ha d cap hcap
    rw [hcap] at hlong
    simp only [Option.isSome_some, Bool.true_and, decide_eq_true_eq] at hlong
    change ¬ (a.poolSamples.content d).dataLen < size at hlong
    omega

/-- A record that is obtained has no buffer, or one with room for the sample. -/
theorem obtainReceivedData_hasRoom {key : ClientSessionKey} {smp : Sample} {a b : Agent} {d : ℕ}
    (ha : a.Fitting) (h : obtainReceivedData env key smp a = (some d, b)) :
    (b.poolSamples.content d).HasRoom (env.serializedSize smp) := by
  unfold obtainReceivedData at h
  rw [read_bind_apply] at h
  obtain ⟨s, a', hs, h⟩ := bind_eq_some.1 h
  obtain ⟨-, rfl⟩ := require_eq_some.1 hs
  cases hpool : s.rcvdDataPool with
  | nil =>
      rw [hpool] at h
      obtain ⟨_, a', hs, h⟩ := bind_eq_some.1 h
      obtain ⟨-, rfl⟩ := ensure_eq_some.1 hs
      obtain ⟨rfl, rfl⟩ := pure_eq_some.1 h
      exact ReceivedData.hasRoom_of_isNone (by simp [Agent.takeReceivedData])
  | cons e l =>
      rw [hpool] at h
      obtain ⟨rfl, rfl⟩ := pure_eq_some.1 h
      exact reuse_hasRoom ha key e _

theorem obtainReceivedData_keepsBuffers (key : ClientSessionKey) (smp : Sample) :
    Within KeepsBuffers (obtainReceivedData env key smp) := by
  refine .read fun a => .bind (.require _) fun s => ?_
  cases s.rcvdDataPool with
  | nil => exact .bind (.ensure _) fun _ => .bind (.modify .takeReceivedData) fun _ => .pure _
  | cons d l => exact .bind (.modify fun b => .reuse b key d _) fun _ => .pure _

/-- The exits of the preparation: the length of the record is the size of the sample, within
the buffer, or there is no buffer. -/
inductive PrepareExit (env : Env) (d : ℕ) (smp : Sample) : Option Unit → Agent → Prop
  | prepared {b : Agent} {cap : ℕ} : b.Fitting → (b.poolSamples.content d).buffer = some cap →
      (b.poolSamples.content d).dataLen = env.serializedSize smp →
      PrepareExit env d smp (some ⟨⟩) b
  | failed {b : Agent} : b.Fitting → PrepareExit env d smp none b

theorem prepareReceivedData_exits {key : ClientSessionKey} {n d : ℕ} {smp : Sample} {a : Agent}
    (ha : a.Fitting) (hroom : (a.poolSamples.content d).HasRoom (env.serializedSize smp)) :
    PrepareExit env d smp (prepareReceivedData env key n d smp a).1
      (prepareReceivedData env key n d smp a).2 := by
  unfold prepareReceivedData
  rw [read_bind_apply, modify_bind_apply]
  set b : Agent := { a with poolSamples := a.poolSamples.update d fun x =>
    { x with sessionKey := key, read := (a.attached n).readReq,
             dataLen := env.serializedSize smp } } with hb
  have hbuffer : (b.poolSamples.content d).buffer = (a.poolSamples.content d).buffer := by
    rw [hb, BufferPool.content_update_self]
  have hlen : (b.poolSamples.content d).dataLen = env.serializedSize smp := by
    rw [hb, BufferPool.content_update_self]
  have hfit : b.Fitting := ha.updateSample hroom
  cases hnone : (a.poolSamples.content d).buffer with
  | some cap =>
      rw [hnone] at hbuffer
      exact .prepared hfit hbuffer hlen
  | none =>
      refine exits_ensure (.failed hfit) fun _ => ?_
      rw [modify_apply]
      have hself : ((b.poolSamples.update d fun x =>
          { x with buffer := some x.dataLen }).content d) =
          { b.poolSamples.content d with buffer := some (env.serializedSize smp) } := by
        simp only [BufferPool.content_update_self, hlen]
      refine .prepared (hfit.updateSample ?_) (congrArg ReceivedData.buffer hself) ?_
      · intro cap hcap
        exact Nat.le_of_eq (Option.some.inj hcap)
      · exact (congrArg ReceivedData.dataLen hself).trans hlen

/-- A sample that is written within its size keeps the lengths within the buffers, whether
the conversion succeeds or fails. -/
theorem convertSampleEA_fitting (key : ClientSessionKey) (n : ℕ) {smp : Sample}
    (hwritten : env.writtenLen smp ≤ env.serializedSize smp) :
    Preserves Agent.Fitting (convertSampleEA env key n smp) := by
  intro a ha
  have hobtain : KeepsBuffers a (obtainReceivedData env key smp a).2 :=
    obtainReceivedData_keepsBuffers key smp a
  rw [convertSampleEA_eq]
  refine keeps_bind (fun _ => hobtain.fitting ha) fun d hd => ?_
  have hroom := obtainReceivedData_hasRoom ha (eq_of_fst_eq_some hd)
  have hfit := hobtain.fitting ha
  generalize (obtainReceivedData env key smp a).2 = b at hroom hfit
  have hfill : (onFailure (prepareReceivedData env key n d smp >>= fun _ =>
      serializeSample env n d smp) (modify fun a => a.recycle key d) b).2.Fitting := by
    suffices h : ((prepareReceivedData env key n d smp >>= fun _ =>
        serializeSample env n d smp) b).2.Fitting from keeps_onFailure h fun _ => h
    have hprepare : PrepareExit env d smp (prepareReceivedData env key n d smp b).1
        (prepareReceivedData env key n d smp b).2 := prepareReceivedData_exits hfit hroom
    rw [bind_apply]
    generalize prepareReceivedData env key n d smp b = res at hprepare
    rcases res with ⟨res, c⟩
    cases hprepare with
    | failed hc => exact hc
    | prepared hc hbuffer hlen =>
        refine keeps_ensure hc fun _ => ?_
        rw [modify_bind_apply]
        have hset : ({ c with poolSamples := c.poolSamples.update d fun x =>
            { x with dataLen := env.writtenLen smp } } : Agent).Fitting := by
          rw [← hlen] at hwritten
          exact hc.updateSample (ReceivedData.HasRoom.mono (hc d) hwritten)
        refine keeps_require hset fun enc _ => ?_
        exact hset.updateSample (hset d)
  exact keeps_bind (fun _ => hfill) fun _ _ => hfill

/-- Offering a sample keeps the lengths within the buffers. -/
theorem processSampleEA_fitting (key : ClientSessionKey) (n : ℕ) {smp : Sample} (now : ℕ)
    (hwritten : env.writtenLen smp ≤ env.serializedSize smp) :
    Preserves Agent.Fitting (processSampleEA env key n smp now) := by
  refine .read fun a => .bind (.require _) fun rd => .ite (fun _ => .pure _) fun _ =>
    .ite (fun _ => .pure _) fun _ => .bind (.ensure _) fun _ =>
      .bind (convertSampleEA_fitting key n hwritten) fun d => ?_
  cases env.delivery smp with
  | error => exact .bind (.modify fun b hb => hb) fun _ => .fail
  | tryAgain => exact .bind (.modify fun b hb => hb) fun _ => .pure _
  | accepted retained =>
      refine .bind (.modify fun b hb => ?_) fun _ => .pure _
      cases retained with
      | false => exact hb
      | true => exact hb

/-- Where a sample is serialized, the length that is passed is its size, and the buffer takes
it. -/
theorem Serializes.within {key : ClientSessionKey} {n d : ℕ} {smp : Sample} {a b : Agent}
    (h : Serializes env key n smp a d b) (ha : a.Fitting) :
    (b.poolSamples.content d).dataLen = env.serializedSize smp ∧
      ∃ cap, (b.poolSamples.content d).buffer = some cap ∧ env.serializedSize smp ≤ cap := by
  obtain ⟨a', hobtain, hprepare⟩ := h
  have hkeep : KeepsBuffers a (obtainReceivedData env key smp a).2 :=
    obtainReceivedData_keepsBuffers key smp a
  have hfit := hkeep.fitting ha
  rw [hobtain] at hfit
  have hexit : PrepareExit env d smp (prepareReceivedData env key n d smp a').1
      (prepareReceivedData env key n d smp a').2 :=
    prepareReceivedData_exits hfit (obtainReceivedData_hasRoom ha hobtain)
  rw [hprepare] at hexit
  cases hexit with
  | prepared hb hbuffer hlen =>
      have hcap := hb d _ hbuffer
      rw [hlen] at hcap
      exact ⟨hlen, _, hbuffer, hcap⟩

/-! The other operations on the reads and the records of a session leave the buffers alone. -/

theorem cancelReadEA_keepsBuffers (n : ℕ) (rid : ResourceId) :
    Within KeepsBuffers (cancelReadEA env n rid) := by
  refine .read fun a => ?_
  cases (a.attached n).readReq with
  | none => exact .pure _
  | some rd =>
      refine .bind (.ensure _) fun _ => .bind (.require _) fun r => .bind ?_ fun reader => ?_
      · refine .bind (.modify fun b => ?_) fun _ => .require _
        exact .of_same (by split <;> rfl)
      · exact .bind (fun b => .of_same rfl) fun _ => .bind (.ensure _) fun _ =>
          .bind (.ensure _) fun _ => .modify fun b => .of_same rfl

theorem closeReturn_keepsBuffers (key : ClientSessionKey) (n rd : ℕ) (rid : ResourceId) :
    Within KeepsBuffers (closeReturn env key n rd rid) := by
  refine .read fun c => .ite (fun _ => ?_) fun _ => .ensure _
  refine .bind (.modify fun b => .of_same rfl) fun _ => .ite (fun _ => ?_) fun _ => .ensure _
  exact .bind (cancelReadEA_keepsBuffers n _) fun _ => .bind (.ensure _) fun _ =>
    .modify fun b => .of_same rfl

theorem returnLoan_keepsBuffers (src : ℕ) (key : ClientSessionKey) (d : ℕ) :
    Within KeepsBuffers (returnLoan env src key d) := by
  intro a
  rcases returnLoan_cases env src key d a with ⟨-, h⟩ | ⟨n, rd, -, ⟨-, h⟩ | ⟨-, h⟩⟩
  · rw [h]
    exact refl a
  · rw [h]
    exact .of_same rfl
  · rw [h]
    have hcounted : KeepsBuffers a (a.countReturn key n rd d) := .of_same rfl
    exact IsTrans.trans _ _ _ hcounted (closeReturn_keepsBuffers key n rd _ _)

end AgentM

/-- The records of a session that is closed go back to the pool of the agent. -/
theorem Agent.drainSamples_keepsBuffers (a : Agent) (key : ClientSessionKey) :
    KeepsBuffers a (a.drainSamples key) := by
  have hfold : ∀ (l : List ℕ) (p : BufferPool ReceivedData),
      (l.foldl (fun p d => p.giveBack d) p).content = p.content := by
    intro l
    induction l with
    | nil => exact fun p => rfl
    | cons d l ih => exact fun p => ih (p.giveBack d)
  unfold drainSamples
  split
  · exact .of_same (hfold _ _)
  · exact refl a

/-- What happens to the records of an agent: a sample is offered to a read, or anything else
that leaves the buffers alone, such as a record that is recycled. -/
inductive RecordEvent
  | offer (env : Env) (key : ClientSessionKey) (n : ℕ) (smp : Sample) (now : ℕ)
  | other (b : Agent)

namespace RecordEvent

def step (a : Agent) : RecordEvent → Agent
  | offer env key n smp now => (AgentM.processSampleEA env key n smp now a).2
  | other b => b

/-- Serializing a sample does not set a greater length than it was given. -/
def Sound (a : Agent) : RecordEvent → Prop
  | offer env _ _ smp _ => env.writtenLen smp ≤ env.serializedSize smp
  | other b => KeepsBuffers a b

/-- The agents reached by such events from one without any buffer. -/
abbrev Reached : Agent → Prop :=
  Reachable (fun a => ∀ d, (a.poolSamples.content d).buffer = none) step Sound

theorem Reached.fitting {a : Agent} (h : Reached a) : a.Fitting := by
  refine Reachable.invariant (fun b hb d => ReceivedData.hasRoom_of_isNone (hb d))
    (fun b e hb he => ?_) h
  cases e with
  | offer env key n smp now => exact AgentM.processSampleEA_fitting key n now he b hb
  | other c => exact KeepsBuffers.fitting he hb

/-- **The capacity of a received buffer.** Wherever `convertSampleEA` serializes a sample, the
record has a buffer of at least the size of the sample. -/
theorem serializes_within_buffer {a : Agent} (h : Reached a) {env : Env} {key : ClientSessionKey}
    {n d : ℕ} {smp : Sample} {b : Agent} (hs : AgentM.Serializes env key n smp a d b) :
    (b.poolSamples.content d).dataLen = env.serializedSize smp ∧
      ∃ cap, (b.poolSamples.content d).buffer = some cap ∧ env.serializedSize smp ≤ cap :=
  hs.within h.fitting

/-- The interface asks to try again, and the sample `sn` has the size `sn`. -/
def refusing : Env :=
  { Env.obliging (.one ⟨12, .dataReader, .guid 3, 11, 13⟩) with
    delivery := fun _ => .tryAgain
    serializedSize := Sample.sn
    writtenLen := Sample.sn }

/-- A read that is offered samples of the sizes 8 and 5, and refuses them. -/
def offeredTwice : Agent :=
  step (step (AgentM.readEA refusing ⟨1, 1⟩ 0 ⟨0, 0, 0, none⟩ Deliveries.resumingAgent).2
    (offer refusing ⟨1, 1⟩ 0 ⟨8, true, 7⟩ 0)) (offer refusing ⟨1, 1⟩ 0 ⟨5, true, 7⟩ 0)

theorem offeredTwice_reached : Reached offeredTwice := by
  refine .next _ (.next _ (.start fun d => ?_) ?_) ?_
  · rfl
  · exact Nat.le_refl _
  · exact Nat.le_refl _

/-- A sample of size 6 is serialized: the record that held 5 bytes has lost its buffer of 8
and gets a new one. -/
theorem serializes_within_buffer_offeredTwice :
    ∃ d b, AgentM.Serializes refusing ⟨1, 1⟩ 0 ⟨6, true, 7⟩ offeredTwice d b ∧
      (offeredTwice.poolSamples.content d).buffer = some 8 ∧
      ∃ cap, (b.poolSamples.content d).buffer = some cap ∧ 6 ≤ cap := by
  have hs : AgentM.Serializes refusing ⟨1, 1⟩ 0 ⟨6, true, 7⟩ offeredTwice 0
      ((AgentM.obtainReceivedData refusing ⟨1, 1⟩ ⟨6, true, 7⟩ >>= fun d =>
        AgentM.prepareReceivedData refusing ⟨1, 1⟩ 0 d ⟨6, true, 7⟩) offeredTwice).2 :=
    ⟨_, rfl, rfl⟩
  exact ⟨_, _, hs, rfl, (serializes_within_buffer offeredTwice_reached hs).2⟩

end RecordEvent

end NanoAgent
