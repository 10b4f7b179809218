import NanoAgent.DdsAgent.ClientSession
import NanoAgent.Foundations.Run

/-!
# The encapsulation of serialized data

DDS serializes data behind a header of four bytes, which names the encoding and the
endianness. `bufferToDyndata` puts it before a payload that is written, in a buffer that
the writer keeps and lets grow. A received sample comes with the header: `convertHeader`
reads it, and `forwardPayload` passes on what follows.

The lengths are unsigned numbers, so the four bytes may be added or taken off with a wrap.
What is accessed outside a buffer is recorded in `outside`.
-/

namespace NanoAgent

open Prog

/-- The payload of `D2S2_XcdrData`, with its encoding; the length is a `DDS_UnsignedLong`. -/
structure XcdrData where
  data : List ℕ
  length_lt : data.length < 2 ^ 32
  encoding : XcdrEncodingKind
  littleEndian : Bool

/-- The first byte of a CDR header. -/
def cdrKindByte : XcdrEncodingKind → Option ℕ
  | .xcdr1 | .xcdr2 => some 0x00
  | .xcdr1Pl | .xcdr2Pl => some 0x01
  | .unknown => none

/-- The second byte of a CDR header. -/
def cdrIdByte (e : XcdrEncodingKind) (littleEndian : Bool) : Option ℕ :=
  if littleEndian then
    match e with
    | .xcdr1 | .xcdr1Pl => some 0x01
    | .xcdr2 | .xcdr2Pl => some 0x11
    | .unknown => none
  else
    match e with
    | .xcdr1 | .xcdr1Pl => some 0x00
    | .xcdr2 | .xcdr2Pl => some 0x10
    | .unknown => none

/-- The header of four bytes for an encoding and an endianness. -/
def encapsulationHeader (e : XcdrEncodingKind) (littleEndian : Bool) : Option (List ℕ) := do
  let kind ← cdrKindByte e
  let id ← cdrIdByte e littleEndian
  some [kind, id, 0, 0]

theorem cdrKindByte_eq_none {e : XcdrEncodingKind} : cdrKindByte e = none ↔ e = .unknown := by
  cases e <;> simp [cdrKindByte]

/-- An encoding with a first byte has a second one. -/
theorem cdrIdByte_isSome {e : XcdrEncodingKind} {kind : ℕ} (h : cdrKindByte e = some kind)
    (littleEndian : Bool) : ∃ id, cdrIdByte e littleEndian = some id := by
  cases e with
  | unknown => cases h
  | xcdr1 => cases littleEndian <;> exact ⟨_, rfl⟩
  | xcdr1Pl => cases littleEndian <;> exact ⟨_, rfl⟩
  | xcdr2 => cases littleEndian <;> exact ⟨_, rfl⟩
  | xcdr2Pl => cases littleEndian <;> exact ⟨_, rfl⟩

theorem decodeCdrHeader_eq {e : XcdrEncodingKind} {littleEndian : Bool} {kind id : ℕ}
    (hkind : cdrKindByte e = some kind) (hid : cdrIdByte e littleEndian = some id) :
    decodeCdrHeader (kind, id) = some (e, littleEndian) := by
  cases e with
  | unknown => cases hkind
  | xcdr1 => cases littleEndian <;> cases hkind <;> cases hid <;> rfl
  | xcdr1Pl => cases littleEndian <;> cases hkind <;> cases hid <;> rfl
  | xcdr2 => cases littleEndian <;> cases hkind <;> cases hid <;> rfl
  | xcdr2Pl => cases littleEndian <;> cases hkind <;> cases hid <;> rfl

/-- The data buffer of `NDDSA_Writer`, with the buffers handed to DDS so far. -/
structure Writer where
  dataBuffer : Option (List ℕ)
  dataBufferMax : ℕ
  dataBufferLen : ℕ
  handed : List (List ℕ)
  outside : Bool

namespace Writer

/-- The data buffer as `NDDSA_Writer_initialize` leaves it. -/
def initial : Writer := ⟨none, 0, 0, [], false⟩

/-- The bytes of the data buffer. -/
def bytes (w : Writer) : List ℕ := w.dataBuffer.getD []

/-- Write bytes at a position of the data buffer. -/
def poke (w : Writer) (pos : ℕ) (src : List ℕ) : Writer :=
  { w with
    dataBuffer := w.dataBuffer.map fun buf =>
      buf.take pos ++ src.take (buf.length - pos) ++ buf.drop (pos + src.length)
    outside := w.outside || decide (w.bytes.length < pos + src.length) }

/-- Hand the data buffer to `DDS_DynamicData_from_cdr_buffer`. -/
def hand (w : Writer) : Writer :=
  { w with
    handed := w.handed ++ [w.bytes.take w.dataBufferLen]
    outside := w.outside || decide (w.bytes.length < w.dataBufferLen) }

end Writer

/-- A write: the data, whether memory can be allocated and what it holds, and whether DDS
takes the buffer. -/
structure WriteAttempt where
  data : XcdrData
  allocated : Bool
  junk : ℕ → ℕ
  converted : Bool

namespace WriteAttempt

/-- `RTIOsapiHeap_reallocateBufferAligned`. The buffer is `NULL` when it fails. -/
def reallocate (i : WriteAttempt) (n : ℕ) : Option (List ℕ) :=
  if i.allocated then some ((List.range n).map i.junk) else none

/-- The length that the write computes for its buffer, as a `DDS_UnsignedLong`. -/
def dataLen (i : WriteAttempt) : ℕ := (i.data.data.length + 4) % 2 ^ 32

end WriteAttempt

/-- The part of `NDDSA_Agent_buffer_to_dyndata` that lets the data buffer grow. -/
def growBuffer (i : WriteAttempt) : Prog Writer Unit := do
  let w ← read
  onlyIf (i.dataLen > w.dataBufferMax) do
    modify fun w => { w with dataBuffer := i.reallocate i.dataLen }
    onFailure (ensure (i.reallocate i.dataLen).isSome)
      (modify fun w => { w with dataBufferMax := 0, dataBufferLen := 0 })
    modify fun w => { w with dataBufferMax := i.dataLen }
  modify fun w => { w with dataBufferLen := i.dataLen }

/-- `NDDSA_Agent_buffer_to_dyndata`. -/
def bufferToDyndata (i : WriteAttempt) : Prog Writer Unit := do
  growBuffer i
  modify fun w => w.poke 4 i.data.data
  modify fun w => w.poke 0 [0, 0, 0, 0]
  let kind ← require (cdrKindByte i.data.encoding)
  modify fun w => w.poke 0 [kind]
  let id ← require (cdrIdByte i.data.encoding i.data.littleEndian)
  modify fun w => w.poke 1 [id]
  modify Writer.hand
  ensure i.converted

namespace Writer

variable {w : Writer} {i : WriteAttempt}

/-- The recorded size is that of the allocated buffer, and a `DDS_UnsignedLong`. -/
structure Sized (w : Writer) : Prop where
  length : w.bytes.length = w.dataBufferMax
  bounded : w.dataBufferMax < 2 ^ 32

theorem poke_bytes (w : Writer) (pos : ℕ) (src : List ℕ)
    (h : pos + src.length ≤ w.bytes.length) :
    (w.poke pos src).bytes = w.bytes.take pos ++ src ++ w.bytes.drop (pos + src.length) := by
  unfold poke bytes at *
  cases hbuf : w.dataBuffer with
  | none =>
      rw [hbuf] at h
      have hlen : pos + src.length = 0 := Nat.le_zero.1 h
      have hsrc : src = [] := List.eq_nil_of_length_eq_zero (by omega)
      subst hsrc
      simp
  | some buf =>
      rw [hbuf, Option.getD_some] at h
      simp only [Option.map_some, Option.getD_some]
      rw [List.take_of_length_le (by omega : src.length ≤ buf.length - pos)]

theorem poke_outside (w : Writer) (pos : ℕ) (src : List ℕ)
    (h : pos + src.length ≤ w.bytes.length) : (w.poke pos src).outside = w.outside := by
  simp [poke, Nat.not_lt.2 h]

theorem length_poke (w : Writer) (pos : ℕ) (src : List ℕ)
    (h : pos + src.length ≤ w.bytes.length) :
    (w.poke pos src).bytes.length = w.bytes.length := by
  rw [poke_bytes w pos src h]
  simp only [List.length_append, List.length_take, List.length_drop]
  omega

/-- What was accessed outside the buffer stays recorded. -/
theorem outside_poke (w : Writer) (pos : ℕ) (src : List ℕ) (h : w.outside = true) :
    (w.poke pos src).outside = true := by
  simp [poke, h]

theorem outside_of_poke (w : Writer) (pos : ℕ) (src : List ℕ)
    (h : w.bytes.length < pos + src.length) : (w.poke pos src).outside = true := by
  simp [poke, h]

/-- A byte is written over another at the front of the buffer. -/
theorem poke_front {a b : ℕ} {rest : List ℕ} (kind id : ℕ) (h : w.bytes = a :: b :: rest) :
    ((w.poke 0 [kind]).poke 1 [id]).bytes = kind :: id :: rest := by
  have hkind : (w.poke 0 [kind]).bytes = kind :: b :: rest := by
    rw [poke_bytes, h]
    · rfl
    · rw [h]
      simp
  rw [poke_bytes, hkind]
  · rfl
  · rw [hkind]
    simp

/-- The exits of the growth: no memory, or a buffer of at least the length that was
computed. -/
inductive GrowExit (w : Writer) (i : WriteAttempt) : Option Unit → Writer → Prop
  | refused : w.dataBufferMax < i.dataLen → i.allocated = false →
      GrowExit w i none ⟨none, 0, 0, w.handed, w.outside⟩
  | grown {w' : Writer} : ¬ (w.dataBufferMax < i.dataLen ∧ i.allocated = false) → w'.Sized →
      i.dataLen ≤ w'.bytes.length → w'.dataBufferLen = i.dataLen → w'.handed = w.handed →
      w'.outside = w.outside → GrowExit w i (some ()) w'

theorem growBuffer_exits (hw : w.Sized) (i : WriteAttempt) :
    GrowExit w i (growBuffer i w).1 (growBuffer i w).2 := by
  have hbound : i.dataLen < 2 ^ 32 := Nat.mod_lt _ (by decide)
  unfold growBuffer
  rw [read_bind_apply]
  by_cases hgrow : w.dataBufferMax < i.dataLen
  · rw [decide_eq_true (show i.dataLen > w.dataBufferMax from hgrow), onlyIf_true]
    cases halloc : i.allocated with
    | false =>
        have hnone : i.reallocate i.dataLen = none := by simp [WriteAttempt.reallocate, halloc]
        rw [hnone]
        exact .refused hgrow halloc
    | true =>
        have hsome : i.reallocate i.dataLen = some ((List.range i.dataLen).map i.junk) := by
          simp [WriteAttempt.reallocate, halloc]
        rw [hsome]
        have hlen : ((List.range i.dataLen).map i.junk).length = i.dataLen := by simp
        refine .grown (fun h => ?_) ⟨hlen, hbound⟩ (Nat.le_of_eq hlen.symm) rfl rfl rfl
        rw [halloc] at h
        exact Bool.noConfusion h.2
  · rw [decide_eq_false (show ¬ i.dataLen > w.dataBufferMax from hgrow), onlyIf_false]
    refine .grown (fun h => hgrow h.1) ⟨hw.length, hw.bounded⟩ ?_ rfl rfl rfl
    change i.dataLen ≤ w.bytes.length
    rw [hw.length]
    exact Nat.le_of_not_lt hgrow

/-- The header is zeroed after the payload was put behind it. -/
theorem poke_payload {payload : List ℕ} (h : payload.length + 4 ≤ w.bytes.length) :
    ((w.poke 4 payload).poke 0 [0, 0, 0, 0]).bytes =
      0 :: 0 :: 0 :: 0 :: (payload ++ w.bytes.drop (4 + payload.length)) := by
  have hfirst : (w.poke 4 payload).bytes =
      w.bytes.take 4 ++ payload ++ w.bytes.drop (4 + payload.length) :=
    poke_bytes w 4 payload (by omega)
  have hlen : (w.bytes.take 4).length = 4 := by
    rw [List.length_take]
    omega
  rw [poke_bytes, hfirst]
  · simp only [List.take_zero, List.nil_append, List.length_cons, List.length_nil,
      List.append_assoc, Nat.zero_add, List.cons_append]
    rw [List.drop_append, hlen, Nat.sub_self, List.drop_zero,
      List.drop_eq_nil_of_le (Nat.le_of_eq hlen), List.nil_append]
  · rw [length_poke w 4 payload (by omega)]
    simp only [List.length_cons, List.length_nil]
    omega

/-- The part of `bufferToDyndata` that fills the buffer and hands it to DDS. -/
def fillBuffer (i : WriteAttempt) : Prog Writer Unit := do
  modify fun w => w.poke 4 i.data.data
  modify fun w => w.poke 0 [0, 0, 0, 0]
  let kind ← require (cdrKindByte i.data.encoding)
  modify fun w => w.poke 0 [kind]
  let id ← require (cdrIdByte i.data.encoding i.data.littleEndian)
  modify fun w => w.poke 1 [id]
  modify Writer.hand
  ensure i.converted

theorem bufferToDyndata_eq (i : WriteAttempt) :
    bufferToDyndata i = growBuffer i >>= fun _ => fillBuffer i := rfl

/-- A payload that does not fit is written outside the buffer. -/
theorem fillBuffer_outside (h : w.bytes.length < i.data.data.length + 4) :
    (fillBuffer i w).2.outside = true := by
  let I : Writer → Prop := fun w => w.outside = true
  have hpoke : ∀ pos src, Preserves I (modify fun w => w.poke pos src) :=
    fun pos src w hw => outside_poke w pos src hw
  have hrest : Preserves I (do
      modify fun w => w.poke 0 [0, 0, 0, 0]
      let kind ← require (cdrKindByte i.data.encoding)
      modify fun w => w.poke 0 [kind]
      let id ← require (cdrIdByte i.data.encoding i.data.littleEndian)
      modify fun w => w.poke 1 [id]
      modify Writer.hand
      ensure i.converted) := by
    refine .bind (hpoke _ _) fun _ => .bind (.require _) fun kind => .bind (hpoke _ _) fun _ =>
      .bind (.require _) fun id => .bind (hpoke _ _) fun _ => .bind (.modify ?_) fun _ =>
        .ensure _
    intro w hw
    change (w.outside || _) = true
    rw [show w.outside = true from hw, Bool.true_or]
  exact hrest _ (outside_of_poke w 4 i.data.data (by omega))

/-- What DDS has got after a write: nothing, when there is no memory or no header for the
encoding, or the header and the payload, from within the buffer. -/
inductive Handed (before : List (List ℕ)) (i : WriteAttempt) (noMemory : Prop) (w' : Writer) :
    Prop
  | nothing : w'.handed = before → noMemory ∨ i.data.encoding = .unknown →
      Handed before i noMemory w'
  | buffer {header : List ℕ} :
      encapsulationHeader i.data.encoding i.data.littleEndian = some header →
      w'.handed = before ++ [header ++ i.data.data] →
      (header ++ i.data.data).length = i.data.data.length + 4 →
      i.data.data.length + 4 ≤ w'.bytes.length → Handed before i noMemory w'

/-- A payload that fits is handed over behind its header. -/
theorem fillBuffer_handed (hlen : w.dataBufferLen = i.data.data.length + 4)
    (hfit : i.data.data.length + 4 ≤ w.bytes.length) :
    (fillBuffer i w).2.outside = w.outside ∧ Handed w.handed i False (fillBuffer i w).2 ∧
      ((fillBuffer i w).2.bytes.length = w.bytes.length ∧
        (fillBuffer i w).2.dataBufferMax = w.dataBufferMax) := by
  have hzero := poke_payload hfit
  have hlength : ((w.poke 4 i.data.data).poke 0 [0, 0, 0, 0]).bytes.length = w.bytes.length := by
    rw [length_poke, length_poke]
    · omega
    · rw [length_poke w 4 _ (by omega)]
      simp only [List.length_cons, List.length_nil]
      omega
  have hinside : ((w.poke 4 i.data.data).poke 0 [0, 0, 0, 0]).outside = w.outside := by
    rw [poke_outside, poke_outside]
    · omega
    · rw [length_poke w 4 _ (by omega)]
      simp only [List.length_cons, List.length_nil]
      omega
  set u := (w.poke 4 i.data.data).poke 0 [0, 0, 0, 0] with hu
  cases hkind : cdrKindByte i.data.encoding with
  | none =>
      have hend : fillBuffer i w = (none, u) := by
        simp only [fillBuffer, modify_bind_apply, hkind]
        rfl
      rw [hend]
      exact ⟨hinside, .nothing rfl (.inr (cdrKindByte_eq_none.1 hkind)), hlength, rfl⟩
  | some kind =>
      obtain ⟨id, hid⟩ := cdrIdByte_isSome hkind i.data.littleEndian
      have hbytes := poke_front kind id hzero
      have hone : (u.poke 0 [kind]).bytes.length = u.bytes.length :=
        length_poke u 0 _ (by rw [hzero]; simp)
      have htwo : ((u.poke 0 [kind]).poke 1 [id]).bytes.length = w.bytes.length := by
        rw [length_poke, hone, hlength]
        rw [hone, hzero]
        simp
      have hfront : ((u.poke 0 [kind]).poke 1 [id]).outside = w.outside := by
        rw [poke_outside, poke_outside, hinside]
        · rw [hzero]
          simp
        · rw [hone, hzero]
          simp
      set v := (u.poke 0 [kind]).poke 1 [id] with hv
      have hend : (fillBuffer i w).2 = v.hand := by
        simp only [fillBuffer, bind_apply, require_apply, hkind, hid]
        rfl
      have hvlen : v.dataBufferLen = i.data.data.length + 4 := hlen
      have hheader : encapsulationHeader i.data.encoding i.data.littleEndian =
          some [kind, id, 0, 0] := by
        simp [encapsulationHeader, hkind, hid]
      rw [hend]
      refine ⟨?_, .buffer hheader ?_ (by simp) ?_, htwo, rfl⟩
      · change (v.outside || decide (v.bytes.length < v.dataBufferLen)) = w.outside
        rw [hvlen, htwo, decide_eq_false (Nat.not_lt.2 hfit), Bool.or_false, hfront]
      · change w.handed ++ [v.bytes.take v.dataBufferLen] = _
        rw [hvlen, hbytes]
        simp
      · change _ ≤ v.bytes.length
        rw [htwo]
        exact hfit

/-- A write does with memory and DDS what it should: it accesses nothing outside its buffer,
and what it hands over is the header and the payload. -/
def Encapsulates (w : Writer) (i : WriteAttempt) : Prop :=
  (bufferToDyndata i w).2.outside = false ∧
    Handed w.handed i (w.dataBufferMax < i.dataLen ∧ i.allocated = false) (bufferToDyndata i w).2

/-- The length of the payload and the header is a `DDS_UnsignedLong`, or there is no memory
for the length that is computed. -/
def Fits (w : Writer) (i : WriteAttempt) : Prop :=
  i.data.data.length + 4 < 2 ^ 32 ∨ (w.dataBufferMax < i.dataLen ∧ i.allocated = false)

theorem encapsulates_iff (hw : w.Sized) (hin : w.outside = false) :
    w.Encapsulates i ↔ w.Fits i := by
  have hexit := growBuffer_exits hw i
  rw [Encapsulates, bufferToDyndata_eq, bind_apply]
  generalize growBuffer i w = res at hexit
  rcases res with ⟨res, w'⟩
  cases hexit with
  | refused hgrow halloc =>
      exact ⟨fun _ => .inr ⟨hgrow, halloc⟩, fun _ => ⟨hin, .nothing rfl (.inl ⟨hgrow, halloc⟩)⟩⟩
  | grown hmem hsized hle hlen hhanded houtside =>
      dsimp only
      by_cases hfit : i.data.data.length + 4 < 2 ^ 32
      · have hdata : i.dataLen = i.data.data.length + 4 := Nat.mod_eq_of_lt hfit
        rw [hdata] at hle hlen
        obtain ⟨hinside, hh, -⟩ := fillBuffer_handed hlen hle
        refine ⟨fun _ => .inl hfit, fun _ => ⟨?_, ?_⟩⟩
        · rw [hinside, houtside, hin]
        · cases hh with
          | nothing hsame hcause =>
              exact .nothing (hsame.trans hhanded) (.inr (hcause.resolve_left id))
          | buffer hheader happend hlength hcap =>
              exact .buffer hheader (by rw [happend, hhanded]) hlength hcap
      · have hshort : w'.bytes.length < i.data.data.length + 4 := by
          rw [hsized.length]
          have hbounded := hsized.bounded
          omega
        have hout := fillBuffer_outside hshort
        refine ⟨fun h => ?_, fun h => ?_⟩
        · rw [hout] at h
          exact Bool.noConfusion h.1
        · rcases h with h | h
          · exact absurd h hfit
          · exact absurd h hmem

theorem sized_step (hw : w.Sized) (hfit : w.Fits i) : (bufferToDyndata i w).2.Sized := by
  have hexit := growBuffer_exits hw i
  rw [bufferToDyndata_eq, bind_apply]
  generalize growBuffer i w = res at hexit
  rcases res with ⟨res, w'⟩
  cases hexit with
  | refused hgrow halloc => exact ⟨rfl, Nat.two_pow_pos 32⟩
  | grown hmem hsized hle hlen hhanded houtside =>
      have hlt : i.data.data.length + 4 < 2 ^ 32 := hfit.resolve_right hmem
      have hdata : i.dataLen = i.data.data.length + 4 := Nat.mod_eq_of_lt hlt
      rw [hdata] at hle hlen
      obtain ⟨-, -, hbytes, hmax⟩ := fillBuffer_handed hlen hle
      constructor
      · rw [hbytes, hmax]
        exact hsized.length
      · rw [hmax]
        exact hsized.bounded

def step (w : Writer) (i : WriteAttempt) : Writer := (bufferToDyndata i w).2

/-- The writers reached by writes whose lengths fit. -/
abbrev Reached : Writer → Prop := Reachable (· = initial) step Fits

theorem Reached.sized (h : w.Reached) : w.Sized ∧ w.outside = false := by
  refine Reachable.invariant (I := fun w => w.Sized ∧ w.outside = false) ?_ ?_ h
  · rintro w rfl
    exact ⟨⟨rfl, by decide⟩, rfl⟩
  · rintro w i ⟨hw, hin⟩ hfit
    exact ⟨sized_step hw hfit, ((encapsulates_iff hw hin).2 hfit).1⟩

end Writer

/-- A received sample: the memory it starts in, and its length as a `DDS_UnsignedLong`. -/
structure SerializedSample where
  memory : ℕ → ℕ
  dataLen : ℕ
  dataLen_lt : dataLen < 2 ^ 32

namespace SerializedSample

/-- The bytes of the sample. -/
def bytes (s : SerializedSample) : List ℕ := (List.range s.dataLen).map s.memory

/-- Read `n` bytes from a position, and note whether some are outside the sample. -/
def peek (s : SerializedSample) (pos n : ℕ) : Prog Bool (List ℕ) := fun outside =>
  (some ((List.range n).map fun k => s.memory (pos + k)),
    outside || decide (s.dataLen < pos + n))

/-- The bytes of the header that `NDDSA_Read_convert_sampleEA` decodes. -/
def convertHeader (s : SerializedSample) : Prog Bool (XcdrEncodingKind × Bool) := do
  let _ ← s.peek 0 1
  let _ ← s.peek 1 1
  require (decodeCdrHeader (s.memory 0, s.memory 1))

/-- The payload that `NANO_XRCE_Agent_on_data_received` passes on; a `NANO_usize` has the given
number of bits. -/
def forwardPayload (bits : ℕ) (s : SerializedSample) : Prog Bool (List ℕ) := do
  ensure (s.dataLen != 0)
  s.peek 4 ((s.dataLen + 2 ^ bits - 4) % 2 ^ bits)

/-- A received sample on its way to the client: its encoding and endianness, and its payload. -/
def receive (bits : ℕ) (s : SerializedSample) :
    Prog Bool ((XcdrEncodingKind × Bool) × List ℕ) := do
  let enc ← s.convertHeader
  let payload ← s.forwardPayload bits
  pure (enc, payload)

/-- A sample is received as it should: nothing outside it is read, and its payload is what
follows the header. -/
def Forwards (bits : ℕ) (s : SerializedSample) : Prop :=
  (s.receive bits false).2 = false ∧
    ∀ r, (s.receive bits false).1 = some r → r.2 = s.bytes.drop 4

/-- The sample has a header, or the two bytes that are looked at name no encoding. -/
def HasHeader (s : SerializedSample) : Prop :=
  4 ≤ s.dataLen ∨ (2 ≤ s.dataLen ∧ decodeCdrHeader (s.memory 0, s.memory 1) = none)

/-- The size of the payload wraps for a sample that is shorter than its header. -/
theorem payload_size {bits n : ℕ} (hbits : 32 ≤ bits) (hn : n < 2 ^ 32) :
    (4 ≤ n → (n + 2 ^ bits - 4) % 2 ^ bits = n - 4) ∧
      (n < 4 → n < 4 + (n + 2 ^ bits - 4) % 2 ^ bits) := by
  have hpow : 2 ^ 32 ≤ 2 ^ bits := Nat.pow_le_pow_right (by decide) hbits
  constructor
  · intro hle
    have hsub : n + 2 ^ bits - 4 = n - 4 + 2 ^ bits := by omega
    rw [hsub, Nat.add_mod_right, Nat.mod_eq_of_lt (by omega)]
  · intro hlt
    rw [Nat.mod_eq_of_lt (by omega)]
    omega

theorem drop_bytes (s : SerializedSample) (k : ℕ) :
    s.bytes.drop k = (List.range (s.dataLen - k)).map fun j => s.memory (k + j) := by
  apply List.ext_getElem
  · simp [bytes]
  · intro j hj hj'
    simp [bytes]

theorem forwards_iff {bits : ℕ} (hbits : 32 ≤ bits) (s : SerializedSample) :
    s.Forwards bits ↔ s.HasHeader := by
  obtain ⟨hlong, hshort⟩ := payload_size hbits s.dataLen_lt
  cases hdec : decodeCdrHeader (s.memory 0, s.memory 1) with
  | none =>
      have hrun : s.receive bits false =
          (none, decide (s.dataLen < 1) || decide (s.dataLen < 2)) := by
        simp only [receive, convertHeader, bind_apply, peek, require_apply, hdec]
        rfl
      rw [Forwards, hrun, HasHeader, hdec]
      simp only [Bool.or_eq_false_iff, decide_eq_false_iff_not, and_true]
      constructor
      · rintro ⟨⟨-, htwo⟩, -⟩
        exact .inr (Nat.le_of_not_lt htwo)
      · intro hle
        exact ⟨⟨by omega, by omega⟩, fun r hr => by cases hr⟩
  | some enc =>
      rw [HasHeader, hdec]
      simp only [reduceCtorEq, and_false, or_false]
      by_cases hzero : s.dataLen = 0
      · have hrun : s.receive bits false = (none, true) := by
          simp [receive, convertHeader, forwardPayload, bind_apply, peek, hdec, hzero, ensure]
        rw [Forwards, hrun, hzero]
        simp
      · have hne : (s.dataLen != 0) = true := by simpa using hzero
        have hrun : s.receive bits false =
            (some (enc, (List.range ((s.dataLen + 2 ^ bits - 4) % 2 ^ bits)).map fun j =>
              s.memory (4 + j)), decide (s.dataLen < 2) ||
                decide (s.dataLen < 4 + (s.dataLen + 2 ^ bits - 4) % 2 ^ bits)) := by
          simp [receive, convertHeader, forwardPayload, bind_apply, peek, hdec, hzero, ensure]
        rw [Forwards, hrun]
        simp only [Bool.or_eq_false_iff, decide_eq_false_iff_not]
        constructor
        · rintro ⟨⟨-, hin⟩, -⟩
          by_contra hfour
          exact hin (hshort (by omega))
        · intro hfour
          rw [hlong hfour]
          refine ⟨⟨by omega, by omega⟩, fun r hr => ?_⟩
          rw [← Option.some.inj hr, drop_bytes]

/-- The header that a write puts before its payload is decoded to the same encoding and
endianness. -/
theorem convertHeader_of_encapsulated {e : XcdrEncodingKind} {littleEndian : Bool}
    {header payload : List ℕ} (h : encapsulationHeader e littleEndian = some header)
    (s : SerializedSample) (hs : s.bytes = header ++ payload) :
    s.convertHeader false = (some (e, littleEndian), false) := by
  simp only [encapsulationHeader, Option.bind_eq_bind, Option.bind_eq_some_iff] at h
  obtain ⟨kind, hkind, id, hid, heq⟩ := h
  obtain rfl : [kind, id, 0, 0] = header := Option.some.inj heq
  have hlen : 2 ≤ s.dataLen := by
    have hcount : s.bytes.length = s.dataLen := by simp [bytes]
    rw [hs] at hcount
    simp only [List.length_append, List.length_cons, List.length_nil] at hcount
    omega
  have hread : ∀ k < 2, s.bytes[k]? = some (s.memory k) := by
    intro k hk
    rw [bytes, List.getElem?_map, List.getElem?_range (by omega)]
    rfl
  have hfirst : s.memory 0 = kind := by
    have h₀ := hread 0 (by decide)
    rw [hs] at h₀
    exact (Option.some.inj h₀).symm
  have hsecond : s.memory 1 = id := by
    have h₁ := hread 1 (by decide)
    rw [hs] at h₁
    exact (Option.some.inj h₁).symm
  have hinside : ¬ s.dataLen < 1 ∧ ¬ s.dataLen < 2 := ⟨by omega, by omega⟩
  simp [convertHeader, bind_apply, peek, hfirst, hsecond, decodeCdrHeader_eq hkind hid, hinside]

end SerializedSample

/-- **The encapsulation of serialized data.** In every run of writes whose lengths fit, the
next write hands the header and the payload to DDS from within its buffer exactly when its
own length fits; the header is decoded to what it was made from; and a received sample is
forwarded without its header, with nothing read outside it, exactly when it has one. -/
theorem encapsulation_iff (i : WriteAttempt) (s : SerializedSample) :
    (∀ w : Writer, w.Reached → (w.Encapsulates i ↔ w.Fits i)) ∧
    (∀ e littleEndian header payload, encapsulationHeader e littleEndian = some header →
      s.bytes = header ++ payload → s.convertHeader false = (some (e, littleEndian), false)) ∧
    ∀ bits, 32 ≤ bits → (s.Forwards bits ↔ s.HasHeader) := by
  refine ⟨fun w hw => ?_, fun e littleEndian header payload h hs => ?_, fun bits hbits => ?_⟩
  · obtain ⟨hsized, hin⟩ := hw.sized
    exact Writer.encapsulates_iff hsized hin
  · exact SerializedSample.convertHeader_of_encapsulated h s hs
  · exact SerializedSample.forwards_iff hbits s

/-- A write of plain data for which there is memory. -/
def plainWrite (data : List ℕ) (h : data.length < 2 ^ 32) : WriteAttempt where
  data := ⟨data, h, .xcdr1, true⟩
  allocated := true
  junk _ := 0
  converted := true

/-- A sample of three bytes, which name an encoding. -/
def shortSample : SerializedSample := ⟨fun k => if k = 1 then 1 else 0, 3, by decide⟩

/-- A first write of `2 ^ 32 - 4` bytes writes outside its buffer, and of the short sample a
payload is forwarded that reaches far beyond it. -/
theorem not_encapsulation :
    (¬ ∀ w : Writer, Reachable (· = Writer.initial) Writer.step (fun _ _ => True) w →
      ∀ i, w.Encapsulates i) ∧
    ¬ ∀ bits, 32 ≤ bits → ∀ s : SerializedSample, s.Forwards bits := by
  constructor
  · intro hall
    obtain ⟨data, hdata⟩ : ∃ data : List ℕ, data.length = 2 ^ 32 - 4 :=
      ⟨_, List.length_replicate (a := 0)⟩
    have hwrite := hall Writer.initial (.start rfl) (plainWrite data (by omega))
    have hfits := (Writer.encapsulates_iff ⟨rfl, Nat.two_pow_pos 32⟩ rfl).1 hwrite
    rcases hfits with hfit | ⟨-, halloc⟩
    · change data.length + 4 < 2 ^ 32 at hfit
      omega
    · exact Bool.noConfusion halloc
  · intro hall
    have hshort := (SerializedSample.forwards_iff le_rfl shortSample).1 (hall 32 le_rfl _)
    rcases hshort with hlong | ⟨-, hnone⟩
    · exact absurd hlong (by decide)
    · exact absurd hnone (by decide)

end NanoAgent
