import NanoAgent.Service.Operation
import Mathlib.Data.List.GetD

/-!
# The length of a `CREATE_CLIENT` submessage

Before `deserializeClientRepr` decodes the client representation it compares the
length declared in the header of the submessage with what the message has behind
its own header. The subtraction is one of machine integers and the comparison runs
the wrong way: it lets a submessage pass whose last bytes are missing, up to the size
of its header, and stops one that is followed by other bytes.
-/

namespace NanoAgent

namespace Message

variable (w : Wire) (sid : ℕ) (m : Message)

/-- The length declared in the header of the submessage. -/
def submsgLength : ℕ := m.byte (w.submsgOffset sid + 2) + 256 * m.byte (w.submsgOffset sid + 3)

/-- The submessage announces a `CREATE_CLIENT`. -/
def IsCreateClient : Prop := m.byte (w.submsgOffset sid) = w.submessageIdCreateClient

/-- The header and the declared bytes of the submessage lie within the message. -/
def SubmsgFits : Prop := w.submsgOffset sid + 4 + m.submsgLength w sid ≤ m.bytes.length

/-- The checks of `NANO_XRCE_Agent_deserialize_client_repr` before its decoding. -/
def PassesLengthChecks : Prop :=
  w.headerSize sid + w.createClientHeaderSizeMin ≤ m.bytes.length ∧
    (m.bytes.length - w.submsgOffset sid + 2 ^ w.usizeBits - m.submsgLength w sid) %
      2 ^ w.usizeBits ≤ 4

instance : Decidable (m.IsCreateClient w sid) := by unfold IsCreateClient; infer_instance

instance : Decidable (m.SubmsgFits w sid) := by unfold SubmsgFits; infer_instance

instance : Decidable (m.PassesLengthChecks w sid) := by
  unfold PassesLengthChecks
  infer_instance

/-- A message whose bytes are octets and whose length fits in a `NANO_usize`. -/
structure Valid : Prop where
  octets : ∀ b ∈ m.bytes, b < 256
  length : m.bytes.length < 2 ^ w.usizeBits

/-- A `CREATE_CLIENT` is decoded only when it lies within the message, and not rejected for its
length when it does. -/
structure LengthRespected : Prop where
  within : m.IsCreateClient w sid → m.PassesLengthChecks w sid → m.SubmsgFits w sid
  accepted : m.IsCreateClient w sid → m.SubmsgFits w sid → m.PassesLengthChecks w sid

end Message

/-- What the agent relies on of the message format: a `NANO_usize` holds a length field,
and the smallest message that is accepted has a submessage header. -/
structure Wire.Sized (w : Wire) : Prop where
  usize : 16 ≤ w.usizeBits
  header : ∀ sid, w.submsgOffset sid + 4 ≤ w.headerSize sid + w.createClientHeaderSizeMin

theorem Message.Valid.submsgLength_lt {w : Wire} {m : Message} (hm : m.Valid w) (sid : ℕ) :
    m.submsgLength w sid < 2 ^ 16 := by
  have hbyte : ∀ i, m.byte i < 256 := by
    intro i
    unfold Message.byte
    by_cases hi : i < m.bytes.length
    · rw [List.getD_eq_getElem _ _ hi]
      exact hm.octets _ (List.getElem_mem hi)
    · rw [List.getD_eq_default _ _ (by omega)]
      omega
  have hlo := hbyte (w.submsgOffset sid + 2)
  have hhi := hbyte (w.submsgOffset sid + 3)
  unfold Message.submsgLength
  omega

/-- The decoding follows exactly the length checks. -/
theorem deserializeClientRepr_eq (w : Wire) (key sid : ℕ) (m : Message) :
    deserializeClientRepr w key sid m =
      if m.PassesLengthChecks w sid then
        (decodeClientRepr w m (w.submsgOffset sid) (m.submsgLength w sid)).bind fun repr =>
          if w.cookieValid repr.xrceCookie && w.versionCompatible repr.xrceVersion then
            some (repr, key != w.clientKeyInvalid && key != repr.clientKey)
          else none
      else none := by
  unfold deserializeClientRepr Message.PassesLengthChecks Message.submsgLength
  by_cases hmin : m.bytes.length < w.headerSize sid + w.createClientHeaderSizeMin
  · simp only [hmin, if_true, Nat.not_le.2 hmin, false_and, if_false]
  · simp only [hmin, if_false, Nat.not_lt.1 hmin, true_and]
    split
    · next h => rw [if_neg (Nat.not_le.2 h)]
    · next h => rw [if_pos (Nat.not_lt.1 h)]

/-- The difference of machine integers, for a message with a submessage header. -/
theorem wrapped_sub_le_iff {d l b : ℕ} (hd : d < 2 ^ b) (hl : l < 2 ^ 16) (hb : 16 ≤ b)
    (h4 : 4 ≤ d) : (d + 2 ^ b - l) % 2 ^ b ≤ 4 ↔ l ≤ d ∧ d ≤ l + 4 := by
  have hpow : 2 ^ 16 ≤ 2 ^ b := Nat.pow_le_pow_right (by omega) hb
  by_cases hle : l ≤ d
  · have hsub : d + 2 ^ b - l = (d - l) + 2 ^ b := by omega
    rw [hsub, Nat.add_mod_right, Nat.mod_eq_of_lt (by omega)]
    omega
  · rw [Nat.mod_eq_of_lt (by omega)]
    omega

/-- A message that is not shorter than the smallest one passes the checks when no more bytes
follow its header than the submessage has with its own header, and no fewer than without. -/
theorem passesLengthChecks_iff {w : Wire} (hw : w.Sized) (sid : ℕ) {m : Message} (hm : m.Valid w)
    (hmin : w.headerSize sid + w.createClientHeaderSizeMin ≤ m.bytes.length) :
    m.PassesLengthChecks w sid ↔
      w.submsgOffset sid + m.submsgLength w sid ≤ m.bytes.length ∧
        m.bytes.length ≤ w.submsgOffset sid + 4 + m.submsgLength w sid := by
  have hlen := hm.submsgLength_lt sid
  have hheader := hw.header sid
  have hlength := hm.length
  unfold Message.PassesLengthChecks
  rw [wrapped_sub_le_iff (by omega) hlen hw.usize (by omega)]
  omega

/-- The representation of a client is decoded when the length checks pass, and these
respect the length of the submessage if and only if it is no `CREATE_CLIENT`, or declares
more than the whole rest of the message, or ends with the message, unless the message is
shorter than the smallest one and would fit. -/
theorem createClient_bounded_iff {w : Wire} (hw : w.Sized) (key sid : ℕ) {m : Message}
    (hm : m.Valid w) :
    (deserializeClientRepr w key sid m =
      if m.PassesLengthChecks w sid then
        (decodeClientRepr w m (w.submsgOffset sid) (m.submsgLength w sid)).bind fun repr =>
          if w.cookieValid repr.xrceCookie && w.versionCompatible repr.xrceVersion then
            some (repr, key != w.clientKeyInvalid && key != repr.clientKey)
          else none
      else none) ∧
    (m.LengthRespected w sid ↔
      (m.IsCreateClient w sid →
        if m.bytes.length < w.headerSize sid + w.createClientHeaderSizeMin then
          ¬ m.SubmsgFits w sid
        else m.bytes.length < w.submsgOffset sid + m.submsgLength w sid ∨
          m.bytes.length = w.submsgOffset sid + 4 + m.submsgLength w sid)) := by
  use deserializeClientRepr_eq w key sid m
  by_cases hmin : m.bytes.length < w.headerSize sid + w.createClientHeaderSizeMin
  · have hnot : ¬ m.PassesLengthChecks w sid := fun h => Nat.not_le.2 hmin h.1
    rw [if_pos hmin]
    constructor
    · intro h hcreate hfits
      exact hnot (h.accepted hcreate hfits)
    · intro h
      exact ⟨fun _ hpass => absurd hpass hnot, fun hcreate hfits => absurd hfits (h hcreate)⟩
  · have hpass := passesLengthChecks_iff hw sid hm (Nat.not_lt.1 hmin)
    rw [if_neg hmin]
    constructor
    · intro h hcreate
      have hwithin := h.within hcreate
      have haccepted := h.accepted hcreate
      rw [hpass] at hwithin haccepted
      unfold Message.SubmsgFits at hwithin haccepted
      omega
    · intro h
      constructor
      · intro hcreate hp
        have hcond := h hcreate
        rw [hpass] at hp
        unfold Message.SubmsgFits
        omega
      · intro hcreate hfits
        have hcond := h hcreate
        unfold Message.SubmsgFits at hfits
        rw [hpass]
        omega

theorem Wire.xrce_sized : Wire.xrce.Sized where
  usize := by decide
  header sid := by
    by_cases h : sid < 128 <;> simp [Wire.xrce, h]

/-- A message that ends with its submessage. -/
theorem createClient_bounded_exact : (Message.createClient 5 1).LengthRespected .xrce 128 :=
  (createClient_bounded_iff Wire.xrce_sized 0 128
    (m := Message.createClient 5 1) ⟨by decide, by decide⟩).2.2 (by decide)

/-- A padded `CREATE_CLIENT` is rejected, and one whose last three bytes are missing is
decoded. -/
theorem createClient_unbounded :
    ¬ (⟨(Message.createClient 5 1).bytes ++ [0]⟩ : Message).LengthRespected .xrce 128 ∧
    ¬ (⟨(Message.createClient 5 1).bytes.take 21⟩ : Message).LengthRespected .xrce 128 := by
  constructor
  · intro h
    have hpass := h.accepted (by decide) (by decide)
    revert hpass
    decide
  · intro h
    have hfits := h.within (by decide) (by decide)
    revert hfits
    decide

end NanoAgent
