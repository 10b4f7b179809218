import Mathlib.Data.List.Induction
import NanoAgent.Service.Submessage

/-!
# The read specification of a reader

The state of a reader keeps the specification of its read by reference:
`content_filter_expr` points to the string of a `READ_DATA` payload, which is freed when
the request has been handled. `serve` handles one `READ_DATA` request on a reader and
notes in `passed` the specification that `D2S2_Agent_read` is called with, together
with whether the string of its filter is still allocated.

The reader is followed from its creation through any list of requests. What a list
leaves behind is the last delivery control it carried and, once it carried a filter,
a reference to a freed string (`leftBehind`). What the other parts of a reader state are
used for is in `ServiceM.onSubmsgRead`, which keeps the filter by value; `value_assigned`
relates the two.
-/

namespace NanoAgent

/-- `NANO_XRCE_DataDeliveryControl`. -/
structure DeliveryControl where
  maxSamples : ℕ
  maxElapsedTime : ℕ
  maxBytesPerSecond : ℕ
  minPacePeriod : ℕ
  deriving DecidableEq, Repr

/-- `D2S2_ReadSpecification`; the filter is the name of a string. -/
structure DdsReadSpecification where
  control : DeliveryControl
  contentFilterExpr : Option ℕ
  deriving DecidableEq, Repr

/-- A `READ_DATA` submessage as it is received. -/
structure ReadDataRequest where
  objectKind : ObjectKind
  dataFormat : DataFormat
  deliveryCtrl : Option DeliveryControl
  contentFilterExpr : Option String
  deriving DecidableEq, Repr

/-- What the handling of a `READ_DATA` meets: the decoding of its payload, the
allocation of a request, the look-up of the reader and of the stream, and the read of
the DDS agent. -/
structure ReadDataAnswers where
  decode : Bool
  newRequest : Bool
  lookupResource : Bool
  lookupStream : Bool
  readOnAgent : Bool
  deriving DecidableEq, Repr

/-- A specification as `D2S2_Agent_read` sees it. `filterAllocated` says that its
filter, if there is one, was not freed. -/
structure PassedSpecification where
  control : DeliveryControl
  contentFilterExpr : Option String
  filterAllocated : Bool
  deriving DecidableEq, Repr

/-- The specification of a reader, the strings of the payloads, and what was passed to
the DDS agent. -/
structure ReaderReads where
  readSpecDds : DdsReadSpecification
  strings : BufferPool String
  passed : List PassedSpecification

/-- `D2S2_READSPECIFICATION_INITIALIZER`. -/
def DdsReadSpecification.initializer : DdsReadSpecification := ⟨⟨0, 0, 0, 0⟩, none⟩

namespace ReaderReads

open Prog

/-- A reader that was just created. -/
def initial : ReaderReads := ⟨.initializer, .empty "", []⟩

/-- The specification as the DDS agent sees it. -/
def seen (s : ReaderReads) : PassedSpecification where
  control := s.readSpecDds.control
  contentFilterExpr := s.readSpecDds.contentFilterExpr.map s.strings.content
  filterAllocated := s.readSpecDds.contentFilterExpr.all fun p => decide (s.strings.Live p)

/-- `NANO_XRCE_ReadDataPayload_deserialize_cdr`, which allocates the string of a filter. -/
def deserializePayload (m : ReadDataRequest) : Prog ReaderReads (Option ℕ) := do
  let s ← read
  match m.contentFilterExpr with
  | some e => do
      modify fun s => { s with strings := s.strings.take e }
      pure (some s.strings.next)
  | none => pure none

/-- `NANO_XRCE_ReadDataPayload_finalize`. -/
def finalizePayload (filter : Option ℕ) : Prog ReaderReads Unit :=
  match filter with
  | some p => modify fun s => { s with strings := s.strings.giveBack p }
  | none => pure ()

/-- The specification of `NANO_XRCE_Agent_on_submsg_read`: a payload replaces the parts that
it carries. -/
def assign (m : ReadDataRequest) (filter : Option ℕ) (spec : DdsReadSpecification) :
    DdsReadSpecification where
  control := m.deliveryCtrl.getD spec.control
  contentFilterExpr :=
    match filter with
    | some p => some p
    | none => spec.contentFilterExpr

/-- `NANO_XRCE_Agent_on_submsg_read`. -/
def onSubmsgRead (env : ReadDataAnswers) (m : ReadDataRequest) (filter : Option ℕ) :
    Prog ReaderReads Unit := do
  ensure (m.objectKind = .dataReader)
  ensure (m.dataFormat = .data)
  ensure env.lookupResource
  ensure env.lookupStream
  modify fun s => { s with readSpecDds := assign m filter s.readSpecDds }
  modify fun s => { s with passed := s.passed ++ [s.seen] }
  ensure env.readOnAgent

/-- `NANO_XRCE_ProxyClient_on_submsg` for a `READ_DATA`. The payload is finalized on every
exit behind its decoding. -/
def onReadData (env : ReadDataAnswers) (m : ReadDataRequest) : Prog ReaderReads Unit := do
  ensure env.decode
  let filter ← deserializePayload m
  let res ← attempt do
    ensure env.newRequest
    onSubmsgRead env m filter
  finalizePayload filter
  ensure res.isSome

/-- Handle a request. -/
def serve (s : ReaderReads) (q : ReadDataRequest × ReadDataAnswers) : ReaderReads :=
  (onReadData q.2 q.1 s).2

/-- The state of a reader after a history of requests. -/
def after (history : List (ReadDataRequest × ReadDataAnswers)) : ReaderReads :=
  history.foldl serve initial

/-- The specification that a request passes to the DDS agent, if it gets there. -/
def passedBy (s : ReaderReads) (q : ReadDataRequest × ReadDataAnswers) :
    Option PassedSpecification :=
  ((s.serve q).passed.drop s.passed.length).head?

end ReaderReads

namespace ReadDataRequest

/-- A request gets to the DDS agent. -/
def Reaches (q : ReadDataRequest × ReadDataAnswers) : Bool :=
  q.2.decode && q.2.newRequest && (q.1.objectKind = .dataReader && q.1.dataFormat = .data) &&
    (q.2.lookupResource && q.2.lookupStream)

/-- The last delivery control of a history, among the requests that got to the DDS
agent. -/
def lastControl (history : List (ReadDataRequest × ReadDataAnswers)) : DeliveryControl :=
  ((history.filter Reaches).filterMap fun q => q.1.deliveryCtrl).getLast?.getD ⟨0, 0, 0, 0⟩

/-- No request of a history got to the DDS agent with a filter. -/
def Unfiltered (history : List (ReadDataRequest × ReadDataAnswers)) : Prop :=
  ∀ q ∈ history, Reaches q = true → q.1.contentFilterExpr = none

end ReadDataRequest

namespace ReaderReads

open Prog ReadDataRequest

variable {s : ReaderReads} {q : ReadDataRequest × ReadDataAnswers}

/-- The reader with the payload of a request decoded, and the name of its filter. -/
def decoded (s : ReaderReads) (m : ReadDataRequest) : ReaderReads × Option ℕ :=
  match m.contentFilterExpr with
  | some e => ({ s with strings := s.strings.take e }, some s.strings.next)
  | none => (s, none)

/-- The specification of a reader replaced by a request. -/
def assigned (s : ReaderReads) (m : ReadDataRequest) : ReaderReads :=
  { (s.decoded m).1 with readSpecDds := assign m (s.decoded m).2 s.readSpecDds }

theorem deserializePayload_apply (m : ReadDataRequest) :
    deserializePayload m s = (some (s.decoded m).2, (s.decoded m).1) := by
  unfold deserializePayload decoded
  cases m.contentFilterExpr <;> rfl

theorem finalizePayload_apply (filter : Option ℕ) : finalizePayload filter s =
    (some ⟨⟩, { s with strings := filter.elim s.strings s.strings.giveBack }) := by
  cases filter <;> rfl

theorem decoded_readSpecDds (m : ReadDataRequest) :
    (s.decoded m).1.readSpecDds = s.readSpecDds := by
  unfold decoded
  cases m.contentFilterExpr <;> rfl

theorem decoded_passed (m : ReadDataRequest) : (s.decoded m).1.passed = s.passed := by
  unfold decoded
  cases m.contentFilterExpr <;> rfl

/-- Handling a request whose payload is decoded. -/
theorem serve_of_decode (h : q.2.decode = true) : s.serve q =
    { ((attempt do ensure q.2.newRequest; onSubmsgRead q.2 q.1 (s.decoded q.1).2)
        (s.decoded q.1).1).2 with
      strings := (s.decoded q.1).2.elim (s.decoded q.1).1.strings
        (s.decoded q.1).1.strings.giveBack } := by
  unfold serve onReadData
  rw [h, ensure_true_bind_apply, bind_apply, deserializePayload_apply]
  have hstrings : ((attempt do ensure q.2.newRequest; onSubmsgRead q.2 q.1 (s.decoded q.1).2)
      (s.decoded q.1).1).2.strings = (s.decoded q.1).1.strings := by
    unfold onSubmsgRead
    cases q.2.newRequest <;> cases decide (q.1.objectKind = .dataReader) <;>
      cases decide (q.1.dataFormat = .data) <;> cases q.2.lookupResource <;>
      cases q.2.lookupStream <;> rfl
  simp only [bind_apply, attempt, finalizePayload_apply]
  simp only [attempt, bind_apply] at hstrings
  rw [hstrings]
  rfl

/-- The strings after a request: the one of its filter is freed. -/
def freed (s : ReaderReads) (m : ReadDataRequest) : BufferPool String :=
  (s.decoded m).2.elim (s.decoded m).1.strings (s.decoded m).1.strings.giveBack

theorem serve_of_reaches (h : Reaches q = true) : s.serve q =
    { readSpecDds := (s.assigned q.1).readSpecDds
      strings := s.freed q.1
      passed := s.passed ++ [(s.assigned q.1).seen] } := by
  simp only [Reaches, Bool.and_eq_true, decide_eq_true_eq] at h
  obtain ⟨⟨⟨hdecode, hnew⟩, hkind, hformat⟩, hlookup, hstream⟩ := h
  rw [serve_of_decode hdecode]
  simp only [onSubmsgRead, hnew, hkind, hformat, hlookup, hstream, decide_true,
    ensure_true_bind_apply, attempt, modify_bind_apply, ensure]
  rw [decoded_passed, decoded_readSpecDds]
  rfl

theorem serve_of_not_reaches (h : Reaches q = false) :
    s.serve q = s ∨ s.serve q = { s with strings := s.freed q.1 } := by
  cases hdecode : q.2.decode with
  | false =>
      left
      simp [serve, onReadData, hdecode]
  | true =>
      right
      rw [serve_of_decode hdecode]
      have hstop : ((attempt do ensure q.2.newRequest; onSubmsgRead q.2 q.1 (s.decoded q.1).2)
          (s.decoded q.1).1).2 = (s.decoded q.1).1 := by
        simp only [Reaches, hdecode, Bool.true_and] at h
        unfold onSubmsgRead
        revert h
        cases q.2.newRequest <;> cases decide (q.1.objectKind = .dataReader) <;>
          cases decide (q.1.dataFormat = .data) <;> cases q.2.lookupResource <;>
          cases q.2.lookupStream <;> simp [attempt]
      rw [hstop]
      have hspec := decoded_readSpecDds (s := s) q.1
      have hpassed := decoded_passed (s := s) q.1
      simp only [freed, ← hspec, ← hpassed]

theorem sound_freed (h : s.strings.Sound) (m : ReadDataRequest) : (s.freed m).Sound := by
  unfold freed decoded
  cases m.contentFilterExpr with
  | none => exact h
  | some e => exact (h.take e).giveBack (Nat.lt_succ_self _)

theorem returned_freed (m : ReadDataRequest) {p : ℕ} (h : p ∈ s.strings.returned) :
    p ∈ (s.freed m).returned := by
  unfold freed decoded
  cases m.contentFilterExpr with
  | none => exact h
  | some e => exact List.mem_append_left _ h

/-- What a history of requests leaves in the state of the reader. -/
structure LeftBehind (history : List (ReadDataRequest × ReadDataAnswers)) (s : ReaderReads) :
    Prop where
  sound : s.strings.Sound
  control : s.readSpecDds.control = lastControl history
  filter : s.readSpecDds.contentFilterExpr = none ↔ Unfiltered history
  stale : ∀ p, s.readSpecDds.contentFilterExpr = some p → p ∈ s.strings.returned

theorem lastControl_concat (h : List (ReadDataRequest × ReadDataAnswers)) :
    lastControl (h ++ [q]) =
      if Reaches q then q.1.deliveryCtrl.getD (lastControl h) else lastControl h := by
  unfold lastControl
  cases hq : Reaches q with
  | false => simp [hq]
  | true =>
      cases hd : q.1.deliveryCtrl with
      | none => simp [hq, hd]
      | some d => simp [hq, hd]

theorem unfiltered_concat (h : List (ReadDataRequest × ReadDataAnswers)) :
    Unfiltered (h ++ [q]) ↔
      Unfiltered h ∧ (Reaches q = true → q.1.contentFilterExpr = none) := by
  unfold Unfiltered
  constructor
  · intro hall
    exact ⟨fun r hr => hall r (List.mem_append_left _ hr),
      hall q (List.mem_append_right _ (List.mem_singleton_self q))⟩
  · rintro ⟨hall, hq⟩ r hr
    rcases List.mem_append.1 hr with hr | hr
    · exact hall r hr
    · rw [List.mem_singleton.1 hr]
      exact hq

theorem LeftBehind.serve {h : List (ReadDataRequest × ReadDataAnswers)} (hs : LeftBehind h s) :
    LeftBehind (h ++ [q]) (s.serve q) := by
  cases hq : Reaches q with
  | false =>
      have hcontrol : lastControl (h ++ [q]) = lastControl h := by simp [lastControl_concat, hq]
      have hfilter : Unfiltered (h ++ [q]) ↔ Unfiltered h := by simp [unfiltered_concat, hq]
      rcases serve_of_not_reaches (s := s) hq with hserve | hserve
      · rw [hserve]
        exact ⟨hs.sound, hs.control.trans hcontrol.symm, hs.filter.trans hfilter.symm, hs.stale⟩
      · rw [hserve]
        exact ⟨sound_freed hs.sound _, hs.control.trans hcontrol.symm,
          hs.filter.trans hfilter.symm, fun p hp => returned_freed _ (hs.stale p hp)⟩
  | true =>
      rw [serve_of_reaches hq]
      constructor
      · exact sound_freed hs.sound _
      · rw [lastControl_concat, if_pos hq, ← hs.control]
        rfl
      · rw [unfiltered_concat, ← hs.filter]
        unfold assigned decoded assign
        cases q.1.contentFilterExpr <;> simp [hq]
      · intro p hp
        unfold assigned decoded assign at hp
        cases hf : q.1.contentFilterExpr with
        | none =>
            rw [hf] at hp
            exact returned_freed _ (hs.stale p hp)
        | some e =>
            rw [hf] at hp
            obtain rfl : s.strings.next = p := Option.some.inj hp
            simp [freed, decoded, hf]

/-- Every history leaves what its requests carried. -/
theorem leftBehind_after (h : List (ReadDataRequest × ReadDataAnswers)) :
    LeftBehind h (after h) := by
  induction h using List.reverseRecOn with
  | nil =>
      refine ⟨?_, rfl, ?_, ?_⟩
      · intro a ha
        simp [after, initial, BufferPool.empty] at ha
      · simp [after, initial, DdsReadSpecification.initializer, Unfiltered]
      · intro p hp
        simp [after, initial, DdsReadSpecification.initializer] at hp
  | append_singleton h q ih =>
      have hafter : after (h ++ [q]) = (after h).serve q := by simp [after]
      rw [hafter]
      exact ih.serve

theorem passedBy_of_not_reaches (h : Reaches q = false) : s.passedBy q = none := by
  unfold passedBy
  rcases serve_of_not_reaches (s := s) h with hserve | hserve <;> simp [hserve]

theorem passedBy_of_reaches (h : Reaches q = true) :
    s.passedBy q = some (s.assigned q.1).seen := by
  unfold passedBy
  rw [serve_of_reaches h]
  simp

/-- A request that carries a filter passes it, allocated. -/
theorem seen_assigned_of_filter (hs : s.strings.Sound) {m : ReadDataRequest} {e : String}
    (hm : m.contentFilterExpr = some e) : (s.assigned m).seen =
      ⟨m.deliveryCtrl.getD s.readSpecDds.control, some e, true⟩ := by
  unfold assigned decoded seen assign
  rw [hm]
  simp [hs.live_take e]

/-- A request without a filter passes the filter left behind. -/
theorem seen_assigned_of_unfiltered {m : ReadDataRequest} (hm : m.contentFilterExpr = none) :
    (s.assigned m).seen = ⟨m.deliveryCtrl.getD s.readSpecDds.control,
      s.readSpecDds.contentFilterExpr.map s.strings.content,
      s.readSpecDds.contentFilterExpr.all fun p => decide (s.strings.Live p)⟩ := by
  unfold assigned decoded seen assign
  rw [hm]

theorem LeftBehind.filterAllocated_iff {h : List (ReadDataRequest × ReadDataAnswers)}
    (hs : LeftBehind h s) (m : ReadDataRequest) : (s.assigned m).seen.filterAllocated = true ↔
      m.contentFilterExpr.isSome ∨ Unfiltered h := by
  cases hm : m.contentFilterExpr with
  | some e => simp [seen_assigned_of_filter hs.sound hm]
  | none =>
      rw [seen_assigned_of_unfiltered hm, ← hs.filter]
      cases hf : s.readSpecDds.contentFilterExpr with
      | none => simp
      | some p => simp [BufferPool.Live, hs.stale p hf]

/-- The specification with its filter by value. -/
def value (s : ReaderReads) : ReadSpecification where
  minPacePeriod := s.readSpecDds.control.minPacePeriod
  maxElapsedTime := s.readSpecDds.control.maxElapsedTime
  maxSamples := s.readSpecDds.control.maxSamples
  contentFilterExpr := s.readSpecDds.contentFilterExpr.map s.strings.content

/-- By value, a request overrides the specification of the reader. -/
theorem value_assigned {m : ReadDataRequest} {b : Submessage}
    (hcontrol : b.deliveryCtrl =
      m.deliveryCtrl.map fun d => (d.maxSamples, d.maxElapsedTime, d.minPacePeriod))
    (hfilter : b.contentFilterExpr = m.contentFilterExpr) :
    (s.assigned m).value = s.value.override b := by
  unfold value ReadSpecification.override assigned decoded assign
  rw [hcontrol, hfilter]
  cases hd : m.deliveryCtrl <;> cases hm : m.contentFilterExpr <;> simp

end ReaderReads

namespace ReadDataRequest

open ReaderReads

/-- The last request of two histories passes the same specification after both, with a
filter that was not freed. -/
structure Independent (h₁ h₂ : List (ReadDataRequest × ReadDataAnswers))
    (q : ReadDataRequest × ReadDataAnswers) : Prop where
  same : (after h₁).passedBy q = (after h₂).passedBy q
  allocated₁ : ∀ v, (after h₁).passedBy q = some v → v.filterAllocated = true
  allocated₂ : ∀ v, (after h₂).passedBy q = some v → v.filterAllocated = true

/-- The specification of a request that gets to the DDS agent is independent of the
requests before it if and only if it carries a delivery control or these agree on the
last one, and it carries a filter or none of these did. -/
theorem readSpecification_independent_iff (h₁ h₂ : List (ReadDataRequest × ReadDataAnswers))
    (q : ReadDataRequest × ReadDataAnswers) : Independent h₁ h₂ q ↔
      (Reaches q = true →
        (q.1.deliveryCtrl.isSome ∨ lastControl h₁ = lastControl h₂) ∧
        (q.1.contentFilterExpr.isSome ∨ (Unfiltered h₁ ∧ Unfiltered h₂))) := by
  have hs₁ := leftBehind_after h₁
  have hs₂ := leftBehind_after h₂
  cases hq : Reaches q with
  | false =>
      constructor
      · intro _ h
        simp at h
      · intro _
        constructor <;> simp [passedBy_of_not_reaches hq]
  | true =>
      have hlive₁ := hs₁.filterAllocated_iff q.1
      have hlive₂ := hs₂.filterAllocated_iff q.1
      constructor
      · rintro ⟨hsame, hall₁, hall₂⟩ _
        have hfilter₁ := hlive₁.1 (hall₁ _ (passedBy_of_reaches hq))
        have hfilter₂ := hlive₂.1 (hall₂ _ (passedBy_of_reaches hq))
        rw [passedBy_of_reaches hq, passedBy_of_reaches hq, Option.some.injEq] at hsame
        have hcontrol : q.1.deliveryCtrl.getD (lastControl h₁) =
            q.1.deliveryCtrl.getD (lastControl h₂) := by
          rw [← hs₁.control, ← hs₂.control]
          exact congrArg PassedSpecification.control hsame
        refine ⟨?_, ?_⟩
        · cases hd : q.1.deliveryCtrl with
          | some d => exact .inl rfl
          | none =>
              rw [hd] at hcontrol
              exact .inr hcontrol
        · rcases hfilter₁ with hfilter₁ | hfilter₁
          · exact .inl hfilter₁
          · rcases hfilter₂ with hfilter₂ | hfilter₂
            · exact .inl hfilter₂
            · exact .inr ⟨hfilter₁, hfilter₂⟩
      · intro h
        obtain ⟨hcontrol, hfilter⟩ := h rfl
        have hgetD : q.1.deliveryCtrl.getD (after h₁).readSpecDds.control =
            q.1.deliveryCtrl.getD (after h₂).readSpecDds.control := by
          rw [hs₁.control, hs₂.control]
          cases hd : q.1.deliveryCtrl with
          | some d => rfl
          | none =>
              rw [hd] at hcontrol
              simpa using hcontrol
        constructor
        · rw [passedBy_of_reaches hq, passedBy_of_reaches hq, Option.some.injEq]
          cases hm : q.1.contentFilterExpr with
          | some e =>
              rw [seen_assigned_of_filter hs₁.sound hm, seen_assigned_of_filter hs₂.sound hm,
                hgetD]
          | none =>
              rw [hm] at hfilter
              have hnone : Unfiltered h₁ ∧ Unfiltered h₂ := by simpa using hfilter
              rw [seen_assigned_of_unfiltered hm, seen_assigned_of_unfiltered hm, hgetD,
                hs₁.filter.2 hnone.1, hs₂.filter.2 hnone.2]
              rfl
        · intro v hv
          rw [passedBy_of_reaches hq, Option.some.injEq] at hv
          rw [← hv]
          exact hlive₁.2 (hfilter.imp_right And.left)
        · intro v hv
          rw [passedBy_of_reaches hq, Option.some.injEq] at hv
          rw [← hv]
          exact hlive₂.2 (hfilter.imp_right And.right)

/-- A request without limits and filter is passed with those of the request before it. -/
theorem readSpecification_leaks : ¬ ∀ h₁ h₂ q, Independent h₁ h₂ q := by
  intro h
  have hsame := (h [(⟨.dataReader, .data, some ⟨5, 0, 0, 0⟩, some "x > 3"⟩,
    ⟨true, true, true, true, true⟩)] []
    (⟨.dataReader, .data, none, none⟩, ⟨true, true, true, true, true⟩)).same
  revert hsame
  decide

end ReadDataRequest

end NanoAgent
