import NanoAgent.DdsAgent.Infrastructure

/-!
# Copies compare equal

A copy of a buffer reuses the array it finds when the lengths agree and allocates a new
one otherwise. `Buffer.Fits` says when what is in the array afterwards is what was
copied. Encoded data have the byte order beside the buffer, which the copy leaves as
it was.
-/

namespace NanoAgent

namespace Infrastructure

theorem Library.stringCompare_self (lib : Library) (s : String) :
    lib.stringCompare (.object s) (.object s) = 0 :=
  (lib.stringCompare_totalOn.zero_iff _ (by simp) _ (by simp)).2 rfl

theorem Library.memoryCompare_self (lib : Library) (l : List UInt8) (n : ℕ) :
    lib.memoryCompare l l n = 0 :=
  (lib.memoryCompare_hasSign l l n).eq_zero_iff.2 Std.ReflOrd.compare_self

theorem Library.guidCompare_self (lib : Library) (g : ℕ) : lib.guidCompare g g = 0 :=
  (lib.guidCompare_hasSign g g).eq_zero_iff.2 Std.ReflOrd.compare_self

/-- What is asked of a copy: when it succeeds the two values compare equal and are the same
in every field, and when it fails the value written to is still well formed. -/
def CopyAgrees {α : Type} (wellFormed : α → Prop) (compare : α → α → ℤ) (src : α)
    (r : Bool × α) : Prop :=
  (r.1 = true → compare src r.2 = 0 ∧ r.2 = src) ∧ (r.1 = false → wellFormed r.2)

namespace CopyAgrees

variable {α : Type} {wellFormed : α → Prop} {compare : α → α → ℤ} {src dst : α}

theorem copied_iff : CopyAgrees wellFormed compare src (true, dst) ↔
    compare src dst = 0 ∧ dst = src := by
  simp [CopyAgrees]

theorem failed_iff : CopyAgrees wellFormed compare src (false, dst) ↔ wellFormed dst := by
  simp [CopyAgrees]

theorem same (h : compare src src = 0) : CopyAgrees wellFormed compare src (true, src) :=
  copied_iff.2 ⟨h, rfl⟩

end CopyAgrees

namespace Buffer

variable {lib : Library} {h : Heap} {dst src : Buffer}

/-- The array of the object is large enough, or a new one that holds something is
allocated. -/
def Fits (h : Heap) (dst src : Buffer) : Prop :=
  dst.dataLen = src.dataLen ∨ 0 < src.dataLen ∧ (h.allocateArray src.dataLen).isSome = true

instance (h : Heap) (dst src : Buffer) : Decidable (Fits h dst src) :=
  inferInstanceAs (Decidable (_ ∨ _))

/-- The copy fails, but the object had no array to lose. -/
def Spared (h : Heap) (dst src : Buffer) : Prop :=
  dst.dataLen = 0 ∧ 0 < src.dataLen ∧ h.allocateArray src.dataLen = none

instance (h : Heap) (dst src : Buffer) : Decidable (Spared h dst src) :=
  inferInstanceAs (Decidable (_ ∧ _))

theorem compare_self (hsrc : src.WellFormed) : src.compare lib src = 0 := by
  unfold WellFormed at hsrc
  unfold compare
  cases hdata : src.data with
  | null => rfl
  | freed => simp [hdata] at hsrc
  | object bytes => simp [lib.memoryCompare_self]

theorem data_of_pos (hsrc : src.WellFormed) (hpos : 0 < src.dataLen) :
    ∃ bytes, src = ⟨.object bytes, bytes.length⟩ := by
  obtain ⟨data, n⟩ := src
  cases data with
  | null =>
      have hzero : n = 0 := hsrc
      exact absurd hzero (Nat.ne_of_gt hpos)
  | freed => exact hsrc.elim
  | object bytes =>
      have hlen : bytes.length = n := hsrc.1
      exact ⟨bytes, by rw [hlen]⟩

theorem eq_initializer_of_zero (hsrc : src.WellFormed) (hzero : src.dataLen = 0) :
    src = .initializer := by
  obtain ⟨data, n⟩ := src
  cases data with
  | null =>
      have hn : n = 0 := hsrc
      rw [hn, initializer]
  | freed => exact hsrc.elim
  | object bytes =>
      have hpos : 0 < n := hsrc.2
      exact absurd hzero (Nat.ne_of_gt hpos)

/-- All bytes of an array of the right length are overwritten. -/
theorem memoryCopy_all {old bytes : List UInt8} (hlen : old.length = bytes.length) :
    memoryCopy (.object old) (.object bytes) bytes.length = .object bytes := by
  rw [memoryCopy, List.take_length, List.drop_eq_nil_of_le (Nat.le_of_eq hlen), List.append_nil]

theorem copy_of_fits (hdst : dst.WellFormed) (hsrc : src.WellFormed) (hfits : Fits h dst src) :
    copy h dst src = (true, src) := by
  unfold copy
  by_cases hlen : dst.dataLen = src.dataLen
  · rw [if_neg (not_not.2 hlen)]
    rcases Nat.eq_zero_or_pos src.dataLen with hzero | hpos
    · rw [eq_initializer_of_zero hsrc hzero, eq_initializer_of_zero hdst (hlen.trans hzero)]
      rfl
    · obtain ⟨bytes, rfl⟩ := data_of_pos hsrc hpos
      obtain ⟨old, rfl⟩ := data_of_pos hdst (hlen ▸ hpos)
      dsimp only at hlen ⊢
      rw [memoryCopy_all hlen, hlen]
  · obtain ⟨hpos, hsome⟩ := hfits.resolve_left hlen
    obtain ⟨v, hv⟩ := Option.isSome_iff_exists.1 hsome
    obtain ⟨bytes, rfl⟩ := data_of_pos hsrc hpos
    rw [if_pos hlen]
    simp only [Heap.newArray, hv]
    rw [memoryCopy_all (by simp)]

/-- The array was freed and there is no other, but the length stays. -/
theorem copy_of_refused (hlen : dst.dataLen ≠ src.dataLen)
    (hnone : h.allocateArray src.dataLen = none) :
    copy h dst src = (false, ⟨.null, dst.dataLen⟩) := by
  unfold copy
  rw [if_pos hlen]
  simp only [Heap.newArray, hnone]

/-- When a new array is allocated, the object has one, even for an empty buffer. -/
theorem copy_of_new (hlen : dst.dataLen ≠ src.dataLen)
    (hsome : (h.allocateArray src.dataLen).isSome = true) :
    ∃ bytes, copy h dst src = (true, ⟨.object bytes, src.dataLen⟩) := by
  obtain ⟨v, hv⟩ := Option.isSome_iff_exists.1 hsome
  unfold copy
  rw [if_pos hlen]
  simp only [Heap.newArray, hv]
  cases hdata : src.data with
  | null => exact ⟨_, rfl⟩
  | freed => exact ⟨_, rfl⟩
  | object bytes => exact ⟨_, rfl⟩

/-- The copy of a buffer is right when the array fits or nothing was lost. -/
theorem copyAgrees_iff (lib : Library) (hdst : dst.WellFormed) (hsrc : src.WellFormed) :
    CopyAgrees WellFormed (compare lib) src (copy h dst src) ↔
      Fits h dst src ∨ Spared h dst src := by
  by_cases hfits : Fits h dst src
  · rw [copy_of_fits hdst hsrc hfits]
    exact iff_of_true (.same (compare_self hsrc)) (.inl hfits)
  · have hlen : dst.dataLen ≠ src.dataLen := fun heq => hfits (.inl heq)
    rw [or_iff_right hfits]
    cases hnew : h.allocateArray src.dataLen with
    | none =>
        rw [copy_of_refused hlen hnew, CopyAgrees.failed_iff]
        constructor
        · intro (hzero : dst.dataLen = 0)
          exact ⟨hzero, by omega, hnew⟩
        · intro hspared
          exact hspared.1
    | some v =>
        have hsome : (h.allocateArray src.dataLen).isSome = true := by rw [hnew]; rfl
        have hzero : src.dataLen = 0 := by
          by_contra hne
          exact hfits (.inr ⟨Nat.pos_of_ne_zero hne, hsome⟩)
        obtain ⟨bytes, hcopy⟩ := copy_of_new hlen hsome
        rw [hcopy, CopyAgrees.copied_iff]
        refine iff_of_false ?_ fun hspared => Nat.ne_of_gt hspared.2.1 hzero
        rintro ⟨-, heq⟩
        rw [eq_initializer_of_zero hsrc hzero] at heq
        cases heq

end Buffer

namespace XcdrData

variable {lib : Library} {h : Heap} {dst src : XcdrData}

/-- The buffer fits and the byte order is the same already, or the copy fails with nothing
lost. -/
def Suits (h : Heap) (dst src : XcdrData) : Prop :=
  dst.buffer.Fits h src.buffer ∧ dst.littleEndian = src.littleEndian ∨
    dst.buffer.Spared h src.buffer

instance (h : Heap) (dst src : XcdrData) : Decidable (Suits h dst src) :=
  inferInstanceAs (Decidable (_ ∨ _))

theorem compare_self (hsrc : src.WellFormed) : src.compare lib src = 0 := by
  have hbuffer : src.buffer.compare lib src.buffer = 0 := Buffer.compare_self hsrc
  unfold compare
  cases hle : src.littleEndian with
  | false => simp [hbuffer]
  | true => simp [hbuffer]

/-- The byte order is that of the object, whatever is copied into it. -/
theorem copy_of_buffer (b : Bool) (buffer : Buffer)
    (hcopy : Buffer.copy h dst.buffer src.buffer = (b, buffer)) :
    copy h dst src =
      (b, ⟨if b then src.encoding else dst.encoding, dst.littleEndian, buffer⟩) := by
  unfold copy
  rw [hcopy]
  cases b with
  | false => rfl
  | true => rfl

/-- A copy that fails leaves no array. -/
theorem copy_eq_of_failed {x : XcdrData} (hdst : dst.WellFormed) (hsrc : src.WellFormed)
    (hcopy : copy h dst src = (false, x)) :
    x = { dst with buffer := ⟨.null, dst.buffer.dataLen⟩ } := by
  rcases hbuffer : Buffer.copy h dst.buffer src.buffer with ⟨_ | _, buffer⟩
  · have hlen : dst.buffer.dataLen ≠ src.buffer.dataLen := by
      intro hlen
      rw [Buffer.copy_of_fits hdst hsrc (.inl hlen)] at hbuffer
      cases hbuffer
    cases hnew : h.allocateArray src.buffer.dataLen with
    | none =>
        rw [Buffer.copy_of_refused hlen hnew] at hbuffer
        cases hbuffer
        rw [copy_of_buffer false _ (Buffer.copy_of_refused hlen hnew)] at hcopy
        cases hcopy
        rfl
    | some v =>
        have hsome : (h.allocateArray src.buffer.dataLen).isSome = true := by rw [hnew]; rfl
        obtain ⟨bytes, hnewBuffer⟩ := Buffer.copy_of_new hlen hsome
        rw [hnewBuffer] at hbuffer
        cases hbuffer
  · rw [copy_of_buffer true buffer hbuffer] at hcopy
    cases hcopy

theorem copyAgrees_iff (lib : Library) (hdst : dst.WellFormed) (hsrc : src.WellFormed) :
    CopyAgrees WellFormed (compare lib) src (copy h dst src) ↔ Suits h dst src := by
  have hiff := Buffer.copyAgrees_iff lib (h := h) hdst hsrc
  rcases hcopy : Buffer.copy h dst.buffer src.buffer with ⟨_ | _, buffer⟩
  · rw [copy_of_buffer false buffer hcopy, CopyAgrees.failed_iff]
    rw [hcopy, CopyAgrees.failed_iff] at hiff
    have hfits : ¬ dst.buffer.Fits h src.buffer := by
      intro hfits
      rw [Buffer.copy_of_fits hdst hsrc hfits] at hcopy
      cases hcopy
    rw [or_iff_right hfits] at hiff
    rw [Suits, or_iff_right fun hboth => hfits hboth.1]
    exact hiff
  · rw [copy_of_buffer true buffer hcopy, CopyAgrees.copied_iff]
    rw [hcopy, CopyAgrees.copied_iff] at hiff
    have hspared : ¬ dst.buffer.Spared h src.buffer := by
      rintro ⟨hzero, hpos, hnone⟩
      rw [Buffer.copy_of_refused (by omega) hnone] at hcopy
      cases hcopy
    rw [or_iff_left hspared] at hiff
    rw [Suits, or_iff_left hspared, ← hiff]
    constructor
    · rintro ⟨-, heq⟩
      have hbuffer : buffer = src.buffer := congrArg XcdrData.buffer heq
      have horder : dst.littleEndian = src.littleEndian := by rw [← heq]
      rw [hbuffer]
      exact ⟨⟨Buffer.compare_self hsrc, rfl⟩, horder⟩
    · rintro ⟨⟨-, hbuffer⟩, horder⟩
      have heq : (⟨src.encoding, dst.littleEndian, buffer⟩ : XcdrData) = src := by
        rw [horder, hbuffer]
      rw [if_pos rfl, heq]
      exact ⟨compare_self hsrc, rfl⟩

end XcdrData

namespace Representation

variable {lib : Library} {h : Heap} {dst src : Representation}

/-- What encoded data are copied into: those of the object, if it has any. -/
def target (dst : Representation) : XcdrData :=
  if dst.fmt = .bin then dst.value.asBin else .initializer

theorem copyText_agrees (fmt : RepresentationFormat) (p : Pointer String)
    (hfmt : fmt = .xml ∨ fmt = .json ∨ fmt = .ref) (hdst : dst.fmt = fmt ∨ dst.fmt = .unknown) :
    CopyAgrees WellFormed (compare lib) ⟨fmt, .text p⟩ (copyText h dst fmt p) := by
  have hempty : WellFormed { dst with value := .text .null } := by
    obtain ⟨dfmt, value⟩ := dst
    rcases hdst with hdst | hdst
    · dsimp only at hdst
      rw [hdst]
      rcases hfmt with hfmt | hfmt | hfmt <;> rw [hfmt] <;> simp [WellFormed]
    · dsimp only at hdst
      rw [hdst]
      simp [WellFormed]
  unfold copyText
  cases p with
  | null =>
      rw [h.stringReplace_of_no_object rfl]
      exact CopyAgrees.failed_iff.2 hempty
  | freed =>
      rw [h.stringReplace_of_no_object rfl]
      exact CopyAgrees.failed_iff.2 hempty
  | object s =>
      by_cases hs : h.duplicates s
      · rw [hs]
        refine .same ?_
        rcases hfmt with hfmt | hfmt | hfmt <;> rw [hfmt] <;>
          simp [compare, lib.stringCompare_self]
      · rw [Heap.stringReplace_of_not_duplicates hs]
        exact CopyAgrees.failed_iff.2 hempty

/-- What is copied into has the format of what is copied, or none. -/
theorem finalize_fmt (dst src : Representation) :
    (if dst.fmt ≠ src.fmt then dst.finalize else dst).fmt = src.fmt ∨
      (if dst.fmt ≠ src.fmt then dst.finalize else dst).fmt = .unknown := by
  by_cases hfmt : dst.fmt = src.fmt
  · rw [if_neg (not_not.2 hfmt)]
    exact .inl hfmt
  · rw [if_pos hfmt]
    exact .inr rfl

theorem finalize_wellFormed (src : Representation) (hdst : dst.WellFormed) :
    (if dst.fmt ≠ src.fmt then dst.finalize else dst).WellFormed := by
  by_cases hfmt : dst.fmt = src.fmt
  · rw [if_neg (not_not.2 hfmt)]
    exact hdst
  · rw [if_pos hfmt]
    exact rfl

theorem asBin_wellFormed (hdst : dst.WellFormed) (hfmt : dst.fmt = .bin ∨ dst.fmt = .unknown) :
    dst.value.asBin.WellFormed := by
  obtain ⟨fmt, value⟩ := dst
  cases value with
  | text p => exact rfl
  | bin x =>
      rcases hfmt with hfmt | hfmt
      · dsimp only at hfmt
        rw [hfmt] at hdst
        exact hdst
      · dsimp only at hfmt
        rw [hfmt] at hdst
        rw [show x = .initializer from hdst]
        exact rfl

/-- Failing to copy encoded data leaves the representation in order exactly when it leaves
these in order. -/
theorem failed_wellFormed_iff {x y : XcdrData} (hx : x.WellFormed) (hdst : dst.WellFormed)
    (hfmt : dst.fmt = .bin ∨ dst.fmt = .unknown)
    (hcopy : XcdrData.copy h dst.value.asBin x = (false, y)) :
    WellFormed { dst with value := .bin y } ↔ y.WellFormed := by
  have hy := XcdrData.copy_eq_of_failed (asBin_wellFormed hdst hfmt) hx hcopy
  obtain ⟨fmt, value⟩ := dst
  rcases hfmt with hfmt | hfmt
  · dsimp only at hfmt
    rw [hfmt]
    exact Iff.rfl
  · dsimp only at hfmt
    rw [hfmt] at hdst ⊢
    -- the members of a value that holds nothing are all zero
    have hzero : value.asBin = .initializer := by
      cases value with
      | bin x => exact hdst
      | text p => rfl
    dsimp only at hy
    rw [hzero] at hy
    rw [hy]
    exact iff_of_true rfl rfl

theorem copyBin_agrees_iff {x : XcdrData} (hx : x.WellFormed) (hdst : dst.WellFormed)
    (hfmt : dst.fmt = .bin ∨ dst.fmt = .unknown) :
    CopyAgrees WellFormed (compare lib) ⟨.bin, .bin x⟩ (copyBin h dst x) ↔
      XcdrData.Suits h dst.value.asBin x := by
  rw [← XcdrData.copyAgrees_iff lib (asBin_wellFormed hdst hfmt) hx]
  unfold copyBin
  rcases hcopy : XcdrData.copy h dst.value.asBin x with ⟨_ | _, y⟩
  · rw [CopyAgrees.failed_iff, CopyAgrees.failed_iff]
    exact failed_wellFormed_iff hx hdst hfmt hcopy
  · rw [CopyAgrees.copied_iff, CopyAgrees.copied_iff]
    simp [compare]

/-- Texts are always copied right, and encoded data as `D2S2_XcdrData_copy` does it. -/
theorem copyAgrees_iff (lib : Library) (hdst : dst.WellFormed) (hsrc : src.WellFormed) :
    CopyAgrees WellFormed (compare lib) src (copy h dst src) ↔
      (src.fmt = .bin → XcdrData.Suits h dst.target src.value.asBin) := by
  have hfmt := finalize_fmt dst src
  have hprepared := finalize_wellFormed src hdst
  have htarget : src.fmt = .bin →
      (if dst.fmt ≠ src.fmt then dst.finalize else dst).value.asBin = dst.target := by
    intro hbin
    unfold target
    rw [hbin]
    by_cases hsame : dst.fmt = .bin
    · rw [if_neg (not_not.2 hsame), if_pos hsame]
    · rw [if_pos hsame, if_neg hsame]
      rfl
  unfold copy
  dsimp only
  set d := if dst.fmt ≠ src.fmt then dst.finalize else dst with hd
  obtain ⟨fmt, value⟩ := src
  cases fmt with
  | unknown =>
      refine iff_of_true ?_ fun hbin => by cases hbin
      exact CopyAgrees.failed_iff.2 hprepared
  | xml =>
      cases value with
      | bin x => exact hsrc.elim
      | text p =>
          refine iff_of_true ?_ fun hbin => by cases hbin
          exact copyText_agrees .xml p (.inl rfl) hfmt
  | json =>
      cases value with
      | bin x => exact hsrc.elim
      | text p =>
          refine iff_of_true ?_ fun hbin => by cases hbin
          exact copyText_agrees .json p (.inr (.inl rfl)) hfmt
  | ref =>
      cases value with
      | bin x => exact hsrc.elim
      | text p =>
          refine iff_of_true ?_ fun hbin => by cases hbin
          exact copyText_agrees .ref p (.inr (.inr rfl)) hfmt
  | bin =>
      cases value with
      | text p => exact hsrc.elim
      | bin x =>
          rw [copyBin_agrees_iff hsrc hprepared hfmt, htarget rfl]
          exact ⟨fun h _ => h, fun h => h rfl⟩

end Representation

namespace Id

variable {lib : Library} {h : Heap} {dst src : Id}

/-- Identifiers are always copied right. -/
theorem copy_agrees (hdst : dst.WellFormed) (hsrc : src.WellFormed) :
    CopyAgrees WellFormed (compare lib) src (copy h dst src) := by
  have hprepared : (if dst.kind ≠ src.kind then dst.finalize else dst).WellFormed := by
    by_cases hkind : dst.kind = src.kind
    · rw [if_neg (not_not.2 hkind)]
      exact hdst
    · rw [if_pos hkind]
      exact rfl
  have hkinds : (if dst.kind ≠ src.kind then dst.finalize else dst).kind = src.kind ∨
      (if dst.kind ≠ src.kind then dst.finalize else dst).kind = .none := by
    by_cases hkind : dst.kind = src.kind
    · rw [if_neg (not_not.2 hkind)]
      exact .inl hkind
    · rw [if_pos hkind]
      exact .inr rfl
  unfold copy
  dsimp only
  set d := if dst.kind ≠ src.kind then dst.finalize else dst with hd
  obtain ⟨kind, value⟩ := src
  cases kind with
  | none => exact CopyAgrees.failed_iff.2 hprepared
  | guid =>
      cases value with
      | ref p => exact hsrc.elim
      | guid g => exact .same (by simp [compare, lib.guidCompare_self])
  | ref =>
      cases value with
      | guid g => exact hsrc.elim
      | ref p =>
          have hempty : WellFormed { d with value := .ref .null } := by
            obtain ⟨dkind, dvalue⟩ := d
            rcases hkinds with hkind | hkind
            · dsimp only at hkind
              rw [hkind]
              simp [WellFormed]
            · dsimp only at hkind
              rw [hkind]
              simp [WellFormed]
          cases p with
          | null =>
              simp only [h.stringReplace_of_no_object (p := .null) rfl]
              exact CopyAgrees.failed_iff.2 hempty
          | freed =>
              simp only [h.stringReplace_of_no_object (p := .freed) rfl]
              exact CopyAgrees.failed_iff.2 hempty
          | object s =>
              by_cases hs : h.duplicates s
              · simp only [show h.stringReplace (.object s) = .object s from hs]
                exact .same (by simp [compare, lib.stringCompare_self])
              · simp only [Heap.stringReplace_of_not_duplicates hs]
                exact CopyAgrees.failed_iff.2 hempty

/-- The identifier as a value. -/
def content (i : Id) : ResourceId :=
  match i.kind, i.value with
  | .guid, .guid g => .guid g
  | .ref, .ref (.object s) => .ref s
  | _, _ => .none

end Id

/-- **Copies.** Whatever an object held, a copy into it agrees with the comparison: of
buffers when the lengths agree already or a new array for at least one byte can be
allocated (and when there was no array to lose), of encoded data when besides the
byte orders agree already, of representations when this holds of their encoded data,
and of identifiers always. -/
theorem copies_agree_iff (lib : Library) (h : Heap) :
    (∀ dst src : Buffer, dst.WellFormed → src.WellFormed →
      (CopyAgrees Buffer.WellFormed (Buffer.compare lib) src (Buffer.copy h dst src) ↔
        dst.Fits h src ∨ dst.Spared h src)) ∧
    (∀ dst src : XcdrData, dst.WellFormed → src.WellFormed →
      (CopyAgrees XcdrData.WellFormed (XcdrData.compare lib) src (XcdrData.copy h dst src) ↔
        dst.Suits h src)) ∧
    (∀ dst src : Representation, dst.WellFormed → src.WellFormed →
      (CopyAgrees Representation.WellFormed (Representation.compare lib) src
          (Representation.copy h dst src) ↔
        (src.fmt = .bin → dst.target.Suits h src.value.asBin))) ∧
    ∀ dst src : Id, dst.WellFormed → src.WellFormed →
      CopyAgrees Id.WellFormed (Id.compare lib) src (Id.copy h dst src) := by
  refine ⟨fun dst src hdst hsrc => ?_, fun dst src hdst hsrc => ?_, fun dst src hdst hsrc => ?_, ?_⟩
  · exact Buffer.copyAgrees_iff lib hdst hsrc
  · exact XcdrData.copyAgrees_iff lib hdst hsrc
  · exact Representation.copyAgrees_iff lib hdst hsrc
  · intro dst src hdst hsrc
    exact Id.copy_agrees hdst hsrc

/-- A heap that allocates everything. -/
def Heap.ample : Heap where
  allocateArray n := some (Vector.replicate n 0)
  stringReplace p := p.target.elim .null .object
  stringReplace_eq p := by
    cases p with
    | null => exact .inl rfl
    | freed => exact .inl rfl
    | object s => exact .inr ⟨s, rfl, rfl⟩

/-- Two bytes in one of the byte orders. -/
def encoded (littleEndian : Bool) : XcdrData := ⟨.xcdr2, littleEndian, ⟨.object [1, 2], 2⟩⟩

/-- Data whose byte order is that of the object agree with their copy. -/
theorem copies_agree_bigEndian :
    CopyAgrees XcdrData.WellFormed (XcdrData.compare .standard) (encoded false)
      (XcdrData.copy .ample .initializer (encoded false)) :=
  ((copies_agree_iff .standard .ample).2.1 .initializer (encoded false) rfl ⟨rfl, by decide⟩).2
    (.inl ⟨.inr ⟨by decide, rfl⟩, rfl⟩)

/-- The copy of little-endian data into a new object is big-endian. -/
theorem not_copies_agree_littleEndian :
    ¬ ∀ (h : Heap) (dst src : XcdrData), dst.WellFormed → src.WellFormed →
      CopyAgrees XcdrData.WellFormed (XcdrData.compare .standard) src
        (XcdrData.copy h dst src) := by
  intro hall
  have hcopied := (hall .ample .initializer (encoded true) rfl ⟨rfl, by decide⟩).1 rfl
  exact absurd hcopied.1 (by decide)

end Infrastructure

end NanoAgent
