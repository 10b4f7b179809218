import NanoAgent.DdsAgent.Infrastructure
import NanoAgent.Foundations.Comparator

/-!
# The comparison functions of the tables

Representations, identifiers and session keys are compared by their format or kind first.
For identifiers there are two functions, of which one is used by the table of resources.
`representation_totalOn_iff` says which sets of representations are ordered: in
`D2S2_ResourceRepresentation_compare`, encoded data and texts are each less than the
other.

`D2S2_ResourceId_initialize_guid` gives an identifier the kind of a reference. What
comparing such identifiers reads is in `compareRead`.
-/

namespace NanoAgent

namespace Infrastructure

variable (lib : Library)

theorem Library.compareUInt_neg {m n : ℕ} (h : m < n) : lib.compareUInt m n < 0 := by
  simpa [Nat.compare_eq_lt.2 h, Ordering.HasSign] using lib.compareUInt_hasSign m n

theorem Library.compareUInt_pos {m n : ℕ} (h : n < m) : 0 < lib.compareUInt m n := by
  simpa [Nat.compare_eq_gt.2 h, Ordering.HasSign] using lib.compareUInt_hasSign m n

namespace Buffer

theorem not_freed {b : Buffer} (hb : b.WellFormed) : b.data ≠ .freed := by
  intro heq
  simp [WellFormed, heq] at hb

theorem object_of_wellFormed {b : Buffer} (hb : b.WellFormed) (hne : b.data ≠ .null) :
    ∃ bytes, b = ⟨.object bytes, bytes.length⟩ := by
  obtain ⟨data, n⟩ := b
  cases data with
  | null => exact absurd rfl hne
  | freed => exact hb.elim
  | object bytes =>
      have hlen : bytes.length = n := hb.1
      exact ⟨bytes, by rw [hlen]⟩

theorem null_of_wellFormed {b : Buffer} (hb : b.WellFormed) (hnull : b.data = .null) :
    b = ⟨.null, 0⟩ := by
  obtain ⟨data, n⟩ := b
  obtain rfl : data = .null := hnull
  have hn : n = 0 := hb
  rw [hn]

/-- Arrays are ordered by their lengths first, and no array is behind all of them. -/
theorem compare_totalOn : TotalOn {b | b.WellFormed} (compare lib) := by
  refine .of_rank (fun b => if b.data = .null then 1 else 0) ?_ fun r => ?_
  · intro a ha b hb hlt
    have hnull : b.data = .null := by
      by_contra hne
      simp [hne] at hlt
    have hne : a.data ≠ .null := fun heq => by simp [heq, hnull] at hlt
    obtain ⟨bytes, rfl⟩ := object_of_wellFormed ha hne
    rw [null_of_wellFormed hb hnull]
    simp [compare]
  · refine .of_rank dataLen ?_ fun n => ?_
    · rintro a ⟨ha, hrank⟩ b ⟨hb, rfl⟩ hlt
      have hneb : b.data ≠ .null := by
        intro heq
        rw [null_of_wellFormed hb heq] at hlt
        exact Nat.not_lt_zero _ hlt
      have hnea : a.data ≠ .null := by
        intro heq
        simp [heq, hneb] at hrank
      obtain ⟨l, rfl⟩ := object_of_wellFormed ha hnea
      obtain ⟨r, rfl⟩ := object_of_wellFormed hb hneb
      dsimp only at hlt
      simp [compare, hlt.ne, hlt.ne', lib.compareUInt_neg hlt, lib.compareUInt_pos hlt]
    · refine .of_compare (k := fun b => b.data.target) ?_ ?_
      · rintro a ⟨⟨ha, -⟩, rfl⟩ b ⟨⟨hb, -⟩, hlen⟩ hkey
        have hdata := Pointer.target_injOn (not_freed ha) (not_freed hb) hkey
        obtain ⟨data, n⟩ := a
        obtain ⟨data', n'⟩ := b
        dsimp only at hdata hlen
        rw [hdata, hlen]
      · rintro a ⟨⟨ha, hrank⟩, rfl⟩ b ⟨⟨hb, rfl⟩, hlen⟩
        by_cases hnull : a.data = .null
        · have hnull' : b.data = .null := by
            by_contra hne
            simp [hnull, hne] at hrank
          rw [null_of_wellFormed ha hnull, null_of_wellFormed hb hnull']
          exact hasSign_result .eq
        · have hnull' : b.data ≠ .null := fun heq => by simp [hnull, heq] at hrank
          obtain ⟨l, rfl⟩ := object_of_wellFormed ha hnull
          obtain ⟨r, rfl⟩ := object_of_wellFormed hb hnull'
          dsimp only at hlen
          have hcmp : compare lib ⟨.object l, l.length⟩ ⟨.object r, r.length⟩ =
              lib.memoryCompare l r l.length := by simp [compare, hlen]
          rw [hcmp]
          have hsign := lib.memoryCompare_hasSign l r l.length
          rw [List.take_length, List.take_of_length_le hlen.le] at hsign
          exact hsign

end Buffer

namespace XcdrData

/-- The place of an encoding in the order. -/
def rank : XcdrEncodingKind → ℕ
  | .xcdr1 => 0
  | .xcdr1Pl => 1
  | .xcdr2 => 2
  | .xcdr2Pl => 3
  | .unknown => 4

theorem rank_injective : Function.Injective rank := by
  intro k k' h
  cases k <;> cases k' <;> simp_all [rank]

theorem compare_of_same {x y : XcdrData} (hencoding : x.encoding = y.encoding)
    (horder : x.littleEndian = y.littleEndian) :
    compare lib x y = x.buffer.compare lib y.buffer := by
  rw [compare, if_neg (not_not.2 hencoding), horder]
  cases y.littleEndian <;> rfl

/-- Encoded data are ordered by their encoding and byte order first. -/
theorem compare_totalOn : TotalOn {x | x.WellFormed} (compare lib) := by
  refine .of_rank (fun x => rank x.encoding) ?_ fun r => ?_
  · intro x _ y _ hlt
    have hne : x.encoding ≠ y.encoding := fun heq => by simp [heq] at hlt
    rw [compare, if_pos hne, compare, if_pos hne.symm]
    revert hlt
    cases x.encoding <;> cases y.encoding <;> simp [rank, compareEncoding]
  · refine .of_rank (fun x => if x.littleEndian then 0 else 1) ?_ fun e => ?_
    · rintro x ⟨-, rfl⟩ y ⟨-, hencoding⟩ hlt
      have heq := rank_injective hencoding
      rw [compare, if_neg (not_not.2 heq.symm), compare, if_neg (not_not.2 heq)]
      revert hlt
      cases x.littleEndian <;> cases y.littleEndian <;> simp
    · have hsame : ∀ x ∈ {x ∈ {x ∈ {x : XcdrData | x.WellFormed} | rank x.encoding = r} |
          (if x.littleEndian then 0 else 1) = e},
          ∀ y ∈ {x ∈ {x ∈ {x : XcdrData | x.WellFormed} | rank x.encoding = r} |
            (if x.littleEndian then 0 else 1) = e},
          x.encoding = y.encoding ∧ x.littleEndian = y.littleEndian := by
        rintro x ⟨⟨-, hx⟩, rfl⟩ y ⟨⟨-, hy⟩, horder⟩
        refine ⟨rank_injective (hx.trans hy.symm), ?_⟩
        revert horder
        cases x.littleEndian <;> cases y.littleEndian <;> simp
      refine (Buffer.compare_totalOn lib).comap (f := buffer) (fun x hx => hx.1.1) ?_ ?_
      · intro x hx y hy hbuffer
        obtain ⟨hencoding, horder⟩ := hsame x hx y hy
        cases x
        cases y
        simp_all
      · intro x hx y hy
        obtain ⟨hencoding, horder⟩ := hsame x hx y hy
        exact compare_of_same lib hencoding horder

end XcdrData

namespace Representation

/-- The place of a text format in the order. -/
def textRank : RepresentationFormat → ℕ
  | .ref => 0
  | .xml => 1
  | .json => 2
  | _ => 3

theorem textRank_injOn : Set.InjOn textRank {f | f ≠ .unknown ∧ f ≠ .bin} := by
  rintro f ⟨hf, hf'⟩ g ⟨hg, hg'⟩ h
  cases f <;> cases g <;> simp_all [textRank]

theorem text_of_wellFormed {r : Representation} (hr : r.WellFormed) (hunknown : r.fmt ≠ .unknown)
    (hbin : r.fmt ≠ .bin) : ∃ p, r.value = .text p ∧ p ≠ .freed := by
  obtain ⟨fmt, value⟩ := r
  cases value with
  | bin x => cases fmt <;> simp_all [WellFormed]
  | text p =>
      refine ⟨p, rfl, ?_⟩
      cases fmt <;> simp_all [WellFormed]

/-- The string of a text. -/
def text (r : Representation) : Pointer String :=
  match r.value with
  | .text p => p
  | .bin _ => .null

theorem compare_texts {l r : Representation} (hl : l.WellFormed) (hr : r.WellFormed)
    (hunknown : l.fmt ≠ .unknown) (hbin : l.fmt ≠ .bin) (hfmt : l.fmt = r.fmt) :
    compare lib l r = lib.stringCompare l.text r.text := by
  obtain ⟨p, hp, -⟩ := text_of_wellFormed hl hunknown hbin
  obtain ⟨q, hq, -⟩ := text_of_wellFormed hr (hfmt ▸ hunknown) (hfmt ▸ hbin)
  rw [compare, if_neg (not_not.2 hfmt), text, text, hp, hq]
  cases hl' : l.fmt <;> simp_all

/-- Texts are ordered by their format first: references, then XML, then JSON. -/
theorem compare_totalOn_texts :
    TotalOn {r | r.WellFormed ∧ r.fmt ≠ .unknown ∧ r.fmt ≠ .bin} (compare lib) := by
  refine .of_rank (fun r => textRank r.fmt) ?_ fun k => ?_
  · rintro l ⟨-, hl⟩ r ⟨-, hr⟩ hlt
    have hne : l.fmt ≠ r.fmt := fun heq => by simp [heq] at hlt
    rw [compare, if_pos hne, compare, if_pos hne.symm]
    revert hlt hl hr
    cases l.fmt <;> cases r.fmt <;> simp [textRank, compareFormat]
  · refine lib.stringCompare_totalOn.comap (f := text) ?_ ?_ ?_
    · rintro r ⟨⟨hr, hunknown, hbin⟩, -⟩
      obtain ⟨p, hp, hfreed⟩ := text_of_wellFormed hr hunknown hbin
      rw [text, hp]
      exact hfreed
    · rintro l ⟨⟨hl, hformat⟩, rfl⟩ r ⟨⟨hr, hformat'⟩, hk⟩ htext
      have hfmt := textRank_injOn hformat' hformat hk
      obtain ⟨p, hp, -⟩ := text_of_wellFormed hl hformat.1 hformat.2
      obtain ⟨q, hq, -⟩ := text_of_wellFormed hr hformat'.1 hformat'.2
      rw [text, text, hp, hq] at htext
      cases l
      cases r
      simp_all
    · rintro l ⟨⟨hl, hformat⟩, rfl⟩ r ⟨⟨hr, hformat'⟩, hk⟩
      exact compare_texts lib hl hr hformat.1 hformat.2 (textRank_injOn hformat hformat' hk.symm)

theorem bin_of_wellFormed {r : Representation} (hr : r.WellFormed) (hbin : r.fmt = .bin) :
    ∃ x, r = ⟨.bin, .bin x⟩ ∧ x.WellFormed := by
  obtain ⟨fmt, value⟩ := r
  obtain rfl : fmt = .bin := hbin
  cases value with
  | bin x => exact ⟨x, rfl, hr⟩
  | text p => exact hr.elim

/-- Encoded data are ordered as such. -/
theorem compare_totalOn_bin : TotalOn {r | r.WellFormed ∧ r.fmt = .bin} (compare lib) := by
  refine (XcdrData.compare_totalOn lib).comap (f := fun r => r.value.asBin) ?_ ?_ ?_
  · rintro r ⟨hr, hbin⟩
    obtain ⟨x, rfl, hx⟩ := bin_of_wellFormed hr hbin
    exact hx
  · rintro l ⟨hl, hbin⟩ r ⟨hr, hbin'⟩ heq
    obtain ⟨x, rfl, -⟩ := bin_of_wellFormed hl hbin
    obtain ⟨y, rfl, -⟩ := bin_of_wellFormed hr hbin'
    obtain rfl : x = y := heq
    rfl
  · rintro l ⟨hl, hbin⟩ r ⟨hr, hbin'⟩
    obtain ⟨x, rfl, -⟩ := bin_of_wellFormed hl hbin
    obtain ⟨y, rfl, -⟩ := bin_of_wellFormed hr hbin'
    rfl

/-- Encoded data and a text are each less than the other. -/
theorem compare_bin_text {l r : Representation} (hl : l.fmt = .bin) (hr : r.fmt ≠ .bin)
    (hunknown : r.fmt ≠ .unknown) : compare lib l r = -1 ∧ compare lib r l = -1 := by
  have hne : l.fmt ≠ r.fmt := fun heq => hr (heq ▸ hl)
  rw [compare, if_pos hne, compare, if_pos hne.symm, hl]
  cases hfmt : r.fmt <;> simp_all [compareFormat]

/-- A set of representations is ordered when it does not mix encoded data with texts. -/
theorem compare_totalOn_iff {S : Set Representation}
    (hS : ∀ r ∈ S, r.WellFormed ∧ r.fmt ≠ .unknown) :
    TotalOn S (compare lib) ↔ ¬ ∃ l ∈ S, ∃ r ∈ S, l.fmt = .bin ∧ r.fmt ≠ .bin := by
  constructor
  · rintro h ⟨l, hl, r, hr, hbin, htext⟩
    have hopposite := h.opposite l hl r hr
    obtain ⟨hless, hless'⟩ := compare_bin_text lib hbin htext (hS r hr).2
    rw [hless, hless'] at hopposite
    exact absurd hopposite (by decide)
  · intro hmixed
    by_cases hbin : ∃ l ∈ S, l.fmt = .bin
    · obtain ⟨l, hl, hlbin⟩ := hbin
      refine (compare_totalOn_bin lib).mono fun r hr => ⟨(hS r hr).1, ?_⟩
      by_contra hne
      exact hmixed ⟨l, hl, r, hr, hlbin, hne⟩
    · refine (compare_totalOn_texts lib).mono fun r hr => ⟨(hS r hr).1, (hS r hr).2, fun heq => ?_⟩
      exact hbin ⟨r, hr, heq⟩

end Representation

/-- The member `ref` as it is read. When a GUID was written last, its first eight octets are
taken for a pointer, which may be followed only if they are zero. -/
def IdValue.asRef : IdValue → Option (Pointer String)
  | .ref p => some p
  | .guid g => if g / 256 ^ 8 = 0 then some .null else none

/-- The member `guid`, which is not read when a string was written last. -/
def IdValue.asGuid : IdValue → Option ℕ
  | .ref _ => none
  | .guid g => some g

namespace Id

/-- `D2S2_ResourceId_compare_record`, the comparison of the table of resources. -/
def compareRecord (left right : Id) : ℤ :=
  match left.kind, right.kind with
  | .guid, .guid =>
      match left.value, right.value with
      | .guid l, .guid r => lib.memoryCompare (bigEndian 16 l) (bigEndian 16 r) 16
      | _, _ => 1
  | .guid, _ => -1
  | .ref, .ref =>
      match left.value, right.value with
      | .ref l, .ref r => lib.stringCompare l r
      | _, _ => 1
  | .ref, _ => 1
  | .none, _ => 1

/-- The identifier is a reference, or a GUID, which has 16 octets. -/
def Keyed (i : Id) : Prop :=
  match i.kind, i.value with
  | .guid, .guid g => g < 256 ^ 16
  | .ref, .ref p => p ≠ .freed
  | _, _ => False

theorem Keyed.cases {i : Id} (h : i.Keyed) :
    (∃ g, i = ⟨.guid, .guid g⟩ ∧ g < 256 ^ 16) ∨ ∃ p, i = ⟨.ref, .ref p⟩ ∧ p ≠ .freed := by
  obtain ⟨kind, value⟩ := i
  cases kind with
  | none => cases value <;> exact h.elim
  | guid =>
      cases value with
      | ref p => exact h.elim
      | guid g => exact .inl ⟨g, rfl, h⟩
  | ref =>
      cases value with
      | ref p => exact .inr ⟨p, rfl, h⟩
      | guid g => exact h.elim

/-- The two comparisons agree. -/
theorem sign_compareRecord {l r : Id} (hl : l.Keyed) (hr : r.Keyed) :
    (compareRecord lib l r).sign = (compare lib l r).sign := by
  rcases hl.cases with ⟨g, rfl, hg⟩ | ⟨p, rfl, -⟩
  · rcases hr.cases with ⟨g', rfl, hg'⟩ | ⟨q, rfl, -⟩
    · have hmemory := lib.memoryCompare_hasSign (bigEndian 16 g) (bigEndian 16 g') 16
      rw [List.take_of_length_le (length_bigEndian 16 g).le,
        List.take_of_length_le (length_bigEndian 16 g').le, compare_bigEndian hg hg'] at hmemory
      exact hmemory.sign_eq (lib.guidCompare_hasSign g g')
    · rfl
  · rcases hr.cases with ⟨g', rfl, -⟩ | ⟨q, rfl, -⟩
    · rfl
    · simp [compareRecord, compare]

/-- GUIDs are before references. -/
theorem compare_totalOn : TotalOn {i | i.Keyed} (compare lib) := by
  refine .of_rank (fun i => if i.kind = .ref then 1 else 0) ?_ fun k => ?_
  · intro l hl r hr hlt
    rcases Keyed.cases hl with ⟨g, rfl, -⟩ | ⟨p, rfl, -⟩
    · rcases Keyed.cases hr with ⟨g', rfl, -⟩ | ⟨q, rfl, -⟩
      · simp at hlt
      · simp [compare]
    · rcases Keyed.cases hr with ⟨g', rfl, -⟩ | ⟨q, rfl, -⟩
      · simp at hlt
      · simp at hlt
  · by_cases hk : k = 1
    · subst hk
      have href : ∀ i ∈ {i ∈ {i : Id | i.Keyed} | (if i.kind = .ref then 1 else 0) = 1},
          ∃ p, i = ⟨.ref, .ref p⟩ ∧ p ≠ .freed := by
        rintro i ⟨hi, hrank⟩
        rcases Keyed.cases hi with ⟨g, rfl, -⟩ | hp
        · simp at hrank
        · exact hp
      refine lib.stringCompare_totalOn.comap
        (f := fun i => i.value.asRef.getD .null) ?_ ?_ ?_
      · intro i hi
        obtain ⟨p, rfl, hp⟩ := href i hi
        exact hp
      · intro i hi j hj heq
        obtain ⟨p, rfl, -⟩ := href i hi
        obtain ⟨q, rfl, -⟩ := href j hj
        obtain rfl : p = q := heq
        rfl
      · intro i hi j hj
        obtain ⟨p, rfl, -⟩ := href i hi
        obtain ⟨q, rfl, -⟩ := href j hj
        simp [compare, IdValue.asRef]
    · have hguid : ∀ i ∈ {i ∈ {i : Id | i.Keyed} | (if i.kind = .ref then 1 else 0) = k},
          ∃ g, i = ⟨.guid, .guid g⟩ := by
        rintro i ⟨hi, hrank⟩
        rcases Keyed.cases hi with ⟨g, rfl, -⟩ | ⟨p, rfl, -⟩
        · exact ⟨g, rfl⟩
        · exact absurd (by simpa using hrank.symm) hk
      refine .of_compare (k := fun i => i.value.asGuid.getD 0) ?_ ?_
      · intro i hi j hj heq
        obtain ⟨g, rfl⟩ := hguid i hi
        obtain ⟨g', rfl⟩ := hguid j hj
        obtain rfl : g = g' := heq
        rfl
      · intro i hi j hj
        obtain ⟨g, rfl⟩ := hguid i hi
        obtain ⟨g', rfl⟩ := hguid j hj
        simpa [compare, IdValue.asGuid] using lib.guidCompare_hasSign g g'

theorem compareRecord_totalOn : TotalOn {i | i.Keyed} (compareRecord lib) :=
  (compare_totalOn lib).of_sign_eq fun _ hl _ hr => sign_compareRecord lib hl hr

end Id

/-- `D2S2_ClientSessionKey_compare_record`. -/
def compareSessionKey (left right : ClientSessionKey) : ℤ :=
  let res := lib.compareUInt left.client right.client
  if res ≠ 0 then res else lib.compareUInt left.id right.id

/-- Session keys are ordered by the client first. -/
theorem compareSessionKey_totalOn : TotalOn Set.univ (compareSessionKey lib) := by
  refine .of_rank ClientSessionKey.client ?_ fun k => ?_
  · intro l _ r _ hlt
    have hless := lib.compareUInt_neg hlt
    have hmore := lib.compareUInt_pos hlt
    simp [compareSessionKey, hless, hmore, hless.ne, hmore.ne']
  · refine .of_compare (k := ClientSessionKey.id) ?_ ?_
    · rintro l ⟨-, rfl⟩ r ⟨-, hclient⟩ hid
      cases l
      cases r
      simp_all
    · rintro l ⟨-, rfl⟩ r ⟨-, hclient⟩
      have hzero : lib.compareUInt l.client r.client = 0 :=
        (lib.compareUInt_hasSign l.client r.client).eq_zero_iff.2
          (Nat.compare_eq_eq.2 hclient.symm)
      have hcmp : compareSessionKey lib l r = lib.compareUInt l.id r.id := by
        simp [compareSessionKey, hzero]
      rw [hcmp]
      exact lib.compareUInt_hasSign l.id r.id

/-- What an identifier is initialised from. -/
inductive IdSource
  | ref (s : String)
  | guid (value : ℕ)
  deriving DecidableEq, Repr

/-- `D2S2_ResourceId_initialize_ref`, of a reference that is not `NULL`. -/
def Id.initializeRef (h : Heap) (ref : String) : Id :=
  ⟨.ref, .ref (h.stringReplace (.object ref))⟩

/-- `D2S2_ResourceId_initialize_guid`, which sets the kind of a reference. -/
def Id.initializeGuid (guid : ℕ) : Id := ⟨.ref, .guid guid⟩

/-- The identifier that is initialised. -/
def IdSource.build (h : Heap) : IdSource → Id
  | .ref s => .initializeRef h s
  | .guid g => .initializeGuid g

/-- `D2S2_ResourceId_compare` of identifiers whose value need not be what their kind says.
There is no result when it follows what is not a pointer. -/
def Id.compareRead (left right : Id) : Option ℤ :=
  if left.kind ≠ right.kind then
    match left.kind with
    | .guid => some (-1)
    | _ => some 1
  else
    match left.kind with
    | .guid => do
        let l ← left.value.asGuid
        let r ← right.value.asGuid
        pure (lib.guidCompare l r)
    | .ref => do
        let l ← left.value.asRef
        let r ← right.value.asRef
        pure (lib.stringCompare l r)
    | .none => some 1

namespace IdSource

variable (h h' : Heap) (x y : IdSource)

/-- Two identifiers compare equal when what they were initialised from is equal, and then
only. -/
def BuiltAlike : Prop :=
  ∃ r, Id.compareRead lib (x.build h) (y.build h') = some r ∧ (r = 0 ↔ x = y)

/-- The value of the identifier may be read as a reference. -/
def Readable : IdSource → Prop
  | .ref _ => True
  | .guid g => g / 256 ^ 8 = 0

/-- The identifier has a copy of the reference it was initialised from. -/
def Kept (h : Heap) : IdSource → Prop
  | .ref s => h.duplicates s
  | .guid _ => False

variable {lib} {h h'} {x y}

theorem compareRead_build : Id.compareRead lib (x.build h) (y.build h') =
    (x.build h).value.asRef.bind fun l => (y.build h').value.asRef.map (lib.stringCompare l) := by
  have hx : (x.build h).kind = .ref := by cases x <;> rfl
  have hy : (y.build h').kind = .ref := by cases y <;> rfl
  rw [Id.compareRead, hx, hy, if_neg (not_not.2 rfl)]
  cases (x.build h).value.asRef <;> cases (y.build h').value.asRef <;> rfl

theorem asRef_of_kept (hx : x.Kept h) :
    ∃ s, x = .ref s ∧ (x.build h).value.asRef = some (.object s) := by
  cases x with
  | ref s =>
      have hs : h.stringReplace (.object s) = .object s := hx
      exact ⟨s, rfl, by simp [build, Id.initializeRef, hs, IdValue.asRef]⟩
  | guid g => exact hx.elim

theorem asRef_of_not_kept (hx : ¬ x.Kept h) (hread : x.Readable) :
    (x.build h).value.asRef = some .null := by
  cases x with
  | ref s =>
      simp [build, Id.initializeRef, Heap.stringReplace_of_not_duplicates hx, IdValue.asRef]
  | guid g =>
      have hg : g / 256 ^ 8 = 0 := hread
      simp only [build, Id.initializeGuid, IdValue.asRef, hg, if_true]

theorem asRef_of_not_readable (hx : ¬ x.Readable) : (x.build h).value.asRef = none := by
  cases x with
  | ref s => exact absurd trivial hx
  | guid g =>
      have hg : ¬ g / 256 ^ 8 = 0 := hx
      simp only [build, Id.initializeGuid, IdValue.asRef, hg, if_false]

/-- The identifiers are compared as they should when both keep the reference that they were
initialised from. Otherwise there is a result only for what reads as no string, and it is
right by chance. -/
theorem builtAlike_iff : BuiltAlike lib h h' x y ↔ x.Readable ∧ y.Readable ∧
    (x.Kept h ∧ y.Kept h' ∨ (x = y ↔ (x.Kept h ↔ y.Kept h'))) := by
  have hzero := lib.stringCompare_totalOn.zero_iff
  unfold BuiltAlike
  rw [compareRead_build]
  by_cases hx : x.Readable
  · by_cases hy : y.Readable
    · simp only [hx, hy, true_and]
      by_cases hkx : x.Kept h
      · obtain ⟨s, rfl, hs⟩ := asRef_of_kept hkx
        by_cases hky : y.Kept h'
        · obtain ⟨t, rfl, ht⟩ := asRef_of_kept hky
          have hcmp : lib.stringCompare (.object s) (.object t) = 0 ↔ s = t := by
            rw [hzero _ (by simp) _ (by simp), Pointer.object.injEq]
          rw [hs, ht]
          refine iff_of_true ⟨_, rfl, ?_⟩ (.inl ⟨hkx, hky⟩)
          rw [hcmp, IdSource.ref.injEq]
        · rw [hs, asRef_of_not_kept hky hy]
          simp only [hkx, hky, and_false, false_or, iff_false]
          simp [hzero]
      · rw [asRef_of_not_kept hkx hx]
        by_cases hky : y.Kept h'
        · obtain ⟨t, rfl, ht⟩ := asRef_of_kept hky
          rw [ht]
          simp only [hkx, hky, and_true, false_or, iff_true, iff_false]
          simp [hzero]
        · rw [asRef_of_not_kept hky hy]
          simp only [hkx, hky, and_false, false_or, iff_true]
          simp [hzero]
    · refine iff_of_false ?_ fun hall => hy hall.2.1
      rintro ⟨r, hr, -⟩
      rw [asRef_of_not_readable hy] at hr
      cases hl : (x.build h).value.asRef <;> simp [hl] at hr
  · refine iff_of_false ?_ fun hall => hx hall.1
    rintro ⟨r, hr, -⟩
    rw [asRef_of_not_readable hx] at hr
    simp at hr

end IdSource

/-- **Comparators.** A set of representations in one of the four formats is ordered by
`D2S2_ResourceRepresentation_compare` when it does not mix encoded data with texts.
Identifiers are ordered by both of their comparisons, and alike, and so are session keys.
Identifiers that were initialised compare as they should when both were initialised
from references that were copied. -/
theorem comparators_totalOn_iff (lib : Library) (S : Set Representation) :
    ((∀ r ∈ S, r.WellFormed ∧ r.fmt ≠ .unknown) →
      (TotalOn S (Representation.compare lib) ↔
        ¬ ∃ l ∈ S, ∃ r ∈ S, l.fmt = .bin ∧ r.fmt ≠ .bin)) ∧
    TotalOn {i | i.Keyed} (Id.compare lib) ∧ TotalOn {i | i.Keyed} (Id.compareRecord lib) ∧
    (∀ l r : Id, l.Keyed → r.Keyed →
      (Id.compareRecord lib l r).sign = (Id.compare lib l r).sign) ∧
    TotalOn Set.univ (compareSessionKey lib) ∧
    ∀ (h h' : Heap) (x y : IdSource),
      IdSource.BuiltAlike lib h h' x y ↔ x.Readable ∧ y.Readable ∧
        (x.Kept h ∧ y.Kept h' ∨ (x = y ↔ (x.Kept h ↔ y.Kept h'))) := by
  refine ⟨fun hS => Representation.compare_totalOn_iff lib hS, Id.compare_totalOn lib,
    Id.compareRecord_totalOn lib, fun l r hl hr => ?_, compareSessionKey_totalOn lib,
    fun h h' x y => ?_⟩
  · exact Id.sign_compareRecord lib hl hr
  · exact IdSource.builtAlike_iff

/-- A reference and an XML text are ordered. -/
theorem comparators_totalOn_texts :
    TotalOn {(⟨.ref, .text (.object "a")⟩ : Representation), ⟨.xml, .text (.object "a")⟩}
      (Representation.compare .standard) := by
  have hS : ∀ r ∈ ({⟨.ref, .text (.object "a")⟩, ⟨.xml, .text (.object "a")⟩} :
      Set Representation), r.WellFormed ∧ r.fmt ≠ .unknown ∧ r.fmt ≠ .bin := by
    rintro r (rfl | rfl) <;> simp [Representation.WellFormed]
  refine ((comparators_totalOn_iff .standard _).1 fun r hr => ⟨(hS r hr).1, (hS r hr).2.1⟩).2 ?_
  rintro ⟨l, hl, -, -, hbin, -⟩
  exact (hS l hl).2.2 hbin

/-- No encoded data and the empty XML text are each less than the other. -/
theorem not_comparators_totalOn :
    ¬ TotalOn {r : Representation | r.WellFormed ∧ r.fmt ≠ .unknown}
      (Representation.compare .standard) := by
  intro h
  have hopposite := h.opposite ⟨.bin, .bin .initializer⟩ ⟨rfl, by decide⟩
    ⟨.xml, .text (.object "")⟩ ⟨by simp [Representation.WellFormed], by decide⟩
  exact absurd hopposite (by decide)

end Infrastructure

end NanoAgent
