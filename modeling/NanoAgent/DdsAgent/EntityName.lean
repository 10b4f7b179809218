import NanoAgent.Foundations.Loop
import NanoAgent.Foundations.Separator

/-!
# Entity names

A resource may be referred to by the name of its entity: components joined by
`::`. Three functions read or write such a reference. `countRefComponents` counts
its components in a loop that need not end; `parseRefComponents` allocates an array
of that many components and fills it; `toRef` joins the first components of a name.

Strings are lists of characters without the terminating zero. A slot of the array
of components that was not written yet is `none`. What the heap answers is a
parameter.
-/

namespace NanoAgent

namespace EntityName

open Loop Separator

/-- `REF_SEP`. -/
def refSep : List Char := [':', ':']

/-- `strstr` for the separator of a reference. -/
def findRefSep (s : List Char) : Option ℕ := findSep refSep s

/-- The local variables of `D2S2_EntityName_count_ref_components`; `refHead` is the
offset of the pointer in the string. -/
structure CountState where
  componentsCount : ℕ
  chI : ℕ
  refStart : ℕ
  refHead : ℕ
  deriving DecidableEq, Repr

/-- The results of `D2S2_EntityName_count_ref_components`. -/
structure ComponentCount where
  validRef : Bool
  componentsCount : ℕ
  refLen : ℕ
  refStart : ℕ
  deriving DecidableEq, Repr

/-- The results of an invalid reference. -/
def ComponentCount.invalid : ComponentCount := ⟨false, 0, 0, 0⟩

/-- The results after the loop. -/
def CountState.result (ref : List Char) (s : CountState) : ComponentCount :=
  ⟨true, s.componentsCount, ref.length, s.refStart⟩

/-- A valid component moves the head of the loop. -/
def CountState.advance (s : CountState) (consumed : ℕ) : CountState :=
  { s with
    componentsCount := s.componentsCount + 1
    refHead := s.refHead + consumed
    chI := s.refHead + consumed }

/-- A pass of the loop of `D2S2_EntityName_count_ref_components`. A separator at the start
of the reference is to be ignored, but the head stays in front of it. -/
def countPass (ref : List Char) (s : CountState) : ComponentCount ⊕ CountState :=
  match findRefSep (ref.drop s.refHead) with
  | some 0 =>
      if s.chI = 0 then
        let s' := { s with refStart := s.refStart + 2 }
        if s'.chI < ref.length then .inr s' else .inl (s'.result ref)
      else .inl .invalid
  | some (k + 1) =>
      let s' := s.advance (k + 1 + 2)
      if s'.chI < ref.length then .inr s' else .inl (s'.result ref)
  | none => .inl ((s.advance (ref.length - s.refHead)).result ref)

/-- The variables when the loop is entered. -/
def CountState.initial : CountState := ⟨0, 0, 0, 0⟩

/-- `D2S2_EntityName_count_ref_components`, given the number of passes it is allowed. -/
def countRefComponents (ref : List Char) (passes : ℕ) : Option ComponentCount :=
  if ref.length = 0 then some .invalid else runLoop (countPass ref) passes .initial

/-- What the heap answers to `D2S2_EntityName_parse_ref_components`: for the array
and for the string of each component. -/
structure Heap where
  allocateArray : Bool
  allocateString : ℕ → Bool

/-- The loop of `D2S2_EntityName_parse_ref_components`: `k` slots are left, `i` is the next
one, `s` starts at the head and `remaining` characters are left. The result is
`none` when an allocation fails. -/
def parseLoop (heap : Heap) : ℕ → ℕ → List Char → ℕ → List (Option (List Char)) →
    Option (List (Option (List Char)))
  | 0, _, _, _, components => some components
  | k + 1, i, s, remaining, components =>
      if remaining = 0 then some components
      else
        match findRefSep s with
        | some n =>
            if heap.allocateString i then
              parseLoop heap k (i + 1) (s.drop (n + 2)) (remaining - (n + 2))
                (components.set i (some (s.take n)))
            else none
        | none =>
            -- the remaining length is zero from here, which ends the loop
            if heap.allocateString i then some (components.set i (some (s.take remaining)))
            else none

/-- The result of `D2S2_EntityName_parse_ref_components`. -/
inductive Parsed
  | failed
  | components (slots : List (Option (List Char)))
  deriving DecidableEq, Repr

/-- `D2S2_EntityName_parse_ref_components` of a reference whose components were counted. -/
def parseCounted (heap : Heap) (ref : List Char) (c : ComponentCount) : Parsed :=
  if c.validRef && heap.allocateArray then
    match parseLoop heap (c.componentsCount - c.refStart) c.refStart ref c.refLen
        (List.replicate c.componentsCount none) with
    | some slots => .components slots
    | none => .failed
  else .failed

/-- `D2S2_EntityName_parse_ref_components`. -/
def parseRefComponents (heap : Heap) (ref : List Char) (passes : ℕ) : Option Parsed :=
  (countRefComponents ref passes).map (parseCounted heap ref)

/-- The length of the reference made of the first components, computed by the first
loop of `D2S2_EntityName_to_ref`. -/
def refLength (components : List (List Char)) : ℕ → ℕ
  | 0 => 0
  | i + 1 =>
      refLength components i + (if 0 < i then 2 else 0) + (components.getD i []).length

/-- The second loop of `D2S2_EntityName_to_ref`: `k` components are left, `i` is the next one
and `ref` is what was copied. -/
def copyComponents (components : List (List Char)) (refLen : ℕ) : ℕ → ℕ → List Char → List Char
  | 0, _, ref => ref
  | k + 1, i, ref =>
      if ref.length < refLen then
        copyComponents components refLen k (i + 1)
          (ref ++ (if 0 < i then refSep else []) ++ components.getD i [])
      else ref

/-- `D2S2_EntityName_to_ref`, where `allocated` is the answer of the heap. -/
def toRef (allocated : Bool) (components : List (List Char)) (maxDepth : ℕ) :
    Option (List Char) :=
  if components.length < maxDepth then none
  else if allocated then
    some (copyComponents components (refLength components maxDepth) maxDepth 0 [])
  else none

end EntityName

end NanoAgent
