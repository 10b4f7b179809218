import NanoAgent.DdsAgent.XmlResource

/-!
# The elements of an XML document

The loops over the elements of a tag search for the text of the tag, which also starts
longer tags and may stand in a comment, and go on behind the first end tag, which an
element without content does not have and which may be that of an inner element.
`Separated` says when none of this gets in the way.
-/

namespace NanoAgent

open Substring

namespace XmlResource

variable {tag limit head o p q : List Char} {S : List (List Char)}

/-- The text behind an end tag. -/
def behind (tag q : List Char) : List Char := q.drop (closeTag tag).length

/-- A place that `findFirstXmlElement` takes for an element. -/
def Complete (tag o : List Char) : Prop :=
  endsTag (o.drop (openTag tag).length) = true ∧ ∃ q, find (closeTag tag) o = some q

/-- A place between one of the elements and the first end tag behind it. -/
def Hidden (tag : List Char) (S : List (List Char)) (o : List Char) : Prop :=
  ∃ p ∈ S, o.length < p.length ∧
    ∀ q, find (closeTag tag) p = some q → (behind tag q).length < o.length

/-- A place that has the text of the tag and is none of the elements, nor in one of
them. -/
structure Stray (tag head : List Char) (S : List (List Char)) (o : List Char) : Prop where
  ahead : o <:+ head
  occurs : openTag tag <+: o
  notMem : o ∉ S
  notHidden : ¬ Hidden tag S o

/-- The elements of a tag stand apart: each has a blank or `>` behind its tag and an end tag
before the next one starts, and the text of the tag occurs besides only in them or
behind the last of them. What occurs there is not taken for an element. -/
structure Separated (tag limit head : List Char) (S : List (List Char)) : Prop where
  tagged : ∀ p ∈ S, endsTag (p.drop (openTag tag).length) = true
  closed : ∀ p ∈ S, ∃ q, find (closeTag tag) p = some q ∧
    ∀ p' ∈ S, p'.length < p.length → p'.length ≤ (behind tag q).length
  first : ∀ o, Stray tag head S o → ∀ p ∈ S, o.length < p.length
  last : ∀ o, Stray tag head S o → limit.length < o.length → Complete tag o →
    ∃ o', Stray tag head S o' ∧ o.length < o'.length ∧
      endsTag (o'.drop (openTag tag).length) = false

/-- The places of `S` have the text of the tag, they are before the limit and in the order
of the text. -/
structure Places (tag limit head : List Char) (S : List (List Char)) : Prop where
  ahead : ∀ p ∈ S, p <:+ head
  occurs : ∀ p ∈ S, openTag tag <+: p
  inside : ∀ p ∈ S, limit.length < p.length
  sorted : S.Pairwise fun p p' => p'.length < p.length

theorem behind_length_lt (h : find (closeTag tag) p = some q) :
    (behind tag q).length < p.length := by
  have hpre := (occurs_of_find h).length_le
  have hsuf := (find_suffix h).length_le
  have hpos : 0 < (closeTag tag).length := by simp [closeTag]
  rw [behind, List.length_drop]
  omega

theorem behind_suffix (h : find (closeTag tag) p = some q) : behind tag q <:+ p :=
  (List.drop_suffix _ q).trans (find_suffix h)

theorem findFirstXmlElement_of_complete (hfind : find (openTag tag) head = some p)
    (htag : endsTag (p.drop (openTag tag).length) = true)
    (hclose : find (closeTag tag) p = some q) :
    findFirstXmlElement head tag = some (p, behind tag q) := by
  unfold findFirstXmlElement
  rw [hfind]
  dsimp only
  rw [if_pos htag, hclose]
  rfl

theorem findFirstXmlElement_eq_none (h : ∀ p, find (openTag tag) head = some p → ¬ Complete tag p) :
    findFirstXmlElement head tag = none := by
  unfold findFirstXmlElement
  cases hfind : find (openTag tag) head with
  | none => rfl
  | some p =>
      dsimp only
      by_cases htag : endsTag (p.drop (openTag tag).length) = true
      · rw [if_pos htag]
        cases hclose : find (closeTag tag) p with
        | none => rfl
        | some q => exact absurd ⟨htag, q, hclose⟩ (h p hfind)
      · rw [if_neg htag]

/-- Nothing is visited when the first place is not taken for an element, or is not before
the limit. -/
theorem elements_eq_nil (n : ℕ) (h : ∀ p, find (openTag tag) head = some p →
    limit.length < p.length → ¬ Complete tag p) : elements tag limit n head = [] := by
  cases n with
  | zero => rfl
  | succ n =>
      unfold elements
      cases hfind : find (openTag tag) head with
      | none =>
          rw [findFirstXmlElement_eq_none fun p hp => by rw [hfind] at hp; cases hp]
      | some p =>
          by_cases hcomplete : Complete tag p
          · obtain ⟨q, hq⟩ := hcomplete.2
            rw [findFirstXmlElement_of_complete hfind hcomplete.1 hq]
            dsimp only
            rw [if_pos]
            exact Nat.le_of_not_lt fun hlt => h p hfind hlt hcomplete
          · rw [findFirstXmlElement_eq_none]
            intro p' hp'
            rw [hfind] at hp'
            cases hp'
            exact hcomplete

theorem elements_of_complete (n : ℕ) (hfind : find (openTag tag) head = some p)
    (htag : endsTag (p.drop (openTag tag).length) = true) (hclose : find (closeTag tag) p = some q)
    (hlimit : limit.length < p.length) :
    elements tag limit (n + 1) head = p :: elements tag limit n (behind tag q) := by
  rw [elements, findFirstXmlElement_of_complete hfind htag hclose]
  dsimp only
  rw [if_neg (Nat.not_le_of_lt hlimit)]

/-- The first place where the text of the tag occurs is the first element. -/
theorem Separated.eq_first {ps : List (List Char)} (h : Separated tag limit head (p :: ps))
    (hS : Places tag limit head (p :: ps)) (hfind : find (openTag tag) head = some o) : o = p := by
  by_contra hne
  have hp := hS.ahead p List.mem_cons_self
  have hle : p.length ≤ o.length :=
    length_le_of_find hfind hp (hS.occurs p List.mem_cons_self)
  have hsmaller : ∀ p' ∈ p :: ps, p'.length ≤ p.length := by
    intro p' hp'
    rcases List.mem_cons.1 hp' with rfl | hp'
    · exact Nat.le_refl _
    · exact Nat.le_of_lt ((List.pairwise_cons.1 hS.sorted).1 p' hp')
  have hstray : Stray tag head (p :: ps) o := by
    refine ⟨find_suffix hfind, occurs_of_find hfind, fun hmem => hne ?_, ?_⟩
    · have hle' := hsmaller o hmem
      exact eq_of_length_eq (find_suffix hfind) hp (by omega)
    · rintro ⟨p', hp', hlt, -⟩
      have hle' := hsmaller p' hp'
      omega
  have hlt := h.first o hstray p List.mem_cons_self
  omega

/-- What an element hides is before the end tag. -/
theorem hidden_cons_iff {ps : List (List Char)} (hq : find (closeTag tag) p = some q) :
    Hidden tag (p :: ps) o ↔
      (o.length < p.length ∧ (behind tag q).length < o.length) ∨ Hidden tag ps o := by
  constructor
  · rintro ⟨p', hp', hlt, hclose⟩
    rcases List.mem_cons.1 hp' with rfl | hp'
    · exact .inl ⟨hlt, hclose q hq⟩
    · exact .inr ⟨p', hp', hlt, hclose⟩
  · rintro (⟨hlt, hbefore⟩ | ⟨p', hp', hrest⟩)
    · refine ⟨p, List.mem_cons_self, hlt, fun q' hq' => ?_⟩
      rw [hq] at hq'
      cases hq'
      exact hbefore
    · exact ⟨p', List.mem_cons_of_mem p hp', hrest⟩

/-- The stray places behind the first element are those of the rest. -/
theorem stray_cons_iff {ps : List (List Char)} (hS : Places tag limit head (p :: ps))
    (hfind : find (openTag tag) head = some p) (hq : find (closeTag tag) p = some q) :
    Stray tag head (p :: ps) o ↔ Stray tag (behind tag q) ps o := by
  have hbehind : behind tag q <:+ head := (behind_suffix hq).trans (find_suffix hfind)
  have hshort := behind_length_lt hq
  constructor
  · intro ho
    have hle := length_le_of_find hfind ho.ahead ho.occurs
    have hne : o.length ≠ p.length := by
      intro heq
      refine ho.notMem (List.mem_cons.2 (.inl ?_))
      exact eq_of_length_eq ho.ahead (find_suffix hfind) heq
    have hnot := ho.notHidden
    rw [hidden_cons_iff hq, not_or, not_and, Nat.not_lt] at hnot
    have hafter := hnot.1 (by omega)
    refine ⟨List.suffix_of_suffix_length_le ho.ahead hbehind hafter, ho.occurs, ?_, hnot.2⟩
    exact fun hmem => ho.notMem (List.mem_cons_of_mem p hmem)
  · intro ho
    have hle := ho.ahead.length_le
    refine ⟨ho.ahead.trans hbehind, ho.occurs, fun hmem => ?_, fun hhidden => ?_⟩
    · rcases List.mem_cons.1 hmem with rfl | hmem
      · omega
      · exact ho.notMem hmem
    · rcases (hidden_cons_iff hq).1 hhidden with hfirst | hrest
      · omega
      · exact ho.notHidden hrest

/-- The elements stand apart when those behind the first end tag do. -/
theorem separated_cons_iff {ps : List (List Char)} (hS : Places tag limit head (p :: ps))
    (hfind : find (openTag tag) head = some p)
    (htag : endsTag (p.drop (openTag tag).length) = true)
    (hq : find (closeTag tag) p = some q) :
    Separated tag limit head (p :: ps) ↔
      (∀ p' ∈ ps, p' <:+ behind tag q) ∧ Separated tag limit (behind tag q) ps := by
  have hbehind : behind tag q <:+ head := (behind_suffix hq).trans (find_suffix hfind)
  have hsorted := List.pairwise_cons.1 hS.sorted
  constructor
  · intro h
    have hrest : ∀ p' ∈ ps, p' <:+ behind tag q := by
      intro p' hp'
      obtain ⟨q', hq', hbefore⟩ := h.closed p List.mem_cons_self
      rw [hq] at hq'
      cases hq'
      have hmem : p' ∈ p :: ps := List.mem_cons_of_mem p hp'
      exact List.suffix_of_suffix_length_le (hS.ahead p' hmem) hbehind
        (hbefore p' hmem (hsorted.1 p' hp'))
    refine ⟨hrest, ?_, ?_, ?_, ?_⟩
    · exact fun p' hp' => h.tagged p' (List.mem_cons_of_mem p hp')
    · intro p' hp'
      obtain ⟨q', hq', hbefore⟩ := h.closed p' (List.mem_cons_of_mem p hp')
      exact ⟨q', hq', fun p'' hp'' => hbefore p'' (List.mem_cons_of_mem p hp'')⟩
    · intro o ho p' hp'
      exact h.first o ((stray_cons_iff hS hfind hq).2 ho) p' (List.mem_cons_of_mem p hp')
    · intro o ho hlimit hcomplete
      obtain ⟨o', ho', hlt, hno⟩ := h.last o ((stray_cons_iff hS hfind hq).2 ho) hlimit hcomplete
      exact ⟨o', (stray_cons_iff hS hfind hq).1 ho', hlt, hno⟩
  · rintro ⟨hrest, h⟩
    refine ⟨?_, ?_, ?_, ?_⟩
    · intro p' hp'
      rcases List.mem_cons.1 hp' with rfl | hp'
      · exact htag
      · exact h.tagged p' hp'
    · intro p' hp'
      rcases List.mem_cons.1 hp' with rfl | hp'
      · refine ⟨q, hq, fun p'' hp'' hlt => ?_⟩
        rcases List.mem_cons.1 hp'' with rfl | hp''
        · exact absurd hlt (Nat.lt_irrefl _)
        · exact (hrest p'' hp'').length_le
      · obtain ⟨q', hq', hbefore⟩ := h.closed p' hp'
        refine ⟨q', hq', fun p'' hp'' hlt => ?_⟩
        rcases List.mem_cons.1 hp'' with heq | hp''
        · have hafter := hsorted.1 p' hp'
          rw [heq] at hlt
          omega
        · exact hbefore p'' hp'' hlt
    · intro o ho p' hp'
      have ho' := (stray_cons_iff hS hfind hq).1 ho
      rcases List.mem_cons.1 hp' with rfl | hp'
      · have hle := ho'.ahead.length_le
        have hshort := behind_length_lt hq
        omega
      · exact h.first o ho' p' hp'
    · intro o ho hlimit hcomplete
      obtain ⟨o', ho', hlt, hno⟩ := h.last o ((stray_cons_iff hS hfind hq).1 ho) hlimit hcomplete
      exact ⟨o', (stray_cons_iff hS hfind hq).2 ho', hlt, hno⟩

theorem not_hidden_nil : ¬ Hidden tag [] o := by
  rintro ⟨p, hp, -⟩
  cases hp

/-- Where no element is, no place before the limit is taken for one exactly when the first
is not. -/
theorem separated_nil_iff : Separated tag limit head [] ↔
    ∀ p, find (openTag tag) head = some p → limit.length < p.length → ¬ Complete tag p := by
  have hstray : ∀ o, o <:+ head → openTag tag <+: o → Stray tag head [] o :=
    fun o ho hpre => ⟨ho, hpre, List.not_mem_nil, not_hidden_nil⟩
  constructor
  · intro h p hfind hlimit hcomplete
    obtain ⟨o', ho', hlt, -⟩ :=
      h.last p (hstray p (find_suffix hfind) (occurs_of_find hfind)) hlimit hcomplete
    have hle := length_le_of_find hfind ho'.ahead ho'.occurs
    omega
  · intro h
    refine ⟨List.forall_mem_nil _, List.forall_mem_nil _, fun o _ => List.forall_mem_nil _, ?_⟩
    intro o ho hlimit hcomplete
    obtain ⟨p, hfind⟩ := find_isSome_of_occurs ho.ahead ho.occurs
    have hle := length_le_of_find hfind ho.ahead ho.occurs
    have hnot := h p hfind (by omega)
    -- the first place is not complete for want of a blank or `>`, as an end tag follows
    have hno : endsTag (p.drop (openTag tag).length) = false := by
      by_contra hyes
      obtain ⟨q, hq⟩ := hcomplete.2
      have hsuf := List.suffix_of_suffix_length_le ho.ahead (find_suffix hfind) hle
      exact hnot ⟨by simpa using hyes, find_isSome_of_suffix hsuf hq⟩
    refine ⟨p, hstray p (find_suffix hfind) (occurs_of_find hfind), ?_, hno⟩
    refine Nat.lt_of_le_of_ne hle fun heq => ?_
    have hsame := eq_of_length_eq ho.ahead (find_suffix hfind) heq
    rw [← hsame, hcomplete.1] at hno
    cases hno

theorem Places.tail {ps : List (List Char)} (hS : Places tag limit head (p :: ps))
    (hrest : ∀ p' ∈ ps, p' <:+ o) : Places tag limit o ps :=
  ⟨hrest, fun p' hp' => hS.occurs p' (List.mem_cons_of_mem p hp'),
    fun p' hp' => hS.inside p' (List.mem_cons_of_mem p hp'),
    (List.pairwise_cons.1 hS.sorted).2⟩

/-- What is visited is behind where the search starts. -/
theorem elements_suffix (n : ℕ) (head : List Char) :
    ∀ p ∈ elements tag limit n head, p <:+ head := by
  induction n generalizing head with
  | zero =>
      intro p hp
      cases hp
  | succ n ih =>
      intro p hp
      by_cases hnone : ∀ p, find (openTag tag) head = some p → limit.length < p.length →
          ¬ Complete tag p
      · rw [elements_eq_nil (n + 1) hnone] at hp
        cases hp
      · push Not at hnone
        obtain ⟨p', hfind, hlimit, htag, q, hq⟩ := hnone
        rw [elements_of_complete n hfind htag hq hlimit] at hp
        rcases List.mem_cons.1 hp with rfl | hp
        · exact find_suffix hfind
        · exact ((ih (behind tag q) p hp).trans (behind_suffix hq)).trans (find_suffix hfind)

/-- The loop visits the elements of the tag and nothing else exactly when they stand
apart. -/
theorem elements_eq_iff (n : ℕ) (hn : head.length < n) (hS : Places tag limit head S) :
    elements tag limit n head = S ↔ Separated tag limit head S := by
  induction n generalizing head S with
  | zero => exact absurd hn (Nat.not_lt_zero _)
  | succ n ih =>
      by_cases hnone : ∀ p, find (openTag tag) head = some p → limit.length < p.length →
          ¬ Complete tag p
      · rw [elements_eq_nil (n + 1) hnone]
        cases S with
        | nil => exact iff_of_true rfl (separated_nil_iff.2 hnone)
        | cons p ps =>
            refine iff_of_false (by simp) fun h => ?_
            have hp := List.mem_cons_self (a := p) (l := ps)
            obtain ⟨o, hfind⟩ := find_isSome_of_occurs (hS.ahead p hp) (hS.occurs p hp)
            have heq := h.eq_first hS hfind
            subst heq
            obtain ⟨q, hq, -⟩ := h.closed o hp
            exact hnone o hfind (hS.inside o hp) ⟨h.tagged o hp, q, hq⟩
      · push Not at hnone
        obtain ⟨o, hfind, hlimit, htag, q, hq⟩ := hnone
        rw [elements_of_complete n hfind htag hq hlimit]
        have hshort : (behind tag q).length < n := by
          have hlt := behind_length_lt hq
          have hle := (find_suffix hfind).length_le
          omega
        cases S with
        | nil =>
            refine iff_of_false (by simp) fun h => ?_
            exact separated_nil_iff.1 h o hfind hlimit ⟨htag, q, hq⟩
        | cons p ps =>
            constructor
            · intro heq
              obtain ⟨rfl, hps⟩ := List.cons.inj heq
              have hrest : ∀ p' ∈ ps, p' <:+ behind tag q := by
                rw [← hps]
                exact elements_suffix n _
              exact (separated_cons_iff hS hfind htag hq).2
                ⟨hrest, (ih hshort (hS.tail hrest)).1 hps⟩
            · intro h
              have heq := h.eq_first hS hfind
              subst heq
              obtain ⟨hrest, hsep⟩ := (separated_cons_iff hS hfind htag hq).1 h
              rw [(ih hshort (hS.tail hrest)).2 hsep]

/-- The text up to the next quote is the name, and the tag is closed behind it. -/
structure Quoted (allocates : ℕ → Bool) (text name : List Char) : Prop where
  quoted : name ++ ['"'] <+: text
  noQuote : '"' ∉ name
  closed : '>' ∈ text
  allocated : allocates name.length = true

/-- The name of an element is what is quoted behind the first `name="` after its tag. -/
theorem parseXmlElementName_iff (allocates : ℕ → Bool) (tag text name : List Char) :
    (parseXmlElementName allocates (openTag tag ++ text) tag).map Prod.fst = some name ↔
      ∃ x, find namePfx text = some x ∧ Quoted allocates (x.drop namePfx.length) name := by
  unfold parseXmlElementName
  rw [find_eq_self (List.prefix_append (openTag tag) text)]
  dsimp only
  rw [List.drop_left]
  cases find namePfx text with
  | none => simp
  | some x =>
      dsimp only
      have hquoted := takeWhile_eq_iff '"' (x.drop namePfx.length) name
      have hlength := take_dropWhile '"' (x.drop namePfx.length)
      set y := x.drop namePfx.length with hy
      have hiff : (∃ x', some x = some x' ∧ Quoted allocates (x'.drop namePfx.length) name) ↔
          Quoted allocates y name := by simp [hy]
      rw [hiff, find_singleton, find_singleton]
      by_cases hquote : '"' ∈ y
      · have hlen : y.length - (y.dropWhile (· != '"')).length =
            (y.takeWhile (· != '"')).length := by
          rw [← hlength, List.length_take, Nat.min_eq_left (Nat.sub_le _ _)]
        rw [if_pos hquote]
        dsimp only
        rw [hlength, hlen]
        constructor
        · intro h
          split at h
          case isTrue halloc =>
            by_cases hclosed : '>' ∈ y
            · rw [if_pos hclosed] at h
              have hname : y.takeWhile (· != '"') = name := by simpa using h
              obtain ⟨hpre, hclean⟩ := hquoted.1 ⟨hquote, hname⟩
              rw [hname] at halloc
              exact ⟨hpre, hclean, hclosed, halloc⟩
            · rw [if_neg hclosed] at h
              cases h
          case isFalse => cases h
        · intro h
          have hname := (hquoted.2 ⟨h.quoted, h.noQuote⟩).2
          rw [hname, if_pos h.allocated, if_pos h.closed]
          rfl
      · rw [if_neg hquote]
        refine iff_of_false (by simp) fun h => hquote ?_
        exact (hquoted.2 ⟨h.quoted, h.noQuote⟩).1

end XmlResource

namespace XmlDocument

open XmlResource

variable {tag head limit : List Char}

theorem textOf_startTag (name space : List Char) (attributes : List XmlAttribute) (empty : Bool)
    (l : List XmlToken) : textOf (.startTag name attributes space empty :: l) =
      openTag name ++ (attributes.flatMap XmlAttribute.render ++ space ++
        (if empty then ['/', '>'] else ['>']) ++ textOf l) := by
  simp [textOf, XmlToken.render, openTag]

theorem startsOf_suffix (l : List XmlToken) : ∀ p ∈ startsOf tag l, p <:+ textOf l := by
  induction l with
  | nil => exact List.forall_mem_nil _
  | cons t l ih =>
      have hrest : ∀ p ∈ startsOf tag l, p <:+ textOf (t :: l) := by
        intro p hp
        exact (ih p hp).trans (List.suffix_append _ _)
      unfold startsOf
      split
      · intro p hp
        rcases List.mem_cons.1 hp with rfl | hp
        · exact List.suffix_refl _
        · exact hrest p hp
      · exact hrest

theorem openTag_prefix_of_opens {t : XmlToken} (ht : t.opens tag = true) (l : List XmlToken) :
    openTag tag <+: textOf (t :: l) := by
  cases t with
  | startTag name attributes space empty =>
      have hname : name = tag := of_decide_eq_true ht
      rw [textOf_startTag, hname]
      exact List.prefix_append _ _
  | text s => cases ht
  | endTag name space => cases ht
  | markup kind s => cases ht

theorem startsOf_occurs (l : List XmlToken) : ∀ p ∈ startsOf tag l, openTag tag <+: p := by
  induction l with
  | nil => exact List.forall_mem_nil _
  | cons t l ih =>
      unfold startsOf
      split
      case isTrue ht =>
        intro p hp
        rcases List.mem_cons.1 hp with rfl | hp
        · exact openTag_prefix_of_opens ht l
        · exact ih p hp
      case isFalse => exact ih

/-- The starts are in the order of the text. -/
theorem startsOf_sorted (l : List XmlToken) :
    (startsOf tag l).Pairwise fun p p' => p'.length < p.length := by
  induction l with
  | nil => exact List.Pairwise.nil
  | cons t l ih =>
      unfold startsOf
      split
      case isTrue ht =>
        refine List.pairwise_cons.2 ⟨fun p hp => ?_, ih⟩
        have hle := (startsOf_suffix l p hp).length_le
        have htext : textOf (t :: l) = t.render ++ textOf l := rfl
        have hpos : 0 < t.render.length := by
          cases t with
          | startTag name attributes space empty => simp [XmlToken.render]
          | text s => cases ht
          | endTag name space => cases ht
          | markup kind s => cases ht
        rw [htext, List.length_append]
        omega
      case isFalse => exact ih

/-- The elements that start between two places. -/
theorem startsIn_places (d : XmlDocument) (tag limit : List Char) (hhead : head <:+ d.text) :
    Places tag limit head (d.startsIn tag head limit) := by
  have hmem : ∀ p ∈ d.startsIn tag head limit, p ∈ startsOf tag d.tokens ∧
      p.length ≤ head.length ∧ limit.length < p.length := by
    intro p hp
    simpa [startsIn] using hp
  refine ⟨fun p hp => ?_, fun p hp => ?_, fun p hp => (hmem p hp).2.2, ?_⟩
  · exact List.suffix_of_suffix_length_le (startsOf_suffix _ p (hmem p hp).1) hhead (hmem p hp).2.1
  · exact startsOf_occurs _ p (hmem p hp).1
  · exact (startsOf_sorted _).filter _

/-- The value of the attribute `name`. -/
def nameOf (attributes : List XmlAttribute) : Option (List Char) :=
  (attributes.find? fun a => a.name = ['n', 'a', 'm', 'e']).map XmlAttribute.value

/-- What follows the first `name="` behind the tag is the name of the element, if it has one,
and otherwise nothing that is quoted. -/
def Named (allocates : ℕ → Bool) (name : Option (List Char)) (text : List Char) : Prop :=
  match name with
  | some name => ∃ x, find namePfx text = some x ∧ Quoted allocates (x.drop namePfx.length) name
  | none => ∀ x, find namePfx text = some x → ∀ name,
      ¬ Quoted allocates (x.drop namePfx.length) name

theorem parse_eq_iff_named (allocates : ℕ → Bool) (tag text : List Char)
    (name : Option (List Char)) :
    (parseXmlElementName allocates (openTag tag ++ text) tag).map Prod.fst = name ↔
      Named allocates name text := by
  cases name with
  | some name => exact parseXmlElementName_iff allocates tag text name
  | none =>
      rw [Option.eq_none_iff_forall_not_mem]
      constructor
      · intro h x hx name hquoted
        exact h name ((parseXmlElementName_iff allocates tag text name).2 ⟨x, hx, hquoted⟩)
      · intro h name hname
        obtain ⟨x, hx, hquoted⟩ := (parseXmlElementName_iff allocates tag text name).1 hname
        exact h x hx name hquoted

/-- A loop that runs through a list, whatever its rounds do, visits that list. -/
theorem loop_eq_forEach_iff {n : ℕ} {S : List (List Char)} :
    (∀ (σ : Type) (body : List Char → Prog σ PUnit),
      elementLoop tag limit body n head = Prog.forEach S body) ↔
    elements tag limit n head = S := by
  have hlog : ∀ (l s : List (List Char)),
      Prog.forEach l (fun p => Prog.modify fun s => s ++ [p]) s = (some ⟨⟩, s ++ l) := by
    intro l
    induction l with
    | nil =>
        intro s
        rw [List.append_nil]
        rfl
    | cons p l ih =>
        intro s
        rw [Prog.forEach, Prog.modify_bind_apply, ih, List.append_assoc]
        rfl
  constructor
  · intro h
    have hrun := h (List (List Char)) fun p => Prog.modify fun s => s ++ [p]
    rw [elementLoop_eq] at hrun
    have happly := congrFun hrun []
    rw [hlog, hlog] at happly
    simpa using happly
  · rintro rfl σ body
    exact elementLoop_eq tag limit body n head

/-- **Elements of an XML document.** The loop over the elements of a tag runs through those
that start between two places, in order and once each, exactly when these stand apart;
and the name that is read of an element is its attribute `name` exactly when this is
what follows the first `name="`. -/
theorem elements_visited_iff (d : XmlDocument) (tag : List Char) :
    (∀ head limit n, head <:+ d.text → head.length < n →
      ((∀ (σ : Type) (body : List Char → Prog σ PUnit),
          elementLoop tag limit body n head = Prog.forEach (d.startsIn tag head limit) body) ↔
        Separated tag limit head (d.startsIn tag head limit))) ∧
    ∀ before attributes space empty after,
      d.tokens = before ++ .startTag tag attributes space empty :: after → ∀ allocates,
        ((parseXmlElementName allocates (textOf (.startTag tag attributes space empty :: after))
            tag).map Prod.fst = nameOf attributes ↔
          Named allocates (nameOf attributes) (attributes.flatMap XmlAttribute.render ++ space ++
            (if empty then ['/', '>'] else ['>']) ++ textOf after)) := by
  constructor
  · intro head limit n hhead hn
    rw [loop_eq_forEach_iff]
    exact elements_eq_iff n hn (d.startsIn_places tag limit hhead)
  · intro before attributes space empty after _ allocates
    rw [textOf_startTag]
    exact parse_eq_iff_named allocates tag _ _

/-- An element with a name, with an end tag of its own or without one. -/
def named (tag name : List Char) (empty : Bool) : List XmlToken :=
  .startTag tag [⟨[' '], ['n', 'a', 'm', 'e'], ['='], '"', name⟩] [] empty ::
    if empty then [] else [.endTag tag []]

/-- The tag of the domains of a library. -/
def domainTag : List Char := ['d', 'o', 'm', 'a', 'i', 'n']

/-- Two domains, written as they are in most representations. -/
def twoDomains : XmlDocument where
  tokens := named domainTag ['A'] false ++ named domainTag ['B'] false
  wellFormed := by decide +kernel
  balanced := by decide +kernel

/-- The same domains without end tags. -/
def twoEmptyDomains : XmlDocument where
  tokens := named domainTag ['A'] true ++ named domainTag ['B'] true
  wellFormed := by decide +kernel
  balanced := by decide +kernel

/-- Elements with end tags of their own stand apart. -/
theorem separated_twoDomains :
    Separated domainTag [] twoDomains.text
      (twoDomains.startsIn domainTag twoDomains.text []) :=
  ((elements_visited_iff twoDomains domainTag).1 twoDomains.text []
    (twoDomains.text.length + 1) (List.suffix_refl _) (Nat.lt_succ_self _)).1
    (loop_eq_forEach_iff.2 (by decide +kernel))

/-- Of elements without end tags none is visited. -/
theorem not_visited_twoEmptyDomains :
    ¬ ∀ (d : XmlDocument) (tag head limit : List Char) (n : ℕ), head <:+ d.text → head.length < n →
      ∀ (σ : Type) (body : List Char → Prog σ PUnit),
        elementLoop tag limit body n head = Prog.forEach (d.startsIn tag head limit) body := by
  intro hall
  have hvisited := loop_eq_forEach_iff.1 (hall twoEmptyDomains domainTag
    twoEmptyDomains.text [] (twoEmptyDomains.text.length + 1) (List.suffix_refl _)
    (Nat.lt_succ_self _))
  have hnone : elements domainTag [] (twoEmptyDomains.text.length + 1)
      twoEmptyDomains.text = [] := by decide +kernel
  have htwo : (twoEmptyDomains.startsIn domainTag
      twoEmptyDomains.text []).length = 2 := by decide +kernel
  rw [← hvisited, hnone] at htwo
  cases htwo

end XmlDocument

end NanoAgent
