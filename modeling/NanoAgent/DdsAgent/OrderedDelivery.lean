import NanoAgent.DdsAgent.OfferedSamples

/-!
# Delivery in order and without gaps

A `DeliveryLog` follows the agent together with the samples that a data reader has held since
a read was started, and the position at which the read has started. The middleware stores
samples in the order of their reception sequence numbers, and may drop any of them at any
time; a sample that it drops before the read has passed it is not counted among those held.

In every run the samples that were accepted for a read are those it wants, from its start up
to its position, in the order of their reception (`Delivers`). The next ones are still in the
cache, so that none is passed over, whatever the agent does in between: a failing event, a
sample that is offered again later, a reader that dismisses what its reads have passed, other
reads of the same reader.
-/

namespace NanoAgent

open Prog SortedLog

/-- The cache that the middleware gives to the data reader `p` in an operation. -/
def Operation.newCache : Operation → ℕ → Option (List Sample)
  | changeCache q cache, p => if q = p then some cache else none
  | _, _ => none

/-- The middleware changes the cache of one reader and nothing else of it. -/
theorem Agent.readerAt_changeCache (a : Agent) (env : Env) (q : ℕ) (cache : List Sample) (p : ℕ) :
    ((a.step (.changeCache q cache, env)).readerAt p).requests = (a.readerAt p).requests ∧
      ((a.step (.changeCache q cache, env)).readerAt p).cache =
        ((Operation.changeCache q cache).newCache p).getD (a.readerAt p).cache := by
  have hreader : (a.step (.changeCache q cache, env)).readerAt p =
      if p = q then { a.readerAt p with cache := cache } else a.readerAt p :=
    Agent.readerAt_updateReader _ _ _
  rw [hreader, Operation.newCache]
  by_cases hp : p = q
  · rw [if_pos hp, if_pos hp.symm]
    exact ⟨rfl, rfl⟩
  · rw [if_neg hp, if_neg (Ne.symm hp)]
    exact ⟨rfl, rfl⟩

/-- The agent with the samples that the reader `p` has held since the read `rd` was started,
`held p rd`, the position at which a read was started, and the greatest reception sequence
number in the cache of a reader so far. -/
structure DeliveryLog where
  agent : Agent
  held : ℕ → ℕ → List Sample
  start : ℕ → ℕ
  latest : ℕ → ℕ

namespace DeliveryLog

/-- The greatest of a number and those of some samples. -/
def greatestSn (sn : ℕ) (samples : List Sample) : ℕ := samples.foldl (fun m s => max m s.sn) sn

/-- The samples beyond a number. -/
def received (latest : ℕ) (cache : List Sample) : List Sample :=
  cache.filter fun s => decide (latest < s.sn)

/-- The samples held for a read at the position `pos` when the middleware changes the cache: what
it drops before the read has passed it is gone, and what it receives is added. -/
def heldAfter (latest pos : ℕ) (held : List Sample) : Option (List Sample) → List Sample
  | none => held
  | some cache =>
      held.filter (fun s => decide (s.sn ≤ pos) || decide (s ∈ cache)) ++ received latest cache

def step (h : DeliveryLog) (i : Operation × Env) : DeliveryLog where
  agent := h.agent.step i
  held p rd := if rd < h.agent.poolReads.next then
      heldAfter (h.latest p) (h.agent.readAt rd).lastSample (h.held p rd) (i.1.newCache p)
    else ((h.agent.step i).readerAt p).cache
  start rd := if rd < h.agent.poolReads.next then h.start rd
    else ((h.agent.step i).readAt rd).lastSample
  latest p := greatestSn (h.latest p) ((h.agent.step i).readerAt p).cache

/-- The middleware numbers the samples of a reader in the order of their reception, and brings
none of them back that it has dropped. -/
def Allowed (h : DeliveryLog) (i : Operation × Env) : Prop :=
  Sorted Sample.sn i.2.initialCache ∧ ∀ p, ∀ cache ∈ i.1.newCache p, Sorted Sample.sn cache ∧
    ∀ s ∈ cache, s ∈ (h.agent.readerAt p).cache ∨ h.latest p < s.sn

/-- An agent that has just been started. A buffer that was never handed out holds no sample. -/
def Initial (h : DeliveryLog) : Prop :=
  h.agent.Initial ∧ ∀ p, (h.agent.readerAt p).cache = []

def Reached : DeliveryLog → Prop := Reachable Initial step Allowed

/-- The read `rd` and the reader `p` at which it may be registered. Samples are accepted for
the read up to its position, and its reader still holds those that are wanted beyond it. -/
structure DeliversAt (h : DeliveryLog) (rd p : ℕ) : Prop where
  reader : ∀ p', rd ∈ (h.agent.readerAt p').registered → p' = p
  cache : rd ∈ (h.agent.readerAt p).registered → (h.agent.readerAt p).cache ⊆ h.held p rd
  ahead : rd ∈ (h.agent.readerAt p).registered → ∀ s ∈ h.held p rd, s.validData = true →
    (h.agent.readAt rd).lastSample < s.sn → s ∈ (h.agent.readerAt p).cache
  started : h.start rd ≤ (h.agent.readAt rd).lastSample
  moved : (h.agent.readAt rd).lastSample = h.start rd ∨
    ∃ s ∈ h.held p rd, s.sn = (h.agent.readAt rd).lastSample
  accepted : h.agent.acceptedSamples rd = between Sample.sn (h.agent.wants rd) (h.start rd)
    (h.agent.readAt rd).lastSample (h.held p rd)

/-- What every run keeps, for the reads before `n` and the readers they are for. -/
structure Delivers (h : DeliveryLog) (reader : ℕ → ℕ) (n : ℕ) : Prop where
  unused : ∀ rd, n ≤ rd → h.agent.acceptedSamples rd = []
  known : ∀ p, ∀ rd ∈ (h.agent.readerAt p).registered, rd < h.agent.poolReads.next
  single : ∀ rd p p', rd ∈ (h.agent.readerAt p).registered →
    rd ∈ (h.agent.readerAt p').registered → p = p'
  filter : ∀ p, ∀ q ∈ (h.agent.readerAt p).requests,
    q.queryCondition = (h.agent.readAt q.read).contentFilterExpr
  sorted : ∀ p, Sorted Sample.sn (h.agent.readerAt p).cache
  heldSorted : ∀ rd, rd < n → ∀ p, Sorted Sample.sn (h.held p rd)
  heldLatest : ∀ rd, rd < n → ∀ p, ∀ s ∈ h.held p rd, s.sn ≤ h.latest p
  read : ∀ rd, rd < n → h.DeliversAt rd (reader rd)

/-- Later on, every read so far is still for the same reader. -/
def DeliversOn (h : DeliveryLog) (reader : ℕ → ℕ) (h' : DeliveryLog) : Prop :=
  h.agent.poolReads.next ≤ h'.agent.poolReads.next ∧
    ∃ reader', (∀ rd, rd < h.agent.poolReads.next → reader' rd = reader rd) ∧
      h'.Delivers reader' h'.agent.poolReads.next

variable {h : DeliveryLog} {reader : ℕ → ℕ} {n : ℕ} {a b c : Agent} {rd p : ℕ}

theorem le_greatestSn (sn : ℕ) (samples : List Sample) : sn ≤ greatestSn sn samples ∧
    ∀ s ∈ samples, s.sn ≤ greatestSn sn samples := by
  unfold greatestSn
  induction samples generalizing sn with
  | nil => simp
  | cons smp samples ih =>
      obtain ⟨hle, hmem⟩ := ih (max sn smp.sn)
      rw [List.foldl_cons, List.forall_mem_cons]
      exact ⟨(le_max_left _ _).trans hle, (le_max_right _ _).trans hle, hmem⟩

/-- A step that offers nothing to the read keeps what was delivered for it. -/
theorem DeliversAt.still {cache : List Sample} (hd : h.DeliversAt rd p)
    (hs : Still cache h.agent b) : DeliversAt { h with agent := b } rd p where
  reader p' hp' := hd.reader p' (Reader.registered_subset (hs.requests p') hp')
  cache hreg := by
    refine List.Subset.trans (fun s hmem => ?_)
      (hd.cache (Reader.registered_subset (hs.requests p) hreg))
    rcases hs.reader p with hkept | hnew
    · exact hkept.cache.subset hmem
    · rw [Reader.registered, hnew.requests] at hreg
      cases hreg
  ahead hreg s hmem hvalid hlt := by
    have hlast := hs.lastSample rd
    have hcache := hd.ahead (Reader.registered_subset (hs.requests p) hreg) s hmem hvalid
      (hlast ▸ hlt)
    rcases hs.reader p with hkept | hnew
    · exact (hkept.passed s hcache hvalid).resolve_right fun hpassed =>
        absurd (hpassed rd hreg) (Nat.not_le.2 hlt)
    · rw [Reader.registered, hnew.requests] at hreg
      cases hreg
  started := by
    rw [hs.lastSample]
    exact hd.started
  moved := by
    rw [hs.lastSample]
    exact hd.moved
  accepted := by
    have hwants : b.wants rd = h.agent.wants rd := by
      funext s
      rw [Agent.wants, Agent.wants, hs.filter, hs.filterMatches]
    rw [hs.accepted, hs.lastSample, hwants]
    exact hd.accepted

theorem Delivers.still {cache : List Sample} (hd : h.Delivers reader n)
    (hs : Still cache h.agent b) (hcache : Sorted Sample.sn cache) :
    Delivers { h with agent := b } reader n where
  unused rd hrd := (hs.accepted rd).trans (hd.unused rd hrd)
  known p rd hrd := by
    rw [hs.next]
    exact hd.known p rd (Reader.registered_subset (hs.requests p) hrd)
  single rd p p' hp hp' := hd.single rd p p' (Reader.registered_subset (hs.requests p) hp)
    (Reader.registered_subset (hs.requests p') hp')
  filter p q hq := by
    rw [hs.filter]
    exact hd.filter p q (hs.requests p hq)
  sorted p := by
    rcases hs.reader p with hkept | hnew
    · exact (hd.sorted p).sublist hkept.cache.sublist
    · exact hcache.sublist hnew.cache.sublist
  heldSorted := hd.heldSorted
  heldLatest := hd.heldLatest
  read rd hrd := (hd.read rd hrd).still hs

/-- The samples of a batch that are wanted beyond the position of a read are those that its
reader has held since the read was started. -/
theorem DeliversAt.batch (hd : h.DeliversAt rd p) {q : ReaderRequest}
    (hreg : rd ∈ (h.agent.readerAt p).registered)
    (hfilter : q.queryCondition = (h.agent.readAt rd).contentFilterExpr)
    (hsorted : Sorted Sample.sn (h.agent.readerAt p).cache)
    (hheld : Sorted Sample.sn (h.held p rd)) (pos : ℕ) :
    between Sample.sn Sample.validData (h.agent.readAt rd).lastSample pos (h.agent.batch p q) =
      between Sample.sn (h.agent.wants rd) (h.agent.readAt rd).lastSample pos (h.held p rd) := by
  refine Sorted.ext (Sorted.between (hsorted.filter _)) (Sorted.between hheld) fun s => ?_
  simp only [Agent.batch, mem_between_iff, List.mem_filter, Agent.wants, hfilter,
    Bool.and_eq_true]
  constructor
  · rintro ⟨⟨hmem, hmatch⟩, hvalid, hpos⟩
    exact ⟨hd.cache hreg hmem, ⟨hvalid, hmatch⟩, hpos⟩
  · rintro ⟨hmem, ⟨hvalid, hmatch⟩, hpos⟩
    exact ⟨⟨hd.ahead hreg s hmem hvalid hpos.1, hmatch⟩, hvalid, hpos⟩

/-- Nothing happens to the read `rd`. -/
theorem DeliversAt.congr (hd : h.DeliversAt rd p)
    (hreg : ∀ p', rd ∈ (b.readerAt p').registered → rd ∈ (h.agent.readerAt p').registered)
    (hcache : ∀ p', (b.readerAt p').cache = (h.agent.readerAt p').cache)
    (hlast : (b.readAt rd).lastSample = (h.agent.readAt rd).lastSample)
    (haccepted : b.acceptedSamples rd = h.agent.acceptedSamples rd)
    (hwants : b.wants rd = h.agent.wants rd) : DeliversAt { h with agent := b } rd p where
  reader p' hp' := hd.reader p' (hreg p' hp')
  cache hp := by
    rw [hcache]
    exact hd.cache (hreg p hp)
  ahead hp := by
    rw [hcache, hlast]
    exact hd.ahead (hreg p hp)
  started := by
    rw [hlast]
    exact hd.started
  moved := by
    rw [hlast]
    exact hd.moved
  accepted := by
    rw [haccepted, hlast, hwants]
    exact hd.accepted

theorem Delivers.offers (hd : h.Delivers reader n) {q : ReaderRequest}
    (hq : q ∈ (h.agent.readerAt p).requests)
    (ho : Offers q.read (h.agent.batch p q) h.agent b)
    (hrd : q.read < n) : Delivers { h with agent := b } reader n := by
  have hreader : ∀ p, b.readerAt p = h.agent.readerAt p := fun p => by
    rw [Agent.readerAt, ho.poolReaders, Agent.readerAt]
  have hreg : q.read ∈ (h.agent.readerAt p).registered := List.mem_map_of_mem hq
  have hwants : ∀ rd, b.wants rd = h.agent.wants rd := by
    intro rd
    funext s
    rw [Agent.wants, Agent.wants, ho.filter, ho.filterMatches]
  constructor
  · intro rd hrd'
    have hne : rd ≠ q.read := by omega
    exact (ho.others rd hne).2.trans (hd.unused rd hrd')
  · intro p' rd hrd'
    change rd ∈ (b.readerAt p').registered at hrd'
    rw [hreader] at hrd'
    change rd < b.poolReads.next
    rw [ho.next]
    exact hd.known p' rd hrd'
  · simp only [hreader]
    exact hd.single
  · simp only [hreader, ho.filter]
    exact hd.filter
  · simp only [hreader]
    exact hd.sorted
  · exact hd.heldSorted
  · exact hd.heldLatest
  · intro rd hrd'
    have hp' := hd.read rd hrd'
    by_cases heq : rd = q.read
    · subst heq
      have heq : p = reader q.read := hp'.reader p hreg
      rw [← heq] at hp' ⊢
      have hbatch := hp'.batch hreg (hd.filter p q hq) (hd.sorted p) (hd.heldSorted _ hrd' p)
        (b.readAt q.read).lastSample
      constructor
      · simp only [hreader]
        exact hp'.reader
      · simp only [hreader]
        exact hp'.cache
      · simp only [hreader]
        exact fun h s hs hvalid hlt => hp'.ahead h s hs hvalid (ho.forward.trans_lt hlt)
      · exact hp'.started.trans ho.forward
      · rcases ho.moved with heq | ⟨s, hs, hsn⟩
        · exact heq ▸ hp'.moved
        · exact .inr ⟨s, hp'.cache hreg (List.mem_of_mem_filter hs), hsn⟩
      · change b.acceptedSamples q.read = _
        rw [ho.accepted, hbatch, hp'.accepted, hwants]
        exact between_append_between (hd.heldSorted _ hrd' p) hp'.started ho.forward
    · refine hp'.congr (fun p' => ?_) (fun p' => ?_) (ho.others rd heq).1 (ho.others rd heq).2
        (hwants rd)
      · rw [hreader]
        exact id
      · rw [hreader]

/-- A read that is started is not registered with two readers. -/
theorem Delivers.takesRead (hd : h.Delivers reader n) (ht : TakesRead rd h.agent b)
    (hrd : n ≤ rd) : Delivers { h with agent := b } reader n := by
  have hbefore : ∀ p, ∀ q ∈ (h.agent.readerAt p).requests, q.read < rd := by
    intro p q hq
    rw [← ht.fresh]
    exact hd.known p q.read (List.mem_map_of_mem hq)
  have hreg : ∀ p, ∀ rd' ∈ (b.readerAt p).registered, rd' ≠ rd →
      rd' ∈ (h.agent.readerAt p).registered := by
    intro p rd' hrd' hne
    obtain ⟨q, hq, rfl⟩ := List.mem_map.1 hrd'
    rcases ht.requests p q hq with hold | ⟨hnew, -⟩
    · exact List.mem_map_of_mem hold
    · exact absurd hnew hne
  have hwants : ∀ rd', rd' ≠ rd → b.wants rd' = h.agent.wants rd' := by
    intro rd' hne
    funext s
    rw [Agent.wants, Agent.wants, ht.filter rd' hne, ht.filterMatches]
  constructor
  · intro rd' hrd'
    exact (ht.accepted rd').trans (hd.unused rd' hrd')
  · intro p rd' hrd'
    change rd' < b.poolReads.next
    rw [ht.next]
    obtain ⟨q, hq, rfl⟩ := List.mem_map.1 hrd'
    rcases ht.requests p q hq with hold | ⟨hnew, -⟩
    · exact (hbefore p q hold).trans (Nat.lt_succ_self rd)
    · exact hnew ▸ Nat.lt_succ_self q.read
  · intro rd' p p' hp hp'
    by_cases hne : rd' = rd
    · subst hne
      obtain ⟨p₀, hone⟩ := ht.reader
      have hat : ∀ p, rd' ∈ (b.readerAt p).registered → p = p₀ := by
        intro p hp
        by_contra hp₀
        rw [Reader.registered, hone p hp₀] at hp
        obtain ⟨q, hq, hread⟩ := List.mem_map.1 hp
        exact absurd (hread ▸ hbefore p q hq) (lt_irrefl rd')
      exact (hat p hp).trans (hat p' hp').symm
    · exact hd.single rd' p p' (hreg p rd' hp hne) (hreg p' rd' hp' hne)
  · intro p q hq
    rcases ht.requests p q hq with hold | ⟨hread, hfilter⟩
    · rw [hd.filter p q hold, ht.filter q.read (hbefore p q hold).ne]
    · rw [hread]
      exact hfilter
  · intro p
    change Sorted Sample.sn (b.readerAt p).cache
    rw [ht.cache]
    exact hd.sorted p
  · exact hd.heldSorted
  · exact hd.heldLatest
  · intro rd' hrd'
    have hne : rd' ≠ rd := (hrd'.trans_le hrd).ne
    exact (hd.read rd' hrd').congr (fun p' hp' => hreg p' rd' hp' hne) ht.cache
      (ht.lastSample rd' hne) (ht.accepted rd') (hwants rd' hne)

theorem mem_heldAfter {latest pos : ℕ} {held cache : List Sample} {s : Sample} :
    s ∈ heldAfter latest pos held (some cache) ↔
      s ∈ held ∧ (s.sn ≤ pos ∨ s ∈ cache) ∨ s ∈ cache ∧ latest < s.sn := by
  simp [heldAfter, received]

/-- A sample that a read has passed stays with those held for it, also when it is dropped. -/
theorem mem_heldAfter_of_passed {latest pos : ℕ} {held : List Sample} {s : Sample} (hs : s ∈ held)
    (hpos : s.sn ≤ pos) (change : Option (List Sample)) : s ∈ heldAfter latest pos held change := by
  cases change with
  | none => exact hs
  | some cache => exact mem_heldAfter.2 (.inl ⟨hs, .inl hpos⟩)

/-- What was accepted stays what it is. -/
theorem between_heldAfter {latest start pos : ℕ} {held : List Sample} {want : Sample → Bool}
    (hlatest : pos = start ∨ pos ≤ latest) (change : Option (List Sample)) :
    between Sample.sn want start pos (heldAfter latest pos held change) =
      between Sample.sn want start pos held := by
  cases change with
  | none => rfl
  | some cache =>
      rw [heldAfter, between_append]
      · rw [between, between, List.filter_filter]
        refine List.filter_congr fun s _ => ?_
        by_cases hpos : s.sn ≤ pos <;> simp [hpos]
      · intro s hs hstart
        obtain ⟨-, hnew⟩ := List.mem_filter.1 hs
        rcases hlatest with heq | hle
        · exact heq ▸ hstart
        · exact hle.trans_lt (by simpa using hnew)

/-- The caches of the readers change, and so does what is counted among the samples held, as
long as the reader of a read holds what is wanted beyond its position and nothing changes
before it. -/
theorem Delivers.changes (hd : h.Delivers reader n) {held : ℕ → ℕ → List Sample} {latest : ℕ → ℕ}
    (hreads : b.poolReads = h.agent.poolReads) (hcalls : b.callbacks = h.agent.callbacks)
    (hmatches : b.filterMatches = h.agent.filterMatches)
    (hrequests : ∀ p, (b.readerAt p).requests = (h.agent.readerAt p).requests)
    (hsorted : ∀ p, Sorted Sample.sn (b.readerAt p).cache)
    (hheld : ∀ rd, rd < n → ∀ p, Sorted Sample.sn (held p rd) ∧ ∀ s ∈ held p rd, s.sn ≤ latest p)
    (hat : ∀ rd p, rd < n → h.DeliversAt rd p →
      (rd ∈ (h.agent.readerAt p).registered → (b.readerAt p).cache ⊆ held p rd ∧
        ∀ s ∈ held p rd, s.validData = true → (h.agent.readAt rd).lastSample < s.sn →
          s ∈ (b.readerAt p).cache) ∧
      (∀ s ∈ h.held p rd, s.sn ≤ (h.agent.readAt rd).lastSample → s ∈ held p rd) ∧
      ∀ want, between Sample.sn want (h.start rd) (h.agent.readAt rd).lastSample (held p rd) =
        between Sample.sn want (h.start rd) (h.agent.readAt rd).lastSample (h.held p rd)) :
    Delivers ⟨b, held, h.start, latest⟩ reader n := by
  have hread : ∀ rd, b.readAt rd = h.agent.readAt rd := fun rd => by
    rw [Agent.readAt, hreads, Agent.readAt]
  have haccepted : ∀ rd, b.acceptedSamples rd = h.agent.acceptedSamples rd := fun rd => by
    rw [Agent.acceptedSamples, hcalls, Agent.acceptedSamples]
  have hregistered : ∀ p, (b.readerAt p).registered = (h.agent.readerAt p).registered := fun p => by
    rw [Reader.registered, hrequests, Reader.registered]
  have hwants : ∀ rd, b.wants rd = h.agent.wants rd := by
    intro rd
    funext s
    rw [Agent.wants, Agent.wants, hread, hmatches]
  constructor
  · intro rd hrd
    exact (haccepted rd).trans (hd.unused rd hrd)
  · simp only [hregistered, hreads]
    exact hd.known
  · simp only [hregistered]
    exact hd.single
  · simp only [hrequests, hread]
    exact hd.filter
  · exact hsorted
  · exact fun rd hrd p => (hheld rd hrd p).1
  · exact fun rd hrd p => (hheld rd hrd p).2
  · intro rd hrd
    have hp := hd.read rd hrd
    obtain ⟨hreg, hpassed, hbetween⟩ := hat rd (reader rd) hrd hp
    constructor
    · simp only [hregistered]
      exact hp.reader
    · simp only [hregistered]
      exact fun h => (hreg h).1
    · simp only [hregistered, hread]
      exact fun h => (hreg h).2
    · simp only [hread]
      exact hp.started
    · simp only [hread]
      rcases hp.moved with heq | ⟨s, hs, hsn⟩
      · exact .inl heq
      · exact .inr ⟨s, hpassed s hs hsn.le, hsn⟩
    · simp only [hread, haccepted, hwants]
      rw [hbetween, hp.accepted]

/-- The position of a read is its start, or that of a sample that was received. -/
theorem DeliversAt.position (hp : h.DeliversAt rd p) (hd : h.Delivers reader n)
    (hrd : rd < n) :
    (h.agent.readAt rd).lastSample = h.start rd ∨
      (h.agent.readAt rd).lastSample ≤ h.latest p := by
  refine hp.moved.imp_right ?_
  rintro ⟨t, ht, hsn⟩
  exact hsn ▸ hd.heldLatest rd hrd p t ht

/-- The middleware changes the caches of the readers. -/
theorem Delivers.drops (hd : h.Delivers reader n)
    {change : ℕ → Option (List Sample)} (hsorted : ∀ p, ∀ cache ∈ change p, Sorted Sample.sn cache)
    (hnew : ∀ p, ∀ cache ∈ change p, ∀ s ∈ cache,
      s ∈ (h.agent.readerAt p).cache ∨ h.latest p < s.sn)
    (hreads : b.poolReads = h.agent.poolReads) (hcalls : b.callbacks = h.agent.callbacks)
    (hmatches : b.filterMatches = h.agent.filterMatches)
    (hrequests : ∀ p, (b.readerAt p).requests = (h.agent.readerAt p).requests)
    (hcache : ∀ p, (b.readerAt p).cache = (change p).getD (h.agent.readerAt p).cache)
    {latest : ℕ → ℕ} (hle : ∀ p, h.latest p ≤ latest p)
    (hreceived : ∀ p, ∀ s ∈ (b.readerAt p).cache, s.sn ≤ latest p) :
    Delivers ⟨b, fun p rd => heldAfter (h.latest p) (h.agent.readAt rd).lastSample (h.held p rd)
      (change p), h.start, latest⟩ reader n := by
  refine hd.changes hreads hcalls hmatches hrequests (fun p => ?_) (fun rd hrd p => ?_)
    fun rd p hrd hp => ⟨fun hreg => ?_, fun s hs hpos => ?_, fun want => ?_⟩
  · rw [hcache]
    cases hchange : change p with
    | none => exact hd.sorted p
    | some cache => exact hsorted p cache hchange
  · have hnow := hreceived p
    rw [hcache] at hnow
    cases hchange : change p with
    | none =>
        exact ⟨hd.heldSorted rd hrd p, fun s hs => (hd.heldLatest rd hrd p s hs).trans (hle p)⟩
    | some cache =>
        rw [hchange] at hnow
        refine ⟨List.pairwise_append.2 ⟨(hd.heldSorted rd hrd p).filter _,
          (hsorted p cache hchange).filter _, fun s hs t ht => ?_⟩, fun s hs => ?_⟩
        · have hbehind : h.latest p < t.sn := by simpa using (List.mem_filter.1 ht).2
          exact (hd.heldLatest rd hrd p s (List.mem_of_mem_filter hs)).trans_lt hbehind
        · rcases mem_heldAfter.1 hs with ⟨hs, -⟩ | ⟨hs, -⟩
          · exact (hd.heldLatest rd hrd p s hs).trans (hle p)
          · exact hnow s hs
  · rw [hcache]
    cases hchange : change p with
    | none => exact ⟨hp.cache hreg, hp.ahead hreg⟩
    | some cache =>
        refine ⟨fun s hs => ?_, fun s hs hvalid hlt => ?_⟩
        · refine mem_heldAfter.2 ((hnew p cache hchange s hs).imp (fun hold => ?_) fun hlt => ?_)
          · exact ⟨hp.cache hreg hold, .inr hs⟩
          · exact ⟨hs, hlt⟩
        · rcases mem_heldAfter.1 hs with ⟨-, hle | hs⟩ | ⟨hs, -⟩
          · exact absurd hlt (Nat.not_lt.2 hle)
          · exact hs
          · exact hs
  · exact mem_heldAfter_of_passed hs hpos (change p)
  · exact between_heldAfter (hp.position hd hrd) (change p)

/-- A read that was started in a step begins with what its reader holds then. -/
theorem Delivers.renew {held : ℕ → ℕ → List Sample} {start latest : ℕ → ℕ}
    (hd : Delivers ⟨b, held, start, latest⟩ reader n) (hnext : n ≤ b.poolReads.next)
    (hlatest : ∀ p, ∀ s ∈ (b.readerAt p).cache, s.sn ≤ latest p) :
    ∃ reader', (∀ rd, rd < n → reader' rd = reader rd) ∧
      Delivers ⟨b, fun p rd => if rd < n then held p rd else (b.readerAt p).cache,
        fun rd => if rd < n then start rd else (b.readAt rd).lastSample, latest⟩ reader'
        b.poolReads.next := by
  have hone : ∀ rd, ∃ p, (rd < n → p = reader rd) ∧
      ∀ p', rd ∈ (b.readerAt p').registered → p' = p := by
    intro rd
    by_cases hrd : rd < n
    · exact ⟨reader rd, fun _ => rfl, (hd.read rd hrd).reader⟩
    · by_cases hreg : ∃ p, rd ∈ (b.readerAt p).registered
      · obtain ⟨p, hp⟩ := hreg
        exact ⟨p, fun hlt => absurd hlt hrd, fun p' hp' => hd.single rd p' p hp' hp⟩
      · exact ⟨0, fun hlt => absurd hlt hrd, fun p' hp' => absurd ⟨p', hp'⟩ hreg⟩
  choose reader' hsame hreader using hone
  refine ⟨reader', hsame, ?_⟩
  constructor
  · exact fun rd hrd => hd.unused rd (hnext.trans hrd)
  · exact hd.known
  · exact hd.single
  · exact hd.filter
  · exact hd.sorted
  · intro rd _ p
    dsimp only
    split
    · rename_i hrd
      exact hd.heldSorted rd hrd p
    · exact hd.sorted p
  · intro rd _ p
    dsimp only
    split
    · rename_i hrd
      exact hd.heldLatest rd hrd p
    · exact hlatest p
  · intro rd _
    by_cases hrd : rd < n
    · have hp := hd.read rd hrd
      rw [hsame rd hrd]
      constructor <;> simp only [if_pos hrd]
      · exact hp.reader
      · exact hp.cache
      · exact hp.ahead
      · exact hp.started
      · exact hp.moved
      · exact hp.accepted
    · constructor <;> simp only [if_neg hrd]
      · exact hreader rd
      · exact fun _ => List.Subset.refl _
      · exact fun _ s hs _ _ => hs
      · exact le_rfl
      · exact .inl trivial
      · rw [between_self]
        exact hd.unused rd (not_lt.1 hrd)

/-- A step in which the middleware changes no cache. -/
theorem Delivers.renew_of_idle {i : Operation × Env}
    (hd : Delivers { h with agent := h.agent.step i } reader h.agent.poolReads.next)
    (hnext : h.agent.poolReads.next ≤ (h.agent.step i).poolReads.next)
    (hnone : ∀ p, i.1.newCache p = none) : h.DeliversOn reader (h.step i) := by
  have hlater : Delivers ⟨h.agent.step i, h.held, h.start, (h.step i).latest⟩ reader
      h.agent.poolReads.next := by
    refine { hd with heldLatest := fun rd hrd p s hs => ?_, read := fun rd hrd => ?_ }
    · exact (hd.heldLatest rd hrd p s hs).trans (le_greatestSn _ _).1
    · exact { hd.read rd hrd with }
  have hrenewed := hlater.renew hnext fun p => (le_greatestSn _ _).2
  refine ⟨hnext, ?_⟩
  unfold DeliveryLog.step
  simp only [hnone, heldAfter]
  exact hrenewed

theorem Delivers.startsOne (hd : h.Delivers reader n) (hn : n = h.agent.poolReads.next)
    (hs : StartsOne h.agent b) :
    Delivers { h with agent := b } reader n ∧ h.agent.poolReads.next ≤ b.poolReads.next := by
  rcases hs with hstill | ⟨rd, b', c, hb, htake, hc⟩
  · exact ⟨hd.still hstill List.Pairwise.nil, hstill.next.ge⟩
  · have hrd : h.agent.poolReads.next = rd := hb.next.symm.trans htake.fresh
    have hd' := hd.still hb List.Pairwise.nil
    have htaken := hd'.takesRead htake (hn.trans hrd).le
    refine ⟨htaken.still hc List.Pairwise.nil, ?_⟩
    rw [hc.next, htake.next, hrd]
    exact Nat.le_succ rd

theorem Delivers.dataEvent (hd : h.Delivers reader n) (hn : n = h.agent.poolReads.next)
    (env : Env) (rd : ℕ) :
    Delivers { h with agent := (AgentM.onDataOnReader env rd h.agent).2 } reader n ∧
      h.agent.poolReads.next ≤ (AgentM.onDataOnReader env rd h.agent).2.poolReads.next := by
  rcases AgentM.onDataOnReader_serves env rd h.agent with
    hstill | ⟨req, p, q, b, c, hb, hq, rfl, hc, hoffers⟩
  · exact ⟨hd.still hstill List.Pairwise.nil, hstill.next.ge⟩
  · have hd' := hd.still hb List.Pairwise.nil
    have hoffer := hoffers (hd'.sorted p)
    have hreq : q.read < n := by
      rw [hn, ← hb.next]
      exact hd'.known p q.read (List.mem_map_of_mem hq)
    refine ⟨(hd'.offers hq hoffer hreq).still hc List.Pairwise.nil, ?_⟩
    rw [hc.next, hoffer.next, hb.next]

/-- What one step keeps. -/
theorem Delivers.step (hd : h.Delivers reader h.agent.poolReads.next) {i : Operation × Env}
    (hok : h.Allowed i) : h.DeliversOn reader (h.step i) := by
  obtain ⟨o, env⟩ := i
  by_cases hstill : o.isStill = true
  · have hs := h.agent.step_still env hstill
    refine (hd.still hs hok.1).renew_of_idle hs.next.ge fun p => ?_
    cases o <;> first | rfl | cases hstill
  cases o with
  | readData key id spec =>
      obtain ⟨hd', hnext⟩ := hd.startsOne rfl (AgentM.readData_startsOne env key id spec h.agent)
      exact Delivers.renew_of_idle (h := h) (i := (.readData key id spec, env)) hd' hnext
        fun _ => rfl
  | dataEvent rd =>
      obtain ⟨hd', hnext⟩ := hd.dataEvent rfl env rd
      exact Delivers.renew_of_idle (h := h) (i := (.dataEvent rd, env)) hd' hnext fun _ => rfl
  | changeCache q cache =>
      have hdropped : Delivers ⟨h.agent.step (.changeCache q cache, env), fun p rd =>
          heldAfter (h.latest p) (h.agent.readAt rd).lastSample (h.held p rd)
            ((Operation.changeCache q cache).newCache p), h.start,
          (h.step (.changeCache q cache, env)).latest⟩ reader h.agent.poolReads.next :=
        hd.drops (b := h.agent.step (.changeCache q cache, env))
          (fun p cache' hc => (hok.2 p cache' hc).1) (fun p cache' hc => (hok.2 p cache' hc).2)
          rfl rfl rfl (fun p => (h.agent.readerAt_changeCache env q cache p).1)
          (fun p => (h.agent.readerAt_changeCache env q cache p).2)
          (fun p => (le_greatestSn _ _).1) fun p s hs => (le_greatestSn _ _).2 s hs
      exact ⟨le_rfl, hdropped.renew le_rfl fun p => (le_greatestSn _ _).2⟩
  | _ => exact absurd rfl hstill

/-- What every run keeps. -/
theorem delivers_of_reached (hh : h.Reached) :
    ∃ reader, h.Delivers reader h.agent.poolReads.next := by
  refine Reachable.invariant (I := fun h => ∃ reader, h.Delivers reader h.agent.poolReads.next)
    (fun h h₀ => ⟨fun _ => 0, ?_⟩) (fun h i hd hok => ?_) hh
  swap
  · obtain ⟨reader, hd⟩ := hd
    obtain ⟨-, reader', -, hd'⟩ := hd.step hok
    exact ⟨reader', hd'⟩
  obtain ⟨ha, hcache⟩ := h₀
  have hreg : ∀ p, (h.agent.readerAt p).registered = [] := fun p => by
    rw [Reader.registered, ha.requests, List.map_nil]
  have hnone : ∀ rd, ¬rd < h.agent.poolReads.next := fun rd => by
    rw [ha.readsNext]
    exact Nat.not_lt_zero rd
  refine ⟨fun rd _ => ?_, fun p rd hrd => ?_, fun rd p p' hp _ => ?_, fun p q hq => ?_,
    fun p => ?_, fun rd hrd => absurd hrd (hnone rd), fun rd hrd => absurd hrd (hnone rd),
    fun rd hrd => absurd hrd (hnone rd)⟩
  · rw [Agent.acceptedSamples, ha.callbacks, List.filterMap_nil]
  · rw [hreg] at hrd
    cases hrd
  · rw [hreg] at hp
    cases hp
  · rw [ha.requests] at hq
    cases hq
  · rw [hcache]
    exact List.Pairwise.nil

/-- In every state reached, the samples accepted for a read are, in the order of their
reception, the first of those it wants among the samples that its reader has held since the
read was started. The others of these are still in the cache while the read goes on. -/
theorem accepted_in_order (hh : h.Reached) (hrd : rd < h.agent.poolReads.next) :
    Sorted Sample.sn (h.agent.acceptedSamples rd) ∧ ∃ p rest,
      (∀ p', rd ∈ (h.agent.readerAt p').registered → p' = p) ∧
      h.agent.acceptedSamples rd ++ rest =
        beyond Sample.sn (h.agent.wants rd) (h.start rd) (h.held p rd) ∧
      (rd ∈ (h.agent.readerAt p).registered →
        ∀ s ∈ rest, s ∈ (h.agent.readerAt p).cache ∧ (h.agent.readAt rd).lastSample < s.sn) := by
  obtain ⟨reader, hd⟩ := delivers_of_reached hh
  have hp := hd.read rd hrd
  have hsorted := hd.heldSorted rd hrd (reader rd)
  refine ⟨?_, reader rd, beyond Sample.sn (h.agent.wants rd) (h.agent.readAt rd).lastSample
    (h.held (reader rd) rd), hp.reader, ?_, fun hreg s hs => ?_⟩
  · rw [hp.accepted]
    exact hsorted.between
  · rw [hp.accepted]
    exact between_append_beyond hsorted hp.started
  · obtain ⟨hmem, hwants, hlt⟩ := mem_beyond_iff.1 hs
    have hvalid : s.validData = true := by
      rw [Agent.wants, Bool.and_eq_true] at hwants
      exact hwants.1
    exact ⟨hp.ahead hreg s hmem hvalid hlt, hlt⟩

/-- A data event that ends well leaves nothing to be delivered, unless the read is complete or
is to be served again after a delay. -/
theorem accepted_all_of_event (hh : h.Reached) {env : Env} {m : ℕ}
    (hevent : AgentM.onDataOnReader env rd h.agent = (some (), b))
    (hfind : (AgentM.findAttachedReader (h.agent.readAt rd).sessionKey
      (h.agent.readAt rd).readerId h.agent).1 = some m)
    (hreq : (h.agent.attached m).readReq = some rd) (hcomplete : (b.readAt rd).complete = false)
    (hdelayed : (b.readAt rd).delayed = false) :
    ∃ p, rd ∈ (h.agent.readerAt p).registered ∧
      b.acceptedSamples rd =
        beyond Sample.sn (h.agent.wants rd) (h.start rd) (h.held p rd) := by
  obtain ⟨reader, hd⟩ := delivers_of_reached hh
  obtain ⟨p, q, c, d, hc, hq, rfl, hb, hloop⟩ :=
    AgentM.onDataOnReader_passes env hevent hfind hreq hcomplete hdelayed
  have hd' := hd.still hc List.Pairwise.nil
  obtain ⟨hoffers, hpassed⟩ := hloop (hd'.sorted p)
  have hreg : q.read ∈ (h.agent.readerAt p).registered :=
    List.mem_map_of_mem (hc.requests p hq)
  have hrd : q.read < h.agent.poolReads.next := hd.known p _ hreg
  have hd'' := hd'.offers hq hoffers hrd
  have hreader : d.readerAt p = c.readerAt p := by
    rw [Agent.readerAt, hoffers.poolReaders, Agent.readerAt]
  have hreg' : q.read ∈ (d.readerAt p).registered := by
    rw [hreader]
    exact List.mem_map_of_mem hq
  have hp := hd''.read q.read hrd
  rw [← hp.reader p hreg'] at hp
  have hwants : d.wants q.read = h.agent.wants q.read := by
    funext s
    rw [Agent.wants, Agent.wants, hoffers.filter, hoffers.filterMatches, hc.filter,
      hc.filterMatches]
  -- what is wanted beyond the position that was reached was in the batch
  have hnone : beyond Sample.sn (d.wants q.read) (d.readAt q.read).lastSample
      (h.held p q.read) = [] := by
    refine List.eq_nil_iff_forall_not_mem.2 fun s hs => ?_
    obtain ⟨hmem, hwant, hlt⟩ := mem_beyond_iff.1 hs
    rw [Agent.wants, Bool.and_eq_true] at hwant
    have hcache := hp.ahead hreg' s hmem hwant.1 hlt
    change s ∈ (d.readerAt p).cache at hcache
    rw [hreader] at hcache
    refine absurd (hpassed s (List.mem_filter.2 ⟨hcache, ?_⟩) hwant.1) (Nat.not_le.2 hlt)
    have hfilter : q.queryCondition = (c.readAt q.read).contentFilterExpr := hd'.filter p q hq
    rw [hfilter, ← hoffers.filter, ← hoffers.filterMatches]
    exact hwant.2
  refine ⟨p, hreg, ?_⟩
  rw [hb.accepted]
  have haccepted := hp.accepted
  change d.acceptedSamples q.read = _ at haccepted
  rw [haccepted, ← hwants, ← between_append_beyond (hd.heldSorted _ hrd _) hp.started, hnone,
    List.append_nil]

/-- Calls succeed, and the client takes no sample but the first for now. -/
def firstOnly : Env :=
  { Env.obliging (.one ⟨12, .dataReader, .guid 3, 11, 13⟩) with
    delivery := fun smp => if smp.sn = 1 then .accepted true else .tryAgain }

/-- A read finds one sample in the cache. Its reader receives two more before the data event,
and the middleware drops the first of these. -/
def threeReceived : List (Operation × Env) :=
  [(.openSession 0 ⟨1, 1⟩ 0 none, firstOnly),
    (.createResource ⟨1, 1⟩ ⟨3, .dataReader, .xml "", 0, false, false⟩, firstOnly),
    (.changeCache 0 [⟨1, true, 0⟩], firstOnly),
    (.readData ⟨1, 1⟩ 3 ⟨0, 0, 0, none⟩, firstOnly),
    (.changeCache 0 [⟨1, true, 0⟩, ⟨2, true, 0⟩], firstOnly),
    (.changeCache 0 [⟨1, true, 0⟩, ⟨3, true, 0⟩], firstOnly),
    (.dataEvent 0, firstOnly)]

def deliveryStart : DeliveryLog :=
  ⟨.started false .firstCached, fun _ _ => [], fun _ => 0, fun _ => 0⟩

theorem allowed_changeCache {q : ℕ} {cache : List Sample} {env : Env}
    (hinitial : Sorted Sample.sn env.initialCache) (hsorted : Sorted Sample.sn cache)
    (hnew : ∀ s ∈ cache, s ∈ (h.agent.readerAt q).cache ∨ h.latest q < s.sn) :
    h.Allowed (.changeCache q cache, env) := by
  refine ⟨hinitial, fun p c hc => ?_⟩
  change (if q = p then some cache else none) = some c at hc
  split at hc
  · rename_i hp
    cases hc
    exact ⟨hsorted, hp ▸ hnew⟩
  · cases hc

theorem reached_threeReceived : ((threeReceived.take 6).foldl step deliveryStart).Reached ∧
    (threeReceived.foldl step deliveryStart).Reached := by
  have hinitial : Sorted Sample.sn firstOnly.initialCache := List.Pairwise.nil
  have hidle : ∀ {h : DeliveryLog} {o : Operation}, (∀ p, o.newCache p = none) →
      h.Allowed (o, firstOnly) := by
    intro h o hnone
    refine ⟨hinitial, fun p c hc => ?_⟩
    rw [hnone] at hc
    cases hc
  have h₆ : ((threeReceived.take 6).foldl step deliveryStart).Reached := by
    refine .next _ (.next _ (.next _ (.next _ (.next _ (.next _ (.start
      ⟨Agent.started_initial _ _, fun _ => rfl⟩) ?_) ?_) ?_) ?_) ?_) ?_
    · exact hidle fun _ => rfl
    · exact hidle fun _ => rfl
    · exact allowed_changeCache hinitial (by simp [Sorted]) (by decide)
    · exact hidle fun _ => rfl
    · exact allowed_changeCache hinitial (by simp [Sorted]) (by decide)
    · exact allowed_changeCache hinitial (by simp [Sorted]) (by decide)
  exact ⟨h₆, .next _ h₆ (hidle fun _ => rfl)⟩

/-- The first sample is accepted, and the one that was not dropped stays in the cache. -/
theorem accepted_in_order_threeReceived :
    ∃ rest : List Sample, [⟨1, true, 0⟩] ++ rest = [⟨1, true, 0⟩, ⟨3, true, 0⟩] ∧
      ∀ s ∈ rest, s ∈ [⟨3, true, 0⟩] ∧ 1 < s.sn := by
  have hrd : 0 < (threeReceived.foldl step deliveryStart).agent.poolReads.next := by decide
  obtain ⟨-, p, rest, hreader, hall, hrest⟩ := accepted_in_order reached_threeReceived.2 hrd
  have hreg : 0 ∈ ((threeReceived.foldl step deliveryStart).agent.readerAt 0).registered := by
    decide
  obtain rfl : 0 = p := hreader 0 hreg
  refine ⟨rest, ?_, ?_⟩
  · have haccepted : (threeReceived.foldl step deliveryStart).agent.acceptedSamples 0 =
        [⟨1, true, 0⟩] := by decide
    have hwanted : beyond Sample.sn ((threeReceived.foldl step deliveryStart).agent.wants 0)
        ((threeReceived.foldl step deliveryStart).start 0)
        ((threeReceived.foldl step deliveryStart).held 0 0) =
        [⟨1, true, 0⟩, ⟨3, true, 0⟩] := by decide
    rwa [haccepted, hwanted] at hall
  · exact hrest hreg

/-- A client that takes every sample has got both after the event. -/
theorem accepted_all_threeReceived :
    (AgentM.onDataOnReader (.obliging ⟨true, [], []⟩) 0
      ((threeReceived.take 6).foldl step deliveryStart).agent).2.acceptedSamples 0 =
        [⟨1, true, 0⟩, ⟨3, true, 0⟩] := by
  have hevent : AgentM.onDataOnReader (.obliging ⟨true, [], []⟩) 0
      ((threeReceived.take 6).foldl step deliveryStart).agent =
        (some (), (AgentM.onDataOnReader (.obliging ⟨true, [], []⟩) 0
          ((threeReceived.take 6).foldl step deliveryStart).agent).2) := Prod.ext (by decide) rfl
  obtain ⟨p, hreg, hall⟩ := accepted_all_of_event reached_threeReceived.1 (m := 0) hevent
    (by decide) (by decide) (by decide) (by decide)
  obtain ⟨reader, hd⟩ := delivers_of_reached reached_threeReceived.1
  obtain rfl : p = 0 := hd.single 0 p 0 hreg (by decide)
  rw [hall]
  decide

end DeliveryLog

end NanoAgent
