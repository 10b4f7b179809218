import NanoAgent.DdsAgent.ReadNoticesRun

/-!
# Where the records of received samples are

A record that was taken from `poolSamples` is in the pool of its session, in the list of the
read of an attached resource of the session, or in the hands of the function that is serving
a read. `SamplesKept hand a` says so of every record that was not returned, with `hand` the
one in hand, and what it takes to keep it so: the reads of attached resources are apart from
each other, a returned read has no records, and there is none for a session that was
finalized.

`Unmoved a b` are the changes that move no record.
-/

namespace NanoAgent

open Prog AgentM

/-- Where a session keeps its records: in its pool, or at an attached resource with a read. -/
inductive SamplePlace
  | pool (key : ClientSessionKey)
  | read (n : ℕ)
  deriving DecidableEq, Repr

namespace Agent

variable (a : Agent)

/-- The records at a place. -/
def samplesAt : SamplePlace → List ℕ
  | .pool key => ((a.sessions.lookup key).map (·.rcvdDataPool)).getD []
  | .read n => ((a.attached n).readReq.map fun rd => (a.readAt rd).samples).getD []

/-- The session for which a record was filled. -/
def ownerOf (d : ℕ) : ClientSessionKey := (a.poolSamples.content d).sessionKey

/-- No place has a record of the session. -/
def KeepsNone (key : ClientSessionKey) : Prop := ∀ p, ∀ d ∈ a.samplesAt p, a.ownerOf d ≠ key

/-- A record is at a place, or in hand. -/
def Keeps (hand : Option ℕ) : Option SamplePlace → ℕ → Prop
  | some p, d => d ∈ a.samplesAt p
  | none, d => hand = some d

end Agent

/-- Every record is at one place of its session, in hand, or was returned once. -/
structure SamplesKept (hand : Option ℕ) (a : Agent) : Prop where
  accounted : a.poolSamples.Accounted (a.Keeps hand)
  sound : a.poolSamples.Sound
  allocated : ∀ o d, a.Keeps hand o d → d < a.poolSamples.next
  nodup : ∀ p, (a.samplesAt p).Nodup
  pooled : ∀ key, ∀ d ∈ a.samplesAt (.pool key), a.ownerOf d = key
  retained : ∀ n, ∀ d ∈ a.samplesAt (.read n), (a.attached n).kind = .dataReader ∧
    ∃ s, a.sessions.lookup (a.ownerOf d) = some s ∧ n ∈ s.resources
  closing : ∀ key s, a.sessions.lookup key = some s → s.semCleanup = true →
    s.deleted = true ∧ a.KeepsNone key
  linked : ∀ key s, a.sessions.lookup key = some s → ∀ n ∈ s.resources, n < a.poolResources.next
  reading : ∀ n rd, (a.attached n).readReq = some rd →
    n < a.poolResources.next ∧ rd < a.poolReads.next
  single : ∀ m n rd, (a.attached m).readReq = some rd → (a.attached n).readReq = some rd → m = n
  returned : ∀ rd ∈ a.poolReads.returned, (a.readAt rd).samples = []

namespace Agent

variable {a b : Agent}

theorem samplesAt_pool {key : ClientSessionKey} {s : ClientSession}
    (h : a.sessions.lookup key = some s) : a.samplesAt (.pool key) = s.rcvdDataPool := by
  rw [samplesAt, h]
  rfl

theorem samplesAt_read {n rd : ℕ} (h : (a.attached n).readReq = some rd) :
    a.samplesAt (.read n) = (a.readAt rd).samples := by
  rw [samplesAt, h]
  rfl

theorem samplesAt_idle {n : ℕ} (h : (a.attached n).readReq = none) :
    a.samplesAt (.read n) = [] := by
  rw [samplesAt, h]
  rfl

theorem samplesAt_pool_congr {key : ClientSessionKey}
    (h : (b.sessions.lookup key).map (·.rcvdDataPool) =
      (a.sessions.lookup key).map (·.rcvdDataPool)) :
    b.samplesAt (.pool key) = a.samplesAt (.pool key) := by
  rw [samplesAt, h, samplesAt]

theorem samplesAt_read_congr {n : ℕ} (hreq : (b.attached n).readReq = (a.attached n).readReq)
    (hread : ∀ rd, (a.attached n).readReq = some rd →
      (b.readAt rd).samples = (a.readAt rd).samples) :
    b.samplesAt (.read n) = a.samplesAt (.read n) := by
  cases h : (a.attached n).readReq with
  | none => rw [samplesAt_idle h, samplesAt_idle (hreq.trans h)]
  | some rd => rw [samplesAt_read h, samplesAt_read (hreq.trans h), hread rd h]

end Agent

namespace SamplesKept

variable {hand : Option ℕ} {a b : Agent} {n rd d : ℕ}

/-- The places are the same, and what else is said of sessions, attached resources and
reads holds again. -/
theorem of_samplesAt (h : SamplesKept hand a) (hpool : b.poolSamples = a.poolSamples)
    (hat : b.samplesAt = a.samplesAt)
    (hretained : ∀ n, ∀ d ∈ a.samplesAt (.read n), ∀ s,
      a.sessions.lookup (a.ownerOf d) = some s → n ∈ s.resources →
      (b.attached n).kind = (a.attached n).kind ∧
        ∃ s', b.sessions.lookup (a.ownerOf d) = some s' ∧ n ∈ s'.resources)
    (hclosing : ∀ key s, b.sessions.lookup key = some s → s.semCleanup = true →
      s.deleted = true ∧ a.KeepsNone key)
    (hlinked : ∀ key s, b.sessions.lookup key = some s → ∀ n ∈ s.resources,
      n < b.poolResources.next)
    (hreading : ∀ n rd, (b.attached n).readReq = some rd →
      n < b.poolResources.next ∧ rd < b.poolReads.next)
    (hsingle : ∀ m n rd, (b.attached m).readReq = some rd → (b.attached n).readReq = some rd →
      m = n)
    (hreturned : ∀ rd ∈ b.poolReads.returned, (b.readAt rd).samples = []) :
    SamplesKept hand b := by
  have hkeeps : b.Keeps hand = a.Keeps hand := by
    funext o d
    cases o with
    | none => rfl
    | some p => simp only [Agent.Keeps, hat]
  have howner : b.ownerOf = a.ownerOf := by
    funext d
    simp only [Agent.ownerOf, hpool]
  have hnone : ∀ key, a.KeepsNone key → b.KeepsNone key := by
    intro key hkey p d hd
    rw [hat] at hd
    rw [howner]
    exact hkey p d hd
  refine ⟨?_, ?_, ?_, ?_, ?_, ?_, ?_, hlinked, hreading, hsingle, hreturned⟩
  · rw [hkeeps, hpool]
    exact h.accounted
  · rw [hpool]
    exact h.sound
  · rw [hkeeps, hpool]
    exact h.allocated
  · rw [hat]
    exact h.nodup
  · rw [hat, howner]
    exact h.pooled
  · intro n d hd
    rw [hat] at hd
    obtain ⟨hkind, s, hs, hn⟩ := h.retained n d hd
    obtain ⟨hsame, s', hs', hn'⟩ := hretained n d hd s hs hn
    rw [howner, hsame]
    exact ⟨hkind, s', hs', hn'⟩
  · intro key s' hs' hsem
    obtain ⟨hdel, hkey⟩ := hclosing key s' hs' hsem
    exact ⟨hdel, hnone key hkey⟩

theorem of_initial (h : a.Initial) : SamplesKept none a where
  accounted := .empty h.samplesNext
  sound d hd := by
    rw [h.samplesReturned] at hd
    cases hd
  allocated o d hd := by
    cases o with
    | none => cases hd
    | some p =>
        cases p with
        | pool key => simp [Agent.Keeps, Agent.samplesAt, h.sessions] at hd
        | read n => simp [Agent.Keeps, Agent.samplesAt, h.readReq] at hd
  nodup p := by
    cases p with
    | pool key => simp [Agent.samplesAt, h.sessions]
    | read n => simp [Agent.samplesAt, h.readReq]
  pooled key d hd := by simp [Agent.samplesAt, h.sessions] at hd
  retained n d hd := by simp [Agent.samplesAt, h.readReq] at hd
  closing key s hs := by
    rw [h.sessions] at hs
    cases hs
  linked key s hs := by
    rw [h.sessions] at hs
    cases hs
  reading n rd hn := by simp [h.readReq] at hn
  single m n rd hm := by simp [h.readReq] at hm
  returned rd _ := h.samples rd

end SamplesKept

/-- From `a` to `b` no record has moved. -/
def Unmoved (a b : Agent) : Prop := ∀ hand, SamplesKept hand a →
  SamplesKept hand b ∧ b.samplesAt = a.samplesAt ∧ b.poolSamples = a.poolSamples

namespace Unmoved

variable {a b : Agent} {n rd : ℕ} {key : ClientSessionKey}

instance : IsPreorder Agent Unmoved where
  refl _ _ h := ⟨h, rfl, rfl⟩
  trans _ _ _ h h' hand ha := by
    obtain ⟨hb, hat, hpool⟩ := h hand ha
    obtain ⟨hc, hat', hpool'⟩ := h' hand hb
    exact ⟨hc, hat'.trans hat, hpool'.trans hpool⟩

theorem kept {hand : Option ℕ} (h : Unmoved a b) (ha : SamplesKept hand a) : SamplesKept hand b :=
  (h hand ha).1

theorem keepsNone {hand : Option ℕ} (h : Unmoved a b) (ha : SamplesKept hand a)
    (hkey : a.KeepsNone key) : b.KeepsNone key := by
  obtain ⟨-, hat, hpool⟩ := h hand ha
  intro p d hd
  rw [hat] at hd
  rw [Agent.ownerOf, hpool]
  exact hkey p d hd

theorem of_same (hs : b.sessions = a.sessions) (hp : b.poolResources = a.poolResources)
    (hr : b.poolReads = a.poolReads) (hd : b.poolSamples = a.poolSamples) : Unmoved a b := by
  intro hand h
  have hatt : ∀ n, b.attached n = a.attached n := fun n => by
    rw [Agent.attached, hp, Agent.attached]
  have hread : ∀ rd, b.readAt rd = a.readAt rd := fun rd => by rw [Agent.readAt, hr, Agent.readAt]
  have hat : b.samplesAt = a.samplesAt := by
    funext p
    cases p with
    | pool key => exact Agent.samplesAt_pool_congr (by rw [hs])
    | read n => exact Agent.samplesAt_read_congr (by rw [hatt]) fun rd _ => by rw [hread]
  refine ⟨h.of_samplesAt hd hat ?_ ?_ ?_ ?_ ?_ ?_, hat, hd⟩
  · intro n d _ s hs' hn
    rw [hatt, hs]
    exact ⟨rfl, s, hs', hn⟩
  · rw [hs]
    exact h.closing
  · rw [hs, hp]
    exact h.linked
  · intro n rd
    rw [hatt, hp, hr]
    exact h.reading n rd
  · intro m n rd
    rw [hatt, hatt]
    exact h.single m n rd
  · intro rd
    rw [hread, hr]
    exact h.returned rd

theorem of_native (h : NativeFrame a b) : Unmoved a b :=
  of_same h.sessions h.poolResources h.poolReads h.poolSamples

/-- Only the attached resources have changed, and not in their reads. -/
theorem of_attached (hs : b.sessions = a.sessions) (hr : b.poolReads = a.poolReads)
    (hd : b.poolSamples = a.poolSamples) (hnext : a.poolResources.next ≤ b.poolResources.next)
    (hreq : ∀ n, (b.attached n).readReq = (a.attached n).readReq)
    (hkind : ∀ n, (a.attached n).readReq.isSome = true →
      (b.attached n).kind = (a.attached n).kind) :
    Unmoved a b := by
  intro hand h
  have hread : ∀ rd, b.readAt rd = a.readAt rd := fun rd => by rw [Agent.readAt, hr, Agent.readAt]
  have hat : b.samplesAt = a.samplesAt := by
    funext p
    cases p with
    | pool key => exact Agent.samplesAt_pool_congr (by rw [hs])
    | read n => exact Agent.samplesAt_read_congr (hreq n) fun rd _ => by rw [hread]
  refine ⟨h.of_samplesAt hd hat ?_ ?_ ?_ ?_ ?_ ?_, hat, hd⟩
  · intro n d hdn s hs' hn
    refine ⟨hkind n ?_, s, by rw [hs]; exact hs', hn⟩
    rw [Option.isSome_iff_ne_none]
    intro hnone
    rw [Agent.samplesAt_idle hnone] at hdn
    cases hdn
  · rw [hs]
    exact h.closing
  · intro key s hs' n hn
    rw [hs] at hs'
    exact Nat.lt_of_lt_of_le (h.linked key s hs' n hn) hnext
  · intro n rd hn
    rw [hreq] at hn
    obtain ⟨hlt, hlt'⟩ := h.reading n rd hn
    rw [hr]
    exact ⟨Nat.lt_of_lt_of_le hlt hnext, hlt'⟩
  · intro m n rd
    rw [hreq, hreq]
    exact h.single m n rd
  · intro rd
    rw [hread, hr]
    exact h.returned rd

theorem updateAttached (a : Agent) (n : ℕ) {f : AttachedResource → AttachedResource}
    (hreq : ∀ x, (f x).readReq = x.readReq) (hkind : ∀ x, (f x).kind = x.kind) :
    Unmoved a (a.updateAttached n f) := by
  refine .of_attached rfl rfl rfl (le_refl _) (fun m => ?_) fun m _ => ?_
  · rw [Agent.attached_updateAttached]
    split
    · exact hreq _
    · rfl
  · rw [Agent.attached_updateAttached]
    split
    · exact hkind _
    · rfl

theorem unlink (a : Agent) (n : ℕ) : Unmoved a (a.unlink n) := by
  refine .of_attached rfl rfl rfl (le_refl _) (fun m => ?_) fun m _ => ?_
  · rw [Agent.attached_unlink]
    split <;> rfl
  · rw [Agent.attached_unlink]
    split <;> rfl

theorem updateRead (a : Agent) (rd : ℕ) {f : Read → Read} (hf : ∀ r, (f r).samples = r.samples) :
    Unmoved a (a.updateRead rd f) := by
  intro hand h
  have hread : ∀ rd', ((a.updateRead rd f).readAt rd').samples = (a.readAt rd').samples := by
    intro rd'
    rw [Agent.readAt_updateRead]
    split
    · exact hf _
    · rfl
  have hat : (a.updateRead rd f).samplesAt = a.samplesAt := by
    funext p
    cases p with
    | pool key => rfl
    | read n => exact Agent.samplesAt_read_congr rfl fun rd' _ => hread rd'
  refine ⟨h.of_samplesAt rfl hat (fun n d _ s hs hn => ⟨rfl, s, hs, hn⟩)
    h.closing h.linked h.reading h.single fun rd' hrd' => ?_,
    hat, rfl⟩
  rw [hread]
  exact h.returned rd' hrd'

/-- A new attached resource has no read. -/
theorem takeAttached (a : Agent) {x : AttachedResource} (hx : x.readReq = none)
    (hp : b.poolResources = a.poolResources.take x) (hr : b.poolReads = a.poolReads)
    (hd : b.poolSamples = a.poolSamples)
    (hpools : ∀ key, (b.sessions.lookup key).map (·.rcvdDataPool) =
      (a.sessions.lookup key).map (·.rcvdDataPool))
    (hsession : ∀ key s', b.sessions.lookup key = some s' → ∃ s, a.sessions.lookup key = some s ∧
      s'.deleted = s.deleted ∧ s'.semCleanup = s.semCleanup ∧ s.resources ⊆ s'.resources ∧
      ∀ n ∈ s'.resources, n ∈ s.resources ∨ n = a.poolResources.next) : Unmoved a b := by
  intro hand h
  have hnext : b.poolResources.next = a.poolResources.next + 1 := by
    rw [hp]
    rfl
  have hnew : (b.attached a.poolResources.next).readReq = none := by
    rw [Agent.attached, hp, BufferPool.content_take_self, hx]
  have hold : ∀ m, m ≠ a.poolResources.next → b.attached m = a.attached m := by
    intro m hm
    rw [Agent.attached, hp]
    exact BufferPool.content_take_of_ne _ _ hm
  have hbefore : (a.attached a.poolResources.next).readReq = none := by
    cases hreq : (a.attached a.poolResources.next).readReq with
    | none => rfl
    | some rd => exact absurd (h.reading _ rd hreq).1 (Nat.lt_irrefl _)
  have hreq : ∀ m, (b.attached m).readReq = (a.attached m).readReq := by
    intro m
    by_cases hm : m = a.poolResources.next
    · rw [hm, hnew, hbefore]
    · rw [hold m hm]
  have hread : ∀ rd, b.readAt rd = a.readAt rd := fun rd => by rw [Agent.readAt, hr, Agent.readAt]
  have hat : b.samplesAt = a.samplesAt := by
    funext p
    cases p with
    | pool key => exact Agent.samplesAt_pool_congr (hpools key)
    | read n => exact Agent.samplesAt_read_congr (hreq n) fun rd _ => by rw [hread]
  refine ⟨h.of_samplesAt hd hat ?_ ?_ ?_ ?_ ?_ ?_, hat, hd⟩
  · intro n d hdn s hs hn
    have hne : n ≠ a.poolResources.next := Nat.ne_of_lt (h.linked _ s hs n hn)
    have hmap := hpools (a.ownerOf d)
    rw [hs] at hmap
    obtain ⟨s', hs', -⟩ := Option.map_eq_some_iff.1 hmap
    obtain ⟨s₀, hs₀, -, -, hsub, -⟩ := hsession _ s' hs'
    obtain rfl := Option.some.inj (hs.symm.trans hs₀)
    rw [hold n hne]
    exact ⟨rfl, s', hs', hsub hn⟩
  · intro key s' hs' hsem
    obtain ⟨s, hs, hdel, hsem', -, -⟩ := hsession key s' hs'
    obtain ⟨hdeleted, hnone⟩ := h.closing key s hs (hsem'.symm.trans hsem)
    exact ⟨hdel.trans hdeleted, hnone⟩
  · intro key s' hs' n hn
    obtain ⟨s, hs, -, -, -, hmem⟩ := hsession key s' hs'
    rw [hnext]
    rcases hmem n hn with hn | rfl
    · exact Nat.lt_succ_of_lt (h.linked key s hs n hn)
    · exact Nat.lt_succ_self _
  · intro n rd hn
    rw [hreq] at hn
    obtain ⟨hlt, hlt'⟩ := h.reading n rd hn
    rw [hnext, hr]
    exact ⟨Nat.lt_succ_of_lt hlt, hlt'⟩
  · intro m n rd
    rw [hreq, hreq]
    exact h.single m n rd
  · intro rd
    rw [hread, hr]
    exact h.returned rd

theorem leak (a : Agent) {x : AttachedResource} (hx : x.readReq = none) :
    Unmoved a { a with poolResources := a.poolResources.take x } :=
  .takeAttached a hx rfl rfl rfl (fun _ => rfl)
    fun _ s hs => ⟨s, hs, rfl, rfl, fun _ hn => hn, fun _ hn => .inl hn⟩

theorem link (a : Agent) (key : ClientSessionKey) (id : ℕ) (rid : ResourceId) (r : Resource) :
    Unmoved a (a.link key id rid r) := by
  have hlookup : ∀ key', (a.link key id rid r).sessions.lookup key' =
      if key' = key then (a.sessions.lookup key').map fun s =>
        { s with resources := s.resources ++ [a.poolResources.next] }
      else a.sessions.lookup key' := fun _ => AList.lookup_modify _ _ _ _
  refine .takeAttached a (x := .initial r.kind r.id id key) rfl rfl rfl rfl (fun key' => ?_)
    fun key' s' hs' => ?_
  · rw [hlookup]
    split
    · rw [Option.map_map]
      rfl
    · rfl
  · rw [hlookup] at hs'
    split at hs'
    · obtain ⟨s, hs, rfl⟩ := Option.map_eq_some_iff.1 hs'
      refine ⟨s, hs, rfl, rfl, List.subset_append_left _ _, fun n hn => ?_⟩
      rcases List.mem_append.1 hn with hn | hn
      · exact .inl hn
      · exact .inr (List.mem_singleton.1 hn)
    · exact ⟨s', hs', rfl, rfl, fun _ hn => hn, fun _ hn => .inl hn⟩

/-- The read of one attached resource is set to a read without records, and no read that has
records is returned. -/
theorem setRead {o : Option ℕ} (a : Agent) (hidle : a.samplesAt (.read n) = [])
    (hs : b.sessions = a.sessions) (hd : b.poolSamples = a.poolSamples)
    (hp : b.poolResources = a.poolResources.update n fun x => { x with readReq := o })
    (hnext : a.poolReads.next ≤ b.poolReads.next)
    (hread : ∀ rd, rd < a.poolReads.next → (b.readAt rd).samples = (a.readAt rd).samples)
    (ho : ∀ rd, o = some rd → n < a.poolResources.next ∧ (b.readAt rd).samples = [] ∧
      rd < b.poolReads.next ∧ ∀ m, (a.attached m).readReq = some rd → m = n)
    (hreturned : (∀ rd ∈ a.poolReads.returned, (a.readAt rd).samples = []) →
      ∀ rd ∈ b.poolReads.returned, (b.readAt rd).samples = []) : Unmoved a b := by
  intro hand h
  have hself : (b.attached n).readReq = o := by
    rw [Agent.attached, hp, BufferPool.content_update_self]
  have hold : ∀ m, m ≠ n → b.attached m = a.attached m := by
    intro m hm
    rw [Agent.attached, hp]
    exact BufferPool.content_update_of_ne _ _ hm
  have hkind : ∀ m, (b.attached m).kind = (a.attached m).kind := by
    intro m
    rw [Agent.attached, hp, BufferPool.content_update]
    split <;> rfl
  have hat : b.samplesAt = a.samplesAt := by
    funext p
    cases p with
    | pool key => exact Agent.samplesAt_pool_congr (by rw [hs])
    | read m =>
        by_cases hm : m = n
        · rw [hm, hidle]
          cases o with
          | none => exact Agent.samplesAt_idle hself
          | some rd =>
              rw [Agent.samplesAt_read hself]
              exact (ho rd rfl).2.1
        · refine Agent.samplesAt_read_congr (by rw [hold m hm]) fun rd hrd => ?_
          exact hread rd (h.reading m rd hrd).2
  have hlt : b.poolResources.next = a.poolResources.next := by rw [hp]; rfl
  refine ⟨h.of_samplesAt hd hat ?_ ?_ ?_ ?_ ?_ (hreturned h.returned), hat, hd⟩
  · intro m d _ s hs' hm
    rw [hkind, hs]
    exact ⟨rfl, s, hs', hm⟩
  · rw [hs]
    exact h.closing
  · rw [hs, hlt]
    exact h.linked
  · intro m rd hm
    rw [hlt]
    by_cases hmn : m = n
    · rw [hmn, hself] at hm
      obtain ⟨hn, -, hrd, -⟩ := ho rd hm
      rw [hmn]
      exact ⟨hn, hrd⟩
    · rw [hold m hmn] at hm
      obtain ⟨hm, hrd⟩ := h.reading m rd hm
      exact ⟨hm, Nat.lt_of_lt_of_le hrd hnext⟩
  · intro m m' rd hm hm'
    by_cases hmn : m = n
    · rw [hmn, hself] at hm
      by_cases hmn' : m' = n
      · rw [hmn, hmn']
      · rw [hold m' hmn'] at hm'
        rw [hmn]
        exact ((ho rd hm).2.2.2 m' hm').symm
    · rw [hold m hmn] at hm
      by_cases hmn' : m' = n
      · rw [hmn', hself] at hm'
        rw [hmn']
        exact (ho rd hm').2.2.2 m hm
      · rw [hold m' hmn'] at hm'
        exact h.single m m' rd hm hm'

/-- A read without records is ended. -/
theorem releaseRead (a : Agent) (hreq : (a.attached n).readReq = some rd)
    (hsamples : (a.readAt rd).samples = []) : Unmoved a (a.releaseRead n rd) := by
  have hidle : a.samplesAt (.read n) = [] := by
    rw [Agent.samplesAt_read hreq]
    exact hsamples
  refine .setRead (o := none) a hidle rfl rfl rfl (le_refl _) (fun _ _ => rfl)
    (fun _ ho => by cases ho) fun hreturned rd' hrd' => ?_
  rcases List.mem_append.1 hrd' with hrd' | hrd'
  · exact hreturned rd' hrd'
  · rw [List.mem_singleton.1 hrd']
    exact hsamples

/-- A read is taken where there is none with records. -/
theorem takeRead (a : Agent) (key : ClientSessionKey) (hidle : a.samplesAt (.read n) = [])
    (hn : n < a.poolResources.next) : Unmoved a (a.takeRead key n) := by
  intro hand h
  have hself : ((a.takeRead key n).readAt a.poolReads.next).samples = [] := by
    change ((a.poolReads.take _).content a.poolReads.next).samples = []
    rw [BufferPool.content_take_self]
    rfl
  have hold : ∀ rd, rd ≠ a.poolReads.next → (a.takeRead key n).readAt rd = a.readAt rd :=
    fun rd hrd => BufferPool.content_take_of_ne _ _ hrd
  refine Unmoved.setRead (b := a.takeRead key n) (o := some a.poolReads.next) a hidle rfl rfl rfl
    (Nat.le_succ _)
    (fun rd hrd => by rw [hold rd (Nat.ne_of_lt hrd)]) (fun rd ho => ?_)
    (fun hreturned rd hrd => ?_) hand h
  · obtain rfl := Option.some.inj ho
    refine ⟨hn, hself, Nat.lt_succ_self _, fun m hm => ?_⟩
    exact absurd (h.reading m _ hm).2 (Nat.lt_irrefl _)
  · by_cases heq : rd = a.poolReads.next
    · rw [heq]
      exact hself
    · rw [hold rd heq]
      exact hreturned rd hrd

/-- The read of the error exit has no records. -/
theorem discardRead (a : Agent) (hidle : a.samplesAt (.read n) = []) :
    Unmoved a (a.discardRead n) := by
  unfold Agent.discardRead
  cases hreq : (a.attached n).readReq with
  | none => exact refl a
  | some rd =>
      intro hand h
      refine ⟨h.of_samplesAt rfl rfl (fun n d _ s hs hn => ⟨rfl, s, hs, hn⟩)
        h.closing h.linked h.reading h.single fun rd' hrd' => ?_,
        rfl, rfl⟩
      rcases List.mem_append.1 hrd' with hrd' | hrd'
      · exact h.returned rd' hrd'
      · rw [List.mem_singleton.1 hrd']
        rw [Agent.samplesAt_read hreq] at hidle
        exact hidle

theorem updateSession (a : Agent) (key : ClientSessionKey) {f : ClientSession → ClientSession}
    (hpool : ∀ s, (f s).rcvdDataPool = s.rcvdDataPool) (hres : ∀ s, (f s).resources = s.resources)
    (hflags : ∀ s, ((f s).semCleanup = true → s.semCleanup = true) ∧
      (s.deleted = true → (f s).deleted = true)) : Unmoved a (a.updateSession key f) := by
  intro hand h
  have hlookup : ∀ key' s', (a.updateSession key f).sessions.lookup key' = some s' →
      ∃ s, a.sessions.lookup key' = some s ∧ (s' = f s ∨ s' = s) := by
    intro key' s' hs'
    rw [Agent.lookup_updateSession] at hs'
    split at hs'
    · obtain ⟨s, hs, rfl⟩ := Option.map_eq_some_iff.1 hs'
      exact ⟨s, hs, .inl rfl⟩
    · exact ⟨s', hs', .inr rfl⟩
  have hat : (a.updateSession key f).samplesAt = a.samplesAt := by
    funext p
    cases p with
    | read n => rfl
    | pool key' =>
        refine Agent.samplesAt_pool_congr ?_
        rw [Agent.lookup_updateSession]
        split
        · rw [Option.map_map]
          exact congrArg (fun g => (a.sessions.lookup key').map g) (funext hpool)
        · rfl
  refine ⟨h.of_samplesAt rfl hat ?_ ?_ ?_ h.reading h.single h.returned, hat, rfl⟩
  · intro n d _ s hs hn
    refine ⟨rfl, ?_⟩
    rw [Agent.lookup_updateSession]
    split
    · rw [hs]
      exact ⟨f s, rfl, by rw [hres]; exact hn⟩
    · exact ⟨s, hs, hn⟩
  · intro key' s' hs' hsem
    obtain ⟨s, hs, rfl | rfl⟩ := hlookup key' s' hs'
    · obtain ⟨hdeleted, hnone⟩ := h.closing key' s hs ((hflags s).1 hsem)
      exact ⟨(hflags s).2 hdeleted, hnone⟩
    · exact h.closing key' s' hs hsem
  · intro key' s' hs' n hn
    obtain ⟨s, hs, rfl | rfl⟩ := hlookup key' s' hs'
    · rw [hres] at hn
      exact h.linked key' s hs n hn
    · exact h.linked key' s' hs n hn

theorem insertSession (a : Agent) {s : ClientSession} (hnew : a.sessions.lookup key = none)
    (hres : s.resources = []) (hpool : s.rcvdDataPool = []) (hopen : s.semCleanup = false) :
    Unmoved a (a.insertSession key s) := by
  intro hand h
  have hself : (a.insertSession key s).sessions.lookup key = some s := AList.lookup_insert _
  have hother : ∀ key', key' ≠ key →
      (a.insertSession key s).sessions.lookup key' = a.sessions.lookup key' :=
    fun key' hne => AList.lookup_insert_ne hne
  have hat : (a.insertSession key s).samplesAt = a.samplesAt := by
    funext p
    cases p with
    | read n => rfl
    | pool key' =>
        by_cases heq : key' = key
        · rw [heq, Agent.samplesAt_pool hself, hpool, Agent.samplesAt, hnew]
          rfl
        · exact Agent.samplesAt_pool_congr (by rw [hother key' heq])
  refine ⟨h.of_samplesAt rfl hat ?_ ?_ ?_ h.reading h.single h.returned, hat, rfl⟩
  · intro n d _ s' hs' hn
    have hne : a.ownerOf d ≠ key := by
      intro heq
      rw [heq, hnew] at hs'
      cases hs'
    rw [hother _ hne]
    exact ⟨rfl, s', hs', hn⟩
  · intro key' s' hs' hsem
    by_cases heq : key' = key
    · rw [heq, hself] at hs'
      obtain rfl := Option.some.inj hs'
      rw [hopen] at hsem
      cases hsem
    · rw [hother key' heq] at hs'
      exact h.closing key' s' hs' hsem
  · intro key' s' hs' n hn
    by_cases heq : key' = key
    · rw [heq, hself] at hs'
      obtain rfl := Option.some.inj hs'
      rw [hres] at hn
      cases hn
    · rw [hother key' heq] at hs'
      exact h.linked key' s' hs' n hn

/-- A session is removed when nothing is kept for it. -/
theorem eraseSession (a : Agent) (hkey : a.KeepsNone key) : Unmoved a (a.eraseSession key) := by
  intro hand h
  have hother : ∀ key', key' ≠ key →
      (a.eraseSession key).sessions.lookup key' = a.sessions.lookup key' :=
    fun key' hne => AList.lookup_erase_ne hne
  have hat : (a.eraseSession key).samplesAt = a.samplesAt := by
    funext p
    cases p with
    | read n => rfl
    | pool key' =>
        by_cases heq : key' = key
        · have hnone : (a.eraseSession key).samplesAt (.pool key') = [] := by
            rw [heq, Agent.samplesAt, show (a.eraseSession key).sessions.lookup key = none from
              AList.lookup_erase _ _]
            rfl
          have hempty : a.samplesAt (.pool key') = [] := by
            rw [List.eq_nil_iff_forall_not_mem]
            intro d hd
            exact hkey _ d hd ((h.pooled key' d hd).trans heq)
          rw [hnone, hempty]
        · exact Agent.samplesAt_pool_congr (by rw [hother key' heq])
  refine ⟨h.of_samplesAt rfl hat ?_ ?_ ?_ h.reading h.single h.returned, hat, rfl⟩
  · intro n d hd s hs hn
    rw [hother _ (hkey _ d hd)]
    exact ⟨rfl, s, hs, hn⟩
  · intro key' s hs
    exact h.closing key' s (AList.lookup_of_lookup_erase hs)
  · intro key' s hs
    exact h.linked key' s (AList.lookup_of_lookup_erase hs)

end Unmoved

/-- The closer of a deleted session is told to go on when nothing is kept for it. -/
theorem SamplesKept.giveCleanup {hand : Option ℕ} {a : Agent} (h : SamplesKept hand a)
    {key : ClientSessionKey} (hkey : a.KeepsNone key)
    (hdel : ∀ s, a.sessions.lookup key = some s → s.deleted = true) :
    SamplesKept hand (a.updateSession key fun s => { s with semCleanup := true }) := by
  have hlookup : ∀ key' s', (a.updateSession key fun s =>
      { s with semCleanup := true }).sessions.lookup key' = some s' →
      ∃ s, a.sessions.lookup key' = some s ∧ s'.resources = s.resources ∧
        s'.deleted = s.deleted ∧ (key' = key ∨ s' = s) := by
    intro key' s' hs'
    rw [Agent.lookup_updateSession] at hs'
    split at hs'
    · rename_i heq
      obtain ⟨s, hs, rfl⟩ := Option.map_eq_some_iff.1 hs'
      exact ⟨s, hs, rfl, rfl, .inl heq⟩
    · exact ⟨s', hs', rfl, rfl, .inr rfl⟩
  refine h.of_samplesAt rfl ?_ ?_ ?_ ?_ h.reading h.single h.returned
  · funext p
    cases p with
    | read n => rfl
    | pool key' =>
        refine Agent.samplesAt_pool_congr ?_
        rw [Agent.lookup_updateSession]
        split
        · rw [Option.map_map]
          rfl
        · rfl
  · intro n d _ s hs hn
    refine ⟨rfl, ?_⟩
    rw [Agent.lookup_updateSession, hs]
    split
    · exact ⟨_, rfl, hn⟩
    · exact ⟨s, rfl, hn⟩
  · intro key' s' hs' hsem
    obtain ⟨s, hs, -, hdeleted, rfl | rfl⟩ := hlookup key' s' hs'
    · exact ⟨hdeleted.trans (hdel s hs), hkey⟩
    · exact h.closing key' s' hs hsem
  · intro key' s' hs' n hn
    obtain ⟨s, hs, hres, -⟩ := hlookup key' s' hs'
    rw [hres] at hn
    exact h.linked key' s hs n hn

theorem ClientSession.eq_of_outline {s s' : ClientSession} (h : s'.outline = s.outline) :
    s'.resources = s.resources ∧ s'.deleted = s.deleted ∧ s'.semCleanup = s.semCleanup := by
  have hres := congrArg ClientSession.resources h
  have hdel := congrArg ClientSession.deleted h
  have hsem := congrArg ClientSession.semCleanup h
  exact ⟨hres, hdel, hsem⟩

/-- Only the record `d`, the lists of records and the state of reads have changed. -/
structure MovedRecord (d : ℕ) (a b : Agent) : Prop where
  next : b.poolSamples.next = a.poolSamples.next
  returned : b.poolSamples.returned = a.poolSamples.returned
  owner : ∀ d', d' ≠ d → b.ownerOf d' = a.ownerOf d'
  session : ∀ key, (b.sessions.lookup key).map ClientSession.outline =
    (a.sessions.lookup key).map ClientSession.outline
  attached : b.poolResources = a.poolResources
  readsNext : b.poolReads.next = a.poolReads.next
  readsReturned : b.poolReads.returned = a.poolReads.returned

namespace SamplesKept

variable {hand hand' : Option ℕ} {a b : Agent} {n rd d : ℕ} {key : ClientSessionKey}

/-- A record passes to the place `j`, or to the hand. -/
theorem move (h : SamplesKept hand a) (hmoved : MovedRecord d a b) {i j : Option SamplePlace}
    (hi : a.Keeps hand i d)
    (hother : ∀ o, ∀ d', d' ≠ d → (b.Keeps hand' o d' ↔ a.Keeps hand o d'))
    (hnew : ∀ o, b.Keeps hand' o d ↔ o = j) (hnodup : ∀ p, (b.samplesAt p).Nodup)
    (hpooled : ∀ key, j = some (.pool key) → b.ownerOf d = key)
    (hretained : ∀ n, j = some (.read n) → (b.attached n).kind = .dataReader ∧
      ∃ s, b.sessions.lookup (b.ownerOf d) = some s ∧ n ∈ s.resources)
    (hopen : j ≠ none → ∀ s, b.sessions.lookup (b.ownerOf d) = some s → s.semCleanup = false)
    (hreturned : ∀ rd ∈ b.poolReads.returned, (b.readAt rd).samples = []) :
    SamplesKept hand' b := by
  have hd : d < a.poolSamples.next := h.allocated i d hi
  have hatt : ∀ m, b.attached m = a.attached m := fun m => by
    rw [Agent.attached, hmoved.attached, Agent.attached]
  have hforth : ∀ key s, b.sessions.lookup key = some s →
      ∃ s', a.sessions.lookup key = some s' ∧ s'.outline = s.outline := by
    intro key s hs
    have hmap := hmoved.session key
    rw [hs] at hmap
    exact Option.map_eq_some_iff.1 hmap.symm
  refine ⟨?_, ?_, ?_, hnodup, ?_, ?_, ?_, ?_, ?_, ?_, hreturned⟩
  · exact h.accounted.move hd hi hmoved.next hmoved.returned
      (fun o d' _ hne => hother o d' hne) hnew
  · intro d' hd'
    rw [hmoved.returned] at hd'
    rw [hmoved.next]
    exact h.sound d' hd'
  · intro o d' hd'
    rw [hmoved.next]
    by_cases heq : d' = d
    · rw [heq]
      exact hd
    · exact h.allocated o d' ((hother o d' heq).1 hd')
  · intro key d' hd'
    by_cases heq : d' = d
    · rw [heq] at hd' ⊢
      exact hpooled key ((hnew (some (.pool key))).1 hd').symm
    · rw [hmoved.owner d' heq]
      exact h.pooled key d' ((hother (some (.pool key)) d' heq).1 hd')
  · intro m d' hd'
    by_cases heq : d' = d
    · rw [heq] at hd' ⊢
      exact hretained m ((hnew (some (.read m))).1 hd').symm
    · obtain ⟨hkind, s, hs, hm⟩ := h.retained m d' ((hother (some (.read m)) d' heq).1 hd')
      rw [hatt, hmoved.owner d' heq]
      have hmap := hmoved.session (a.ownerOf d')
      rw [hs] at hmap
      obtain ⟨s', hs', houtline⟩ := Option.map_eq_some_iff.1 hmap
      exact ⟨hkind, s', hs', by rw [(ClientSession.eq_of_outline houtline).1]; exact hm⟩
  · intro key s hs hsem
    obtain ⟨s', hs', houtline⟩ := hforth key s hs
    obtain ⟨-, hdeleted, hclean⟩ := ClientSession.eq_of_outline houtline
    obtain ⟨hdel, hnone⟩ := h.closing key s' hs' (hclean.trans hsem)
    refine ⟨hdeleted.symm.trans hdel, fun p d' hd' howner => ?_⟩
    by_cases heq : d' = d
    · rw [heq] at hd' howner
      have hj := (hnew (some p)).1 hd'
      have hopen := hopen (by rw [← hj]; exact Option.some_ne_none p) s (by rw [howner]; exact hs)
      rw [hsem] at hopen
      cases hopen
    · rw [hmoved.owner d' heq] at howner
      exact hnone p d' ((hother (some p) d' heq).1 hd') howner
  · intro key s hs m hm
    obtain ⟨s', hs', houtline⟩ := hforth key s hs
    rw [hmoved.attached]
    exact h.linked key s' hs' m (by rw [(ClientSession.eq_of_outline houtline).1]; exact hm)
  · intro m rd
    rw [hatt, hmoved.attached, hmoved.readsNext]
    exact h.reading m rd
  · intro m m' rd
    rw [hatt, hatt]
    exact h.single m m' rd

/-- The closer of a session that was not closed is not told to go on. -/
theorem semCleanup_eq_false (h : SamplesKept hand a) {s : ClientSession}
    (hs : a.sessions.lookup key = some s) (hdel : s.deleted = false) : s.semCleanup = false := by
  refine Bool.eq_false_iff.2 fun hsem => ?_
  rw [(h.closing key s hs hsem).1] at hdel
  cases hdel

/-- A record has one holder. -/
theorem keeps_iff (h : SamplesKept hand a) {i : Option SamplePlace} (hi : a.Keeps hand i d)
    (o : Option SamplePlace) : a.Keeps hand o d ↔ o = i := by
  constructor
  · intro ho
    exact h.accounted.eq_of_holds (h.allocated i d hi) ho hi
  · rintro rfl
    exact hi

theorem notMem_of_hand (h : SamplesKept (some d) a) (p : SamplePlace) : d ∉ a.samplesAt p := by
  intro hd
  have heq := (h.keeps_iff (i := none) rfl (some p)).1 hd
  cases heq

/-- A session that is not in the table has no records. -/
theorem keepsNone_of_absent (h : SamplesKept hand a)
    (hnew : a.sessions.lookup key = none) : a.KeepsNone key := by
  rintro p d hd rfl
  cases p with
  | pool key =>
      rw [← h.pooled key d hd, Agent.samplesAt, hnew] at hd
      cases hd
  | read n =>
      obtain ⟨-, s, hs, -⟩ := h.retained n d hd
      rw [hnew] at hs
      cases hs

/-- A record is taken out of the pool of its session. -/
theorem reuse (h : SamplesKept none a) {s : ClientSession} (hs : a.sessions.lookup key = some s)
    {l : List ℕ} (hpool : s.rcvdDataPool = d :: l) (size : ℕ) :
    SamplesKept (some d) (a.reuse key d size) := by
  have hat : a.samplesAt (.pool key) = d :: l := (Agent.samplesAt_pool hs).trans hpool
  have hd : d ∈ a.samplesAt (.pool key) := by
    rw [hat]
    exact List.mem_cons_self
  have hlookup : ∀ key', (a.reuse key d size).sessions.lookup key' =
      if key' = key then (a.sessions.lookup key').map fun s =>
        { s with rcvdDataPool := s.rcvdDataPool.erase d }
      else a.sessions.lookup key' := fun _ => AList.lookup_modify _ _ _ _
  have hself : (a.reuse key d size).samplesAt (.pool key) = l := by
    rw [Agent.samplesAt, hlookup, if_pos rfl, hs]
    change s.rcvdDataPool.erase d = l
    rw [hpool, List.erase_cons_head]
  have hplace : ∀ p, p ≠ .pool key → (a.reuse key d size).samplesAt p = a.samplesAt p := by
    intro p hp
    cases p with
    | read n => rfl
    | pool key' =>
        refine Agent.samplesAt_pool_congr ?_
        rw [hlookup, if_neg fun heq => hp (by rw [heq])]
  have hnodup : (d :: l).Nodup := hat ▸ h.nodup _
  refine h.move (d := d) (i := some (.pool key)) (j := none) ?_ hd (fun o d' hne => ?_)
    (fun o => ?_) (fun p => ?_) (fun _ hj => by cases hj) (fun _ hj => by cases hj)
    (fun hj => absurd rfl hj) h.returned
  · refine ⟨rfl, rfl, fun d' hne => ?_, fun key' => ?_, rfl, rfl, rfl⟩
    · exact congrArg ReceivedData.sessionKey (BufferPool.content_update_of_ne _ _ hne)
    · rw [hlookup]
      split
      · rw [Option.map_map]
        rfl
      · rfl
  · cases o with
    | none =>
        change some d = some d' ↔ none = some d'
        simp [hne.symm]
    | some p =>
        change d' ∈ (a.reuse key d size).samplesAt p ↔ d' ∈ a.samplesAt p
        by_cases hp : p = .pool key
        · rw [hp, hself, hat, List.mem_cons]
          simp [hne]
        · rw [hplace p hp]
  · cases o with
    | none => exact ⟨fun _ => rfl, fun _ => rfl⟩
    | some p =>
        refine ⟨fun hp => ?_, fun hp => by cases hp⟩
        change d ∈ (a.reuse key d size).samplesAt p at hp
        by_cases hkey : p = .pool key
        · rw [hkey, hself] at hp
          exact absurd hp (List.nodup_cons.1 hnodup).1
        · rw [hplace p hkey] at hp
          exact absurd (Option.some.inj ((h.keeps_iff (i := some (.pool key)) hd
            (some p)).1 hp)) hkey
  · by_cases hp : p = .pool key
    · rw [hp, hself]
      exact (List.nodup_cons.1 hnodup).2
    · rw [hplace p hp]
      exact h.nodup p

/-- A record is taken from the pool of the agent. -/
theorem takeReceivedData (h : SamplesKept none a) :
    SamplesKept (some a.poolSamples.next) a.takeReceivedData := by
  have hkeeps : ∀ o, ∀ d < a.poolSamples.next,
      (a.takeReceivedData.Keeps (some a.poolSamples.next) o d ↔ a.Keeps none o d) := by
    intro o d hd
    cases o with
    | none =>
        change some a.poolSamples.next = some d ↔ none = some d
        simp [Nat.ne_of_gt hd]
    | some p => exact Iff.rfl
  have hlt : ∀ p, ∀ d ∈ a.samplesAt p, d < a.poolSamples.next := fun p d hd =>
    h.allocated (some p) d hd
  have howner : ∀ d < a.poolSamples.next, a.takeReceivedData.ownerOf d = a.ownerOf d := by
    intro d hd
    exact congrArg ReceivedData.sessionKey (BufferPool.content_take_of_ne _ _ (Nat.ne_of_lt hd))
  refine ⟨?_, h.sound.take _, ?_, h.nodup, ?_, ?_, ?_, h.linked, h.reading, h.single, h.returned⟩
  · refine h.accounted.take h.sound rfl rfl hkeeps (i := none) fun o => ?_
    cases o with
    | none => exact ⟨fun _ => rfl, fun _ => rfl⟩
    | some p =>
        refine ⟨fun hp => ?_, fun hp => by cases hp⟩
        exact absurd (hlt p _ hp) (Nat.lt_irrefl _)
  · intro o d hd
    cases o with
    | none =>
        obtain rfl := Option.some.inj (show some a.poolSamples.next = some d from hd)
        exact Nat.lt_succ_self _
    | some p => exact Nat.lt_succ_of_lt (hlt p d hd)
  · intro key d hd
    rw [howner d (hlt (.pool key) d hd)]
    exact h.pooled key d hd
  · intro n d hd
    rw [howner d (hlt (.read n) d hd)]
    exact h.retained n d hd
  · intro key s hs hsem
    obtain ⟨hdel, hnone⟩ := h.closing key s hs hsem
    refine ⟨hdel, fun p d hd => ?_⟩
    rw [howner d (hlt p d hd)]
    exact hnone p d hd

/-- The record in hand is filled. -/
theorem fill (h : SamplesKept (some d) a) (f : ReceivedData → ReceivedData) :
    SamplesKept (some d) { a with poolSamples := a.poolSamples.update d f } := by
  refine h.move (i := none) (j := none) ⟨rfl, rfl, fun d' hne => ?_, fun _ => rfl, rfl,
    rfl, rfl⟩ rfl
    (fun _ _ _ => Iff.rfl) (h.keeps_iff rfl) h.nodup (fun _ hj => by cases hj)
    (fun _ hj => by cases hj) (fun hj => absurd rfl hj) h.returned
  exact congrArg ReceivedData.sessionKey (BufferPool.content_update_of_ne _ _ hne)

/-- The record in hand is put into the pool of its session. -/
theorem recycle (h : SamplesKept (some d) a) (howner : a.ownerOf d = key) {s : ClientSession}
    (hs : a.sessions.lookup key = some s) (hopen : s.semCleanup = false) :
    SamplesKept none (a.recycle key d) := by
  have hlookup : ∀ key', (a.recycle key d).sessions.lookup key' =
      if key' = key then (a.sessions.lookup key').map fun s =>
        { s with rcvdDataPool := s.rcvdDataPool ++ [d] }
      else a.sessions.lookup key' := fun _ => AList.lookup_modify _ _ _ _
  have hself : (a.recycle key d).samplesAt (.pool key) = a.samplesAt (.pool key) ++ [d] := by
    rw [Agent.samplesAt, hlookup, if_pos rfl, hs, Agent.samplesAt_pool hs]
    rfl
  have hplace : ∀ p, p ≠ .pool key → (a.recycle key d).samplesAt p = a.samplesAt p := by
    intro p hp
    cases p with
    | read n => rfl
    | pool key' =>
        refine Agent.samplesAt_pool_congr ?_
        rw [hlookup, if_neg fun heq => hp (by rw [heq])]
  refine h.move (d := d) (i := none) (j := some (.pool key)) ?_ rfl (fun o d' hne => ?_)
    (fun o => ?_) (fun p => ?_) (fun key' hj => ?_) (fun n hj => by cases hj) (fun _ s' hs' => ?_)
    h.returned
  · refine ⟨rfl, rfl, fun _ _ => rfl, fun key' => ?_, rfl, rfl, rfl⟩
    rw [hlookup]
    split
    · rw [Option.map_map]
      rfl
    · rfl
  · cases o with
    | none =>
        change none = some d' ↔ some d = some d'
        simp [hne.symm]
    | some p =>
        change d' ∈ (a.recycle key d).samplesAt p ↔ d' ∈ a.samplesAt p
        by_cases hp : p = .pool key
        · rw [hp, hself, List.mem_append, List.mem_singleton]
          simp [hne]
        · rw [hplace p hp]
  · cases o with
    | none => simp [Agent.Keeps]
    | some p =>
        change d ∈ (a.recycle key d).samplesAt p ↔ _
        by_cases hp : p = .pool key
        · rw [hp, hself]
          simp
        · rw [hplace p hp]
          exact ⟨fun hd => absurd hd (h.notMem_of_hand p),
            fun heq => absurd (Option.some.inj heq) hp⟩
  · by_cases hp : p = .pool key
    · rw [hp, hself, List.nodup_append]
      refine ⟨h.nodup _, List.nodup_singleton d, fun d' hd' d'' hd'' heq => ?_⟩
      rw [heq, List.mem_singleton.1 hd''] at hd'
      exact h.notMem_of_hand _ hd'
    · rw [hplace p hp]
      exact h.nodup p
  · obtain rfl := SamplePlace.pool.inj (Option.some.inj hj)
    exact howner
  · rw [show (a.recycle key d).ownerOf d = key from howner, hlookup, if_pos rfl, hs] at hs'
    obtain rfl := Option.some.inj hs'
    exact hopen

/-- The records of a read after a change of its list. -/
theorem samplesAt_updateRead (h : SamplesKept hand a) (hreq : (a.attached n).readReq = some rd)
    (f : Read → Read) (p : SamplePlace) : (a.updateRead rd f).samplesAt p =
      if p = .read n then (f (a.readAt rd)).samples else a.samplesAt p := by
  split
  · rename_i hp
    rw [hp, Agent.samplesAt_read (a := a.updateRead rd f) hreq, Agent.readAt_updateRead, if_pos rfl]
  · rename_i hp
    cases p with
    | pool key => rfl
    | read m =>
        refine Agent.samplesAt_read_congr rfl fun rd' hrd' => ?_
        rw [Agent.readAt_updateRead, if_neg]
        rintro rfl
        exact hp (by rw [h.single m n rd' hrd' hreq])

/-- The record in hand is retained by the read of an attached data reader. -/
theorem retain (h : SamplesKept (some d) a) (hreq : (a.attached n).readReq = some rd)
    (hlive : rd ∉ a.poolReads.returned) (hkind : (a.attached n).kind = .dataReader)
    {s : ClientSession} (hs : a.sessions.lookup (a.ownerOf d) = some s) (hn : n ∈ s.resources)
    (hopen : s.semCleanup = false) :
    SamplesKept none (a.updateRead rd fun r => { r with samples := r.samples ++ [d] }) := by
  have hat := h.samplesAt_updateRead hreq fun r => { r with samples := r.samples ++ [d] }
  have hself := Agent.samplesAt_read hreq
  refine h.move (d := d) (i := none) (j := some (.read n))
    ⟨rfl, rfl, fun _ _ => rfl, fun _ => rfl, rfl, rfl, rfl⟩ rfl (fun o d' hne => ?_)
    (fun o => ?_) (fun p => ?_) (fun key hj => by cases hj) (fun m hj => ?_) (fun _ s' hs' => ?_)
    (fun rd' hrd' => ?_)
  · cases o with
    | none =>
        change none = some d' ↔ some d = some d'
        simp [hne.symm]
    | some p =>
        change d' ∈ Agent.samplesAt _ p ↔ d' ∈ a.samplesAt p
        rw [hat]
        split
        · rename_i hp
          rw [hp, hself, List.mem_append, List.mem_singleton]
          simp [hne]
        · rfl
  · cases o with
    | none => simp [Agent.Keeps]
    | some p =>
        change d ∈ Agent.samplesAt _ p ↔ _
        rw [hat]
        split
        · rename_i hp
          rw [hp]
          simp
        · rename_i hp
          exact ⟨fun hd => absurd hd (h.notMem_of_hand p),
            fun heq => absurd (Option.some.inj heq) hp⟩
  · rw [hat]
    split
    · change ((a.readAt rd).samples ++ [d]).Nodup
      rw [← hself, List.nodup_append]
      refine ⟨h.nodup _, List.nodup_singleton d, fun d' hd' d'' hd'' heq => ?_⟩
      rw [heq, List.mem_singleton.1 hd''] at hd'
      exact h.notMem_of_hand _ hd'
    · exact h.nodup p
  · obtain rfl := SamplePlace.read.inj (Option.some.inj hj)
    exact ⟨hkind, s, hs, hn⟩
  · obtain rfl := Option.some.inj (hs.symm.trans hs')
    exact hopen
  · rw [Agent.readAt_updateRead, if_neg]
    · exact h.returned rd' hrd'
    · rintro rfl
      exact hlive hrd'

/-- A record is taken out of the list of a read. -/
theorem takeBack (h : SamplesKept none a) (hreq : (a.attached n).readReq = some rd)
    (hd : d ∈ (a.readAt rd).samples) :
    SamplesKept (some d) (a.updateRead rd fun r => { r with samples := r.samples.erase d }) := by
  have hat := h.samplesAt_updateRead hreq fun r => { r with samples := r.samples.erase d }
  have hself := Agent.samplesAt_read hreq
  have hmem : d ∈ a.samplesAt (.read n) := by
    rw [hself]
    exact hd
  have hnodup : (a.readAt rd).samples.Nodup := hself ▸ h.nodup (.read n)
  refine h.move (d := d) (i := some (.read n)) (j := none)
    ⟨rfl, rfl, fun _ _ => rfl, fun _ => rfl, rfl, rfl, rfl⟩ hmem (fun o d' hne => ?_)
    (fun o => ?_) (fun p => ?_) (fun key hj => by cases hj) (fun m hj => by cases hj)
    (fun hj => absurd rfl hj) (fun rd' hrd' => ?_)
  · cases o with
    | none =>
        change some d = some d' ↔ none = some d'
        simp [hne.symm]
    | some p =>
        change d' ∈ Agent.samplesAt _ p ↔ d' ∈ a.samplesAt p
        rw [hat]
        split
        · rename_i hp
          rw [hp, hself]
          exact List.mem_erase_of_ne hne
        · rfl
  · cases o with
    | none => exact ⟨fun _ => rfl, fun _ => rfl⟩
    | some p =>
        refine ⟨fun hp => ?_, fun hp => by cases hp⟩
        change d ∈ Agent.samplesAt _ p at hp
        rw [hat] at hp
        split at hp
        · exact absurd hp hnodup.not_mem_erase
        · rename_i hne
          exact absurd (Option.some.inj ((h.keeps_iff (i := some (.read n)) hmem
            (some p)).1 hp)) hne
  · rw [hat]
    split
    · exact hnodup.erase d
    · exact h.nodup p
  · have hempty := h.returned rd' hrd'
    rw [Agent.readAt_updateRead]
    split
    · change (a.readAt rd').samples.erase d = []
      rw [hempty]
      rfl
    · exact hempty

end SamplesKept

namespace Agent

variable (a : Agent) (key : ClientSessionKey)

theorem drainSamples_of_session {a : Agent} {key : ClientSessionKey} {s : ClientSession}
    (hs : a.sessions.lookup key = some s) : a.drainSamples key =
      { a with
        poolSamples := { a.poolSamples with returned := a.poolSamples.returned ++ s.rcvdDataPool }
        sessions := a.sessions.insert key { s with rcvdDataPool := [] } } := by
  unfold drainSamples
  rw [hs]
  dsimp only
  rw [BufferPool.foldl_giveBack]

theorem drainSamples_of_none {a : Agent} {key : ClientSessionKey}
    (hs : a.sessions.lookup key = none) : a.drainSamples key = a := by
  unfold drainSamples
  rw [hs]

theorem ownerOf_drainSamples (d : ℕ) : (a.drainSamples key).ownerOf d = a.ownerOf d := by
  cases hs : a.sessions.lookup key with
  | none => rw [drainSamples_of_none hs]
  | some s =>
      rw [drainSamples_of_session hs]
      rfl

/-- The pool of the session is empty, and every other place keeps its records. -/
theorem samplesAt_drainSamples (p : SamplePlace) :
    (a.drainSamples key).samplesAt p = if p = .pool key then [] else a.samplesAt p := by
  cases hs : a.sessions.lookup key with
  | none =>
      rw [drainSamples_of_none hs]
      split
      · rename_i hp
        rw [hp, samplesAt, hs]
        rfl
      · rfl
  | some s =>
      rw [drainSamples_of_session hs]
      split
      · rename_i hp
        rw [hp]
        exact samplesAt_pool (s := { s with rcvdDataPool := [] }) (AList.lookup_insert _)
      · rename_i hp
        cases p with
        | read n => rfl
        | pool key' =>
            refine samplesAt_pool_congr ?_
            rw [AList.lookup_insert_ne fun heq => hp (by rw [heq])]

variable {a key}

theorem mem_of_mem_drainSamples {p : SamplePlace} {d : ℕ}
    (hd : d ∈ (a.drainSamples key).samplesAt p) : d ∈ a.samplesAt p := by
  rw [samplesAt_drainSamples] at hd
  split at hd
  · cases hd
  · exact hd

/-- A session has the same list and the same flags as before. -/
theorem outline_of_lookup_drainSamples {key' : ClientSessionKey} {s' : ClientSession}
    (hs' : (a.drainSamples key).sessions.lookup key' = some s') :
    ∃ s, a.sessions.lookup key' = some s ∧ s.outline = s'.outline := by
  have hsame := (ReadFrame.drainSamples a key).session key'
  rw [hs'] at hsame
  exact Option.map_eq_some_iff.1 hsame.symm

end Agent

namespace SamplesKept

variable {a : Agent} {key : ClientSessionKey}

/-- A record of the pool of the session is at no other place. -/
theorem keeps_drainSamples_iff (h : SamplesKept none a) {s : ClientSession}
    (hs : a.sessions.lookup key = some s) (o : Option SamplePlace) (d : ℕ) :
    (a.drainSamples key).Keeps none o d ↔ a.Keeps none o d ∧ d ∉ s.rcvdDataPool := by
  have hpool := Agent.samplesAt_pool hs
  cases o with
  | none => simp [Agent.Keeps]
  | some p =>
      change d ∈ (a.drainSamples key).samplesAt p ↔ d ∈ a.samplesAt p ∧ d ∉ s.rcvdDataPool
      rw [Agent.samplesAt_drainSamples]
      split
      · rename_i hp
        rw [hp, hpool]
        simp
      · rename_i hp
        refine ⟨fun hd => ⟨hd, fun hd' => ?_⟩, fun hd => hd.1⟩
        rw [← hpool] at hd'
        have heq := (h.keeps_iff (i := some p) hd (some (.pool key))).1 hd'
        exact hp (Option.some.inj heq).symm

theorem accounted_drainSamples (h : SamplesKept none a) {s : ClientSession}
    (hs : a.sessions.lookup key = some s) :
    (a.drainSamples key).poolSamples.Accounted ((a.drainSamples key).Keeps none) := by
  have hpool := Agent.samplesAt_pool hs
  have hheld : ∀ d ∈ s.rcvdDataPool, ∃ o, a.Keeps none o d := by
    intro d hd
    refine ⟨some (.pool key), ?_⟩
    change d ∈ a.samplesAt _
    rwa [hpool]
  refine h.accounted.giveBackAll (hpool ▸ h.nodup _) hheld ?_ ?_
    fun o d _ => h.keeps_drainSamples_iff hs o d
  · rw [Agent.drainSamples_of_session hs]
  · rw [Agent.drainSamples_of_session hs]

theorem sound_drainSamples (h : SamplesKept none a) {s : ClientSession}
    (hs : a.sessions.lookup key = some s) : (a.drainSamples key).poolSamples.Sound := by
  rw [Agent.drainSamples_of_session hs]
  intro d hd
  rcases List.mem_append.1 hd with hd | hd
  · exact h.sound d hd
  · rw [← Agent.samplesAt_pool hs] at hd
    exact h.allocated (some (.pool key)) d hd

/-- The records in the pool of a session are returned. -/
theorem drainSamples (h : SamplesKept none a) (key : ClientSessionKey) :
    SamplesKept none (a.drainSamples key) := by
  cases hs : a.sessions.lookup key with
  | none =>
      rw [Agent.drainSamples_of_none hs]
      exact h
  | some s =>
      have hframe := ReadFrame.drainSamples a key
      have hattached : ∀ n, (a.drainSamples key).attached n = a.attached n := by
        rw [Agent.drainSamples_of_session hs]
        exact fun _ => rfl
      have hreads : (a.drainSamples key).poolReads = a.poolReads := by
        rw [Agent.drainSamples_of_session hs]
      have hsamples : (a.drainSamples key).poolSamples.next = a.poolSamples.next := by
        rw [Agent.drainSamples_of_session hs]
      refine ⟨h.accounted_drainSamples hs, h.sound_drainSamples hs, fun o d hd => ?_, fun p => ?_,
        fun key' d hd => ?_, fun n d hd => ?_, fun key' s' hs' hsem => ?_,
        fun key' s' hs' n hn => ?_, fun n rd => ?_, fun m n rd => ?_, fun rd => ?_⟩
      · rw [hsamples]
        exact h.allocated o d ((h.keeps_drainSamples_iff hs o d).1 hd).1
      · rw [Agent.samplesAt_drainSamples]
        split
        · exact List.nodup_nil
        · exact h.nodup p
      · rw [Agent.ownerOf_drainSamples]
        exact h.pooled key' d (Agent.mem_of_mem_drainSamples hd)
      · obtain ⟨hkind, s₀, hs₀, hn⟩ := h.retained n d (Agent.mem_of_mem_drainSamples hd)
        obtain ⟨s', hs', houtline⟩ := hframe.exists_session hs₀
        rw [hattached, Agent.ownerOf_drainSamples]
        exact ⟨hkind, s', hs', (ClientSession.eq_of_outline houtline).1 ▸ hn⟩
      · obtain ⟨s₀, hs₀, houtline⟩ := Agent.outline_of_lookup_drainSamples hs'
        obtain ⟨-, hdel, hclean⟩ := ClientSession.eq_of_outline houtline
        obtain ⟨hdeleted, hnone⟩ := h.closing key' s₀ hs₀ (hclean.trans hsem)
        refine ⟨hdel.symm.trans hdeleted, fun p d hd => ?_⟩
        rw [Agent.ownerOf_drainSamples]
        exact hnone p d (Agent.mem_of_mem_drainSamples hd)
      · obtain ⟨s₀, hs₀, houtline⟩ := Agent.outline_of_lookup_drainSamples hs'
        rw [← (ClientSession.eq_of_outline houtline).1] at hn
        rw [hframe.next]
        exact h.linked key' s₀ hs₀ n hn
      · rw [hattached, hframe.next, hreads]
        exact h.reading n rd
      · rw [hattached, hattached]
        exact h.single m n rd
      · rw [Agent.readAt, hreads]
        exact h.returned rd

/-- No record of the session is left when none is at a read. -/
theorem keepsNone_drainSamples (h : SamplesKept none a)
    (hreads : ∀ n, ∀ d ∈ a.samplesAt (.read n), a.ownerOf d ≠ key) :
    (a.drainSamples key).KeepsNone key := by
  intro p d hd
  rw [Agent.ownerOf_drainSamples]
  rw [Agent.samplesAt_drainSamples] at hd
  split at hd
  · cases hd
  · rename_i hp
    cases p with
    | pool key' => exact fun heq => hp (by rw [← heq, h.pooled key' d hd])
    | read n => exact hreads n d hd

end SamplesKept

end NanoAgent
