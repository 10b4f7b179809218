import NanoAgent.DdsAgent.OrderedDelivery

/-!
# Delivery when the middleware drops nothing

Samples leave the cache of a data reader when the agent takes them, which it does with those that
all reads of the reader have passed. `stepWhole` counts every sample that the reader had when a
read was started, and those that it received since, also when they were taken. If the middleware
drops none by itself, the samples accepted for a read are the first of those it wants among them
(`accepted_prefix`), and this is so for one reader as long as the run goes on.
-/

namespace NanoAgent

open Prog SortedLog

namespace DeliveryLog

/-- The samples held, when the middleware changes the cache: what it receives is added. -/
def heldSince (latest : ℕ) (held : List Sample) (change : Option (List Sample)) : List Sample :=
  held ++ (change.map (received latest)).getD []

def stepWhole (h : DeliveryLog) (i : Operation × Env) : DeliveryLog :=
  { h.step i with
    held := fun p rd => if rd < h.agent.poolReads.next then
        heldSince (h.latest p) (h.held p rd) (i.1.newCache p)
      else ((h.agent.step i).readerAt p).cache }

/-- The middleware numbers the samples of a reader in the order of their reception, and drops
none of them. -/
def DropsNone (h : DeliveryLog) (i : Operation × Env) : Prop :=
  h.Allowed i ∧ ∀ p, ∀ cache ∈ i.1.newCache p, (h.agent.readerAt p).cache ⊆ cache

/-- Such a run goes on from `h` to a state. -/
def Leads (h : DeliveryLog) : DeliveryLog → Prop := Reachable (· = h) stepWhole DropsNone

variable {h h' : DeliveryLog} {reader : ℕ → ℕ} {rd : ℕ}

theorem heldSince_none (latest : ℕ) (held : List Sample) : heldSince latest held none = held :=
  List.append_nil held

theorem mem_heldSince {latest : ℕ} {held cache : List Sample} {s : Sample} :
    s ∈ heldSince latest held (some cache) ↔ s ∈ held ∨ s ∈ cache ∧ latest < s.sn := by
  simp [heldSince, received]

theorem between_heldSince {latest start pos : ℕ} {held : List Sample} {want : Sample → Bool}
    (hlatest : pos = start ∨ pos ≤ latest) (change : Option (List Sample)) :
    between Sample.sn want start pos (heldSince latest held change) =
      between Sample.sn want start pos held := by
  cases change with
  | none => rw [heldSince_none]
  | some cache =>
      refine between_append fun s hs hstart => ?_
      obtain ⟨-, hnew⟩ := List.mem_filter.1 hs
      rcases hlatest with heq | hle
      · exact heq ▸ hstart
      · exact hle.trans_lt (by simpa using hnew)

/-- The middleware changes the cache of a reader, and drops nothing of it. -/
theorem Delivers.receives (hd : h.Delivers reader h.agent.poolReads.next) {q : ℕ}
    {cache : List Sample} {env : Env} (hok : h.DropsNone (.changeCache q cache, env)) :
    Delivers ⟨h.agent.step (.changeCache q cache, env), fun p rd =>
      heldSince (h.latest p) (h.held p rd) ((Operation.changeCache q cache).newCache p), h.start,
      (h.step (.changeCache q cache, env)).latest⟩ reader h.agent.poolReads.next := by
  have hcache := fun p => (h.agent.readerAt_changeCache env q cache p).2
  have hlatest : ∀ p, ∀ s ∈ ((h.agent.step (.changeCache q cache, env)).readerAt p).cache,
      s.sn ≤ (h.step (.changeCache q cache, env)).latest p := fun p => (le_greatestSn _ _).2
  have hle : ∀ p, h.latest p ≤ (h.step (.changeCache q cache, env)).latest p :=
    fun p => (le_greatestSn _ _).1
  refine hd.changes (b := h.agent.step (.changeCache q cache, env)) rfl rfl rfl
    (fun p => (h.agent.readerAt_changeCache env q cache p).1) (fun p => ?_) (fun rd hrd p => ?_)
    fun rd p hrd hp => ⟨fun hreg => ?_, fun s hs _ => List.mem_append_left _ hs, fun want =>
      between_heldSince (hp.position hd hrd) _⟩
  · rw [hcache]
    cases hchange : (Operation.changeCache q cache).newCache p with
    | none => exact hd.sorted p
    | some cache' => exact (hok.1.2 p cache' hchange).1
  · have hnow := hlatest p
    rw [hcache] at hnow
    cases hchange : (Operation.changeCache q cache).newCache p with
    | none =>
        rw [heldSince_none]
        exact ⟨hd.heldSorted rd hrd p, fun s hs => (hd.heldLatest rd hrd p s hs).trans (hle p)⟩
    | some cache' =>
        rw [hchange] at hnow
        refine ⟨List.pairwise_append.2 ⟨hd.heldSorted rd hrd p,
          (hok.1.2 p cache' hchange).1.filter _, fun s hs t ht => ?_⟩, fun s hs => ?_⟩
        · have hbehind : h.latest p < t.sn := by simpa using (List.mem_filter.1 ht).2
          exact (hd.heldLatest rd hrd p s hs).trans_lt hbehind
        · rcases mem_heldSince.1 hs with hs | ⟨hs, -⟩
          · exact (hd.heldLatest rd hrd p s hs).trans (hle p)
          · exact hnow s hs
  · rw [hcache]
    cases hchange : (Operation.changeCache q cache).newCache p with
    | none =>
        rw [heldSince_none]
        exact ⟨hp.cache hreg, hp.ahead hreg⟩
    | some cache' =>
        refine ⟨fun s hs => mem_heldSince.2 ?_, fun s hs hvalid hlt => ?_⟩
        · exact ((hok.1.2 p cache' hchange).2 s hs).imp (hp.cache hreg ·) fun hlt => ⟨hs, hlt⟩
        · rcases mem_heldSince.1 hs with hs | ⟨hs, -⟩
          · exact hok.2 p cache' hchange (hp.ahead hreg s hs hvalid hlt)
          · exact hs

/-- What one step keeps when the middleware drops nothing. -/
theorem Delivers.stepWhole (hd : h.Delivers reader h.agent.poolReads.next) {i : Operation × Env}
    (hok : h.DropsNone i) : h.DeliversOn reader (h.stepWhole i) := by
  obtain ⟨o, env⟩ := i
  by_cases hnone : ∀ p, o.newCache p = none
  · have hsame : h.stepWhole (o, env) = h.step (o, env) := by
      simp only [DeliveryLog.stepWhole, DeliveryLog.step, hnone, heldSince_none, heldAfter]
    rw [hsame]
    exact hd.step hok.1
  · cases o with
    | changeCache q cache =>
        exact ⟨le_rfl, (hd.receives hok).renew le_rfl fun p => (le_greatestSn _ _).2⟩
    | _ => exact absurd (fun _ => rfl) hnone

theorem DeliversOn.stepWhole (hd : h.DeliversOn reader h') {i : Operation × Env}
    (hok : h'.DropsNone i) : h.DeliversOn reader (h'.stepWhole i) := by
  obtain ⟨hle, reader', hsame, hd'⟩ := hd
  obtain ⟨hle', reader'', hsame', hd''⟩ := hd'.stepWhole hok
  refine ⟨hle.trans hle', reader'', fun rd hrd => ?_, hd''⟩
  rw [hsame' rd (hrd.trans_le hle), hsame rd hrd]

end DeliveryLog

end NanoAgent
