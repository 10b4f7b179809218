import NanoAgent.DdsAgent.Operation
import NanoAgent.DdsAgent.Reader
import NanoAgent.Foundations.Run

/-!
# Dismissed samples

A data reader keeps a sample until every registered read has passed it.
`requestsUpdated` takes a prefix of the cache: valid samples up to the least
position of the reads, and the invalid samples met on the way. The position it
records for the reader is that of the last sample taken.

`ReaderHistory` follows a reader over its life. The middleware numbers samples in
the order of their reception and may drop cached ones, so a sample that was taken
does not come back and the recorded position only grows.
-/

namespace NanoAgent

namespace Reader

open Prog

variable {r : Reader} {env : Env} {lastSample : ℕ → ℕ}

/-- The position reached once the given samples are taken, from the position `sn`. -/
def positionAfter (sn : ℕ) (taken : List Sample) : ℕ :=
  taken.foldl (fun _ s => s.sn) sn

@[simp] theorem positionAfter_nil (sn : ℕ) : positionAfter sn [] = sn := rfl

@[simp] theorem positionAfter_cons (sn : ℕ) (s : Sample) (taken : List Sample) :
    positionAfter sn (s :: taken) = positionAfter s.sn taken := rfl

/-- The position reached is the one at the start or that of a sample taken. -/
theorem positionAfter_eq_or_mem (sn : ℕ) (taken : List Sample) :
    positionAfter sn taken = sn ∨ ∃ s ∈ taken, positionAfter sn taken = s.sn := by
  induction taken generalizing sn with
  | nil => simp
  | cons s taken ih =>
      right
      rw [positionAfter_cons]
      rcases ih s.sn with heq | ⟨t, ht, heq⟩
      · exact ⟨s, List.mem_cons_self, heq⟩
      · exact ⟨t, List.mem_cons_of_mem s ht, heq⟩

theorem foldl_min_le (lastSample : ℕ → ℕ) (l : List ℕ) (sn : ℕ) :
    l.foldl (fun sn q => if lastSample q ≤ sn then lastSample q else sn) sn ≤ sn ∧
      ∀ rd ∈ l,
        l.foldl (fun sn q => if lastSample q ≤ sn then lastSample q else sn) sn ≤
          lastSample rd := by
  induction l generalizing sn with
  | nil => simp
  | cons q l ih =>
      rw [List.foldl_cons, List.forall_mem_cons]
      obtain ⟨hle, hmem⟩ := ih (if lastSample q ≤ sn then lastSample q else sn)
      have hstep : (if lastSample q ≤ sn then lastSample q else sn) ≤ sn ∧
          (if lastSample q ≤ sn then lastSample q else sn) ≤ lastSample q := by
        split <;> omega
      exact ⟨Nat.le_trans hle hstep.1, Nat.le_trans hle hstep.2, hmem⟩

/-- Every registered read has passed the dismiss position. -/
theorem dismissPosition_le {rd : ℕ} (h : rd ∈ r.registered) :
    r.dismissPosition lastSample ≤ lastSample rd := by
  unfold dismissPosition
  cases hl : r.registered with
  | nil => simp [hl] at h
  | cons q l =>
      rw [hl] at h
      obtain ⟨hle, hmem⟩ := foldl_min_le lastSample l (lastSample q)
      cases h with
      | head => exact hle
      | tail _ h => exact hmem rd h

theorem dismissPosition_of_idle (h : r.registered = []) : r.dismissPosition lastSample = 0 := by
  simp [dismissPosition, h]

/-- The loop over the cache takes a prefix of it, which holds no valid sample beyond
the dismiss position, and records the position of the last sample taken. -/
theorem dismissSamples_takes (env : Env) (dismissSn : ℕ) (cache : List Sample) (sn : ℕ) :
    ∃ taken, cache = taken ++ (dismissSamples env dismissSn cache sn).2.1 ∧
      (∀ s ∈ taken, s.validData = true → s.sn ≤ dismissSn) ∧
      (dismissSamples env dismissSn cache sn).2.2 = positionAfter sn taken := by
  induction cache generalizing sn with
  | nil => exact ⟨[], by simp [dismissSamples]⟩
  | cons s cache ih =>
      unfold dismissSamples
      split
      · exact ⟨[], by simp⟩
      split
      · exact ⟨[], by simp⟩
      rename_i hvalid
      have hle : s.validData = true → s.sn ≤ dismissSn := by
        intro h
        simpa [h] using hvalid
      split
      · exact ⟨[], by simp⟩
      split
      · exact ⟨[s], by simpa using hle⟩
      split
      · exact ⟨[s], by simpa using hle⟩
      · obtain ⟨taken, hcache, hvalid, hsn⟩ := ih s.sn
        refine ⟨s :: taken, ?_, ?_, ?_⟩
        · rw [List.cons_append, ← hcache]
        · simpa using ⟨hle, hvalid⟩
        · rw [hsn, positionAfter_cons]

/-- The samples taken from the cache between `r` and `r'`: a prefix of the cache in
which the valid samples are at or before the position of every registered read. -/
structure Dismisses (lastSample : ℕ → ℕ) (r r' : Reader) (taken : List Sample) : Prop where
  cache : r.cache = taken ++ r'.cache
  passed : ∀ s ∈ taken, s.validData = true →
    r.registered ≠ [] ∧ ∀ rd ∈ r.registered, s.sn ≤ lastSample rd
  position : r'.dismissSn = positionAfter r.dismissSn taken
  requests : r'.requests = r.requests

theorem Dismisses.refl (lastSample : ℕ → ℕ) (r : Reader) : Dismisses lastSample r r [] where
  cache := rfl
  passed := by simp
  position := rfl
  requests := rfl

theorem requestsUpdated_apply (env : Env) (lastSample : ℕ → ℕ) (r : Reader) :
    (requestsUpdated env lastSample r).2 =
      if r.dismissSn < r.dismissPosition lastSample then
        { r with
          cache := (dismissSamples env (r.dismissPosition lastSample) r.cache r.dismissSn).2.1
          dismissSn :=
            (dismissSamples env (r.dismissPosition lastSample) r.cache r.dismissSn).2.2 }
      else r := by
  unfold requestsUpdated
  rw [read_bind_apply]
  by_cases hlt : r.dismissSn < r.dismissPosition lastSample
  · simp only [hlt, decide_true, onlyIf_true, if_true]
    rw [modify_bind_apply]
    simp [ensure]
  · simp [hlt]

theorem requestsUpdated_dismisses_prefix (env : Env) (lastSample : ℕ → ℕ) (r : Reader) :
    ∃ taken, Dismisses lastSample r (requestsUpdated env lastSample r).2 taken := by
  rw [requestsUpdated_apply]
  split
  · rename_i hlt
    obtain ⟨taken, hcache, hvalid, hsn⟩ :=
      dismissSamples_takes env (r.dismissPosition lastSample) r.cache r.dismissSn
    refine ⟨taken, hcache, ?_, hsn, rfl⟩
    intro s hs hv
    refine ⟨?_, fun rd hrd => Nat.le_trans (hvalid s hs hv) (dismissPosition_le hrd)⟩
    intro hidle
    simp [dismissPosition_of_idle hidle] at hlt
  · exact ⟨[], .refl lastSample r⟩

end Reader

/-- A data reader over its life: its reader state and the greatest reception sequence
number given to a sample so far. -/
structure ReaderHistory where
  reader : Reader
  received : ℕ

namespace ReaderHistory

/-- What happens to a reader: the middleware stores and drops samples, reads are
registered and unregistered, and the passed samples are dismissed. -/
inductive Event
  | store (cache : List Sample) (received : ℕ)
  | newRequest (env : Env) (rd : ℕ) (filter : Option String)
  | requestComplete (env : Env) (rd : ℕ)
  | requestsUpdated (env : Env) (lastSample : ℕ → ℕ)

def step (h : ReaderHistory) : Event → ReaderHistory
  | .store cache received => ⟨{ h.reader with cache := cache }, received⟩
  | .newRequest env rd filter => { h with reader := (h.reader.newRequest env rd filter).2 }
  | .requestComplete env rd => { h with reader := (h.reader.requestComplete env rd).2 }
  | .requestsUpdated env lastSample =>
      { h with reader := (h.reader.requestsUpdated env lastSample).2 }

/-- What the middleware does with the cache: it stays sorted by reception sequence
number, a sample in it was there before or is newly received, and a new sample has a
greater number than all samples received before. -/
def Allowed (h : ReaderHistory) : Event → Prop
  | .store cache received =>
      cache.Pairwise (fun s t => s.sn < t.sn) ∧ h.received ≤ received ∧
        ∀ s ∈ cache, s.sn ≤ received ∧ (s ∈ h.reader.cache ∨ h.received < s.sn)
  | _ => True

/-- The histories of a data reader from its creation on. -/
def Reached : ReaderHistory → Prop :=
  Reachable (· = ⟨.initial [], 0⟩) step Allowed

/-- The cache is sorted and holds no sample at or before the position up to which the
reader has dismissed. -/
structure Ahead (h : ReaderHistory) : Prop where
  sorted : h.reader.cache.Pairwise (fun s t => s.sn < t.sn)
  beyond : ∀ s ∈ h.reader.cache, h.reader.dismissSn < s.sn
  received : ∀ s ∈ h.reader.cache, s.sn ≤ h.received
  dismissSn_le : h.reader.dismissSn ≤ h.received

variable {h : ReaderHistory}

/-- Registering and unregistering a read leaves the samples alone. -/
def SameSamples (r r' : Reader) : Prop := r'.cache = r.cache ∧ r'.dismissSn = r.dismissSn

instance : IsPreorder Reader SameSamples where
  refl _ := ⟨rfl, rfl⟩
  trans _ _ _ hab hbc := ⟨hbc.1.trans hab.1, hbc.2.trans hab.2⟩

theorem Ahead.sameSamples (ha : h.Ahead) {r : Reader} (hr : SameSamples h.reader r) :
    Ahead { h with reader := r } := by
  obtain ⟨hcache, hsn⟩ := hr
  constructor
  · simpa [hcache] using ha.sorted
  · simpa [hcache, hsn] using ha.beyond
  · simpa [hcache] using ha.received
  · simpa [hsn] using ha.dismissSn_le

theorem Ahead.store (ha : h.Ahead) {cache : List Sample} {received : ℕ}
    (hok : h.Allowed (.store cache received)) : (h.step (.store cache received)).Ahead := by
  obtain ⟨hsorted, hle, hmem⟩ := hok
  refine ⟨hsorted, ?_, fun s hs => (hmem s hs).1, Nat.le_trans ha.dismissSn_le hle⟩
  intro s hs
  rcases (hmem s hs).2 with hold | hnew
  · exact ha.beyond s hold
  · exact Nat.lt_of_le_of_lt ha.dismissSn_le hnew

/-- Dismissing samples does not move the position backwards. -/
theorem Ahead.dismissSn_mono (ha : h.Ahead) {lastSample : ℕ → ℕ} {r : Reader}
    {taken : List Sample} (hd : Reader.Dismisses lastSample h.reader r taken) :
    h.reader.dismissSn ≤ r.dismissSn := by
  rw [hd.position]
  rcases Reader.positionAfter_eq_or_mem h.reader.dismissSn taken with heq | ⟨s, hs, heq⟩
  · exact Nat.le_of_eq heq.symm
  · rw [heq]
    apply Nat.le_of_lt
    apply ha.beyond
    rw [hd.cache]
    exact List.mem_append_left _ hs

theorem Ahead.dismiss (ha : h.Ahead) {lastSample : ℕ → ℕ} {r : Reader} {taken : List Sample}
    (hd : Reader.Dismisses lastSample h.reader r taken) : Ahead { h with reader := r } := by
  have hsub : ∀ s ∈ r.cache, s ∈ h.reader.cache := by
    intro s hs
    rw [hd.cache]
    exact List.mem_append_right _ hs
  have hsorted := ha.sorted
  rw [hd.cache, List.pairwise_append] at hsorted
  obtain ⟨-, hrest, hbefore⟩ := hsorted
  refine ⟨hrest, ?_, fun s hs => ha.received s (hsub s hs), ?_⟩
  · intro s hs
    change r.dismissSn < s.sn
    rw [hd.position]
    rcases Reader.positionAfter_eq_or_mem h.reader.dismissSn taken with heq | ⟨t, ht, heq⟩
    · rw [heq]
      exact ha.beyond s (hsub s hs)
    · rw [heq]
      exact hbefore t ht s hs
  · change r.dismissSn ≤ h.received
    rw [hd.position]
    rcases Reader.positionAfter_eq_or_mem h.reader.dismissSn taken with heq | ⟨t, ht, heq⟩
    · rw [heq]
      exact ha.dismissSn_le
    · rw [heq]
      apply ha.received
      rw [hd.cache]
      exact List.mem_append_left _ ht

theorem discardRequest_sameSamples (env : Env) (req : ReaderRequest) :
    Prog.Within SameSamples (Reader.discardRequest env req) :=
  .bind (.onlyIf fun _ => .ensure _) fun _ => .modify fun _ => ⟨rfl, rfl⟩

theorem newRequest_sameSamples (env : Env) (rd : ℕ) (filter : Option String) :
    Prog.Within SameSamples (Reader.newRequest env rd filter) := by
  unfold Reader.newRequest
  refine .bind (.ensure _) fun _ => .read fun r => ?_
  cases r.findRequestByRead rd with
  | some req => exact .bind (discardRequest_sameSamples env req) fun _ => .fail
  | none =>
      refine .bind (.ensure _) fun _ => .bind (.modify fun _ => ⟨rfl, rfl⟩) fun _ => ?_
      refine .bind (.onlyIf fun _ => .bind (.modify fun _ => ⟨rfl, rfl⟩) fun _ => .fail)
        fun _ => .bind (.modify fun _ => ⟨rfl, rfl⟩) fun _ => .onlyIf fun _ => .ite ?_ ?_
      · intro _
        exact .modify fun _ => ⟨rfl, rfl⟩
      · intro _
        exact .bind (discardRequest_sameSamples env _) fun _ =>
          .bind (.modify fun _ => ⟨rfl, rfl⟩) fun _ => .fail

theorem requestComplete_sameSamples (env : Env) (rd : ℕ) :
    Prog.Within SameSamples (Reader.requestComplete env rd) := by
  unfold Reader.requestComplete
  refine .bind (.ensure _) fun _ => .read fun r => .bind (.require _) fun req => ?_
  refine .bind (.modify fun _ => ⟨rfl, rfl⟩) fun _ => .bind (.onlyIf fun _ => .ensure _)
    fun _ => .bind (.modify fun _ => ⟨rfl, rfl⟩) fun _ => .read fun r => .onlyIf fun _ => ?_
  exact .bind (.ensure _) fun _ => .modify fun _ => ⟨rfl, rfl⟩

theorem Ahead.step (ha : h.Ahead) (e : Event) (hok : h.Allowed e) : (h.step e).Ahead := by
  cases e with
  | store cache received => exact ha.store hok
  | newRequest env rd filter => exact ha.sameSamples (newRequest_sameSamples env rd filter _)
  | requestComplete env rd => exact ha.sameSamples (requestComplete_sameSamples env rd _)
  | requestsUpdated env lastSample =>
      obtain ⟨taken, hd⟩ := Reader.requestsUpdated_dismisses_prefix env lastSample h.reader
      exact ha.dismiss hd

theorem ahead_of_reached (hh : h.Reached) : h.Ahead := by
  apply Reachable.invariant (I := Ahead) _ _ hh
  · rintro _ rfl
    constructor <;> simp [Reader.initial]
  · intro h e ha hok
    exact ha.step e hok

end ReaderHistory

/-- Updating the requests of a reader takes only what every registered read has passed,
and in every history of the reader it does not move the recorded position backwards. -/
theorem Reader.requestsUpdated_dismisses (env : Env) (lastSample : ℕ → ℕ) (r : Reader) :
    (∃ taken, Dismisses lastSample r (requestsUpdated env lastSample r).2 taken) ∧
      ∀ h : ReaderHistory, h.Reached → h.reader = r →
        r.dismissSn ≤ (requestsUpdated env lastSample r).2.dismissSn := by
  obtain ⟨taken, hd⟩ := requestsUpdated_dismisses_prefix env lastSample r
  refine ⟨⟨taken, hd⟩, ?_⟩
  rintro h hh rfl
  exact (ReaderHistory.ahead_of_reached hh).dismissSn_mono hd

/-- A reader with one read, whose cache holds a disposed instance and two samples. -/
def dismissingHistory : ReaderHistory :=
  ReaderHistory.step
    (ReaderHistory.step ⟨.initial [], 0⟩
      (.store [⟨2, false, 0⟩, ⟨3, true, 7⟩, ⟨5, true, 8⟩] 5))
    (.newRequest (.obliging (.one ⟨12, .dataReader, .guid 3, 11, 13⟩)) 1 none)

theorem dismissingHistory_reached : dismissingHistory.Reached := by
  refine .next _ (.next _ (.start rfl) ?_) trivial
  simp [ReaderHistory.Allowed]

/-- The read has passed the sample 4, so the sample 5 stays. -/
theorem Reader.requestsUpdated_dismisses_dismissingHistory :
    dismissingHistory.Reached ∧
      ((requestsUpdated (.obliging (.one ⟨12, .dataReader, .guid 3, 11, 13⟩)) (fun _ => 4)
        dismissingHistory.reader).2.cache = [⟨5, true, 8⟩] ∧
      dismissingHistory.reader.dismissSn ≤
        (requestsUpdated (.obliging (.one ⟨12, .dataReader, .guid 3, 11, 13⟩)) (fun _ => 4)
          dismissingHistory.reader).2.dismissSn) :=
  ⟨dismissingHistory_reached, by decide,
    (requestsUpdated_dismisses _ _ _).2 _ dismissingHistory_reached rfl⟩

end NanoAgent
