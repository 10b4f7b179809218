import NanoAgent.Service.Supersede

/-!
# Dismissing the forward requests of a reader

`dismissClientFwdDataRequests` chooses forward requests by stream and reader, and takes
their messages out of the send queues. A queue can only be emptied up to a sequence
number, so the messages that were sent before on the same stream go as well, of
whatever reader they are, and whether they carry samples or replies.

`dismissed_iff_chosenFirst` says when the call does what it was asked to do and no more.
-/

namespace NanoAgent

open Prog

/-- A message that leaves the queue when the chosen forward requests are dismissed. -/
def QueuedMessage.Covered (stream : Option ℕ) (reader : ℕ) (l : List ForwardDataRequest)
    (m : QueuedMessage) : Prop :=
  ∃ g ∈ l, g.chosen stream reader = true ∧ m.streamId = g.streamId ∧ m.sn ≤ g.sn

/-- A message on another stream than the chosen one, or of another reader. -/
def QueuedMessage.OfOther (stream : Option ℕ) (reader : ℕ) (m : QueuedMessage) : Prop :=
  (∃ s ∈ stream, m.streamId ≠ s) ∨
    reader ≠ attachedResourceIdInvalid ∧ ∃ id ∈ m.kind.reader, id ≠ reader

/-- A message that is not of the choice: it is on another stream, or not of the chosen
reader. It may be a reply that has nothing to do with a reader. -/
def QueuedMessage.Unchosen (stream : Option ℕ) (reader : ℕ) (m : QueuedMessage) : Prop :=
  (∃ s ∈ stream, m.streamId ≠ s) ∨
    reader ≠ attachedResourceIdInvalid ∧ m.kind.reader ≠ some reader

/-- No chosen forward request was sent after a queued message of `others` on the same
stream. -/
def ChosenFirst (others : QueuedMessage → Prop) (stream : Option ℕ) (reader : ℕ)
    (p : ProxyClient) : Prop :=
  ∀ m ∈ p.sendQueue, others m → ∀ g ∈ p.forwards, g.chosen stream reader = true →
    m.streamId = g.streamId → g.sn < m.sn

instance (stream : Option ℕ) (reader : ℕ) (m : QueuedMessage) :
    Decidable (m.OfOther stream reader) :=
  inferInstanceAs (Decidable (_ ∨ _))

instance (others : QueuedMessage → Prop) [DecidablePred others] (stream : Option ℕ) (reader : ℕ)
    (p : ProxyClient) : Decidable (ChosenFirst others stream reader p) :=
  inferInstanceAs (Decidable (∀ m ∈ p.sendQueue, _))

/-- What is asked of a dismissal: the chosen forward requests are gone, the others and
the messages of other readers and streams stay. -/
structure DismissesChosen (c : ℕ) (stream : Option ℕ) (reader : ℕ) (a b : Service) : Prop where
  chosen : ∀ f ∈ (b.client c).forwards, f.chosen stream reader = false
  others : ∀ f ∈ (a.client c).forwards, f.chosen stream reader = false →
    f ∈ (b.client c).forwards
  messages : ∀ m ∈ (a.client c).sendQueue, m.OfOther stream reader →
    m ∈ (b.client c).sendQueue

/-- The message of a forward request that is not chosen is of another reader or stream. -/
theorem ForwardDataRequest.ofOther_of_not_chosen {stream : Option ℕ} {reader : ℕ}
    {f : ForwardDataRequest} (h : f.chosen stream reader = false) :
    (⟨f.streamId, f.sn, .data f.readerId⟩ : QueuedMessage).OfOther stream reader := by
  rw [chosen, Bool.and_eq_false_iff] at h
  rcases h with hstream | hreader
  · cases stream with
    | none => simp at hstream
    | some s => exact .inl ⟨s, rfl, by simpa [eq_comm] using hstream⟩
  · simp only [Bool.or_eq_false_iff, decide_eq_false_iff_not] at hreader
    exact .inr ⟨hreader.1, f.readerId, rfl, hreader.2⟩

/-- The messages of `others` are the ones that do not leave the queue. -/
theorem ChosenFirst.iff_not_covered {others : QueuedMessage → Prop} {stream : Option ℕ}
    {reader : ℕ} {p : ProxyClient} : ChosenFirst others stream reader p ↔
      ∀ m ∈ p.sendQueue, others m → ¬ m.Covered stream reader p.forwards := by
  constructor
  · rintro h m hm hother ⟨g, hg, hchosen, hstream, hsn⟩
    have hlater := h m hm hother g hg hchosen hstream
    omega
  · intro h m hm hother g hg hchosen hstream
    by_contra hlt
    exact h m hm hother ⟨g, hg, hchosen, hstream, Nat.le_of_not_lt hlt⟩

namespace ServiceM

variable (env : ServiceEnv) (c : ℕ)

/-- Once the number of rounds exceeds that of the messages in the queues, it does not
matter. -/
theorem dismissChosen_rounds {stream : Option ℕ} {reader n n' : ℕ} {a : Service}
    (h : QueueInv (a.client c)) (hn : (a.client c).sendQueue.length < n)
    (hn' : (a.client c).sendQueue.length < n') :
    dismissChosen env c stream reader n a = dismissChosen env c stream reader n' a := by
  induction n generalizing n' a with
  | zero => exact absurd hn (Nat.not_lt_zero _)
  | succ n ih =>
      cases n' with
      | zero => exact absurd hn' (Nat.not_lt_zero _)
      | succ n' =>
          cases hfind : (a.client c).forwards.find? (ForwardDataRequest.chosen stream reader) with
          | none => rw [dismissChosen, dismissChosen, read_bind_apply, read_bind_apply, hfind]
          | some g =>
              obtain ⟨b, hb, hinv, -, -, hshorter⟩ := dismissChosen_round env c h hfind
              rw [hb n, hb n']
              exact ih hinv (by omega) (by omega)

/-- What is left in the queues. -/
theorem dismissChosen_sendQueue (stream : Option ℕ) (reader n : ℕ) {a : Service}
    (h : QueueInv (a.client c)) (hn : (a.client c).sendQueue.length < n) (m : QueuedMessage) :
    m ∈ ((dismissChosen env c stream reader n a).2.client c).sendQueue ↔
      m ∈ (a.client c).sendQueue ∧ ¬ m.Covered stream reader (a.client c).forwards := by
  induction n generalizing a with
  | zero => exact absurd hn (Nat.not_lt_zero _)
  | succ n ih =>
      cases hfind : (a.client c).forwards.find? (ForwardDataRequest.chosen stream reader) with
      | none =>
          rw [dismissChosen, read_bind_apply, hfind]
          refine (and_iff_left ?_).symm
          rintro ⟨g, hg, hchosen, -⟩
          exact List.find?_eq_none.1 hfind g hg hchosen
      | some g =>
          obtain ⟨b, hb, hinv, hround, hqueue, hshorter⟩ := dismissChosen_round env c h hfind
          have hcovered := covered_iff_of_round (List.mem_of_find?_eq_some hfind)
            (List.find?_some hfind) hround.sublist hround.forwards ⟨0, 0, m.streamId, m.sn⟩
          have hkept : m ∈ (b.client c).sendQueue ↔
              m ∈ (a.client c).sendQueue ∧ ¬ (m.streamId = g.streamId ∧ m.sn ≤ g.sn) := by
            rw [hqueue, List.mem_filter, Bool.not_eq_true', Bool.and_eq_false_iff, not_and_or]
            simp only [decide_eq_false_iff_not]
          rw [hb n, ih hinv (by omega), hkept, and_assoc, ← not_or]
          exact and_congr_right fun _ => not_congr hcovered

/-- The queued messages of `others` stay exactly when none of them was sent before a chosen
forward request. -/
theorem stay_iff_chosenFirst {a b : Service} (h : QueueInv (a.client c)) {stream : Option ℕ}
    {reader : ℕ} (hb : dismissClientFwdDataRequests env c stream reader a = (some (), b))
    (others : QueuedMessage → Prop) :
    (∀ m ∈ (a.client c).sendQueue, others m → m ∈ (b.client c).sendQueue) ↔
      ChosenFirst others stream reader (a.client c) := by
  have hqueue := dismissChosen_sendQueue env c stream reader _ h (Nat.lt_succ_self _)
  rw [show dismissChosen env c stream reader _ a = (some (), b) from hb] at hqueue
  rw [ChosenFirst.iff_not_covered]
  refine forall₂_congr fun m hm => imp_congr_right fun _ => ?_
  rw [hqueue m]
  exact and_iff_right hm

/-- **Dismissal of forward requests.** When every pending forward request has its message in
the queues, the loop ends, and it dismisses the chosen forward requests without touching the
forward requests and the messages of other readers and streams exactly when none of them was
sent after such a message on its stream. The messages that are of no reader stay as well when
none of them was sent after one of these either. -/
theorem dismissed_iff_chosenFirst {a : Service} (h : QueueInv (a.client c)) (stream : Option ℕ)
    (reader : ℕ) :
    ((∃ b, dismissClientFwdDataRequests env c stream reader a = (some (), b) ∧
      (∀ n, (a.client c).sendQueue.length < n →
        dismissChosen env c stream reader n a = (some (), b)) ∧
      DismissesChosen c stream reader a b) ↔
        ChosenFirst (QueuedMessage.OfOther stream reader) stream reader (a.client c)) ∧
    ((∃ b, dismissClientFwdDataRequests env c stream reader a = (some (), b) ∧
      ∀ m ∈ (a.client c).sendQueue, m.Unchosen stream reader → m ∈ (b.client c).sendQueue) ↔
        ChosenFirst (QueuedMessage.Unchosen stream reader) stream reader (a.client c)) := by
  obtain ⟨b, hb, -, hdismissal⟩ := dismissClientFwdDataRequests_spec env c stream reader h
  have hstay := stay_iff_chosenFirst env c h hb
  constructor
  · rw [← hstay]
    constructor
    · rintro ⟨b', hb', -, hdismisses⟩
      rw [hb] at hb'
      cases hb'
      exact hdismisses.messages
    · intro hmessages
      refine ⟨b, hb, fun n hn => ?_, fun f hf => ?_, fun f hf hother => ?_, hmessages⟩
      · rw [dismissChosen_rounds env c h hn (Nat.lt_succ_self _)]
        exact hb
      · have hold := hdismissal.sublist.subset hf
        by_contra hchosen
        refine (hdismissal.forwards f hold).1 hf ⟨f, hold, ?_, rfl, le_rfl⟩
        exact by simpa using hchosen
      · -- its message stays, so it was not sent before a chosen one
        refine (hdismissal.forwards f hf).2 ?_
        exact ChosenFirst.iff_not_covered.1 ((hstay _).1 hmessages) _ (h.queued f hf)
          (ForwardDataRequest.ofOther_of_not_chosen hother)
  · rw [← hstay]
    constructor
    · rintro ⟨b', hb', hunchosen⟩
      rw [hb] at hb'
      cases hb'
      exact hunchosen
    · exact fun hunchosen => ⟨b, hb, hunchosen⟩

end ServiceM

namespace Service

/-- A client creates two readers on the best-effort stream 1 and reads them on the reliable
stream 128, and a sample of each was sent to it, first of reader 7 and then of reader 8. -/
def twoSamplesSent : Service :=
  (started true 0 0).after [
    (.receiveMessage .first (.createClient 5 1), .obliging),
    (.receiveMessage .first (messageOn 5 1),
      { carrying [createReader 7, createReader 8, readData 7 128, readData 8 128] with
        stream := some 1 }),
    (.deliverSample ⟨5, 1⟩ 7 3, .obliging),
    (.deliverSample ⟨5, 1⟩ 8 4, .obliging)]

theorem twoSamplesSent_queueInv : QueueInv (twoSamplesSent.client 0) :=
  queuesSound_of_reached (reached_after (started_initial true 0 0) _) 0 (by decide +kernel)

/-- The sample that was sent first can be dismissed without the other one. -/
theorem dismissed_firstSample :
    ∃ b, ServiceM.dismissClientFwdDataRequests .obliging 0 none 7 twoSamplesSent = (some (), b) ∧
      (∀ n, (twoSamplesSent.client 0).sendQueue.length < n →
        ServiceM.dismissChosen .obliging 0 none 7 n twoSamplesSent = (some (), b)) ∧
      DismissesChosen 0 none 7 twoSamplesSent b :=
  (ServiceM.dismissed_iff_chosenFirst .obliging 0 twoSamplesSent_queueInv none 7).1.2
    (by decide +kernel)

/-- When reader 8 is dismissed, the sample of reader 7 is dismissed with it. -/
theorem not_dismissed_alone :
    ¬ ∀ (a : Service), a.ReachedWhen (fun _ _ => True) → ∀ c < a.clientsPool.next,
      ∀ env stream reader, ∃ b,
        ServiceM.dismissClientFwdDataRequests env c stream reader a = (some (), b) ∧
        DismissesChosen c stream reader a b := by
  intro hall
  obtain ⟨b, hb, hdismisses⟩ := hall twoSamplesSent (reached_after (started_initial true 0 0) _) 0
    (by decide +kernel) .obliging none 8
  have hgone : ∀ f ∈ ((ServiceM.dismissClientFwdDataRequests .obliging 0 none 8
      twoSamplesSent).2.client 0).forwards, f.readerId ≠ 7 := by decide +kernel
  rw [hb] at hgone
  obtain ⟨f, hf, hother, hreader⟩ : ∃ f ∈ (twoSamplesSent.client 0).forwards,
      f.chosen none 8 = false ∧ f.readerId = 7 := by decide +kernel
  exact hgone f (hdismisses.others f hf hother) hreader

end Service

end NanoAgent
