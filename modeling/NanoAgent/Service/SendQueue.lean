import NanoAgent.Service.ProxyClient

/-!
# Send queues and forward requests

A sample that is sent on a reliable stream is known by a forward request until its
message leaves the send queue of the stream. `QueueInv` says that every forward
request has its message in the queue, under a sequence number of its own.

`Dismissal env c D a b` says that from `a` to `b` the forward requests of the client
`c` that satisfy `D` were dismissed, and no others, and that their samples were
returned. Taking messages out of the queue dismisses the forward requests of these
messages; `dismissClientFwdDataRequests_dismissal` is what this comes to for the
forward requests of a reader or of a stream.
-/

namespace NanoAgent

open Prog

namespace Service

@[simp] theorem client_updateClient_self (a : Service) (c : ℕ) (f : ProxyClient → ProxyClient) :
    (a.updateClient c f).client c = f (a.client c) := by
  simp [updateClient, client]

theorem client_updateClient (a : Service) (c d : ℕ) (f : ProxyClient → ProxyClient) :
    (a.updateClient c f).client d = if d = c then f (a.client d) else a.client d := by
  simp [updateClient, client, BufferPool.content_update]

@[simp] theorem client_send (a : Service) (c d : ℕ) (kind : OutputKind) :
    (a.send c kind).client d = a.client d := rfl

end Service

/-- The stream and the sequence number of the message of a forward request. -/
def ForwardDataRequest.address (f : ForwardDataRequest) : ℕ × ℕ := (f.streamId, f.sn)

/-- The stream and the sequence number of a message. -/
def QueuedMessage.address (m : QueuedMessage) : ℕ × ℕ := (m.streamId, m.sn)

/-- Every forward request has its message in the send queue, and the messages of a
stream are told apart by their sequence numbers. -/
structure QueueInv (p : ProxyClient) : Prop where
  queued : ∀ f ∈ p.forwards, ⟨f.streamId, f.sn, .data f.readerId⟩ ∈ p.sendQueue
  distinct : (p.forwards.map ForwardDataRequest.address).Nodup
  unique : (p.sendQueue.map QueuedMessage.address).Nodup
  numbered : ∀ m ∈ p.sendQueue, m.sn ≤ p.lastSn m.streamId

/-- What of a client its queues and forward requests are. -/
structure ProxyClient.Traffic where
  forwards : List ForwardDataRequest
  sendQueue : List QueuedMessage
  lastSn : ℕ → ℕ

def ProxyClient.traffic (p : ProxyClient) : ProxyClient.Traffic :=
  ⟨p.forwards, p.sendQueue, p.lastSn⟩

namespace QueueInv

variable {p q : ProxyClient}

theorem of_traffic (h : QueueInv p) (hpq : q.traffic = p.traffic) : QueueInv q := by
  have hforwards : q.forwards = p.forwards := congrArg ProxyClient.Traffic.forwards hpq
  have hqueue : q.sendQueue = p.sendQueue := congrArg ProxyClient.Traffic.sendQueue hpq
  have hsn : q.lastSn = p.lastSn := congrArg ProxyClient.Traffic.lastSn hpq
  refine ⟨?_, ?_, ?_, ?_⟩
  · rw [hforwards, hqueue]
    exact h.queued
  · rw [hforwards]
    exact h.distinct
  · rw [hqueue]
    exact h.unique
  · rw [hqueue, hsn]
    exact h.numbered

theorem initializer : QueueInv .initializer :=
  ⟨(fun _ hf => by cases hf), List.nodup_nil, List.nodup_nil, fun _ hm => by cases hm⟩

theorem le_lastSn (h : QueueInv p) {stream : ℕ}
    (hsn : q.lastSn = Function.update p.lastSn stream (p.lastSn stream + 1)) {m : QueuedMessage}
    (hm : m ∈ p.sendQueue) : m.sn ≤ q.lastSn m.streamId := by
  have hold := h.numbered m hm
  rw [hsn]
  by_cases hs : m.streamId = stream
  · rw [hs] at hold ⊢
    rw [Function.update_self]
    omega
  · rw [Function.update_of_ne hs]
    exact hold

/-- The next message of a stream that keeps none. -/
theorem skip (h : QueueInv p) (stream : ℕ) (hforwards : q.forwards = p.forwards)
    (hqueue : q.sendQueue = p.sendQueue)
    (hsn : q.lastSn = Function.update p.lastSn stream (p.lastSn stream + 1)) : QueueInv q := by
  refine ⟨?_, by rw [hforwards]; exact h.distinct, by rw [hqueue]; exact h.unique, ?_⟩
  · rw [hforwards, hqueue]
    exact h.queued
  · intro m hm
    rw [hqueue] at hm
    exact h.le_lastSn hsn hm

/-- The next message of a reliable stream. -/
theorem push (h : QueueInv p) (stream : ℕ) (kind : OutputKind)
    (hforwards : q.forwards = p.forwards)
    (hqueue : q.sendQueue = p.sendQueue ++ [⟨stream, p.lastSn stream + 1, kind⟩])
    (hsn : q.lastSn = Function.update p.lastSn stream (p.lastSn stream + 1)) : QueueInv q := by
  refine ⟨fun f hf => ?_, by rw [hforwards]; exact h.distinct, ?_, fun m hm => ?_⟩
  · rw [hforwards] at hf
    rw [hqueue]
    exact List.mem_append_left _ (h.queued f hf)
  · rw [hqueue, List.map_append, List.nodup_append]
    refine ⟨h.unique, List.nodup_singleton _, fun x hx y hy heq => ?_⟩
    obtain ⟨m, hm, rfl⟩ := List.mem_map.1 hx
    rw [List.map_singleton, List.mem_singleton] at hy
    rw [hy, QueuedMessage.address, QueuedMessage.address, Prod.mk.injEq] at heq
    have hold := h.numbered m hm
    rw [heq.1, heq.2] at hold
    exact Nat.not_succ_le_self _ hold
  · rw [hqueue] at hm
    rcases List.mem_append.1 hm with hm | hm
    · exact h.le_lastSn hsn hm
    · rw [List.mem_singleton.1 hm, hsn]
      simp

/-- The next message of a reliable stream, with a forward request for it. -/
theorem forward (h : QueueInv p) (stream d id : ℕ)
    (hforwards : q.forwards = p.forwards ++ [⟨d, id, stream, p.lastSn stream + 1⟩])
    (hqueue : q.sendQueue = p.sendQueue ++ [⟨stream, p.lastSn stream + 1, .data id⟩])
    (hsn : q.lastSn = Function.update p.lastSn stream (p.lastSn stream + 1)) : QueueInv q := by
  have hpush : QueueInv { q with forwards := p.forwards } := h.push stream (.data id) rfl hqueue hsn
  refine ⟨fun f hf => ?_, ?_, hpush.unique, hpush.numbered⟩
  · rw [hforwards] at hf
    rcases List.mem_append.1 hf with hf | hf
    · exact hpush.queued f hf
    · rw [List.mem_singleton.1 hf, hqueue]
      exact List.mem_append_right _ List.mem_cons_self
  · rw [hforwards, List.map_append, List.nodup_append]
    refine ⟨h.distinct, List.nodup_singleton _, fun x hx y hy heq => ?_⟩
    obtain ⟨f, hf, rfl⟩ := List.mem_map.1 hx
    rw [List.map_singleton, List.mem_singleton] at hy
    rw [hy, ForwardDataRequest.address, ForwardDataRequest.address, Prod.mk.injEq] at heq
    have hold : f.sn ≤ p.lastSn f.streamId := h.numbered _ (h.queued f hf)
    rw [heq.1, heq.2] at hold
    exact Nat.not_succ_le_self _ hold

/-- Fewer forward requests. -/
theorem of_sublist (h : QueueInv p) (hforwards : q.forwards.Sublist p.forwards)
    (hqueue : q.sendQueue = p.sendQueue) (hsn : q.lastSn = p.lastSn) : QueueInv q := by
  refine ⟨fun f hf => ?_, h.distinct.sublist (hforwards.map _), ?_, ?_⟩
  · rw [hqueue]
    exact h.queued f (hforwards.subset hf)
  · rw [hqueue]
    exact h.unique
  · rw [hqueue, hsn]
    exact h.numbered

end QueueInv

/-- The forward requests of `c` that satisfy `D` are dismissed, and no others. The samples
of the dismissed ones are returned, unless the DDS agent refuses them. -/
structure Dismissal (env : ServiceEnv) (c : ℕ) (D : ForwardDataRequest → Prop) (a b : Service) :
    Prop where
  sublist : (b.client c).forwards.Sublist (a.client c).forwards
  forwards : ∀ f ∈ (a.client c).forwards, f ∈ (b.client c).forwards ↔ ¬ D f
  loans : ∀ l, l ∈ b.loans ↔ l ∈ a.loans ∧ ¬ ∃ f ∈ (a.client c).forwards,
    D f ∧ env.ok (.takeBack f.rcvdData) = true ∧ l.rcvdData = f.rcvdData

namespace Dismissal

variable {env : ServiceEnv} {c : ℕ} {D D' : ForwardDataRequest → Prop} {a b d : Service}

theorem congr (h : Dismissal env c D a b) (hD : ∀ f ∈ (a.client c).forwards, D f ↔ D' f) :
    Dismissal env c D' a b where
  sublist := h.sublist
  forwards f hf := by rw [h.forwards f hf, hD f hf]
  loans l := by
    rw [h.loans l]
    refine and_congr_right fun _ => not_congr (exists_congr fun f => ?_)
    exact and_congr_right fun hf => and_congr_left' (hD f hf)

/-- Nothing is dismissed. -/
theorem none (hforwards : (b.client c).forwards = (a.client c).forwards)
    (hloans : b.loans = a.loans) : Dismissal env c (fun _ => False) a b where
  sublist := by rw [hforwards]
  forwards f hf := by simp [hforwards, hf]
  loans l := by simp [hloans]

theorem trans (h : Dismissal env c D a b) (h' : Dismissal env c D' b d) :
    Dismissal env c (fun f => D f ∨ D' f) a d where
  sublist := h'.sublist.trans h.sublist
  forwards f hf := by
    rw [not_or, ← h.forwards f hf]
    constructor
    · intro hd
      have hb := h'.sublist.subset hd
      exact ⟨hb, (h'.forwards f hb).1 hd⟩
    · rintro ⟨hb, hD'⟩
      exact (h'.forwards f hb).2 hD'
  loans l := by
    rw [h'.loans l, h.loans l, and_assoc]
    refine and_congr_right fun _ => ?_
    constructor
    · rintro ⟨hno, hno'⟩ ⟨f, hf, hD | hD', hok, hl⟩
      · exact hno ⟨f, hf, hD, hok, hl⟩
      · by_cases hD : D f
        · exact hno ⟨f, hf, hD, hok, hl⟩
        · exact hno' ⟨f, (h.forwards f hf).2 hD, hD', hok, hl⟩
    · intro hno
      refine ⟨?_, ?_⟩
      · rintro ⟨f, hf, hD, hok, hl⟩
        exact hno ⟨f, hf, .inl hD, hok, hl⟩
      · rintro ⟨f, hf, hD', hok, hl⟩
        exact hno ⟨f, h.sublist.subset hf, .inr hD', hok, hl⟩

end Dismissal

/-- Of the client `c` only forward requests have changed. -/
def OnlyForwards (c : ℕ) (a b : Service) : Prop :=
  b.client c = { a.client c with forwards := (b.client c).forwards }

instance (c : ℕ) : IsPreorder Service (OnlyForwards c) where
  refl _ := rfl
  trans a b d h h' := by
    rw [OnlyForwards] at h h' ⊢
    rw [h', h]

/-- The queues and forward requests of the client `c` and the loans stay. -/
def SameTraffic (c : ℕ) (a b : Service) : Prop :=
  (b.client c).traffic = (a.client c).traffic ∧ b.loans = a.loans

instance (c : ℕ) : IsPreorder Service (SameTraffic c) where
  refl _ := ⟨rfl, rfl⟩
  trans _ _ _ h h' := ⟨h'.1.trans h.1, h'.2.trans h.2⟩

theorem SameTraffic.forwards {c : ℕ} {a b : Service} (h : SameTraffic c a b) :
    (b.client c).forwards = (a.client c).forwards :=
  congrArg ProxyClient.Traffic.forwards h.1

theorem SameTraffic.sendQueue {c : ℕ} {a b : Service} (h : SameTraffic c a b) :
    (b.client c).sendQueue = (a.client c).sendQueue :=
  congrArg ProxyClient.Traffic.sendQueue h.1

theorem SameTraffic.updateClient (a : Service) (c : ℕ) {f : ProxyClient → ProxyClient}
    (hf : ∀ p, (f p).traffic = p.traffic) : SameTraffic c a (a.updateClient c f) :=
  ⟨by rw [Service.client_updateClient_self, hf], rfl⟩

/-- Dismissing the chosen forward requests takes the messages of their streams out of
the queues up to theirs, so it also dismisses what was sent before them. -/
def ForwardDataRequest.Covered (stream : Option ℕ) (reader : ℕ) (l : List ForwardDataRequest)
    (f : ForwardDataRequest) : Prop :=
  ∃ g ∈ l, g.chosen stream reader = true ∧ f.streamId = g.streamId ∧ f.sn ≤ g.sn

namespace ServiceM

variable (env : ServiceEnv) (c : ℕ)

theorem allocateStreamStorage_sameTraffic (n : ℕ) :
    Within (SameTraffic c) (allocateStreamStorage env c n) := by
  refine .ensureThen fun _ => .read fun a => .bind (.modify fun b => ⟨rfl, rfl⟩) fun _ => ?_
  exact .bind (.modify fun b => .updateClient b c fun _ => rfl) fun _ => .pure _

theorem lookupStream_sameTraffic (stream : ℕ) :
    Within (SameTraffic c) (lookupStream env c stream) := by
  refine .read fun a => .ite (fun _ => .pure _) fun _ => ?_
  refine .bind (allocateStreamStorage_sameTraffic env c _) fun r => .bind ?_ fun _ => ?_
  · refine .onFailure (.ensure _) (.modify fun b => ?_)
    exact SameTraffic.updateClient b c
      (f := fun p => { p with streamStorage := p.streamStorage.erase r }) fun _ => rfl
  · exact .modify fun b => .updateClient b c fun _ => rfl

theorem returnLoan_client (d : ℕ) (a : Service) :
    (returnLoan env d a).2.client c = a.client c := by
  unfold returnLoan
  cases htake : env.ok (.takeBack d) <;> simp [bind_apply, ensure, Service.client]

theorem returnLoan_loans (d : ℕ) (a : Service) : (returnLoan env d a).2.loans =
    if env.ok (.takeBack d) then a.loans.filter fun l => l.rcvdData != d else a.loans := by
  unfold returnLoan
  cases htake : env.ok (.takeBack d) <;> simp [bind_apply, ensure]

theorem dismissForwardRequest_onlyForwards (stream sn : ℕ) :
    Within (OnlyForwards c) (dismissForwardRequest env c stream sn) := by
  refine .read fun a => ?_
  cases (a.client c).forwards.find? fun f => f.streamId = stream && f.sn = sn with
  | none => exact .pure _
  | some f =>
      refine .bind (.modify fun b => ?_) fun _ b => ?_
      · rw [OnlyForwards, Service.client_updateClient_self]
      · rw [OnlyForwards, returnLoan_client]

theorem onSendComplete_onlyForwards (m : QueuedMessage) :
    Within (OnlyForwards c) (onSendComplete env c m) :=
  .onlyIf fun _ => .ignore (dismissForwardRequest_onlyForwards env c _ _)

variable {a : Service}

/-- The forward request of a message is dismissed. -/
theorem dismissForwardRequest_dismissal
    (h : ((a.client c).forwards.map ForwardDataRequest.address).Nodup) (stream sn : ℕ) :
    Dismissal env c (fun f => f.address = (stream, sn)) a
      (dismissForwardRequest env c stream sn a).2 := by
  unfold dismissForwardRequest
  rw [read_bind_apply]
  cases hfind : (a.client c).forwards.find? fun f => f.streamId = stream && f.sn = sn with
  | none =>
      refine (Dismissal.none rfl rfl).congr fun f hf => ?_
      have hno := List.find?_eq_none.1 hfind f hf
      simpa [ForwardDataRequest.address] using hno
  | some f =>
      have hmem := List.mem_of_find?_eq_some hfind
      have haddr : f.address = (stream, sn) := by
        simpa [ForwardDataRequest.address] using List.find?_some hfind
      -- it is the only forward request of the message
      have hsame : ∀ g ∈ (a.client c).forwards, g.address = (stream, sn) ↔ g = f := by
        intro g hg
        refine ⟨fun hgaddr => ?_, fun hgf => by rw [hgf, haddr]⟩
        exact List.inj_on_of_nodup_map h hg hmem (hgaddr.trans haddr.symm)
      have herase : ∀ g ∈ (a.client c).forwards, g ∈ (a.client c).forwards.erase f ↔
          ¬ g.address = (stream, sn) := by
        intro g hg
        rw [hsame g hg, h.of_map.mem_erase_iff]
        exact and_iff_left hg
      dsimp only
      rw [modify_bind_apply]
      set b := a.updateClient c fun p => { p with forwards := p.forwards.erase f } with hb
      have hforwards : (b.client c).forwards = (a.client c).forwards.erase f := by
        rw [hb, Service.client_updateClient_self]
      have hloans : b.loans = a.loans := rfl
      refine ⟨?_, fun g hg => ?_, fun l => ?_⟩
      · rw [returnLoan_client, hforwards]
        exact List.erase_sublist
      · rw [returnLoan_client, hforwards]
        exact herase g hg
      · rw [returnLoan_loans, hloans]
        split
        · rename_i hok
          rw [List.mem_filter, bne_iff_ne]
          refine and_congr_right fun _ => not_congr ⟨fun hl => ?_, ?_⟩
          · exact ⟨f, hmem, haddr, hok, hl⟩
          · rintro ⟨g, hg, hgaddr, -, hl⟩
            rw [(hsame g hg).1 hgaddr] at hl
            exact hl
        · rename_i hok
          refine (and_iff_left ?_).symm
          rintro ⟨g, hg, hgaddr, hgok, -⟩
          rw [(hsame g hg).1 hgaddr] at hgok
          exact hok hgok

theorem onSendComplete_dismissal
    (h : ((a.client c).forwards.map ForwardDataRequest.address).Nodup) (m : QueuedMessage) :
    Dismissal env c (fun f => m.kind.isData = true ∧ f.address = m.address) a
      (onSendComplete env c m a).2 := by
  unfold onSendComplete
  cases hdata : m.kind.isData with
  | false => exact (Dismissal.none rfl rfl).congr fun f _ => by simp
  | true =>
      refine (dismissForwardRequest_dismissal env c h m.streamId m.sn).congr fun f _ => ?_
      simp [QueuedMessage.address]

/-- The forward requests of a list of messages are dismissed. -/
theorem forEach_onSendComplete (gone : List QueuedMessage) {a : Service}
    (h : ((a.client c).forwards.map ForwardDataRequest.address).Nodup) :
    ∃ b, forEach gone (onSendComplete env c) a = (some (), b) ∧ OnlyForwards c a b ∧
      Dismissal env c (fun f => ∃ m ∈ gone, m.kind.isData = true ∧ f.address = m.address) a b := by
  induction gone generalizing a with
  | nil => exact ⟨a, rfl, refl a, (Dismissal.none rfl rfl).congr fun f _ => by simp⟩
  | cons m gone ih =>
      have hround := onSendComplete_dismissal env c h m
      have hres : (onSendComplete env c m a).1 = some () := by
        unfold onSendComplete
        cases m.kind.isData with
        | false => rfl
        | true => rfl
      obtain ⟨b, hb, honly, hrest⟩ := ih (h.sublist (hround.sublist.map _))
      refine ⟨b, bind_eq_some.2 ⟨(), _, eq_of_fst_eq_some hres, hb⟩, ?_, ?_⟩
      · exact IsTrans.trans _ _ _ (onSendComplete_onlyForwards env c m a) honly
      · refine (hround.trans hrest).congr fun f _ => ?_
        simp

/-- Taking the messages of a stream up to a sequence number out of the send queue
dismisses the forward requests of these messages. -/
theorem dismissSendQueueUpTo_spec (h : QueueInv (a.client c)) (stream sn : ℕ) :
    ∃ b, dismissSendQueueUpTo env c stream sn a =
        (some ((a.client c).sendQueue.filter fun m => m.streamId = stream && m.sn ≤ sn).length, b) ∧
      (b.client c).sendQueue =
        ((a.client c).sendQueue.filter fun m => !(m.streamId = stream && m.sn ≤ sn)) ∧
      QueueInv (b.client c) ∧
      Dismissal env c (fun f => f.streamId = stream ∧ f.sn ≤ sn) a b := by
  unfold dismissSendQueueUpTo
  rw [read_bind_apply, modify_bind_apply]
  set gone := (a.client c).sendQueue.filter fun m => m.streamId = stream && m.sn ≤ sn with hgone
  set a₁ := a.updateClient c fun p =>
    { p with sendQueue := p.sendQueue.filter fun m => !(m.streamId = stream && m.sn ≤ sn) } with ha₁
  have hclient : a₁.client c = { a.client c with
      sendQueue := (a.client c).sendQueue.filter fun m =>
        !(m.streamId = stream && m.sn ≤ sn) } := by
    rw [ha₁, Service.client_updateClient_self]
  have hforwards : (a₁.client c).forwards = (a.client c).forwards := by rw [hclient]
  obtain ⟨b, hb, honly, hdismissed⟩ := forEach_onSendComplete env c gone (a := a₁)
    (by rw [hforwards]; exact h.distinct)
  -- the forward requests of the messages are those of the stream up to the number
  have hgone_iff : ∀ f ∈ (a.client c).forwards,
      (∃ m ∈ gone, m.kind.isData = true ∧ f.address = m.address) ↔ f.streamId = stream ∧
        f.sn ≤ sn := by
    intro f hf
    constructor
    · rintro ⟨m, hm, -, haddr⟩
      rw [ForwardDataRequest.address, QueuedMessage.address, Prod.mk.injEq] at haddr
      rw [haddr.1, haddr.2]
      simpa using (List.mem_filter.1 hm).2
    · rintro ⟨hstream, hsn⟩
      refine ⟨⟨f.streamId, f.sn, .data f.readerId⟩, List.mem_filter.2 ⟨h.queued f hf, ?_⟩, rfl, rfl⟩
      simp [hstream, hsn]
  have hdismissal : Dismissal env c (fun f => f.streamId = stream ∧ f.sn ≤ sn) a b := by
    have hstart : Dismissal env c (fun _ => False) a a₁ := .none hforwards rfl
    refine (hstart.trans hdismissed).congr fun f hf => ?_
    rw [false_or]
    exact hgone_iff f hf
  have hbclient := honly
  rw [OnlyForwards, hclient] at hbclient
  have hqueue : (b.client c).sendQueue =
      ((a.client c).sendQueue.filter fun m => !(m.streamId = stream && m.sn ≤ sn)) := by
    rw [hbclient]
  refine ⟨b, ?_, hqueue, ⟨fun f hf => ?_, ?_, ?_, fun m hm => ?_⟩, hdismissal⟩
  · exact bind_eq_some.2 ⟨(), b, hb, rfl⟩
  · have hold := hdismissal.sublist.subset hf
    have hkept := (hdismissal.forwards f hold).1 hf
    rw [hqueue]
    refine List.mem_filter.2 ⟨h.queued f hold, ?_⟩
    simpa [imp_iff_not_or] using hkept
  · exact h.distinct.sublist (hdismissal.sublist.map _)
  · rw [hqueue]
    exact h.unique.sublist (List.filter_sublist.map _)
  · have hsn : (b.client c).lastSn = (a.client c).lastSn := by rw [hbclient]
    rw [hqueue] at hm
    rw [hsn]
    exact h.numbered m (List.mem_filter.1 hm).1

/-- A round of the dismissal and what follows it. -/
theorem covered_iff_of_round {stream : Option ℕ} {reader : ℕ} {l l' : List ForwardDataRequest}
    {g : ForwardDataRequest} (hg : g ∈ l) (hchosen : g.chosen stream reader = true)
    (hsub : l'.Sublist l)
    (hl' : ∀ f ∈ l, f ∈ l' ↔ ¬ (f.streamId = g.streamId ∧ f.sn ≤ g.sn)) (f : ForwardDataRequest) :
    (f.streamId = g.streamId ∧ f.sn ≤ g.sn) ∨ f.Covered stream reader l' ↔
      f.Covered stream reader l := by
  constructor
  · rintro (hf | ⟨g', hg', hrest⟩)
    · exact ⟨g, hg, hchosen, hf⟩
    · exact ⟨g', hsub.subset hg', hrest⟩
  · rintro ⟨g', hg', hchosen', hstream, hsn⟩
    by_cases hgone : g'.streamId = g.streamId ∧ g'.sn ≤ g.sn
    · exact .inl ⟨hstream.trans hgone.1, Nat.le_trans hsn hgone.2⟩
    · exact .inr ⟨g', (hl' g' hg').2 hgone, hchosen', hstream, hsn⟩

/-- A round of the loop that dismisses forward requests. The message of the chosen forward
request leaves the queue, so the queue gets shorter. -/
theorem dismissChosen_round {stream : Option ℕ} {reader : ℕ} {a : Service}
    (h : QueueInv (a.client c)) {g : ForwardDataRequest}
    (hfind : (a.client c).forwards.find? (ForwardDataRequest.chosen stream reader) = some g) :
    ∃ b, (∀ n, dismissChosen env c stream reader (n + 1) a =
      dismissChosen env c stream reader n b) ∧
      QueueInv (b.client c) ∧
      Dismissal env c (fun f => f.streamId = g.streamId ∧ f.sn ≤ g.sn) a b ∧
      (b.client c).sendQueue = ((a.client c).sendQueue.filter fun m =>
        !(m.streamId = g.streamId && m.sn ≤ g.sn)) ∧
      (b.client c).sendQueue.length < (a.client c).sendQueue.length := by
  have hg := List.mem_of_find?_eq_some hfind
  have htraffic := lookupStream_sameTraffic env c g.streamId a
  set a₁ := (lookupStream env c g.streamId a).2 with ha₁
  obtain ⟨b, hb, hqueue, hinv, hround⟩ :=
    dismissSendQueueUpTo_spec env c (h.of_traffic htraffic.1) g.streamId g.sn
  have hstart : Dismissal env c (fun _ => False) a a₁ := .none htraffic.forwards htraffic.2
  have hmem : ⟨g.streamId, g.sn, .data g.readerId⟩ ∈ (a₁.client c).sendQueue := by
    rw [htraffic.sendQueue]
    exact h.queued g hg
  have hremoved : 0 < ((a₁.client c).sendQueue.filter fun m =>
      m.streamId = g.streamId && m.sn ≤ g.sn).length :=
    List.length_pos_of_mem (List.mem_filter.2 ⟨hmem, by simp⟩)
  refine ⟨b, fun n => ?_, hinv, (hstart.trans hround).congr fun f _ => by rw [false_or], ?_, ?_⟩
  · rw [dismissChosen, read_bind_apply, hfind]
    have hlookup : ignore (lookupStream env c g.streamId) a = (some (), a₁) := rfl
    dsimp only
    rw [bind_apply, hlookup]
    dsimp only
    rw [bind_apply, hb]
    dsimp only
    rw [if_neg (Nat.pos_iff_ne_zero.1 hremoved)]
  · rw [hqueue, htraffic.sendQueue]
  · have hsplit := List.length_eq_length_filter_add (l := (a₁.client c).sendQueue)
      fun m => decide (m.streamId = g.streamId) && decide (m.sn ≤ g.sn)
    rw [htraffic.sendQueue] at hsplit hremoved
    rw [hqueue, htraffic.sendQueue]
    omega

/-- The loop that dismisses forward requests ends, with none of the chosen ones
left. -/
theorem dismissChosen_spec (stream : Option ℕ) (reader n : ℕ) {a : Service}
    (h : QueueInv (a.client c)) (hn : (a.client c).sendQueue.length < n) :
    ∃ b, dismissChosen env c stream reader n a = (some (), b) ∧ QueueInv (b.client c) ∧
      Dismissal env c (ForwardDataRequest.Covered stream reader (a.client c).forwards) a b := by
  induction n generalizing a with
  | zero => exact absurd hn (Nat.not_lt_zero _)
  | succ n ih =>
      cases hfind : (a.client c).forwards.find? (ForwardDataRequest.chosen stream reader) with
      | none =>
          refine ⟨a, ?_, h, (Dismissal.none rfl rfl).congr fun f _ => ?_⟩
          · rw [dismissChosen, read_bind_apply, hfind]
            rfl
          · refine iff_of_false id ?_
            rintro ⟨g, hg, hchosen, -⟩
            exact List.find?_eq_none.1 hfind g hg hchosen
      | some g =>
          obtain ⟨b, hb, hinv, hround, -, hshorter⟩ := dismissChosen_round env c h hfind
          obtain ⟨d, hd, hdinv, hrest⟩ := ih hinv (by omega)
          refine ⟨d, (hb n).trans hd, hdinv, (hround.trans hrest).congr fun f _ => ?_⟩
          exact covered_iff_of_round (List.mem_of_find?_eq_some hfind) (List.find?_some hfind)
            hround.sublist hround.forwards f

theorem dismissClientFwdDataRequests_spec (stream : Option ℕ) (reader : ℕ) {a : Service}
    (h : QueueInv (a.client c)) :
    ∃ b, dismissClientFwdDataRequests env c stream reader a = (some (), b) ∧
      QueueInv (b.client c) ∧
      Dismissal env c (ForwardDataRequest.Covered stream reader (a.client c).forwards) a b :=
  dismissChosen_spec env c stream reader _ h (Nat.lt_succ_self _)

/-- No forward request is left when those of every stream and reader are
dismissed. -/
theorem forwards_dismissAll {a b : Service}
    (h : Dismissal env c (ForwardDataRequest.Covered none attachedResourceIdInvalid
      (a.client c).forwards) a b) : (b.client c).forwards = [] := by
  refine List.eq_nil_iff_forall_not_mem.2 fun f hf => ?_
  have hold := h.sublist.subset hf
  refine (h.forwards f hold).1 hf ⟨f, hold, ?_, rfl, le_rfl⟩
  simp [ForwardDataRequest.chosen]

end ServiceM

end NanoAgent
