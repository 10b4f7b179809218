import NanoAgent.DdsAgent.ReadTally

/-!
# The retries that a data event posts

The exit of `readFromReaderEA` posts the event of its read again, with a delay, when the loop
over the batch was left with a sample to be offered again. The agent logs the events that were
posted so (`Agent.retries`). Nothing else that a data event does posts one, so that the log
grows by the retry of the loop, or not at all (`onDataOnReader_retries`).
-/

namespace NanoAgent

open Prog

/-- No retry is posted. -/
def PostsNothing (a b : Agent) : Prop := b.retries = a.retries

instance : IsPreorder Agent PostsNothing where
  refl _ := rfl
  trans _ _ _ h h' := Eq.trans h' h

namespace AgentM

variable (env : Env)

theorem deref_postsNothing (id : ResourceId) (r : Resource) :
    Within PostsNothing (deref id r) := by
  refine .bind (.modify fun a => ?_) fun _ => .require _
  unfold PostsNothing
  split <;> rfl

theorem readFromReaderDdsEA_postsNothing (n : ℕ) :
    Within PostsNothing (readFromReaderDdsEA env n) :=
  .read fun _ => .bind (lookupResource_frame _ _ _) fun _ => .bind (.require _) fun _ =>
    .bind (.ensure _) fun _ => .bind (deref_postsNothing _ _) fun _ => .bind (.require _) fun _ =>
      .bind (.require _) fun _ => .bind (.ensure _) fun _ => .bind (.ensure _) fun _ => .pure _

theorem returnLoanToReaderDdsEA_postsNothing (n : ℕ) (updated : Bool) :
    Within PostsNothing (returnLoanToReaderDdsEA env n updated) :=
  .read fun _ => .bind (lookupResource_frame _ _ _) fun _ => .bind (.require _) fun _ =>
    .bind (.ensure _) fun _ => .bind (deref_postsNothing _ _) fun _ => .bind (.require _) fun _ =>
      .bind (.require _) fun _ => .bind (.ensure _) fun _ =>
        .bind (.onlyIf fun _ _ => rfl) fun _ => .ensure _

theorem convertSampleEA_postsNothing (key : ClientSessionKey) (n : ℕ) (smp : Sample) :
    Within PostsNothing (convertSampleEA env key n smp) := by
  have hmodify : ∀ {f : Agent → Agent}, (∀ a, (f a).retries = a.retries) →
      Within PostsNothing (modify f) := fun hf => .modify hf
  refine .bind (.read fun a => .bind (.require _) fun s => ?_) fun d => ?_
  · cases s.rcvdDataPool with
    | nil => exact .bind (.ensure _) fun _ => .bind (hmodify fun _ => rfl) fun _ => .pure _
    | cons d l => exact .bind (hmodify fun _ => rfl) fun _ => .pure _
  · refine .bind (.onFailure (.read fun a => ?_) (hmodify fun _ => rfl)) fun _ => .pure _
    refine .bind (hmodify fun _ => rfl) fun _ => .bind (.onlyIf fun _ => ?_) fun _ => ?_
    · exact .bind (.ensure _) fun _ => hmodify fun _ => rfl
    · exact .bind (.ensure _) fun _ => .bind (hmodify fun _ => rfl) fun _ =>
        .bind (.require _) fun _ => hmodify fun _ => rfl

theorem processSampleEA_postsNothing (key : ClientSessionKey) (n : ℕ) (smp : Sample) (now : ℕ) :
    Within PostsNothing (processSampleEA env key n smp now) := by
  refine .read fun a => .bind (.require _) fun rd => .ite (fun _ => .pure _) fun _ =>
    .ite (fun _ => .pure _) fun _ => .bind (.ensure _) fun _ =>
      .bind (convertSampleEA_postsNothing env key n smp) fun d => ?_
  cases env.delivery smp with
  | error => exact .bind (.modify fun b => rfl) fun _ => .fail
  | tryAgain => exact .bind (.modify fun b => rfl) fun _ => .pure _
  | accepted retained =>
      refine .bind (.modify fun b => ?_) fun _ => .pure _
      cases retained <;> rfl

theorem processSamplesEA_postsNothing (key : ClientSessionKey) (n now : ℕ) (samples : List Sample)
    (updated : Bool) : Within PostsNothing (processSamplesEA env key n now samples updated) := by
  induction samples generalizing updated with
  | nil => exact .pure _
  | cons smp samples ih =>
      refine .ite (fun _ => ?_) fun _ => ih _
      refine .bind (.attempt (processSampleEA_postsNothing env key n smp now)) fun res => ?_
      rcases res with _ | _ | _ | _
      · exact .pure _
      · exact ih _
      · exact .pure _
      · exact ih _

/-- The loop over a batch always comes to its exit. -/
theorem processSamplesEA_returns (key : ClientSessionKey) (n now : ℕ) (samples : List Sample)
    (updated : Bool) : Returns (processSamplesEA env key n now samples updated) := by
  induction samples generalizing updated with
  | nil => exact .pure _
  | cons smp samples ih =>
      rw [processSamplesEA]
      split
      · refine .bind (fun a => ⟨_, _, rfl⟩) fun res => ?_
        rcases res with _ | _ | _ | _
        · exact .pure _
        · exact ih _
        · exact .pure _
        · exact ih _
      · exact ih _

/-- The events that are posted for a loop that ended so: the read is served again after the
delay. -/
def posted (req : ℕ) : Option ℕ → List (ℕ × ℕ)
  | some delay => if env.ok (.postEvent .readFromReader req) then [(req, delay)] else []
  | none => []

theorem postRetry_retries (req : ℕ) (retry : Option ℕ) (a : Agent) :
    (postRetry env req retry a).2.retries = a.retries ++ posted env req retry := by
  cases retry with
  | none => exact (List.append_nil _).symm
  | some delay =>
      unfold postRetry posted
      cases env.ok (.postEvent .readFromReader req) with
      | true => rfl
      | false => exact (List.append_nil _).symm

/-- The exit of the reading posts the retry with which it was left. -/
theorem leaveReaderEA_retries (n req : ℕ) (loan : Bool) (exit : LoopExit) (done : Bool)
    (a : Agent) : (leaveReaderEA env n req loan exit done a).2.retries =
      a.retries ++ posted env req exit.retry := by
  rw [leaveReaderEA, modify_bind_apply, attempt_bind_apply]
  have hrest : ∀ posted? b, PostsNothing b ((attempt (onlyIf loan
      (returnLoanToReaderDdsEA env n exit.updated)) >>= fun returned =>
        onlyIf done (modify fun a => a.updateRead req fun x => { x with complete := true }) >>=
          fun _ => ensure (exit.success && posted? && returned.isSome)) b).2 := by
    intro posted? b
    refine Within.bind (.attempt (.onlyIf fun _ => ?_)) (fun _ => ?_) b
    · exact returnLoanToReaderDdsEA_postsNothing env n exit.updated
    · exact .bind (.onlyIf fun _ => .modify fun _ => rfl) fun _ => .ensure _
  exact (hrest _ _).trans (postRetry_retries env req exit.retry _)

/-- The exits of `serveBatchEA` post the retry of its loop. -/
theorem serveBatchEA_retries {key : ClientSessionKey} {n req : ℕ} {bounded : Bool}
    {samples : Option (List Sample)} {a b : Agent} {exit : LoopExit}
    (h : processSamplesEA env key n (env.clock 0) (samples.getD []) false a = (some exit, b)) :
    (serveBatchEA env key n req bounded samples a).2.retries =
      a.retries ++ posted env req exit.retry := by
  have hloop : b.retries = a.retries := by
    have hnothing := processSamplesEA_postsNothing env key n (env.clock 0) (samples.getD []) false a
    rwa [h] at hnothing
  rw [serveBatchEA, bind_apply, h, ← hloop]
  dsimp only
  rw [read_bind_apply]
  split
  · rename_i hexit
    have hnone : exit.retry = none := by
      simp only [Bool.and_eq_true] at hexit
      exact Option.isNone_iff_eq_none.1 hexit.2
    split
    · exact leaveReaderEA_retries env n req _ exit _ b
    · rw [hnone]
      exact leaveReaderEA_retries env n req _ _ _ b
  · exact leaveReaderEA_retries env n req _ exit _ b

/-- A reading that does not come to its loop posts nothing. -/
theorem readFromReaderEA_retries_of_none {key : ClientSessionKey} {n req : ℕ} {a : Agent}
    (hreq : (a.attached n).readReq = some req)
    (hnone : (((a.readAt req).isComplete (env.clock 0)).1 &&
      ((a.readAt req).isComplete (env.clock 0)).2) = true ∨
      env.ok (.getTime .readFromReader 0) = false ∨ (readFromReaderDdsEA env n a).1 = none) :
    PostsNothing a (readFromReaderEA env key n a).2 := by
  have hleave : ∀ {b} loan success updated done, PostsNothing a b →
      PostsNothing a (leaveReaderEA env n req loan ⟨success, none, updated⟩ done b).2 := by
    intro b loan success updated done hb
    have h := leaveReaderEA_retries env n req loan ⟨success, none, updated⟩ done b
    exact (h.trans (List.append_nil _)).trans hb
  rw [readFromReaderEA, read_bind_apply, hreq, bind_apply]
  dsimp only [require_apply]
  split
  · exact hleave _ _ _ _ rfl
  rename_i htime
  split
  · exact hleave _ _ _ _ rfl
  rename_i hbounds
  have hdds : (readFromReaderDdsEA env n a).1 = none := by
    rcases hnone with h | h | h
    · exact absurd h hbounds
    · rw [h] at htime
      exact absurd rfl htime
    · exact h
  rw [attempt_bind_apply, hdds]
  exact hleave _ _ _ _ (readFromReaderDdsEA_postsNothing env n a)

theorem noteData_postsNothing (rd req : ℕ) : Within PostsNothing (noteData rd req) :=
  .read fun _ => .bind (.onlyIf fun _ => .modify fun _ => rfl) fun _ => .modify fun _ => rfl

/-- A data event that runs its loop posts the retry with which the loop was left. -/
theorem onDataOnReader_retries_of_loop {rd n req : ℕ} {samples : List Sample} {a b c : Agent}
    {exit : LoopExit} (h : toLoop env rd a = (some (n, req, samples), b))
    (hexit : processSamplesEA env (a.readAt rd).sessionKey n (env.clock 0) samples false b =
      (some exit, c)) :
    (onDataOnReader env rd a).2.retries = a.retries ++ posted env req exit.retry := by
  obtain ⟨d, batch, hfirst, hbounds, hdds, rfl⟩ := toLoop_eq_some env h
  have htime := ((toFirstEvaluation_eq_some env).1 hfirst).2.2.2.2.1
  obtain ⟨-, -, -, -, -, rfl⟩ := (toFirstEvaluation_eq_some env).1 hfirst
  have hbefore : b.retries = a.retries := by
    have hread := readFromReaderDdsEA_postsNothing env n (noteData rd req a).2
    rw [hdds] at hread
    exact hread.trans (noteData_postsNothing rd req a)
  have hserve : (readFromReaderEA env (a.readAt rd).sessionKey n (noteData rd req a).2).2.retries =
      a.retries ++ posted env req exit.retry := by
    rw [readFromReaderEA_of_batch env (toFirstEvaluation_kept env hfirst).2 htime hbounds hdds,
      serveBatchEA_retries env hexit, hbefore]
  rw [onDataOnReader_of_first env hfirst]
  refine keeps_bind (I := fun e : Agent => e.retries = a.retries ++ posted env req exit.retry)
    (fun _ => hserve) fun _ _ => ?_
  rw [read_bind_apply]
  exact keeps_onlyIf (I := fun e : Agent => e.retries = _) hserve fun _ => hserve

/-- One that comes to its first reading of the clock, but not to its loop, posts nothing. -/
theorem onDataOnReader_retries_of_first {rd n req : ℕ} {a b : Agent}
    (hfirst : toFirstEvaluation env rd a = (some (n, req), b)) (h : (toLoop env rd a).1 = none) :
    PostsNothing a (onDataOnReader env rd a).2 := by
  have hreq := (toFirstEvaluation_kept env hfirst).2
  rw [onDataOnReader_of_first env hfirst]
  rw [toLoop, bind_apply, hfirst] at h
  obtain ⟨-, -, -, -, -, rfl⟩ := (toFirstEvaluation_eq_some env).1 hfirst
  dsimp only at h
  rw [read_bind_apply] at h
  have hserve : PostsNothing a
      (readFromReaderEA env (a.readAt rd).sessionKey n (noteData rd req a).2).2 := by
    refine IsTrans.trans _ _ _ (noteData_postsNothing rd req a)
      (readFromReaderEA_retries_of_none env hreq ?_)
    cases hbounds : (((noteData rd req a).2.readAt req).isComplete (env.clock 0)).1 &&
        (((noteData rd req a).2.readAt req).isComplete (env.clock 0)).2 with
    | true => exact .inl rfl
    | false =>
        rw [hbounds, Bool.not_false, ensure_true_bind_apply, bind_apply] at h
        refine .inr (.inr ?_)
        rcases hdds : readFromReaderDdsEA env n (noteData rd req a).2 with ⟨_ | batch, c⟩
        · rfl
        · rw [hdds] at h
          cases h
  refine keeps_bind (fun _ => hserve) fun _ _ => ?_
  rw [read_bind_apply]
  exact keeps_onlyIf hserve fun _ => hserve

/-- One that does not come so far posts nothing: the clock could not be read, or `readFromReaderEA`
was not called. -/
theorem onDataOnReader_retries_of_noFirst {rd : ℕ} {a : Agent}
    (hfirst : (toFirstEvaluation env rd a).1 = none) :
    PostsNothing a (onDataOnReader env rd a).2 := by
  have hstay : PostsNothing a a := rfl
  unfold onDataOnReader
  rw [read_bind_apply]
  refine keeps_ensure hstay fun hlookup => keeps_bind (fun _ => ?_) fun n hn => ?_
  · rw [findAttachedReader_eq]
    exact hstay
  rw [findAttachedReader_eq]
  refine keeps_require hstay fun req hreq => ?_
  split
  · rfl
  rename_i hcomplete
  have htime : env.ok (.getTime .readFromReader 0) = false := by
    rw [Bool.eq_false_iff]
    intro htime
    have hgo := (toFirstEvaluation_eq_some env).2
      ⟨hlookup, hn, hreq, by simpa using hcomplete, htime, rfl⟩
    rw [hgo] at hfirst
    cases hfirst
  have hnote : Within PostsNothing (onlyIf (!(a.readAt rd).delayed)
      (modify fun a : Agent => a.updateRead req fun x => { x with dataAvailable := true })) :=
    .onlyIf fun _ => .modify fun _ => rfl
  have hkept : ((onlyIf (!(a.readAt rd).delayed) (modify fun a : Agent =>
      a.updateRead req fun x => { x with dataAvailable := true })) a).2.attached n =
        a.attached n := by
    cases (a.readAt rd).delayed <;> rfl
  have hb := hnote a
  refine keeps_bind (fun _ => hb) fun _ _ => ?_
  generalize (onlyIf (!(a.readAt rd).delayed) (modify fun a : Agent =>
    a.updateRead req fun x => { x with dataAvailable := true }) a).2 = b at hb hkept
  rw [modify_bind_apply]
  have hreq' : ((b.updateRead rd fun x => { x with delayed := false }).attached n).readReq =
      some req := by
    rw [← hreq, ← hkept]
    rfl
  have hserve : PostsNothing a (readFromReaderEA env (a.readAt rd).sessionKey n
      (b.updateRead rd fun x => { x with delayed := false })).2 :=
    IsTrans.trans _ _ _ hb (readFromReaderEA_retries_of_none env hreq' (.inr (.inl htime)))
  refine keeps_bind (fun _ => hserve) fun _ _ => ?_
  rw [read_bind_apply]
  exact keeps_onlyIf hserve fun _ => hserve

/-- One that does not come to its loop posts nothing. -/
theorem onDataOnReader_retries_of_none {rd : ℕ} {a : Agent} (h : (toLoop env rd a).1 = none) :
    PostsNothing a (onDataOnReader env rd a).2 := by
  cases hfirst : toFirstEvaluation env rd a with
  | mk first b =>
  cases first with
  | some x => exact onDataOnReader_retries_of_first env hfirst h
  | none => exact onDataOnReader_retries_of_noFirst env (by rw [hfirst])

end AgentM

end NanoAgent
