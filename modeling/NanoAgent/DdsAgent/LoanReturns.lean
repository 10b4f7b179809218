import NanoAgent.DdsAgent.Operation

/-!
# The loans returned in a step

An interface returns loans by an operation of its own or in a callback: when one of its
sessions is reset or times out, and when the clean-up of reads finds a completed read with
pending samples. `Agent.ReturnsLoan` are these calls of a step, each with the state in which
it is made. The rules at the end are those of the steps with such a callback: an invariant
is kept when each of these calls keeps it and so does what the agent itself does.
-/

namespace NanoAgent

open Prog

namespace Agent

/-- The callbacks of a step in which an interface may return loans: the interface `src` of
the session `key` is called back in the state `b`. -/
inductive CallsBack (a : Agent) :
    Operation × Env → ℕ → ClientSessionKey → LoanCallback → Agent → Prop
  | sessionReset {src : ℕ} {key : ClientSessionKey} {timeout : ℕ} {data : Option ℕ} {env : Env}
      {s : ClientSession} :
      env.ok (.insertSession key) = true → a.sessions.lookup key = some s → s.active = true →
      s.intf = src →
      CallsBack a (.openSession src key timeout data, env) src key (.sessionReset key)
        (a.updateSession key fun s => { s with resetting := true })
  | sessionTimedOut {key : ClientSessionKey} {env : Env} {s : ClientSession} :
      env.ok (.lookupSession .onTimeout key) = true → a.sessions.lookup key = some s →
      s.active = true →
      CallsBack a (.sessionTimeout key, env) s.intf key (.sessionTimedOut key)
        (a.updateSession key fun s => { s with timedout := true })
  | releaseReadSamples {env : Env} {key : ClientSessionKey} {s : ClientSession} {n rd : ℕ}
      {b c : Agent} :
      a.condCleanupReads = true → env.ok (.setTrigger .cleanupReads) = true →
      Turn a.sessionKeys (AgentM.cleanupReadsOfEA env) { a with condCleanupReads := false } key b →
      env.ok (.nextSession .cleanupReads key) = true → b.sessions.lookup key = some s →
      Turn s.resources (AgentM.cleanupReadEA env s.intf key) b n c →
      (c.attached n).readReq = some rd → (c.readAt rd).complete = true →
      (c.readAt rd).hasPendingSamples = true →
      CallsBack a (.cleanupReads, env) s.intf key (.releaseReadSamples key (c.attached n).id) c

/-- The calls of `NDDSA_Agent_return_loan` in a step: the interface `src` returns the record
`d` in the state `b`, by an operation of its own or in a callback. -/
inductive ReturnsLoan (a : Agent) :
    Operation × Env → Env → ℕ → ClientSessionKey → ℕ → Agent → Prop
  | operation {env : Env} {src : ℕ} {key : ClientSessionKey} {d : ℕ} :
      ReturnsLoan a (.returnLoan src key d, env) env src key d a
  | callback {i : Operation × Env} {src : ℕ} {key : ClientSessionKey} {c : LoanCallback} {d : ℕ}
      {b t : Agent} : a.CallsBack i src key c b → AgentM.LoanTurn i.2 src key c b d t →
      ReturnsLoan a i (i.2.forLoan d) src key d t

/-- The state in which the interface `src` returns from `on_session_reset`, with the loans
that it has returned in it. -/
def atResetReturn (env : Env) (a : Agent) (src : ℕ) (key : ClientSessionKey) : Agent :=
  (AgentM.returnLoans env src key (.sessionReset key)
    (a.updateSession key fun s => { s with resetting := true })).2

/-- An interface that returns nothing in its callbacks returns loans by operations only. -/
theorem ReturnsLoan.eq_operation {a t : Agent} {i : Operation × Env} {env : Env} {src d : ℕ}
    {key : ClientSessionKey} (h : a.ReturnsLoan i env src key d t)
    (hnone : ∀ c, i.2.loansReturned c = []) : i = (.returnLoan src key d, env) ∧ t = a := by
  cases h with
  | operation => exact ⟨rfl, rfl⟩
  | callback hcall hturn =>
      obtain ⟨before, after, hnil, -⟩ := hturn
      rw [hnone] at hnil
      simp at hnil

section Rules

open AgentM

variable {I : Agent → Prop} {a : Agent} {env : Env} {key : ClientSessionKey}

theorem keeps_callback {i : Operation × Env} {src : ℕ} {c : LoanCallback} {b : Agent}
    (hcall : a.CallsBack i src key c b) (hb : I b)
    (hloan : ∀ env' src key d t, a.ReturnsLoan i env' src key d t → I t →
      I (returnLoan env' src key d t).2) : I (returnLoans i.2 src key c b).2 :=
  returnLoans_keeps hb fun _ _ hturn => hloan _ _ _ _ _ (.callback hcall hturn)

/-- The reset of a session. -/
theorem step_resetSession_keeps {src timeout : ℕ} {data : Option ℕ} {s : ClientSession}
    (hs : a.sessions.lookup key = some s) (ha : I a)
    (hmark : ∀ v b, I b → I (b.updateSession key fun s => { s with resetting := v }))
    (hdata : ∀ b, I b → I (b.updateSession key fun s => { s with userData := env.sessionData }))
    (hcancel : ∀ n ∈ s.resources, ∀ b, (b.attached n).readReq.isSome = true → I b →
      I (cancelReadI env n b).2)
    (hloan : ∀ env' src' key' d t,
      a.ReturnsLoan (.openSession src key timeout data, env) env' src' key' d t → I t →
        I (returnLoan env' src' key' d t).2) :
    I (a.step (.openSession src key timeout data, env)) := by
  have hreset : env.ok (.insertSession key) = true → I (resetSession env src key s a).2 := by
    intro hinsert
    refine keeps_ensure ha fun hactive => ?_
    rw [modify_bind_apply]
    have hmarked := hmark true a ha
    refine keeps_ensure hmarked fun hsrc => ?_
    have hcall : a.CallsBack (.openSession src key timeout data, env) src key (.sessionReset key)
        (a.updateSession key fun s => { s with resetting := true }) :=
      .sessionReset hinsert hs hactive (by simpa using hsrc)
    have hreturned := keeps_callback hcall hmarked hloan
    refine keeps_bind (fun _ => ?_) fun _ _ => ?_
    · exact keeps_bind (fun _ => hreturned) fun _ _ => hreturned
    have hanswered : I (onSessionReset env src key
        (a.updateSession key fun s => { s with resetting := true })).2 :=
      keeps_bind (fun _ => hreturned) fun _ _ => hreturned
    refine Within.bind (R := fun b c => I b → I c) (.onlyIf fun _ => .modify hdata) (fun _ => ?_) _
      hanswered
    refine .bind (.forEach fun n hn b hb => ?_) fun _ => .modify (hmark false)
    rw [read_bind_apply]
    exact keeps_onlyIf hb fun hreq => hcancel n hn b hreq hb
  change I (openSession env src key timeout data a).2
  unfold openSession
  refine keeps_ensure ha fun hinsert => ?_
  have hopened : I (resetOrOpenSession env src key timeout data a).2 := by
    unfold resetOrOpenSession
    rw [read_bind_apply, hs]
    exact hreset hinsert
  refine keeps_bind (fun _ => hopened) fun _ _ => ?_
  exact Within.read (R := fun b c => I b → I c) (fun b => .bind (.require _) fun s =>
    .bind (.ensure _) fun _ => .ensure _) _ hopened

/-- The time-out of a session. -/
theorem step_sessionTimeout_keeps (ha : I a)
    (hmark : ∀ b, I b → I (b.updateSession key fun s => { s with timedout := true }))
    (hdispose : ∀ s, Preserves I (disposeSessionEA env key s))
    (hloan : ∀ env' src' key' d t, a.ReturnsLoan (.sessionTimeout key, env) env' src' key' d t →
      I t → I (returnLoan env' src' key' d t).2) : I (a.step (.sessionTimeout key, env)) := by
  change I (onSessionTimeout env key a).2
  unfold onSessionTimeout
  refine keeps_ensure ha fun hlookup => ?_
  rw [read_bind_apply]
  refine keeps_require ha fun s hs => keeps_ensure ha fun hactive => ?_
  rw [modify_bind_apply]
  have hreturned := keeps_callback (.sessionTimedOut hlookup hs hactive) (hmark a ha) hloan
  exact keeps_bind (fun _ => hreturned) fun _ _ => hdispose s _ hreturned

/-- The clean-up of reads. -/
theorem step_cleanupReads_keeps (ha : I a) (htrigger : I { a with condCleanupReads := false })
    (hcancel : ∀ b n rd, (b.attached n).readReq = some rd → (b.readAt rd).complete = true →
      (b.readAt rd).hasPendingSamples = false → I b →
      I (cancelReadEA env n (b.attached n).resource b).2)
    (hloan : ∀ env' src' key' d t, a.ReturnsLoan (.cleanupReads, env) env' src' key' d t →
      I t → I (returnLoan env' src' key' d t).2) : I (a.step (.cleanupReads, env)) := by
  change I ((Prog.read >>= fun a : Agent => Prog.ensure a.condCleanupReads >>= fun _ =>
    onCleanupReads env) a).2
  rw [read_bind_apply]
  refine keeps_ensure ha fun hcond => keeps_ensure ha fun hset => ?_
  rw [modify_bind_apply, read_bind_apply]
  refine forEach_keeps_turns htrigger fun key b hkey hb => ?_
  unfold cleanupReadsOfEA
  refine keeps_ensure hb fun hnext => ?_
  rw [read_bind_apply]
  cases hs : b.sessions.lookup key with
  | none => exact hb
  | some s =>
  refine forEach_keeps_turns hb fun n c hn hc => ?_
  unfold cleanupReadEA
  rw [read_bind_apply]
  cases hrd : (c.attached n).readReq with
  | none => exact hc
  | some rd =>
  refine keeps_onlyIf hc fun hcomplete => ?_
  split
  · rename_i hpending
    exact keeps_callback (.releaseReadSamples hcond hset hkey hnext hs hn hrd hcomplete hpending)
      hc hloan
  · rename_i hpending
    refine keeps_lookupResource hc fun _ => keeps_require hc fun _ _ => ?_
    have hended := hcancel c n rd hrd hcomplete (by simpa using hpending) hc
    exact keeps_bind (fun _ => hended) fun _ _ => hended

end Rules

end Agent

end NanoAgent
