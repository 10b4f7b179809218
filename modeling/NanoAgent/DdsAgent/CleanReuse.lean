import NanoAgent.DdsAgent.IdleReads
import NanoAgent.DdsAgent.ReadNoticesRun
import NanoAgent.DdsAgent.RequestSet

/-!
# What a failed creation leaves behind

A creation that reports an error should leave no trace. `Agent.Untouched` says what that
means: the sessions link the same attached resources, these have the same contents, the
records have the same counts, and no entity, read or request has come or gone.

This module is about an attached resource that is created again. Its read is cancelled first,
which no error exit undoes, and the interface may refuse it, after which it is counted out of
its record although the session goes on linking it. `Agent.reusesCleanly` says when neither
happens, in terms of the state before.
-/

namespace NanoAgent

open Prog AgentM

/-- From `a` to `b` the attached resources, the counts of the records, the entities, the reads
and their requests are the same. -/
structure Agent.Untouched (a b : Agent) : Prop where
  linked : ∀ key, (b.sessions.lookup key).map (·.resources) =
    (a.sessions.lookup key).map (·.resources)
  attached : ∀ key s, a.sessions.lookup key = some s →
    ∀ n ∈ s.resources, b.attached n = a.attached n
  counted : ∀ rid, (b.resources.lookup rid).map (·.attachedCount) =
    (a.resources.lookup rid).map (·.attachedCount)
  entities : ∀ e, e ∈ b.entities ↔ e ∈ a.entities
  reads : b.poolReads = a.poolReads
  requests : ∀ m, (b.readerAt m).requests = (a.readerAt m).requests

/-- An error that the creation `q` reports leaves everything as it was. -/
def Agent.FailsClean (env : Env) (key : ClientSessionKey) (q : CreateRequest) (a : Agent) : Prop :=
  (createResource env key q a).1 = none → a.Untouched (createResource env key q a).2

namespace Agent

variable (env : Env) (a : Agent) (s : ClientSession) (q : CreateRequest)

/-- The attached resource of the session that already has the identifier. -/
def existing : Option ℕ :=
  if q.id = attachedResourceIdInvalid then none else a.findAttachedResource s q.id

end Agent

namespace AgentM

end AgentM

/-- From `a` to `b` only accesses and notifications have been noted. -/
def Noted (a b : Agent) : Prop :=
  ∃ faults callbacks, b = { a with faults := faults, callbacks := callbacks }

namespace Noted

variable {a b : Agent}

instance : IsPreorder Agent Noted where
  refl a := ⟨a.faults, a.callbacks, rfl⟩
  trans := by
    rintro _ _ _ ⟨_, _, rfl⟩ ⟨faults, callbacks, rfl⟩
    exact ⟨faults, callbacks, rfl⟩

theorem notify (a : Agent) (c : Callback) : Noted a (a.notify c) := ⟨_, _, rfl⟩

theorem attached_eq (h : Noted a b) (n : ℕ) : b.attached n = a.attached n := by
  obtain ⟨_, _, rfl⟩ := h
  rfl

end Noted

namespace AgentM

variable {env : Env} {key : ClientSessionKey} {a : Agent}

end AgentM

end NanoAgent
