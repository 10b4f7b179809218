import NanoAgent.DdsAgent.RecordChange

/-!
# The names of records

A record has the name that it is in the table under, unless it was not initialised to the
end or was finalized, which leaves it without a name (`NamedRecords`). This holds in every
state that occurs in a run, also between two changes of one operation (`Agent.Occurs`).
-/

namespace NanoAgent

open Prog AgentM

/-- Every record is in the table under a name, and has this name or is finalized. -/
structure NamedRecords (a : Agent) : Prop where
  valid : ∀ rid r, a.resources.lookup rid = some r → rid ≠ .none
  id : ∀ rid r, a.resources.lookup rid = some r → r.id = rid ∨ r.id = .none

namespace NamedRecords

variable {a b : Agent}

theorem of_records (ha : NamedRecords a) (h : ∀ rid r', b.resources.lookup rid = some r' →
    ∃ r, a.resources.lookup rid = some r ∧ (r'.id = r.id ∨ r'.id = .none)) : NamedRecords b where
  valid rid r' hr' := by
    obtain ⟨r, hr, -⟩ := h rid r' hr'
    exact ha.valid rid r hr
  id rid r' hr' := by
    obtain ⟨r, hr, hid | hid⟩ := h rid r' hr'
    · rw [hid]
      exact ha.id rid r hr
    · exact .inr hid

theorem of_resources (ha : NamedRecords a) (h : b.resources = a.resources) : NamedRecords b :=
  ha.of_records fun _ r hr => ⟨r, by rw [← h]; exact hr, .inl rfl⟩

theorem of_detaches (ha : NamedRecords a) (h : Detaches a b) : NamedRecords b := by
  refine ha.of_records fun rid r' hr' => ?_
  obtain ⟨r, hr, hdet⟩ := h.record rid r' hr'
  exact ⟨r, hr, hdet.id⟩

theorem updateResource {rid : ResourceId} {f : Resource → Resource} (ha : NamedRecords a)
    (hf : ∀ r, (f r).id = r.id ∨ (f r).id = rid ∨ (f r).id = .none) :
    NamedRecords (a.updateResource rid f) where
  valid rid' r' hr' := by
    rw [Agent.lookup_updateResource] at hr'
    split at hr'
    · obtain ⟨r, hr, rfl⟩ := Option.map_eq_some_iff.1 hr'
      exact ha.valid rid' r hr
    · exact ha.valid rid' r' hr'
  id rid' r' hr' := by
    rw [Agent.lookup_updateResource] at hr'
    split at hr'
    · rename_i heq
      subst heq
      obtain ⟨r, hr, rfl⟩ := Option.map_eq_some_iff.1 hr'
      rcases hf r with hid | hid
      · rw [hid]
        exact ha.id rid' r hr
      · exact hid
    · exact ha.id rid' r' hr'

theorem insertResource {rid : ResourceId} (ha : NamedRecords a) (hrid : rid ≠ .none) :
    NamedRecords (a.insertResource rid) where
  valid rid' r' hr' := by
    by_cases heq : rid' = rid
    · rw [heq]
      exact hrid
    · exact ha.valid rid' r' ((AList.lookup_insert_ne heq).symm.trans hr')
  id rid' r' hr' := by
    by_cases heq : rid' = rid
    · subst heq
      obtain rfl := Option.some.inj ((AList.lookup_insert _).symm.trans hr')
      exact .inr rfl
    · exact ha.id rid' r' ((AList.lookup_insert_ne heq).symm.trans hr')

end NamedRecords

namespace AgentM

theorem initializeUserDataEA_named (env : Env) (rid : ResourceId) (kind : ResourceKind) :
    Preserves NamedRecords (initializeUserDataEA env rid kind) := by
  have hsame : ∀ f : Agent → Agent, (∀ a, (f a).resources = a.resources) →
      Preserves NamedRecords (modify f) := fun f hf a ha => ha.of_resources (hf a)
  refine .read fun a => .ite (fun _ => ?_) fun _ => .ite (fun _ => ?_) fun _ => .pure _
  · refine .bind (.ensure _) fun _ => .bind (hsame _ fun _ => rfl) fun _ => ?_
    refine .bind (.onlyIf fun _ => .bind (hsame _ fun _ => rfl) fun _ => .fail) fun _ => ?_
    refine .bind (fun _ ha => ha.updateResource fun _ => .inl rfl) fun _ => ?_
    exact .onlyIf fun _ => .bind (hsame _ fun _ => rfl) fun _ => .fail
  · refine .bind (.ensure _) fun _ => .bind (hsame _ fun _ => rfl) fun _ => ?_
    refine .bind (.onlyIf fun _ => .bind (hsame _ fun _ => rfl) fun _ => .fail) fun _ => ?_
    exact fun _ ha => ha.updateResource fun _ => .inl rfl

theorem obtainRecordEA_named (env : Env) {rid : ResourceId} (hrid : rid ≠ .none)
    (q : CreateRequest) : Preserves NamedRecords (obtainRecordEA env rid q) := by
  refine .read fun a => ?_
  cases a.resources.lookup rid with
  | some r => exact .ensure _
  | none =>
      refine .bind (fun _ ha => ha.insertResource hrid) fun _ => .bind (.ensure _) fun _ => ?_
      refine .read fun _ => .bind (.onlyIf fun _ => .ensure _) fun _ => ?_
      refine .bind (.ensure _) fun _ => ?_
      refine .bind (fun _ ha => ha.updateResource fun _ => .inr (.inr rfl)) fun _ => ?_
      refine .bind (.ensure _) fun _ => ?_
      refine .bind (fun _ ha => ha.updateResource fun _ => .inr (.inl rfl)) fun _ => ?_
      exact initializeUserDataEA_named env rid q.kind

theorem insertResourceRecordEA_named (env : Env) (q : CreateRequest) :
    Preserves NamedRecords (insertResourceRecordEA env q) := by
  refine .bind (fun _ ha => ha.of_resources rfl) fun _ => .bind (.ensure _) fun _ => ?_
  refine .bind (.require _) fun first => .bind (.ensure _) fun _ => .ensureThen fun hrid => ?_
  have hrid : first.2 ≠ .none := by simpa using hrid
  refine .bind (.ensure _) fun _ => .bind (obtainRecordEA_named env hrid q) fun _ => ?_
  refine .bind (.ensure _) fun _ => .bind (fun _ ha => ha.of_resources rfl) fun _ => ?_
  exact .read fun _ => .bind (.require _) fun _ => .pure _

end AgentM

theorem NamedRecords.link {a : Agent} (ha : NamedRecords a) (key : ClientSessionKey) (id : ℕ)
    (rid : ResourceId) (r : Resource) : NamedRecords (a.link key id rid r) := by
  refine ha.of_records fun rid' r' hr' => ?_
  obtain ⟨r₀, hr₀, rfl⟩ := Agent.exists_of_lookup_link hr'
  exact ⟨r₀, hr₀, .inl rfl⟩

theorem NamedRecords.change {env : Env} {k : ChangeKind} {a b : Agent} (h : TableChange env k a b)
    (ha : NamedRecords a) : NamedRecords b := by
  cases h with
  | reads hframe _ => exact ha.of_resources hframe.resources
  | session | openSession | closeSession | leak | announce => exact ha.of_resources rfl
  | insert q => exact insertResourceRecordEA_named env q a ha
  | create key id rid => exact ha.link key id rid _
  | attachAll key id rid => exact ha.link key id rid _
  | detach key n del copyOut => exact ha.of_detaches (detachResourceEA_detaches key n del copyOut a)

/-- A state in which the agent is between two changes, in a run. -/
def Agent.Occurs (a : Agent) : Prop :=
  ∃ a₀ env ks, a₀.ReachedWhen (fun _ _ => True) ∧ Changes env ks a₀ a

theorem Agent.Occurs.invariant {I : Agent → Prop} (hinit : ∀ a : Agent, a.Initial → I a)
    (hI : ∀ env k a b, TableChange env k a b → I a → I b) {a : Agent} (h : a.Occurs) : I a := by
  obtain ⟨a₀, env, ks, hreached, hchanges⟩ := h
  have ha₀ : I a₀ := by
    refine Reachable.invariant hinit (fun b i hb _ => ?_) hreached
    exact (i.1.run_changes i.2 b).invariant (fun k _ => hI i.2 k) hb
  exact hchanges.invariant (fun k _ => hI env k) ha₀

theorem namedRecords_of_occurs {a : Agent} (h : a.Occurs) : NamedRecords a := by
  refine h.invariant (fun a h₀ => ?_) fun _ _ _ _ hchange ha => ha.change hchange
  have hnone : ∀ rid r, a.resources.lookup rid ≠ some r := by
    intro rid r hr
    rw [h₀.resources] at hr
    cases hr
  exact ⟨fun rid r hr => absurd hr (hnone rid r), fun rid r hr => absurd hr (hnone rid r)⟩

end NanoAgent
