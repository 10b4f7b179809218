import NanoAgent.DdsAgent.NativeDeletion
import NanoAgent.DdsAgent.ReadDeletion

/-!
# The identity of records

A record should bear the name that it is in the table under and the kind that it was created
with as long as it is there (`Identified`). What the records were created with is noted
along the run, which is cut into its changes of the records: insertions, detachments and
the rest (`RecordStep`).

An insertion that fails before the record has its name leaves a record without one, and native
deletion takes the name of every record that it visits. So what keeps the identity is that
insertions get as far as that, and that a native deletion visits one record only, which is
then removed (`RecordStep.KeepsIdentity`).
-/

namespace NanoAgent

open Prog AgentM Relation

/-- The kinds that resources were last created with. -/
abbrev Kinds := ResourceId → ResourceKind

/-- Note the kind of the records that `b` has and `a` has not. -/
def Kinds.note (kinds : Kinds) (a b : Agent) (kind : ResourceKind) : Kinds := fun rid =>
  if (a.resources.lookup rid).isNone && (b.resources.lookup rid).isSome then kind else kinds rid

/-- A change of the records, as far as their identity is concerned. -/
inductive RecordStep
  | insert (q : CreateRequest)
  | detach (key : ClientSessionKey) (n : ℕ) (deleteRequest copyOut : Bool)
  | aside

namespace RecordStep

/-- What a change makes of the agent and of the kinds noted. -/
inductive Leads (env : Env) : RecordStep → Agent × Kinds → Agent × Kinds → Prop
  | insert {a : Agent} {kinds : Kinds} (q : CreateRequest) :
      Leads env (.insert q) (a, kinds) ((insertResourceRecordEA env q a).2,
        kinds.note a (insertResourceRecordEA env q a).2 q.kind)
  | detach {a : Agent} {kinds : Kinds} (key : ClientSessionKey) (n : ℕ) (del copyOut : Bool) :
      Leads env (.detach key n del copyOut) (a, kinds)
        ((detachResourceEA env key n del copyOut a).2, kinds)
  | aside {a b : Agent} {kinds : Kinds} {k : ChangeKind} : TableChange env k a b →
      k ≠ .insert → k ≠ .detach → Leads env .aside (a, kinds) (b, kinds)

end RecordStep

/-- A sequence of changes that meet `ok`. -/
def Passes (ok : Env → Agent → RecordStep → Prop) (env : Env) :
    Agent × Kinds → Agent × Kinds → Prop :=
  ReflTransGen fun s s' => ∃ c : RecordStep, ok env s.1 c ∧ c.Leads env s s'

/-- An operation whose changes meet `ok`. -/
def StepPasses (ok : Env → Agent → RecordStep → Prop) (s s' : Agent × Kinds) : Prop :=
  ∃ i : Operation × Env, s'.1 = s.1.step i ∧ Passes ok i.2 s s'

/-- Every operation is a sequence of changes. -/
theorem Agent.stepPasses (s : Agent × Kinds) (i : Operation × Env) :
    ∃ kinds, Passes (fun _ _ _ => True) i.2 s (s.1.step i, kinds) := by
  obtain ⟨a, kinds⟩ := s
  have hchanges : Changes i.2 i.1.changes a (a.step i) := i.1.run_changes i.2 a
  change ∃ kinds', Passes (fun _ _ _ => True) i.2 (a, kinds) (a.step i, kinds')
  generalize a.step i = b at hchanges ⊢
  induction hchanges with
  | refl => exact ⟨kinds, .refl⟩
  | tail _ hchange ih =>
      obtain ⟨kinds', hpass⟩ := ih
      obtain ⟨k, -, hchange⟩ := hchange
      by_cases hi : k = .insert
      · subst hi
        cases hchange with
        | insert q => exact ⟨_, hpass.tail ⟨_, trivial, .insert q⟩⟩
      by_cases hd : k = .detach
      · subst hd
        cases hchange with
        | detach key n del copyOut => exact ⟨_, hpass.tail ⟨_, trivial, .detach key n del copyOut⟩⟩
      exact ⟨_, hpass.tail ⟨_, trivial, .aside hchange hi hd⟩⟩

/-- Every record bears the name that it is in the table under and the kind that it was created
with. -/
def Identified (s : Agent × Kinds) : Prop :=
  ∀ rid r, s.1.resources.lookup rid = some r → r.id = rid ∧ r.kind = s.2 rid

/-- The deletion of an entity goes through, and no record stands for an entity contained in
it. -/
inductive DeletesAlone (env : Env) (a : Agent) : ResourceKind → ℕ → Prop
  | intro {kind : ResourceKind} {ptr : ℕ} :
      (kind ≠ .topic → env.ok (.ddsEntity .deleteEntity kind ptr) = true) →
      (∀ k ∈ kind.containedKinds, env.ok (.ddsEntity .deleteContained k ptr) = true) →
      (∀ c ∈ a.entities, c.kind ∈ kind.containedKinds → c.parent = ptr →
        env.ok (.nextResource .deleteContained) = true) →
      (∀ c ∈ a.entities, c.kind ∈ kind.containedKinds → c.parent = ptr → ∀ rid r,
        a.resources.lookup rid = some r → r.kind = c.kind → r.native ≠ some c.ptr) →
      (∀ c ∈ a.entities, c.kind ∈ kind.containedKinds → c.parent = ptr →
        DeletesAlone env a c.kind c.ptr) → DeletesAlone env a kind ptr

/-- A record that the insertion adds is initialised as far as its name. -/
def InsertsWhole (env : Env) (a : Agent) (q : CreateRequest) : Prop :=
  env.factory.success = true → ∀ rid, env.factory.created.head? = some (q.kind, rid) →
    rid ≠ .none → env.ok (.insertResource rid) = true → a.resources.lookup rid = none →
    (q.kind.isGeneric || q.kind.isEntity) = true ∧
    (q.kind.isEntity = true → env.ok (.lookupEntity .insertRecord rid) = true ∧
      (({ a with entities := a.entities ++ env.factory.entities } : Agent).lookupEntity q.kind
        rid).isSome = true) ∧
    env.ok (.allocate .insertRecord 0) = true ∧ env.ok (.copyId .insertRecord rid) = true

/-- Where the detachment takes the last attachment of a record that is to be deleted, the record
is deleted alone, and removed. -/
def DetachesAlone (env : Env) (a : Agent) (n : ℕ) (del : Bool) : Prop :=
  ∀ r, a.resources.lookup (a.attached n).resource = some r → r.nativeDeleted = false →
    (r.pendingDelete || del) = true → r.attachedCount = 1 →
    env.ok (.deleteResource (a.attached n).resource) = true ∧
    (r.kind.isEntity = true →
      env.ok (.releaseResource .deleteNative (a.attached n).resource) = true ∧
      ∀ e, a.lookupEntity r.kind r.id = some e → DeletesAlone env a r.kind e.ptr)

/-- The condition under which a change keeps the identity of the records. -/
def RecordStep.KeepsIdentity (env : Env) (a : Agent) : RecordStep → Prop
  | .insert q => InsertsWhole env a q
  | .detach _ n del _ => DetachesAlone env a n del
  | .aside => True

/-- From `a` to `b` no record is new, and those that are left have kept their names and
kinds. -/
def SameNames (a b : Agent) : Prop :=
  ∀ rid r', b.resources.lookup rid = some r' →
    ∃ r, a.resources.lookup rid = some r ∧ r'.id = r.id ∧ r'.kind = r.kind

namespace SameNames

variable {a b : Agent}

theorem of_resources (h : b.resources = a.resources) : SameNames a b :=
  fun _ r hr => ⟨r, h ▸ hr, rfl, rfl⟩

instance : IsPreorder Agent SameNames where
  refl _ := .of_resources rfl
  trans a b c h h' := by
    intro rid r'' hr''
    obtain ⟨r', hr', hid', hkind'⟩ := h' rid r'' hr''
    obtain ⟨r, hr, hid, hkind⟩ := h rid r' hr'
    exact ⟨r, hr, hid'.trans hid, hkind'.trans hkind⟩

theorem updateResource (a : Agent) (rid : ResourceId) {f : Resource → Resource}
    (hf : ∀ r, (f r).id = r.id ∧ (f r).kind = r.kind) : SameNames a (a.updateResource rid f) := by
  intro rid' r' hr'
  rw [Agent.lookup_updateResource] at hr'
  split at hr'
  · obtain ⟨r, hr, rfl⟩ := Option.map_eq_some_iff.1 hr'
    exact ⟨r, hr, hf r⟩
  · exact ⟨r', hr', rfl, rfl⟩

theorem countOut (a : Agent) (rid : ResourceId) (del : Bool) : SameNames a (a.countOut rid del) :=
  .updateResource a rid fun _ => ⟨rfl, rfl⟩

theorem erase (a : Agent) (rid : ResourceId) :
    SameNames a { a with resources := a.resources.erase rid } :=
  fun _ r' hr' => ⟨r', AList.lookup_of_lookup_erase hr', rfl, rfl⟩

theorem identified (h : SameNames a b) {kinds : Kinds} (ha : Identified (a, kinds)) :
    Identified (b, kinds) := by
  intro rid r' hr'
  obtain ⟨r, hr, hid, hkind⟩ := h rid r' hr'
  rw [hid, hkind]
  exact ha rid r hr

/-- A change that neither inserts nor detaches. -/
theorem of_change {env : Env} {k : ChangeKind} (h : TableChange env k a b) (hi : k ≠ .insert)
    (hd : k ≠ .detach) : SameNames a b := by
  cases h with
  | reads hframe _ => exact .of_resources hframe.resources
  | session | openSession | closeSession | leak | announce => exact .of_resources rfl
  | create key id rid =>
      intro rid' r' hr'
      obtain ⟨r₀, hr₀, rfl⟩ := Agent.exists_of_lookup_link hr'
      exact ⟨r₀, hr₀, rfl, rfl⟩
  | attachAll key id rid =>
      intro rid' r' hr'
      obtain ⟨r₀, hr₀, rfl⟩ := Agent.exists_of_lookup_link hr'
      exact ⟨r₀, hr₀, rfl, rfl⟩
  | insert => exact absurd rfl hi
  | detach => exact absurd rfl hd

end SameNames

/-- From `a` to `b` the records have kept their names and kinds, and a new one has its name and
the kind `kind`. -/
def Adds (kind : ResourceKind) (a b : Agent) : Prop :=
  ∀ rid r', b.resources.lookup rid = some r' →
    (∃ r, a.resources.lookup rid = some r ∧ r'.id = r.id ∧ r'.kind = r.kind) ∨
    (a.resources.lookup rid = none ∧ r'.id = rid ∧ r'.kind = kind)

theorem SameNames.adds {kind : ResourceKind} {a b : Agent} (h : SameNames a b) : Adds kind a b :=
  fun rid r' hr' => .inl (h rid r' hr')

theorem Adds.trans_sameNames {kind : ResourceKind} {a b c : Agent} (h : Adds kind a b)
    (h' : SameNames b c) : Adds kind a c := by
  intro rid r'' hr''
  obtain ⟨r', hr', hid', hkind'⟩ := h' rid r'' hr''
  rw [hid', hkind']
  exact h rid r' hr'

theorem Adds.identified {kind : ResourceKind} {a b : Agent} (h : Adds kind a b) {kinds : Kinds}
    (ha : Identified (a, kinds)) : Identified (b, kinds.note a b kind) := by
  intro rid r' hr'
  have hr' : b.resources.lookup rid = some r' := hr'
  unfold Kinds.note
  rcases h rid r' hr' with ⟨r, hr, hid, hkind⟩ | ⟨hnew, hid, hkind⟩
  · rw [hid, hkind]
    have hold := ha rid r hr
    simp [hr, hold]
  · simp [hnew, hr', hid, hkind]

namespace AgentM

variable {env : Env}

theorem initializeUserDataEA_sameNames (rid : ResourceId) (kind : ResourceKind) :
    Within SameNames (initializeUserDataEA env rid kind) := by
  have hsame : ∀ f : Agent → Agent, (∀ a, (f a).resources = a.resources) →
      Within SameNames (modify f) := fun f hf => .modify fun a => .of_resources (hf a)
  have hdata : ∀ data, Within SameNames
      (modify fun a => a.updateResource rid fun r => { r with userData := data }) :=
    fun data => .modify fun a => .updateResource a rid fun _ => ⟨rfl, rfl⟩
  refine .read fun a => .ite (fun _ => ?_) fun _ => .ite (fun _ => ?_) fun _ => .pure _
  · refine .bind (.ensure _) fun _ => .bind (hsame _ fun _ => rfl) fun _ => ?_
    refine .bind (.onlyIf fun _ => .bind (hsame _ fun _ => rfl) fun _ => .fail) fun _ => ?_
    refine .bind (hdata _) fun _ => ?_
    exact .onlyIf fun _ => .bind (hsame _ fun _ => rfl) fun _ => .fail
  · refine .bind (.ensure _) fun _ => .bind (hsame _ fun _ => rfl) fun _ => ?_
    refine .bind (.onlyIf fun _ => .bind (hsame _ fun _ => rfl) fun _ => .fail) fun _ => ?_
    exact hdata _

/-- A new record that is initialised as far as its name. -/
theorem initializeRecordEA_adds {a : Agent} {rid : ResourceId} {q : CreateRequest}
    (hnew : a.resources.lookup rid = none)
    (hkind : (q.kind.isGeneric || q.kind.isEntity) = true)
    (hentity : q.kind.isEntity = true → env.ok (.lookupEntity .insertRecord rid) = true ∧
      (a.lookupEntity q.kind rid).isSome = true)
    (hallocate : env.ok (.allocate .insertRecord 0) = true)
    (hcopy : env.ok (.copyId .insertRecord rid) = true) :
    Adds q.kind a (initializeRecordEA env rid q (a.insertResource rid)).2 := by
  unfold initializeRecordEA
  rw [hkind, ensure_true_bind_apply, read_bind_apply]
  have hfound : (onlyIf q.kind.isEntity (ensure (env.ok (.lookupEntity .insertRecord rid) &&
      (((a.insertResource rid).lookupEntity q.kind rid).map (·.ptr)).isSome)) : AgentM Unit) =
      ensure true := by
    rw [onlyIf_ensure]
    cases hk : q.kind.isEntity with
    | false => rfl
    | true =>
        obtain ⟨hok, hsome⟩ := hentity hk
        change ensure (false || (env.ok _ && ((a.lookupEntity q.kind rid).map (·.ptr)).isSome)) = _
        rw [hok, Option.isSome_map, hsome]
        rfl
  rw [hfound, ensure_true_bind_apply, hallocate, ensure_true_bind_apply, modify_bind_apply, hcopy,
    ensure_true_bind_apply, modify_bind_apply]
  refine Adds.trans_sameNames ?_ (initializeUserDataEA_sameNames rid q.kind _)
  intro rid' r' hr'
  rw [Agent.lookup_updateResource, Agent.lookup_updateResource] at hr'
  by_cases heq : rid' = rid
  · subst heq
    change (if rid' = rid' then Option.map _ (if rid' = rid' then
      ((a.resources.insert rid' .initial).lookup rid').map _ else _) else _) = some r' at hr'
    rw [if_pos rfl, if_pos rfl, AList.lookup_insert] at hr'
    obtain rfl := Option.some.inj hr'
    exact .inr ⟨hnew, rfl, rfl⟩
  · rw [if_neg heq, if_neg heq] at hr'
    exact .inl ⟨r', (AList.lookup_insert_ne heq).symm.trans hr', rfl, rfl⟩

theorem insertResourceRecordEA_adds {q : CreateRequest} {a : Agent}
    (h : InsertsWhole env a q) : Adds q.kind a (insertResourceRecordEA env q a).2 := by
  have hsame : ∀ {b : Agent}, b.resources = a.resources → Adds q.kind a b :=
    fun hb => (SameNames.of_resources hb).adds
  unfold insertResourceRecordEA
  rw [modify_bind_apply]
  refine keeps_ensure (hsame rfl) fun hsuccess => keeps_require (hsame rfl) fun first hfirst => ?_
  refine keeps_ensure (hsame rfl) fun hk => keeps_ensure (hsame rfl) fun hrid => ?_
  refine keeps_ensure (hsame rfl) fun hinsert => ?_
  have hk : first.1 = q.kind := by simpa using hk
  have hobtain : Adds q.kind a (obtainRecordEA env first.2 q
      { a with entities := a.entities ++ env.factory.entities }).2 := by
    unfold obtainRecordEA
    rw [read_bind_apply]
    cases hnew : a.resources.lookup first.2 with
    | some r => exact hsame rfl
    | none =>
        have hfirst : env.factory.created.head? = some (q.kind, first.2) := by rw [hfirst, ← hk]
        have hrid : first.2 ≠ .none := by simpa using hrid
        obtain ⟨hkind, hentity, hallocate, hcopy⟩ := h hsuccess first.2 hfirst hrid hinsert hnew
        exact initializeRecordEA_adds
          (a := { a with entities := a.entities ++ env.factory.entities }) hnew hkind hentity
          hallocate hcopy
  refine keeps_bind (fun _ => hobtain) fun _ _ => ?_
  refine keeps_ensure hobtain fun _ => ?_
  rw [modify_bind_apply, read_bind_apply]
  exact keeps_require (hobtain.trans_sameNames (.of_resources rfl)) fun _ _ =>
    hobtain.trans_sameNames (.of_resources rfl)

end AgentM

/-- The state while an entity of `a` is deleted: the records are those of `d`, and no entity is
new. -/
def DeletingAlone (a d b : Agent) : Prop :=
  b.resources = d.resources ∧ ∀ e ∈ b.entities, e ∈ a.entities

namespace DeletingAlone

variable {a d : Agent}

theorem removeEntity {b : Agent} (h : DeletingAlone a d b) (ptr : ℕ) :
    DeletingAlone a d (b.removeEntity ptr) :=
  ⟨h.1, fun e he => h.2 e (List.mem_of_mem_filter he)⟩

/-- No record is found for an entity that none stands for. -/
theorem findResourceByNative_eq_none {b : Agent} (h : DeletingAlone a d b) (hw : Withers a d)
    {kind : ResourceKind} {ptr : ℕ} (hkind : kind ≠ .unknown)
    (hno : ∀ rid r, a.resources.lookup rid = some r → r.kind = kind → r.native ≠ some ptr) :
    b.findResourceByNative kind ptr = none := by
  by_contra hfound
  obtain ⟨m, hm⟩ := Option.ne_none_iff_exists'.1 hfound
  obtain ⟨rid, hlookup, hk, hn⟩ := Agent.record_of_findResourceByNative hm
  rw [h.1] at hlookup
  rcases hw.records rid m hlookup with hgone | ⟨r, hr, hkr, -, hnr⟩
  · exact hkind (hk.symm.trans hgone)
  · exact hno rid r hr (hkr.symm.trans hk) (hnr.symm.trans hn)

end DeletingAlone

namespace AgentM

variable {env : Env} {a d : Agent}

theorem deleteTopicEntity_completes (ptr : ℕ) :
    Completes (DeletingAlone a d) (deleteTopicEntity env ptr) :=
  .onlyIf fun _ => .modify fun _ hb => hb.removeEntity ptr

theorem deleteNativeEntityEA_completes {contained : ResourceKind → ℕ → AgentM Unit}
    {kind : ResourceKind} {e : Entity}
    (hentity : kind ≠ .topic → env.ok (.ddsEntity .deleteEntity kind e.ptr) = true)
    (hloop : ∀ k ∈ kind.containedKinds, env.ok (.ddsEntity .deleteContained k e.ptr) = true)
    (hc : ∀ c ∈ a.entities, c.kind ∈ kind.containedKinds → c.parent = e.ptr →
      Completes (DeletingAlone a d) (contained c.kind c.ptr)) :
    Completes (DeletingAlone a d) (deleteNativeEntityEA env contained kind e) := by
  refine .bind (.forEach fun k hk => .read fun b hb => .bind (.ensure (hloop k hk)) fun _ => ?_)
    fun _ => ?_
  · refine .forEach fun c hcmem => ?_
    obtain ⟨hmem, hmatch⟩ := List.mem_filter.1 hcmem
    obtain ⟨hck, hparent⟩ := Bool.and_eq_true_iff.1 hmatch
    have hck : c.kind = k := by simpa using hck
    subst hck
    exact hc c (hb.2 c hmem) hk (by simpa using hparent)
  · split
    · exact deleteTopicEntity_completes _
    · rename_i hkind
      refine .bind (.ensure (hentity hkind)) fun _ => .bind (.modify fun b hb => ?_) fun _ => ?_
      · exact hb.removeEntity _
      · exact .onlyIf fun _ => deleteTopicEntity_completes _

/-- Nothing but entities is deleted below an entity that is deleted alone. -/
theorem findContainedResourceAndDeleteEA_completes (hw : Withers a d) (depth : ℕ)
    {kind : ResourceKind} {ptr : ℕ} (hkind : kind ≠ .unknown)
    (hnext : env.ok (.nextResource .deleteContained) = true)
    (hno : ∀ rid r, a.resources.lookup rid = some r → r.kind = kind → r.native ≠ some ptr)
    (halone : DeletesAlone env a kind ptr) :
    Completes (DeletingAlone a d) (findContainedResourceAndDeleteEA env depth kind ptr) := by
  induction depth generalizing kind ptr with
  | zero => exact .pure _
  | succ depth ih =>
      refine .read fun b hb => .bind (.ensure hnext) fun _ => ?_
      rw [hb.findResourceByNative_eq_none hw hkind hno]
      dsimp only
      cases hfind : b.entities.find? fun x => x.kind = kind && x.ptr = ptr with
      | none => exact .pure _
      | some x =>
          have hmatch := List.find?_some hfind
          obtain ⟨-, hptr⟩ := Bool.and_eq_true_iff.1 hmatch
          have hptr : x.ptr = ptr := by simpa using hptr
          subst hptr
          cases halone with
          | intro hentity hloop _ hnos hbelow =>
              refine deleteNativeEntityEA_completes hentity hloop fun c hc hck hparent => ?_
              exact ih (ResourceKind.ne_unknown_of_mem hck) (hnos c hc hck hparent)
                (hbelow c hc hck hparent)

/-- How the native deletion of a record ends: with an error before the record is finalized, or
after it was deleted alone. -/
def EndsAlone (b : Agent) (rid : ResourceId) (res : Option Unit) (c : Agent) : Prop :=
  (res = none → SameNames b c) ∧
    ∀ rid', rid' ≠ rid → c.resources.lookup rid' = b.resources.lookup rid'

theorem deleteNativeResourceEA_endsAlone {rid : ResourceId} {r : Resource} {b : Agent}
    (hw : Withers a b) (hr : b.resources.lookup rid = some r)
    (hentities : ∀ e ∈ b.entities, e ∈ a.entities)
    (hentity : r.kind.isEntity = true → env.ok (.releaseResource .deleteNative rid) = true ∧
      ∀ e, b.lookupEntity r.kind r.id = some e → DeletesAlone env a r.kind e.ptr) :
    EndsAlone b rid (deleteNativeResourceEA env rid b).1 (deleteNativeResourceEA env rid b).2 := by
  have hstay : ∀ {c : Agent}, c.resources = b.resources → ∀ {res}, EndsAlone b rid res c :=
    fun hc _ => ⟨fun _ => .of_resources hc, fun rid' _ => by rw [hc]⟩
  unfold deleteNativeResourceEA deleteNativeResourceWith
  refine exits_lookupResource (hstay rfl) fun _ => ?_
  rw [hr]
  dsimp only
  split
  · exact hstay rfl
  rw [modify_bind_apply]
  have hmark : SameNames b (b.updateResource rid fun r => { r with nativeDeleted := true }) :=
    .updateResource b rid fun _ => ⟨rfl, rfl⟩
  have hothers : ∀ rid', rid' ≠ rid → (b.updateResource rid fun r =>
      { r with nativeDeleted := true }).resources.lookup rid' = b.resources.lookup rid' := by
    intro rid' hne
    rw [Agent.lookup_updateResource, if_neg hne]
  have hwm : Withers a (b.updateResource rid fun r => { r with nativeDeleted := true }) :=
    IsTrans.trans _ _ _ hw (.updateResource b rid fun _ => .inr ⟨rfl, rfl, rfl⟩)
  have hem : (b.updateResource rid fun r => { r with nativeDeleted := true }).entities =
      b.entities := rfl
  generalize b.updateResource rid _ = c at hmark hothers hwm hem
  have hfinalized : ∀ (f : Resource → Resource) (d : Agent), d.resources = c.resources →
      ∀ rid', rid' ≠ rid →
      (d.updateResource rid f).resources.lookup rid' = b.resources.lookup rid' := by
    intro f d hd rid' hne
    rw [Agent.lookup_updateResource, if_neg hne, hd]
    exact hothers rid' hne
  split
  · exact ⟨fun h => (Option.some_ne_none _ h).elim, hfinalized _ c rfl⟩
  refine exits_ensure ⟨fun _ => hmark, hothers⟩ fun hkind => ?_
  refine exits_ensure ⟨fun _ => hmark, hothers⟩ fun _ => ?_
  rw [read_bind_apply]
  have hsame := releaseUserDataEA_sameRecords env rid r c
  have hents := releaseUserDataEA_entities env rid r c.entities c rfl
  refine exits_bind (fun _ => ⟨fun _ => ?_, fun rid' hne => ?_⟩) fun _ _ => ?_
  · exact IsTrans.trans _ _ _ hmark (.of_resources hsame.2.2)
  · rw [hsame.2.2]
    exact hothers rid' hne
  obtain ⟨hrelease, halone⟩ := hentity hkind
  rw [modify_bind_apply, hrelease, ensure_true_bind_apply]
  have hdone := hfinalized (fun r => { r.finalize with userData := none }) _ hsame.2.2
  have hwd : Withers a ((releaseUserDataEA env rid r c).2.updateResource rid fun r =>
      { r.finalize with userData := none }) :=
    IsTrans.trans _ _ _ (IsTrans.trans _ _ _ hwm (.of_same hents hsame.2.2))
      (.updateResource _ rid fun _ => .inl rfl)
  have hed : ((releaseUserDataEA env rid r c).2.updateResource rid fun r =>
      { r.finalize with userData := none }).entities = b.entities := hents.trans hem
  generalize (releaseUserDataEA env rid r c).2.updateResource rid _ = d at hdone hwd hed
  cases hfind : c.lookupEntity r.kind r.id with
  | none => exact ⟨fun h => (Option.some_ne_none _ h).elim, hdone⟩
  | some e =>
      have hfound : b.lookupEntity r.kind r.id = some e := by
        rw [← hfind]
        unfold Agent.lookupEntity
        rw [hem]
      cases halone e hfound with
      | intro hentity hloop hnexts hnos hbelow =>
          have hcompletes : Completes (DeletingAlone a d) (deleteNativeEntityEA env
              (findContainedResourceAndDeleteEA env 2) r.kind e) :=
            deleteNativeEntityEA_completes hentity hloop fun c hc hck hparent =>
              findContainedResourceAndDeleteEA_completes hwd 2 (ResourceKind.ne_unknown_of_mem hck)
                (hnexts c hc hck hparent) (hnos c hc hck hparent) (hbelow c hc hck hparent)
          obtain ⟨_, d', hret, hd'⟩ := hcompletes d ⟨rfl, fun e he => hentities e (hed ▸ he)⟩
          dsimp only
          rw [hret]
          refine ⟨fun h => (Option.some_ne_none _ h).elim, fun rid' hne => ?_⟩
          rw [hd'.1]
          exact hdone rid' hne

/-- The deletion in `detachResourceEA` of a record that goes alone. -/
theorem deleteDetached_sameNames {rid : ResourceId} {r : Resource} {b : Agent}
    (hw : Withers a b) (hr : b.resources.lookup rid = some r)
    (hentities : ∀ e ∈ b.entities, e ∈ a.entities)
    (hdelete : r.nativeDeleted = false → env.ok (.deleteResource rid) = true ∧
      (r.kind.isEntity = true → env.ok (.releaseResource .deleteNative rid) = true ∧
        ∀ e, b.lookupEntity r.kind r.id = some e → DeletesAlone env a r.kind e.ptr)) :
    SameNames b (((do
      deleteNativeResourceEA env rid
      ensure (env.ok (.deleteResource rid))
      modify fun a => { a with resources := a.resources.erase rid }) : AgentM Unit) b).2 := by
  cases hdead : r.nativeDeleted with
  | true =>
      have hsame : (deleteNativeResourceEA env rid b).2 = b :=
        deleteNativeResourceEA_deleted hr hdead
      refine keeps_bind (fun _ => by rw [hsame]; exact refl b) fun _ _ => ?_
      rw [hsame]
      exact keeps_ensure (refl b) fun _ => .erase b rid
  | false =>
      obtain ⟨herase, hentity⟩ := hdelete hdead
      have hends := deleteNativeResourceEA_endsAlone hw hr hentities hentity
      refine keeps_bind (fun hfail => hends.1 hfail) fun _ _ => ?_
      rw [herase, ensure_true_bind_apply, modify_apply]
      intro rid' r' hr'
      by_cases heq : rid' = rid
      · subst heq
        rw [AList.lookup_erase] at hr'
        cases hr'
      · rw [AList.lookup_erase_ne heq, hends.2 rid' heq] at hr'
        exact ⟨r', hr', rfl, rfl⟩

theorem countOutExit_sameNames {n : ℕ} {del : Bool} {res : Option Bool} {b : Agent}
    (h : CountOutExit a n del res b) : SameNames a b := by
  cases h with
  | failed hb => exact .of_resources hb.1.resources
  | @counted _ c _ _ _ _ hc hb _ =>
      refine IsTrans.trans _ _ _ (.of_resources hc.1.resources) ?_
      exact IsTrans.trans _ _ _ (.countOut c _ del) (.of_resources hb.1.resources)

/-- Detaching keeps the names, or removes the one record whose name it takes. -/
theorem detachResourceEA_sameNames {key : ClientSessionKey} {n : ℕ} {del copyOut : Bool}
    (h : DetachesAlone env a n del) :
    SameNames a (detachResourceEA env key n del copyOut a).2 := by
  unfold detachResourceEA
  rw [read_bind_apply]
  have hexit := countOutEA_exits env key n del a
  have hout := countOutExit_sameNames hexit
  refine keeps_bind (fun _ => hout) fun delete hdelete => ?_
  have hremove : SameNames (countOutEA env key n del a).2 ((onlyIf delete (do
      deleteNativeResourceEA env (a.attached n).resource
      ensure (env.ok (.deleteResource (a.attached n).resource))
      modify fun b => { b with resources := b.resources.erase (a.attached n).resource }) :
        AgentM Unit) (countOutEA env key n del a).2).2 := by
    refine keeps_onlyIf (refl _) fun hyes => ?_
    subst hyes
    rw [hdelete] at hexit
    cases hexit with
    | @counted _ c r _ hr hcount hc hb hflag =>
        have hflag := hflag true rfl
        obtain ⟨hwanted, hlast⟩ := Bool.and_eq_true_iff.1 hflag.symm
        have hlast : r.attachedCount - 1 = 0 := of_decide_eq_true hlast
        have hw : Withers a (countOutEA env key n del a).2 :=
          IsTrans.trans _ _ _ (IsTrans.trans _ _ _ (.of_readFrame hc.1) (.countOut c _ del))
            (.of_readFrame hb.1)
        have hentities : (countOutEA env key n del a).2.entities = a.entities :=
          hb.1.entities.trans hc.1.entities
        refine deleteDetached_sameNames (r := { r with
            attachedCount := r.attachedCount - 1, pendingDelete := r.pendingDelete || del })
          hw ?_ (fun e he => hentities ▸ he) fun hlive => ?_
        · rw [hb.1.resources]
          unfold Agent.countOut
          rw [Agent.lookup_updateResource, if_pos rfl, hc.1.resources, hr]
          rfl
        · unfold Agent.lookupEntity
          rw [hentities]
          exact h r hr hlive hwanted (by omega)
  have hremoved := IsTrans.trans _ _ _ hout hremove
  refine keeps_bind (fun _ => hremoved) fun _ _ => IsTrans.trans _ _ _ hremoved ?_
  refine Within.bind (R := SameNames) (.onlyIf fun _ => .ensure _) (fun _ => ?_) _
  exact .bind (.modify fun b => .of_resources rfl) fun _ => .ensure _

end AgentM

/-- One change. -/
theorem Identified.leads {env : Env} {c : RecordStep} {s s' : Agent × Kinds} (hs : Identified s)
    (hc : c.KeepsIdentity env s.1) (h : c.Leads env s s') : Identified s' := by
  cases h with
  | insert q => exact (insertResourceRecordEA_adds hc).identified hs
  | detach key n del copyOut => exact (detachResourceEA_sameNames hc).identified hs
  | aside hchange hi hd => exact (SameNames.of_change hchange hi hd).identified hs

theorem Identified.passes {env : Env} {s s' : Agent × Kinds} (hs : Identified s)
    (h : Passes RecordStep.KeepsIdentity env s s') : Identified s' := by
  induction h with
  | refl => exact hs
  | tail _ hchange ih =>
      obtain ⟨c, hc, hleads⟩ := hchange
      exact ih.leads hc hleads

theorem Identified.run {s s' : Agent × Kinds} (hs : Identified s)
    (h : ReflTransGen (StepPasses RecordStep.KeepsIdentity) s s') : Identified s' := by
  induction h with
  | refl => exact hs
  | tail _ hstep ih =>
      obtain ⟨i, -, hstep⟩ := hstep
      exact ih.passes hstep

/-- In every run whose changes meet the condition, in every state between two changes, a record
bears the name that it is in the table under and the kind that it was created with, so
that the resource found for an attached resource is the one that it names. -/
theorem identified_of_keepsIdentity {a : Agent} {kinds : Kinds} {s t : Agent × Kinds} {env : Env}
    (ha : a.Initial) (hrun : ReflTransGen (StepPasses RecordStep.KeepsIdentity) (a, kinds) s)
    (hpass : Passes RecordStep.KeepsIdentity env s t) :
    Identified t ∧ ∀ n r, t.1.resources.lookup (t.1.attached n).resource = some r →
      r.id = (t.1.attached n).resource := by
  have hinit : Identified (a, kinds) := by
    intro rid r hr
    rw [ha.resources] at hr
    cases hr
  have ht := (hinit.run hrun).passes hpass
  exact ⟨ht, fun n r hr => (ht _ r hr).1⟩

/-- The creation of a participant, and its deletion by the session that created it. -/
def participantCreation : Operation × Env :=
  (.createResource ⟨1, 1⟩ ⟨1, .domainParticipant, .xml "", 0, false, false⟩,
    .obliging (.one ⟨1, .domainParticipant, .guid 1, 0, 0⟩))

def participantDeletion : Operation × Env :=
  (.deleteResource ⟨1, 1⟩ 1, .obliging ⟨true, [], []⟩)

def sessionOpening : Operation × Env :=
  (.openSession 0 ⟨1, 1⟩ 0 none, .obliging ⟨true, [], []⟩)

/-- A participant is created, and detached for good. -/
theorem identified_participantCreation : ∃ kinds : Kinds,
    Identified ((Agent.started false .firstCached).after [sessionOpening, participantCreation],
      kinds) ∧ kinds (.guid 1) = .domainParticipant ∧
    Identified ((detachResourceEA participantDeletion.2 ⟨1, 1⟩ 0 true true
      ((Agent.started false .firstCached).after [sessionOpening, participantCreation])).2,
      kinds) := by
  let a := (Agent.started false .firstCached).step sessionOpening
  let q : CreateRequest := ⟨1, .domainParticipant, .xml "", 0, false, false⟩
  let kinds : Kinds := fun _ => .unknown
  let kinds' := kinds.note a (insertResourceRecordEA participantCreation.2 q a).2 q.kind
  have hopen : StepPasses RecordStep.KeepsIdentity (.started false .firstCached, kinds)
      (a, kinds) :=
    ⟨sessionOpening, rfl, .single ⟨.aside, trivial,
      .aside (.openSession ⟨1, 1⟩ (.initial 0 0 none) rfl rfl) (by decide) (by decide)⟩⟩
  have hcreate : StepPasses RecordStep.KeepsIdentity (a, kinds)
      (a.step participantCreation, kinds') := by
    refine ⟨participantCreation, rfl, .tail (.tail (.single ⟨.insert q, ?_, .insert q⟩)
      ⟨.aside, trivial, .aside (.create ⟨1, 1⟩ 1 (.guid 1) rfl rfl rfl rfl (.inr rfl)) (by decide)
        (by decide)⟩)
      ⟨.aside, trivial, .aside (.announce ⟨1, 1⟩ 0 none rfl (List.mem_singleton_self 0))
        (by decide) (by decide)⟩⟩
    intro _ rid hrid _ _ _
    obtain rfl : ResourceId.guid 1 = rid := (Prod.mk.inj (Option.some.inj hrid)).2
    exact ⟨rfl, fun _ => ⟨rfl, rfl⟩, rfl, rfl⟩
  have hdetach : DetachesAlone participantDeletion.2 (a.step participantCreation) 0 true := by
    intro r hr _ _ _
    obtain rfl : (⟨.domainParticipant, .guid 1, some 1, .xml "", 1, none, false, false⟩ :
      Resource) = r := Option.some.inj hr
    have hno : ∀ c ∈ (a.step participantCreation).entities,
        c.kind ∉ ResourceKind.containedKinds .domainParticipant := by decide
    refine ⟨rfl, fun _ => ⟨rfl, fun e _ => .intro (fun _ => rfl) (fun _ _ => rfl)
      (fun _ _ _ _ => rfl) (fun c hc hk => ?_) fun c hc hk => ?_⟩⟩
    · exact absurd hk (hno c hc)
    · exact absurd hk (hno c hc)
  have hinit := Agent.started_initial false .firstCached
  have hrun := ReflTransGen.tail (.single hopen) hcreate
  refine ⟨kinds', (@identified_of_keepsIdentity _ _ _ _ participantDeletion.2 hinit hrun .refl).1,
    by decide, ?_⟩
  exact (identified_of_keepsIdentity hinit hrun
    (.single ⟨.detach ⟨1, 1⟩ 0 true true, hdetach, .detach _ _ _ _⟩)).1

/-- Deleting a participant takes the name of the record of its subscriber. -/
theorem not_identified_of_contained : ¬ ∀ a : Agent, a.ReachedWhen (fun _ _ => True) →
    ∀ rid r, a.resources.lookup rid = some r → r.id = rid := by
  intro h
  have hreached := Agent.reached_after (Agent.started_initial false .firstCached)
    [sessionOpening, participantCreation,
      (.createResource ⟨1, 1⟩ ⟨2, .subscriber, .xml "", 1, false, false⟩,
        .obliging (.one ⟨2, .subscriber, .guid 2, 1, 0⟩)), participantDeletion]
  have hname := h _ hreached (.guid 2)
    ⟨.unknown, .none, some 2, .unknown, 1, none, true, false⟩ (by decide)
  cases hname

end NanoAgent
