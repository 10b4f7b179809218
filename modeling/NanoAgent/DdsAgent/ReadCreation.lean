import NanoAgent.DdsAgent.AttachPass
import NanoAgent.DdsAgent.DeadEntities
import NanoAgent.DdsAgent.ReadDeletion

/-!
# Reads and the creation of resources

A new record, a new reader state and a new attached resource have no read on them, so
creating and attaching resources keeps the invariant `ReadInv`. Where the interface
refuses a resource, it is detached again; that is harmless as long as no read is on a
record that this deletes (`SparesReads`, `Undisturbed`).
-/

namespace NanoAgent

open Prog

/-- Taking a buffer for an attached resource. -/
theorem ReadInv.takeAttached {a : Agent} (ha : ReadInv a) {x : AttachedResource}
    (hx : x.readReq = none) : ReadInv { a with poolResources := a.poolResources.take x } := by
  have hread : ∀ m rd, ((a.poolResources.take x).content m).readReq = some rd →
      (a.poolResources.take x).content m = a.attached m ∧ (a.attached m).readReq = some rd := by
    intro m rd hm
    by_cases hn : m = a.poolResources.next
    · subst hn
      rw [BufferPool.content_take_self, hx] at hm
      cases hm
    · rw [BufferPool.content_take_of_ne _ _ hn] at hm ⊢
      exact ⟨rfl, hm⟩
  refine ⟨?_, ?_, ?_, ?_, ha.nodup, ha.own, ha.uniq, ha.sound, ha.ids, ha.states, ha.distinct,
    ha.keyed⟩
  · intro m rd hm
    obtain ⟨heq, hm⟩ := hread m rd hm
    rw [Agent.attached, heq]
    exact ha.kind m rd hm
  · intro m rd hm
    exact ha.live m rd (hread m rd hm).2
  · intro m rd hm
    obtain ⟨heq, hm⟩ := hread m rd hm
    obtain ⟨r, reader, hrec, hmem⟩ := ha.reg m rd hm
    refine ⟨r, reader, ⟨?_, hrec.kind, hrec.id, hrec.alive, hrec.state⟩, hmem⟩
    rw [Agent.attached, heq]
    exact hrec.lookup
  · intro m m' rd hm hm'
    exact ha.excl m m' rd (hread m rd hm).2 (hread m' rd hm').2

theorem ReadInv.link {a : Agent} (ha : ReadInv a) (key : ClientSessionKey) (id : ℕ)
    (rid : ResourceId) (r : Resource) : ReadInv (a.link key id rid r) := by
  have htaken := ha.takeAttached (x := .initial r.kind r.id id key) rfl
  refine htaken.of_records rfl rfl rfl (fun rid' r' hr' => ?_) fun m rd _ r' hr' => ?_
  · obtain ⟨r₀, hr₀, rfl⟩ := Agent.exists_of_lookup_link hr'
    exact ⟨r₀, hr₀, .inr ⟨rfl, rfl, rfl⟩⟩
  · rw [Agent.lookup_link]
    change a.resources.lookup _ = some r' at hr'
    split
    · refine ⟨{ r' with attachedCount := r'.attachedCount + 1 }, ?_, rfl, rfl, rfl, rfl⟩
      rw [hr']
      rfl
    · exact ⟨r', hr', rfl, rfl, rfl, rfl⟩

/-- A new reader state has no requests. -/
theorem ReadInv.takeReader {a : Agent} (ha : ReadInv a) (cache : List Sample) :
    ReadInv (a.takeReader cache) := by
  have hself : (a.takeReader cache).readerAt a.poolReaders.next = .initial cache :=
    BufferPool.content_take_self _ _
  have hother : ∀ m, m ≠ a.poolReaders.next → (a.takeReader cache).readerAt m = a.readerAt m :=
    fun m hm => BufferPool.content_take_of_ne _ _ hm
  have hmem : ∀ m rd, rd ∈ ((a.takeReader cache).readerAt m).registered →
      rd ∈ (a.readerAt m).registered := by
    intro m rd h
    by_cases hm : m = a.poolReaders.next
    · subst hm
      rw [hself] at h
      cases h
    · rw [hother m hm] at h
      exact h
  refine ⟨ha.kind, ha.live, ?_, ha.excl, ?_, ?_, ?_, ha.sound, ha.ids, ?_, ha.distinct, ha.keyed⟩
  · intro m rd hm
    obtain ⟨r, reader, hrec, hreg⟩ := ha.reg m rd hm
    refine ⟨r, reader, ⟨hrec.lookup, hrec.kind, hrec.id, hrec.alive, hrec.state⟩, ?_⟩
    rw [hother reader (Nat.ne_of_lt (ha.states _ r reader hrec.lookup hrec.kind hrec.state))]
    exact hreg
  · intro m
    by_cases hm : m = a.poolReaders.next
    · subst hm
      rw [hself]
      exact List.nodup_nil
    · rw [hother m hm]
      exact ha.nodup m
  · intro m rd h
    exact ha.own m rd (hmem m rd h)
  · intro m m' rd h h'
    exact ha.uniq m m' rd (hmem m rd h) (hmem m' rd h')
  · intro rid r reader hr hk hu
    exact Nat.lt_succ_of_lt (ha.states rid r reader hr hk hu)

/-- Writing the record of `rid`, on which there is no read. A reader state that it names
is in no other record. -/
theorem ReadInv.setRecord {a b : Agent} (ha : ReadInv a) {rid : ResourceId} {r' : Resource}
    (hne : rid ≠ .none) (hunread : Unread a rid)
    (hlookup : ∀ rid', b.resources.lookup rid' =
      if rid' = rid then some r' else a.resources.lookup rid')
    (hid : r'.id = .none ∨ r'.id = rid)
    (hstate : ∀ reader, r'.userData = some reader → r'.kind = .dataReader →
      reader < a.poolReaders.next ∧ ∀ rid₂ r₂, rid₂ ≠ rid → a.resources.lookup rid₂ = some r₂ →
        r₂.kind = .dataReader → r₂.userData ≠ some reader)
    (hp : b.poolResources = a.poolResources) (hreads : b.poolReads = a.poolReads)
    (hreaders : b.poolReaders = a.poolReaders) : ReadInv b := by
  have hatt : ∀ m, b.attached m = a.attached m := by
    intro m
    rw [Agent.attached, hp, Agent.attached]
  have hat : ∀ m, b.readerAt m = a.readerAt m := by
    intro m
    rw [Agent.readerAt, hreaders, Agent.readerAt]
  refine ⟨?_, ?_, ?_, ?_, ?_, ?_, ?_, ?_, ?_, ?_, ?_, ?_⟩
  · intro m rd hm
    rw [hatt] at hm ⊢
    exact ha.kind m rd hm
  · intro m rd hm
    rw [hatt] at hm
    rw [hreads]
    exact ha.live m rd hm
  · intro m rd hm
    rw [hatt] at hm
    obtain ⟨r, reader, hrec, hmem⟩ := ha.reg m rd hm
    refine ⟨r, reader, ⟨?_, hrec.kind, hrec.id, hrec.alive, hrec.state⟩, by rw [hat]; exact hmem⟩
    rw [hatt, hlookup, if_neg (hunread m rd hm)]
    exact hrec.lookup
  · intro m m' rd hm hm'
    rw [hatt] at hm hm'
    exact ha.excl m m' rd hm hm'
  · intro reader
    rw [hat]
    exact ha.nodup reader
  · intro reader rd hmem
    rw [hat] at hmem
    rw [hreads]
    exact ha.own reader rd hmem
  · intro reader reader' rd hmem hmem'
    rw [hat] at hmem hmem'
    exact ha.uniq reader reader' rd hmem hmem'
  · rw [hreads]
    exact ha.sound
  · intro rid' r hr hne'
    rw [hlookup] at hr
    split at hr
    · rename_i heq
      obtain rfl := Option.some.inj hr
      rw [heq]
      exact hid.resolve_left hne'
    · exact ha.ids rid' r hr hne'
  · intro rid' r reader hr hk hu
    rw [hreaders]
    rw [hlookup] at hr
    split at hr
    · obtain rfl := Option.some.inj hr
      exact (hstate reader hu hk).1
    · exact ha.states rid' r reader hr hk hu
  · intro rid₁ rid₂ r₁ r₂ reader hr₁ hr₂ hk₁ hk₂ hu₁ hu₂
    rw [hlookup] at hr₁ hr₂
    split at hr₁
    · obtain rfl := Option.some.inj hr₁
      split at hr₂
      · rename_i h₁ h₂
        rw [h₁, h₂]
      · rename_i h₂
        exact absurd hu₂ ((hstate reader hu₁ hk₁).2 rid₂ r₂ h₂ hr₂ hk₂)
    · rename_i h₁
      split at hr₂
      · obtain rfl := Option.some.inj hr₂
        exact absurd hu₁ ((hstate reader hu₂ hk₂).2 rid₁ r₁ h₁ hr₁ hk₁)
      · exact ha.distinct rid₁ rid₂ r₁ r₂ reader hr₁ hr₂ hk₁ hk₂ hu₁ hu₂
  · rw [hlookup, if_neg hne.symm]
    exact ha.keyed

/-- The record of `rid` is being set up: there is no read on it, and it has no state. -/
structure SettingUp (rid : ResourceId) (a : Agent) : Prop where
  inv : ReadInv a
  unread : Unread a rid
  record : ∃ r, a.resources.lookup rid = some r ∧ r.userData = none

theorem SettingUp.updateResource {rid : ResourceId} (hne : rid ≠ .none) {a : Agent}
    (h : SettingUp rid a) {f : Resource → Resource} (hid : ∀ r, (f r).id = .none ∨ (f r).id = rid)
    (hstate : ∀ r, r.userData = none → (f r).userData = none) :
    SettingUp rid (a.updateResource rid f) := by
  obtain ⟨r, hr, hu⟩ := h.record
  have hlookup : ∀ rid', (a.updateResource rid f).resources.lookup rid' =
      if rid' = rid then some (f r) else a.resources.lookup rid' := by
    intro rid'
    rw [Agent.lookup_updateResource]
    split
    · rename_i heq
      rw [heq, hr]
      rfl
    · rfl
  refine ⟨?_, h.unread, f r, ?_, hstate r hu⟩
  · refine h.inv.setRecord hne h.unread hlookup (hid r) ?_ rfl rfl rfl
    intro reader hu'
    rw [hstate r hu] at hu'
    cases hu'
  · rw [hlookup, if_pos rfl]

namespace AgentM

variable {env : Env}

theorem initializeUserDataEA_readInv {rid : ResourceId} (hne : rid ≠ .none) (kind : ResourceKind)
    {a : Agent} (ha : SettingUp rid a)
    (hid : ∀ r, a.resources.lookup rid = some r → r.id = .none ∨ r.id = rid)
    (hkind : ∀ r, a.resources.lookup rid = some r → r.kind = kind) :
    ReadInv (initializeUserDataEA env rid kind a).2 := by
  obtain ⟨r, hr, hu⟩ := ha.record
  have hset : ∀ {b : Agent} (n : ℕ), b.resources = a.resources → ∀ rid',
      (b.updateResource rid fun r => { r with userData := some n }).resources.lookup rid' =
        if rid' = rid then some { r with userData := some n } else b.resources.lookup rid' := by
    intro b n hres rid'
    rw [Agent.lookup_updateResource]
    split
    · rename_i heq
      rw [heq, hres, hr]
      rfl
    · rfl
  unfold initializeUserDataEA
  rw [read_bind_apply]
  by_cases hreader : kind = .dataReader
  · rw [if_pos hreader]
    refine keeps_ensure ha.inv fun _ => ?_
    rw [modify_bind_apply]
    have htake := ha.inv.takeReader env.initialCache
    have hgive : ∀ {b : Agent} (n : ℕ), ReadInv b →
        ReadInv { b with poolReaders := b.poolReaders.giveBack n } := by
      intro b n hb
      exact RegFrame.readInv (a := b) ⟨rfl, fun _ => rfl, fun _ => rfl, fun _ => rfl, rfl, rfl,
        fun _ => rfl, rfl⟩ hb
    cases env.ok (.initState kind rid) with
    | false => exact hgive _ htake
    | true =>
        have hrecord : ReadInv ((a.takeReader env.initialCache).updateResource rid fun r =>
            { r with userData := some a.poolReaders.next }) := by
          refine htake.setRecord hne ha.unread (hset _ rfl) (hid r hr) ?_ rfl rfl rfl
          intro reader hsome _
          obtain rfl := Option.some.inj hsome
          refine ⟨Nat.lt_succ_self _, fun rid₂ r₂ _ hr₂ hk₂ hu₂ => ?_⟩
          exact Nat.lt_irrefl _ (ha.inv.states rid₂ r₂ _ hr₂ hk₂ hu₂)
        cases env.ok (.dds .getQos a.poolReaders.next) with
        | false =>
            simp only [Bool.not_true, onlyIf_false, bind_apply, pure_apply, modify_apply,
              Bool.not_false, onlyIf_true]
            exact hgive _ hrecord
        | true =>
            simp only [Bool.not_true, onlyIf_false, bind_apply, pure_apply, modify_apply]
            exact hrecord
  · rw [if_neg hreader]
    by_cases hwriter : kind = .dataWriter
    · rw [if_pos hwriter]
      refine keeps_ensure ha.inv fun _ => ?_
      rw [modify_bind_apply]
      have htake : ReadInv a.takeWriter := ha.inv.of_same rfl rfl rfl rfl rfl
      cases env.ok (.initState kind rid) with
      | false => exact htake.of_same rfl rfl rfl rfl rfl
      | true =>
          simp only [Bool.not_true, onlyIf_false, bind_apply, pure_apply, modify_apply]
          refine htake.setRecord hne ha.unread (hset _ rfl) (hid r hr) ?_ rfl rfl rfl
          intro reader _ hk
          rw [show ({ r with userData := some a.poolWriters.next } : Resource).kind = kind from
            hkind r hr, hwriter] at hk
          cases hk
    · rw [if_neg hwriter]
      exact ha.inv

theorem initializeRecordEA_readInv {rid : ResourceId} (hne : rid ≠ .none) (q : CreateRequest)
    {a : Agent} (ha : SettingUp rid a) : ReadInv (initializeRecordEA env rid q a).2 := by
  simp only [initializeRecordEA, onlyIf_ensure]
  refine keeps_ensure ha.inv fun _ => ?_
  rw [read_bind_apply]
  refine keeps_ensure ha.inv fun _ => keeps_ensure ha.inv fun _ => ?_
  rw [modify_bind_apply]
  have hinit : SettingUp rid (a.updateResource rid fun _ =>
      { Resource.initial with kind := q.kind }) :=
    ha.updateResource hne (fun _ => .inl rfl) fun _ _ => rfl
  refine keeps_ensure hinit.inv fun _ => ?_
  rw [modify_bind_apply]
  have hnamed := hinit.updateResource hne (f := fun r =>
    { r with id := rid, native := (a.lookupEntity q.kind rid).map (·.ptr), createRepr := q.repr })
    (fun _ => .inr rfl) fun _ hu => hu
  have hrecord : ∀ r, ((a.updateResource rid fun _ =>
      { Resource.initial with kind := q.kind }).updateResource rid fun r =>
      { r with id := rid, native := (a.lookupEntity q.kind rid).map (·.ptr),
               createRepr := q.repr }).resources.lookup rid = some r →
      r.id = rid ∧ r.kind = q.kind := by
    intro r hr
    rw [Agent.lookup_updateResource, if_pos rfl, Agent.lookup_updateResource, if_pos rfl] at hr
    obtain ⟨r₁, hr₁, rfl⟩ := Option.map_eq_some_iff.1 hr
    obtain ⟨r₀, -, rfl⟩ := Option.map_eq_some_iff.1 hr₁
    exact ⟨rfl, rfl⟩
  exact initializeUserDataEA_readInv hne q.kind hnamed (fun r hr => .inr (hrecord r hr).1)
    fun r hr => (hrecord r hr).2

/-- A record that is not in the table yet has no read on it. -/
theorem obtainRecordEA_readInv {rid : ResourceId} (hne : rid ≠ .none) (q : CreateRequest)
    {a : Agent} (ha : ReadInv a) : ReadInv (obtainRecordEA env rid q a).2 := by
  unfold obtainRecordEA
  rw [read_bind_apply]
  cases hr : a.resources.lookup rid with
  | some r => exact ha
  | none =>
      refine initializeRecordEA_readInv hne q ?_
      have hunread : Unread a rid := by
        intro m rd hm heq
        obtain ⟨r, _, hrec, -⟩ := ha.reg m rd hm
        have hlookup := hrec.lookup
        rw [heq, hr] at hlookup
        cases hlookup
      have hlookup : ∀ rid', (a.insertResource rid).resources.lookup rid' =
          if rid' = rid then some .initial else a.resources.lookup rid' := by
        intro rid'
        by_cases heq : rid' = rid
        · subst heq
          rw [if_pos rfl]
          exact AList.lookup_insert _
        · rw [if_neg heq]
          exact AList.lookup_insert_ne heq
      refine ⟨ha.setRecord hne hunread hlookup (.inl rfl) (fun _ h => by cases h) rfl rfl rfl,
        hunread, .initial, ?_, rfl⟩
      rw [hlookup, if_pos rfl]

/-- What inserting a record has done when it returns one: the record is there and does
not wait for its deletion. -/
def Inserted (res : Option (Option ResourceId)) (b : Agent) : Prop :=
  ReadInv b ∧ ∀ rid, res = some (some rid) → ∀ r, b.resources.lookup rid = some r →
    r.pendingDelete = false

theorem insertResourceRecordEA_readInv (env : Env) (q : CreateRequest) {a : Agent}
    (ha : ReadInv a) :
    Inserted (insertResourceRecordEA env q a).1 (insertResourceRecordEA env q a).2 := by
  have hfail : ∀ {c : Agent}, ReadInv c → Inserted none c := fun hc => ⟨hc, by simp⟩
  unfold insertResourceRecordEA
  rw [modify_bind_apply]
  have hb : ReadInv { a with entities := a.entities ++ env.factory.entities } :=
    ha.of_same rfl rfl rfl rfl rfl
  refine exits_ensure (hfail hb) fun _ => exits_require (hfail hb) fun first _ => ?_
  refine exits_ensure (hfail hb) fun _ => exits_ensure (hfail hb) fun hrid => ?_
  refine exits_ensure (hfail hb) fun _ => ?_
  have hc : ReadInv (obtainRecordEA env first.2 q _).2 :=
    obtainRecordEA_readInv (by simpa using hrid) q hb
  refine exits_bind (fun _ => hfail hc) fun _ _ => exits_ensure (hfail hc) fun _ => ?_
  rw [modify_bind_apply, read_bind_apply]
  generalize (obtainRecordEA env first.2 q _).2 = c at hc
  have hd : ReadInv { c with condCleanupResources := true } := hc.of_same rfl rfl rfl rfl rfl
  refine exits_require (hfail hd) fun r hr => ⟨hd, fun rid heq r' hr' => ?_⟩
  have heq : (if r.pendingDelete || r.nativeDeleted then none else some first.2) = some rid :=
    Option.some.inj heq
  split at heq
  · cases heq
  · rename_i hflags
    obtain rfl := Option.some.inj heq
    have hsame : some r = some r' := hr.symm.trans hr'
    rw [← Option.some.inj hsame]
    simp only [Bool.or_eq_true, not_or, Bool.not_eq_true] at hflags
    exact hflags.1

theorem enableResourceEA_regFrame (rid : ResourceId) :
    Within RegFrame (enableResourceEA env rid) :=
  .read fun _ => .bind (.require _) fun _ => .onlyIf fun _ => .bind (access_regFrame _ _) fun _ =>
    .bind (.require _) fun _ => .ensure _

theorem finishCreateEA_regFrame (env : Env) (key : ClientSessionKey) (n : ℕ) (rid : ResourceId)
    (cancelled : Bool) : Within RegFrame (finishCreateEA env key n rid cancelled) :=
  .bind (enableResourceEA_regFrame rid) fun _ => .bind (.ensure _) fun _ =>
    .bind (.ensure _) fun _ => .onlyIf fun _ => .modify fun _ => .of_same rfl rfl rfl rfl rfl

/-- The interface accepts the attached resource `n`, or detaching it spares the reads. -/
def Acceptable (env : Env) (key : ClientSessionKey) (a : Agent) (n : ℕ) : Prop :=
  env.ok (.onResourceCreated key (a.attached n).id) = true ∨ SparesReads a n false

/-- The exits of obtaining an attached resource. -/
def Obtained (env : Env) (key : ClientSessionKey) (res : Option (ℕ × ResourceId × Bool))
    (b : Agent) : Prop :=
  ReadInv b ∧ ∀ v, res = some v → Acceptable env key b v.1

/-- The exits of creating a resource. -/
def Created (env : Env) (key : ClientSessionKey) (res : Option ℕ) (b : Agent) : Prop :=
  ReadInv b ∧ ∀ n, res = some n → Acceptable env key b n

theorem SparesReads.mono {a b : Agent} {n : ℕ} {del : Bool} (h : SparesReads a n del)
    (hf : ReadFrame a b)
    (hread : ∀ m, (b.attached m).readReq.isSome = true → (a.attached m).readReq.isSome = true) :
    SparesReads b n del := by
  intro r hr hdel hwanted hlast m hmn hm hgoes
  rw [hf.resources, hf.resource_eq] at hr
  rw [hf.resource_eq, hf.resource_eq] at hgoes
  exact h r hr hdel hwanted hlast m hmn (hread m hm) (hgoes.mono (.of_readFrame hf))

theorem Acceptable.mono {key : ClientSessionKey} {a b : Agent} {n : ℕ}
    (h : Acceptable env key a n) (hf : ReadFrame a b)
    (hread : ∀ m, (b.attached m).readReq.isSome = true → (a.attached m).readReq.isSome = true) :
    Acceptable env key b n := by
  refine h.imp (fun hok => ?_) fun hspare => hspare.mono hf hread
  rw [hf.id_eq]
  exact hok

theorem reuseAttachedEA_readsEnded (env : Env) (n : ℕ) (q : CreateRequest) :
    Within ReadsEnded (reuseAttachedEA env n q) :=
  .read fun _ => .bind (lookupResource_frame _ _ _) fun _ => .bind (.require _) fun _ =>
    .bind (.ensure _) fun _ => .bind (.require _) fun _ => .bind (.ensure _) fun _ =>
    .bind (.ensure _) fun _ => .bind (.onlyIf fun _ => cancelReadEA_readsEnded _ _ _) fun _ =>
    .pure _

theorem reuseAttachedEA_readInv (henv : env.EndsReads) (n : ℕ) (q : CreateRequest) {a : Agent}
    (ha : ReadInv a) : ReadInv (reuseAttachedEA env n q a).2 := by
  unfold reuseAttachedEA
  rw [read_bind_apply]
  refine keeps_lookupResource ha fun _ => keeps_require ha fun r _ => keeps_ensure ha fun _ => ?_
  refine keeps_require ha fun _ _ => keeps_ensure ha fun _ => keeps_ensure ha fun _ => ?_
  have hcancel : ReadInv (onlyIf (a.attached n).readReq.isSome
      (cancelReadEA env n (a.attached n).resource) a).2 :=
    keeps_onlyIf ha fun _ => cancelReadEA_readInv henv ha
  exact keeps_bind (fun _ => hcancel) fun _ _ => hcancel

theorem obtainAttachedEA_obtained (henv : env.EndsReads) (key : ClientSessionKey)
    (q : CreateRequest) (found : Option ℕ) {a : Agent} (ha : ReadInv a)
    (hspare : ∀ n, found = some n → Acceptable env key a n) :
    Obtained env key (obtainAttachedEA env key q found a).1
      (obtainAttachedEA env key q found a).2 := by
  have hfail : ∀ {c : Agent}, ReadInv c → Obtained env key none c := fun hc => ⟨hc, by simp⟩
  cases found with
  | some n =>
      unfold obtainAttachedEA
      have hb := reuseAttachedEA_readInv henv n q ha
      obtain ⟨hf, he⟩ := reuseAttachedEA_readsEnded env n q a
      refine exits_bind (fun _ => hfail hb) fun v _ => ⟨hb, fun w hw => ?_⟩
      obtain rfl := Option.some.inj hw
      refine (hspare n rfl).mono hf fun m hm => ?_
      rcases he.readReq m with hsame | hnone
      · exact hsame ▸ hm
      · change ((reuseAttachedEA env n q a).2.attached m).readReq.isSome = true at hm
        rw [hnone] at hm
        cases hm
  | none =>
      unfold obtainAttachedEA
      obtain ⟨hb, hpending⟩ := insertResourceRecordEA_readInv env q ha
      refine exits_bind (fun _ => hfail hb) fun inserted hres => ?_
      generalize (insertResourceRecordEA env q a).2 = b at hb hpending
      refine exits_require (hfail hb) fun rid hrid => ?_
      subst hrid
      have hpending := hpending rid hres
      have hattach : ReadInv (attachResourceToSessionEA env key q.id rid b).2 := by
        refine Within.read (R := fun b c => ReadInv b → ReadInv c) (fun c => ?_) b hb
        refine .bind (.require _) fun r => .bind (.onlyIf fun _ => .ensure _) fun _ => ?_
        refine .bind (.ensure _) fun _ => .ite (fun _ => .bind ?_ fun _ => .pure _) fun _ => ?_
        · exact fun c hc => hc.link key q.id rid r
        · exact .bind (fun c hc => hc.takeAttached rfl) fun _ => .fail
      refine exits_bind (fun _ => hfail hattach) fun n hn => ⟨hattach, fun w hw => ?_⟩
      obtain rfl := Option.some.inj hw
      obtain ⟨r, hr, hid, rfl, heq⟩ := exists_of_attachResourceToSessionEA (eq_of_fst_eq_some hn)
      rw [heq]
      refine .inr fun r' hr' _ hwanted => ?_
      -- the record was inserted or found without a deletion waiting
      obtain ⟨r₀, hr₀, rfl⟩ := Agent.exists_of_lookup_link hr'
      rw [pure_apply, Agent.attached_link_self] at hr₀
      have hrid : r.id = rid := hb.ids rid r hr hid
      rw [show (AttachedResource.initial r.kind r.id q.id key).resource = rid from hrid] at hr₀
      have hno := hpending r₀ hr₀
      simp [hno] at hwanted

theorem createResourceEA_created (henv : env.EndsReads) (key : ClientSessionKey)
    (q : CreateRequest) {a : Agent} (ha : ReadInv a) (hspare : ∀ s n,
      a.sessions.lookup key = some s → a.findAttachedResource s q.id = some n →
      Acceptable env key a n) :
    Created env key (createResourceEA env key q a).1 (createResourceEA env key q a).2 := by
  have hfail : ∀ {c : Agent}, ReadInv c → Created env key none c := fun hc => ⟨hc, by simp⟩
  unfold createResourceEA
  rw [read_bind_apply]
  refine exits_require (hfail ha) fun s hs => ?_
  have hsame : (checkCreate s q a).2 = a := (checkCreate_frame (R := Eq) s q a).symm
  refine exits_bind (fun _ => hfail (by rw [hsame]; exact ha)) fun found hcheck => ?_
  obtain ⟨-, hfind⟩ := find_of_checkCreate (eq_of_fst_eq_some hcheck)
  rw [hsame]
  refine exits_ensure (hfail ha) fun _ => ?_
  obtain ⟨hb, hspared⟩ := obtainAttachedEA_obtained henv key q found ha
    fun n hn => hspare s n hs (hfind n hn)
  refine exits_bind (fun _ => hfail hb) fun v hv => ?_
  have hspared := hspared v hv
  generalize (obtainAttachedEA env key q found a).2 = b at hb hspared
  have hreg := finishCreateEA_regFrame env key v.1 v.2.1 v.2.2 b
  have hframe : ReadFrame b (finishCreateEA env key v.1 v.2.1 v.2.2 b).2 :=
    finishCreateEA_frame env key v.1 v.2.1 v.2.2 b
  refine exits_bind (fun _ => hfail (hreg.readInv hb)) fun _ _ => ⟨hreg.readInv hb, fun n hn => ?_⟩
  obtain rfl := Option.some.inj hn
  refine hspared.mono hframe fun m hm => ?_
  rw [← hreg.readReq m]
  exact hm

theorem createResource_readInv (henv : env.EndsReads) {key : ClientSessionKey}
    {q : CreateRequest} {a : Agent} (ha : ReadInv a)
    (hspare : ∀ n, Addressed a key q.id n → Acceptable env key a n) :
    ReadInv (createResource env key q a).2 := by
  unfold createResource
  rw [read_bind_apply]
  refine keeps_require ha fun s hs => keeps_ensure ha fun hactive => ?_
  obtain ⟨hb, hspared⟩ : Created env key (createResourceEA env key q a).1
      (createResourceEA env key q a).2 := by
    refine createResourceEA_created henv key q ha fun s' n hs' hn => ?_
    rw [hs] at hs'
    obtain rfl := Option.some.inj hs'
    exact hspare n ⟨s, hs, hactive, hn⟩
  refine keeps_bind (fun _ => hb) fun n hn => ?_
  rw [read_bind_apply]
  split
  · refine (RegFrame.notify (RegFrame.updateAttached (.rfl' _) n fun x => ?_) _).readInv hb
    exact ⟨rfl, rfl, rfl⟩
  · rename_i hrefused
    exact (detachResourceEA_readInv henv key hb ((hspared n hn).resolve_left hrefused)).1

end AgentM

end NanoAgent
