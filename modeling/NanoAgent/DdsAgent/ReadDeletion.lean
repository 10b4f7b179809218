import NanoAgent.DdsAgent.ReadLifecycle

/-!
# Reads and the deletion of entities

Deleting an entity gives up the records that go with it (`DeletedWith`), and with the
state of a data reader the registrations kept in it. Reads on other records are not
affected: native deletion keeps the invariant `ReadInv` when no attached resource has a
read on a record that goes. Detaching ends the read of the attached resource itself
before that.
-/

namespace NanoAgent

open Prog

/-- From `a` to `b` entities and records have only been given up: a record is what it
was, as far as native deletion looks at it, or has been finalized. -/
structure Withers (a b : Agent) : Prop where
  entities : ∀ e ∈ b.entities, e ∈ a.entities
  records : ∀ rid r', b.resources.lookup rid = some r' → r'.kind = .unknown ∨
    ∃ r, a.resources.lookup rid = some r ∧ r'.kind = r.kind ∧ r'.id = r.id ∧ r'.native = r.native

namespace Withers

theorem of_same {a b : Agent} (he : b.entities = a.entities) (hr : b.resources = a.resources) :
    Withers a b :=
  ⟨fun _ h => he ▸ h, fun _ r' h => .inr ⟨r', hr ▸ h, rfl, rfl, rfl⟩⟩

instance : IsPreorder Agent Withers where
  refl _ := .of_same rfl rfl
  trans a b c h h' := by
    refine ⟨fun e he => h.entities e (h'.entities e he), fun rid r'' hr'' => ?_⟩
    rcases h'.records rid r'' hr'' with hgone | ⟨r', hr', hk', hi', hn'⟩
    · exact .inl hgone
    · rcases h.records rid r' hr' with hgone | ⟨r, hr, hk, hi, hn⟩
      · exact .inl (hk'.trans hgone)
      · exact .inr ⟨r, hr, hk'.trans hk, hi'.trans hi, hn'.trans hn⟩

theorem updateResource (a : Agent) (rid : ResourceId) {f : Resource → Resource}
    (hf : ∀ r, (f r).kind = .unknown ∨
      ((f r).kind = r.kind ∧ (f r).id = r.id ∧ (f r).native = r.native)) :
    Withers a (a.updateResource rid f) := by
  refine ⟨fun _ h => h, fun rid' r' hr' => ?_⟩
  rw [Agent.lookup_updateResource] at hr'
  split at hr'
  · obtain ⟨r, hr, rfl⟩ := Option.map_eq_some_iff.1 hr'
    rcases hf r with hgone | hsame
    · exact .inl hgone
    · exact .inr ⟨r, hr, hsame⟩
  · exact .inr ⟨r', hr', rfl, rfl, rfl⟩

end Withers

/-- From `a` to `b` no record has come to wait for its deletion. -/
def KeepsPending (a b : Agent) : Prop :=
  ∀ rid r', b.resources.lookup rid = some r' → r'.nativeDeleted = false →
    r'.pendingDelete = true → ∃ r, a.resources.lookup rid = some r ∧ r.nativeDeleted = false ∧
      r.pendingDelete = true

namespace KeepsPending

theorem of_same {a b : Agent} (hr : b.resources = a.resources) : KeepsPending a b :=
  fun _ r' h hd hp => ⟨r', hr ▸ h, hd, hp⟩

instance : IsPreorder Agent KeepsPending where
  refl _ := .of_same rfl
  trans a b c h h' := by
    intro rid r'' hr'' hd'' hp''
    obtain ⟨r', hr', hd', hp'⟩ := h' rid r'' hr'' hd'' hp''
    exact h rid r' hr' hd' hp'

theorem updateResource {a : Agent} {rid : ResourceId} {f : Resource → Resource}
    (hf : ∀ r, a.resources.lookup rid = some r → (f r).nativeDeleted = false →
      (f r).pendingDelete = true → r.nativeDeleted = false ∧ r.pendingDelete = true) :
    KeepsPending a (a.updateResource rid f) := by
  intro rid' r' hr' hd hp
  rw [Agent.lookup_updateResource] at hr'
  split at hr'
  · rename_i heq
    subst heq
    obtain ⟨r, hr, rfl⟩ := Option.map_eq_some_iff.1 hr'
    exact ⟨r, hr, hf r hr hd hp⟩
  · exact ⟨r', hr', hd, hp⟩

end KeepsPending

/-- The records that go when the entity `ptr` is deleted: its own records, and those of
the entities that it contains. An entity is found by its pointer, or by the name of its
record. -/
inductive GoesWith (a : Agent) : ResourceKind → ℕ → ResourceId → Prop
  | record {kind : ResourceKind} {ptr : ℕ} {rid : ResourceId} {r : Resource} :
      a.resources.lookup rid = some r → r.kind = kind → r.native = some ptr →
      GoesWith a kind ptr rid
  | contained {kind : ResourceKind} {ptr : ℕ} {rid : ResourceId} {e c : Entity} :
      e ∈ a.entities → e.kind = kind →
      (e.ptr = ptr ∨ ∃ rid' r, a.resources.lookup rid' = some r ∧ r.kind = kind ∧
        r.native = some ptr ∧ e.name = r.id) →
      c ∈ a.entities → c.kind ∈ kind.containedKinds → c.parent = e.ptr →
      GoesWith a c.kind c.ptr rid → GoesWith a kind ptr rid

/-- The records that go when the resource `rid` is deleted natively. -/
def DeletedWith (a : Agent) (rid rid' : ResourceId) : Prop :=
  rid' = rid ∨ ∃ r e c, a.resources.lookup rid = some r ∧ e ∈ a.entities ∧ e.kind = r.kind ∧
    e.name = r.id ∧ c ∈ a.entities ∧ c.kind ∈ r.kind.containedKinds ∧ c.parent = e.ptr ∧
    GoesWith a c.kind c.ptr rid'

theorem ResourceKind.ne_unknown_of_mem {k kind : ResourceKind} (h : k ∈ kind.containedKinds) :
    k ≠ .unknown := by
  rintro rfl
  cases kind <;> simp [containedKinds] at h

theorem GoesWith.mono {a b : Agent} (hw : Withers a b) {kind : ResourceKind} {ptr : ℕ}
    {rid : ResourceId} (h : GoesWith b kind ptr rid) (hk : kind ≠ .unknown) :
    GoesWith a kind ptr rid := by
  have hrecord : ∀ {rid r'}, b.resources.lookup rid = some r' → r'.kind ≠ .unknown →
      ∃ r, a.resources.lookup rid = some r ∧ r'.kind = r.kind ∧ r'.id = r.id ∧
        r'.native = r.native :=
    fun hr hne => (hw.records _ _ hr).resolve_left hne
  induction h with
  | record hr hkind hn =>
      obtain ⟨r, hra, hk', -, hn'⟩ := hrecord hr (hkind ▸ hk)
      exact .record hra (hk' ▸ hkind) (hn' ▸ hn)
  | contained he hekind hfound hc hck hparent _ ih =>
      refine .contained (hw.entities _ he) hekind ?_ (hw.entities _ hc) hck hparent
        (ih (ResourceKind.ne_unknown_of_mem hck))
      rcases hfound with hptr | ⟨rid', r, hr, hkind, hn, hname⟩
      · exact .inl hptr
      · obtain ⟨r₀, hra, hk', hi, hn'⟩ := hrecord hr (hkind ▸ hk)
        exact .inr ⟨rid', r₀, hra, hk' ▸ hkind, hn' ▸ hn, hi ▸ hname⟩

theorem DeletedWith.mono {a b : Agent} (hw : Withers a b) {rid rid' : ResourceId}
    (h : DeletedWith b rid rid') : DeletedWith a rid rid' := by
  rcases h with rfl | ⟨r, e, c, hr, he, hekind, hname, hc, hck, hparent, hgoes⟩
  · exact .inl rfl
  · rcases hw.records _ _ hr with hgone | ⟨r₀, hra, hk, hi, -⟩
    · rw [hgone] at hck
      cases hck
    · exact .inr ⟨r₀, e, c, hra, hw.entities _ he, hk ▸ hekind, hi ▸ hname, hw.entities _ hc,
        hk ▸ hck, hparent, hgoes.mono hw (ResourceKind.ne_unknown_of_mem hck)⟩

/-- A change of the records that leaves those with a read on them alone. -/
theorem ReadInv.of_records {a b : Agent} (ha : ReadInv a) (hp : b.poolResources = a.poolResources)
    (hreads : b.poolReads = a.poolReads) (hreaders : b.poolReaders = a.poolReaders)
    (hnew : ∀ rid r', b.resources.lookup rid = some r' → ∃ r, a.resources.lookup rid = some r ∧
      ((r'.kind = .unknown ∧ r'.id = .none) ∨
        (r'.kind = r.kind ∧ r'.id = r.id ∧ r'.userData = r.userData)))
    (hkept : ∀ m rd, (a.attached m).readReq = some rd → ∀ r,
      a.resources.lookup (a.attached m).resource = some r →
      ∃ r', b.resources.lookup (a.attached m).resource = some r' ∧ r'.kind = r.kind ∧
        r'.id = r.id ∧ r'.nativeDeleted = r.nativeDeleted ∧ r'.userData = r.userData) :
    ReadInv b := by
  have hatt : ∀ m, b.attached m = a.attached m := by
    intro m
    rw [Agent.attached, hp, Agent.attached]
  have hat : ∀ m, b.readerAt m = a.readerAt m := by
    intro m
    rw [Agent.readerAt, hreaders, Agent.readerAt]
  have hold : ∀ {rid r' reader}, b.resources.lookup rid = some r' → r'.kind = .dataReader →
      r'.userData = some reader → ∃ r, a.resources.lookup rid = some r ∧ r.kind = .dataReader ∧
        r.userData = some reader := by
    intro rid r' reader hr' hk' hu'
    obtain ⟨r, hr, ⟨hgone, -⟩ | ⟨hk, -, hu⟩⟩ := hnew rid r' hr'
    · rw [hgone] at hk'
      cases hk'
    · exact ⟨r, hr, hk ▸ hk', hu ▸ hu'⟩
  refine ⟨?_, ?_, ?_, ?_, ?_, ?_, ?_, ?_, ?_, ?_, ?_, ?_⟩
  · intro m rd hm
    rw [hatt] at hm ⊢
    exact ha.kind m rd hm
  · intro m rd hm
    rw [hatt] at hm
    rw [hreads]
    exact ha.live m rd hm
  · intro m rd hm
    rw [hatt] at hm
    obtain ⟨r, reader, hrec, hmem⟩ := ha.reg m rd hm
    obtain ⟨r', hr', hk, hi, hd, hu⟩ := hkept m rd hm r hrec.lookup
    refine ⟨r', reader, ⟨by rw [hatt]; exact hr', hk.trans hrec.kind, ?_, hd.trans hrec.alive,
      hu.trans hrec.state⟩, by rw [hat]; exact hmem⟩
    rw [hi]
    exact hrec.id
  · intro m m' rd hm hm'
    rw [hatt] at hm hm'
    exact ha.excl m m' rd hm hm'
  · intro reader
    rw [hat]
    exact ha.nodup reader
  · intro reader rd hmem
    rw [hat] at hmem
    rw [hreads]
    exact ha.own reader rd hmem
  · intro reader reader' rd hmem hmem'
    rw [hat] at hmem hmem'
    exact ha.uniq reader reader' rd hmem hmem'
  · rw [hreads]
    exact ha.sound
  · intro rid r' hr' hid
    obtain ⟨r, hr, ⟨-, hgone⟩ | ⟨-, hi, -⟩⟩ := hnew rid r' hr'
    · exact absurd hgone hid
    · rw [hi] at hid ⊢
      exact ha.ids rid r hr hid
  · intro rid r' reader hr' hk' hu'
    obtain ⟨r, hr, hk, hu⟩ := hold hr' hk' hu'
    rw [hreaders]
    exact ha.states rid r reader hr hk hu
  · intro rid rid' r' r'' reader hr' hr'' hk' hk'' hu' hu''
    obtain ⟨r₁, hr₁, hk₁, hu₁⟩ := hold hr' hk' hu'
    obtain ⟨r₂, hr₂, hk₂, hu₂⟩ := hold hr'' hk'' hu''
    exact ha.distinct rid rid' r₁ r₂ reader hr₁ hr₂ hk₁ hk₂ hu₁ hu₂
  · refine Option.eq_none_iff_forall_ne_some.2 fun r' hr' => ?_
    obtain ⟨r, hr, -⟩ := hnew _ r' hr'
    rw [ha.keyed] at hr
    cases hr

/-- A change of the record of `rid`, on which there is no read. -/
theorem ReadInv.updateResource {a : Agent} (ha : ReadInv a) {rid : ResourceId}
    (hunread : ∀ m rd, (a.attached m).readReq = some rd → (a.attached m).resource ≠ rid)
    {f : Resource → Resource} (hf : ∀ r, ((f r).kind = .unknown ∧ (f r).id = .none) ∨
      ((f r).kind = r.kind ∧ (f r).id = r.id ∧ (f r).userData = r.userData)) :
    ReadInv (a.updateResource rid f) := by
  refine ha.of_records rfl rfl rfl (fun rid' r' hr' => ?_) fun m rd hm r hr =>
    ⟨r, ?_, rfl, rfl, rfl, rfl⟩
  · rw [Agent.lookup_updateResource] at hr'
    split at hr'
    · obtain ⟨r, hr, rfl⟩ := Option.map_eq_some_iff.1 hr'
      exact ⟨r, hr, hf r⟩
    · exact ⟨r', hr', .inr ⟨rfl, rfl, rfl⟩⟩
  · rw [Agent.lookup_updateResource, if_neg (hunread m rd hm)]
    exact hr

/-- Registrations that no attached resource depends on may go. -/
theorem ReadInv.updateReader {a : Agent} (ha : ReadInv a) {reader : ℕ} {r' : Reader}
    (hidle : ∀ m rd, (a.attached m).readReq = some rd → rd ∉ (a.readerAt reader).registered)
    (hsub : r'.registered.Sublist (a.readerAt reader).registered) :
    ReadInv (a.updateReader reader fun _ => r') := by
  have hat : ∀ m, (a.updateReader reader fun _ => r').readerAt m =
      if m = reader then r' else a.readerAt m :=
    fun m => Agent.readerAt_updateReader (a := a) reader m fun _ => r'
  have hmem : ∀ m rd, rd ∈ ((a.updateReader reader fun _ => r').readerAt m).registered →
      rd ∈ (a.readerAt m).registered := by
    intro m rd h
    rw [hat] at h
    split at h
    · rename_i hm
      subst hm
      exact hsub.subset h
    · exact h
  refine ⟨ha.kind, ha.live, ?_, ha.excl, ?_, ?_, ?_, ha.sound, ha.ids, ha.states, ha.distinct,
    ha.keyed⟩
  · intro m rd hm
    obtain ⟨r, reader', hrec, hreg⟩ := ha.reg m rd hm
    refine ⟨r, reader', ⟨hrec.lookup, hrec.kind, hrec.id, hrec.alive, hrec.state⟩, ?_⟩
    have hne : reader' ≠ reader := by
      rintro rfl
      exact hidle m rd hm hreg
    rw [hat, if_neg hne]
    exact hreg
  · intro m
    rw [hat]
    split
    · exact (ha.nodup reader).sublist hsub
    · exact ha.nodup m
  · intro m rd h
    exact ha.own m rd (hmem m rd h)
  · intro m m' rd h h'
    exact ha.uniq m m' rd (hmem m rd h) (hmem m' rd h')

/-- No attached resource has its read registered with the reader of a record without
reads on it. -/
theorem ReadInv.idle {a : Agent} (ha : ReadInv a) {rid : ResourceId} {r : Resource} {reader : ℕ}
    (hunread : ∀ m rd, (a.attached m).readReq = some rd → (a.attached m).resource ≠ rid)
    (hr : a.resources.lookup rid = some r) (hk : r.kind = .dataReader)
    (hu : r.userData = some reader) :
    ∀ m rd, (a.attached m).readReq = some rd → rd ∉ (a.readerAt reader).registered := by
  intro m rd hm hmem
  obtain ⟨r', reader', hrec, hreg⟩ := ha.reg m rd hm
  have hsame : reader' = reader := ha.uniq _ _ rd hreg hmem
  subst hsame
  exact hunread m rd hm (ha.distinct _ _ r' r reader' hrec.lookup hr hrec.kind hk hrec.state hu)

namespace Reader

/-- Reads have only been unregistered. -/
def Unregisters (r r' : Reader) : Prop := r'.registered.Sublist r.registered

instance : IsPreorder Reader Unregisters where
  refl r := List.Sublist.refl r.registered
  trans _ _ _ h h' := List.Sublist.trans h' h

theorem requestComplete_unregisters (env : Env) (rd : ℕ) :
    Within Unregisters (requestComplete env rd) := by
  have hsame : ∀ f : Reader → Reader, (∀ r, (f r).requests = r.requests) →
      Within Unregisters (modify f) := by
    intro f hf r
    change ((f r).requests.map (·.read)).Sublist (r.requests.map (·.read))
    rw [hf]
  refine .bind (.ensure _) fun _ => .read fun r => .bind (.require _) fun q => ?_
  refine .bind (.modify fun r => ?_) fun _ => .bind (.onlyIf fun _ => .ensure _) fun _ => ?_
  · exact List.Sublist.map _ List.erase_sublist
  refine .bind (hsame _ fun _ => rfl) fun _ => .read fun r => .onlyIf fun _ => ?_
  exact .bind (.ensure _) fun _ => hsame _ fun _ => rfl

theorem finalize_unregisters (env : Env) (rid : ℕ) : Within Unregisters (finalize env rid) :=
  .read fun _ => .bind (.ensure _) fun _ => .ensure _

end Reader

/-- The state during a native deletion that started in `a₀`. -/
structure Deleting (a₀ a : Agent) : Prop where
  inv : ReadInv a
  withers : Withers a₀ a
  pending : KeepsPending a₀ a
  attached : a.poolResources = a₀.poolResources

/-- No attached resource has a read on the record of `rid`. -/
def Unread (a : Agent) (rid : ResourceId) : Prop :=
  ∀ m rd, (a.attached m).readReq = some rd → (a.attached m).resource ≠ rid

namespace Deleting

variable {a₀ a b : Agent}

theorem unread {rid : ResourceId} (h : Deleting a₀ a) (hunread : Unread a₀ rid) :
    Unread a rid := by
  intro m rd hm
  rw [Agent.attached, h.attached] at hm ⊢
  exact hunread m rd hm

theorem updateResource (h : Deleting a₀ a) {rid : ResourceId} (hunread : Unread a₀ rid)
    {f : Resource → Resource} (hf : ∀ r, ((f r).kind = .unknown ∧ (f r).id = .none) ∨
      ((f r).kind = r.kind ∧ (f r).id = r.id ∧ (f r).native = r.native ∧
        (f r).userData = r.userData))
    (hflags : ∀ r, (f r).nativeDeleted = true ∨
      ((f r).nativeDeleted = r.nativeDeleted ∧ (f r).pendingDelete = r.pendingDelete)) :
    Deleting a₀ (a.updateResource rid f) where
  inv := h.inv.updateResource (h.unread hunread) fun r =>
    (hf r).imp_right fun ⟨hk, hi, _, hu⟩ => ⟨hk, hi, hu⟩
  withers := IsTrans.trans _ _ _ h.withers (.updateResource a rid fun r =>
    (hf r).imp (fun hgone => hgone.1) fun ⟨hk, hi, hn, _⟩ => ⟨hk, hi, hn⟩)
  pending := by
    refine IsTrans.trans _ _ _ h.pending (.updateResource fun r _ hd hp => ?_)
    rcases hflags r with hdead | ⟨hd', hp'⟩
    · rw [hdead] at hd
      cases hd
    · exact ⟨hd' ▸ hd, hp' ▸ hp⟩
  attached := h.attached

theorem of_same (h : Deleting a₀ a) (hr : b.resources = a.resources)
    (he : ∀ e ∈ b.entities, e ∈ a.entities) (hp : b.poolResources = a.poolResources)
    (hreads : b.poolReads = a.poolReads) (hn : b.poolReaders = a.poolReaders) :
    Deleting a₀ b where
  inv := h.inv.of_same hr hp (by rw [hreads]) (by rw [hreads]) hn
  withers := IsTrans.trans _ _ _ h.withers
    ⟨he, fun _ r' hr' => .inr ⟨r', hr ▸ hr', rfl, rfl, rfl⟩⟩
  pending := IsTrans.trans _ _ _ h.pending (.of_same hr)
  attached := hp.trans h.attached

end Deleting

namespace AgentM

variable {a₀ : Agent} {env : Env}

theorem access_deleting (rid : ResourceId) (valid : Bool) :
    Preserves (Deleting a₀) (access rid valid) := by
  intro a ha
  cases valid with
  | false => exact ha.of_same rfl (fun _ h => h) rfl rfl rfl
  | true => exact ha

theorem deleteTopicEntity_deleting (ptr : ℕ) :
    Preserves (Deleting a₀) (deleteTopicEntity env ptr) :=
  .onlyIf fun _ _ ha => ha.of_same rfl (fun _ h => List.mem_of_mem_filter h) rfl rfl rfl

theorem deleteNativeEntityEA_deleting {contained : ResourceKind → ℕ → AgentM Unit}
    {kind : ResourceKind} {e : Entity}
    (hc : ∀ c ∈ a₀.entities, c.kind ∈ kind.containedKinds → c.parent = e.ptr →
      Preserves (Deleting a₀) (contained c.kind c.ptr)) :
    Preserves (Deleting a₀) (deleteNativeEntityEA env contained kind e) := by
  refine .bind (.forEach fun k hk => Preserves.readThen fun a ha => ?_) fun _ => ?_
  · refine .bind (.ensure _) fun _ => .forEach fun c hfilter => ?_
    obtain ⟨hmem, hmatch⟩ := List.mem_filter.1 hfilter
    obtain ⟨hck, hparent⟩ := Bool.and_eq_true_iff.1 hmatch
    have hck : c.kind = k := by simpa using hck
    subst hck
    exact hc c (ha.withers.entities c hmem) hk (by simpa using hparent)
  refine .ite (fun _ => deleteTopicEntity_deleting _) fun _ => .bind (.ensure _) fun _ => ?_
  refine .bind (fun a ha => ?_) fun _ => .onlyIf fun _ => deleteTopicEntity_deleting _
  exact ha.of_same rfl (fun _ h => List.mem_of_mem_filter h) rfl rfl rfl

/-- The registrations given up with the state of a reader. -/
theorem onReader_deleting {rid : ResourceId} (hunread : Unread a₀ rid) {r : Resource} {reader : ℕ}
    (hk : r.kind = .dataReader) (hu : r.userData = some reader) {x : Prog Reader Unit}
    (hx : Within Reader.Unregisters x) :
    Preserves (fun a => Deleting a₀ a ∧ ∃ r', a.resources.lookup rid = some r' ∧
      r'.kind = r.kind ∧ r'.userData = r.userData) (onReader reader x) := by
  rintro a ⟨ha, r', hr', hk', hu'⟩
  refine ⟨⟨?_, ?_, ha.pending, ha.attached⟩, r', hr', hk', hu'⟩
  · refine ha.inv.updateReader ?_ (hx _)
    exact ha.inv.idle (ha.unread hunread) hr' (hk'.trans hk) (hu'.trans hu)
  · exact IsTrans.trans _ _ _ ha.withers (.of_same rfl rfl)

theorem releaseUserDataEA_deleting (env : Env) {rid : ResourceId} (hunread : Unread a₀ rid)
    (r : Resource) :
    Preserves (fun a => Deleting a₀ a ∧ ∃ r', a.resources.lookup rid = some r' ∧
      r'.kind = r.kind ∧ r'.userData = r.userData) (releaseUserDataEA env rid r) := by
  have haccess : ∀ valid, Preserves (fun a => Deleting a₀ a ∧ ∃ r',
      a.resources.lookup rid = some r' ∧ r'.kind = r.kind ∧ r'.userData = r.userData)
      (access rid valid) := by
    rintro valid a ⟨ha, r', hr', hsame⟩
    refine ⟨access_deleting rid valid a ha, r', ?_, hsame⟩
    cases valid <;> exact hr'
  refine .ite (fun hk => ?_) fun _ => .ite (fun _ => ?_) fun _ => .pure _
  · refine .bind (haccess _) fun _ => .requireThen fun reader hu => .read fun a => ?_
    refine .bind (.forEach fun q _ => ?_) fun _ => .bind ?_ fun _ => ?_
    · exact onReader_deleting hunread hk hu (Reader.requestComplete_unregisters env _)
    · exact onReader_deleting hunread hk hu (Reader.finalize_unregisters env _)
    · rintro b ⟨hb, r', hr', hsame⟩
      have hframe : RegFrame b { b with poolReaders := b.poolReaders.giveBack reader } :=
        ⟨rfl, fun _ => rfl, fun _ => rfl, fun _ => rfl, rfl, rfl, fun _ => rfl, rfl⟩
      refine ⟨⟨hframe.readInv hb.inv, ?_, hb.pending, hb.attached⟩, r', hr', hsame⟩
      exact IsTrans.trans _ _ _ hb.withers (.of_same rfl rfl)
  · refine .bind (haccess _) fun _ => .bind (.require _) fun writer => ?_
    rintro b ⟨hb, r', hr', hsame⟩
    exact ⟨hb.of_same rfl (fun _ h => h) rfl rfl rfl, r', hr', hsame⟩

theorem deleteNativeResourceWith_deleting {contained : ResourceKind → ℕ → AgentM Unit}
    {rid : ResourceId} (hunread : Unread a₀ rid)
    (hc : ∀ r e c, a₀.resources.lookup rid = some r → e ∈ a₀.entities → e.kind = r.kind →
      e.name = r.id → c ∈ a₀.entities → c.kind ∈ r.kind.containedKinds → c.parent = e.ptr →
      Preserves (Deleting a₀) (contained c.kind c.ptr)) :
    Preserves (Deleting a₀) (deleteNativeResourceWith env contained rid) := by
  intro a ha
  refine keeps_lookupResource ha fun _ => ?_
  cases hr : a.resources.lookup rid with
  | none => exact ha
  | some r =>
      dsimp only
      split
      · exact ha
      rw [modify_bind_apply]
      have hmark : Deleting a₀ (a.updateResource rid fun r => { r with nativeDeleted := true }) :=
        ha.updateResource hunread (fun _ => .inr ⟨rfl, rfl, rfl, rfl⟩) fun _ => .inl rfl
      have hlookup : (a.updateResource rid fun r =>
        { r with nativeDeleted := true }).resources.lookup
          rid = some { r with nativeDeleted := true } := by
        rw [Agent.lookup_updateResource, if_pos rfl, hr]
        rfl
      generalize a.updateResource rid _ = b at hmark hlookup
      split
      · exact hmark.updateResource hunread (fun _ => .inl ⟨rfl, rfl⟩) fun _ => .inr ⟨rfl, rfl⟩
      refine keeps_ensure hmark fun _ => keeps_ensure hmark fun _ => ?_
      rw [read_bind_apply]
      have hrelease := (releaseUserDataEA_deleting env hunread r b
        ⟨hmark, _, hlookup, rfl, rfl⟩).1
      refine keeps_bind (fun _ => hrelease) fun _ _ => ?_
      refine Within.bind (R := fun b c => Deleting a₀ b → Deleting a₀ c) (fun c hc => ?_)
        (fun _ => .bind (.ensure _) fun _ => ?_) _ hrelease
      · exact hc.updateResource hunread (fun _ => .inl ⟨rfl, rfl⟩) fun _ => .inr ⟨rfl, rfl⟩
      cases hentity : b.lookupEntity r.kind r.id with
      | none => exact .pure _
      | some e =>
          have hmem := hmark.withers.entities e (List.mem_of_find?_eq_some hentity)
          have hfound := List.find?_some hentity
          obtain ⟨hek, hname⟩ := Bool.and_eq_true_iff.1 hfound
          refine deleteNativeEntityEA_deleting fun c hcmem hck hparent => ?_
          rcases ha.withers.records rid r hr with hgone | ⟨r₀, hr₀, hk, hi, -⟩
          · rw [hgone] at hck
            cases hck
          · exact hc r₀ e c hr₀ hmem (hk ▸ by simpa using hek) (hi ▸ by simpa using hname) hcmem
              (hk ▸ hck) hparent

theorem findContainedResourceAndDeleteEA_deleting (depth : ℕ)
    {kind : ResourceKind} {ptr : ℕ} (hkind : kind ≠ .unknown)
    (hsafe : ∀ rid, GoesWith a₀ kind ptr rid → Unread a₀ rid) :
    Preserves (Deleting a₀) (findContainedResourceAndDeleteEA env depth kind ptr) := by
  induction depth generalizing kind ptr with
  | zero => exact .pure _
  | succ depth ih =>
      refine Preserves.readThen fun a ha => .bind (.ensure _) fun _ => ?_
      cases hfind : a.findResourceByNative kind ptr with
      | some c =>
          refine .ensureThen fun hid => .bind (.ensure _) fun _ => ?_
          obtain ⟨rid, hlookup, hk, hn⟩ := Agent.record_of_findResourceByNative hfind
          have hrid : c.id = rid :=
            ha.inv.ids rid c hlookup (by simpa using (Bool.and_eq_true_iff.1 hid).1)
          obtain ⟨r, hr, hk', hi', hn'⟩ :=
            (ha.withers.records _ _ hlookup).resolve_left (hk ▸ hkind)
          rw [hrid]
          refine deleteNativeResourceWith_deleting ?_ ?_
          · exact hsafe _ (.record hr (hk' ▸ hk) (hn' ▸ hn))
          intro r' e c hr' he hek hname hcmem hck hparent
          rw [hr] at hr'
          obtain rfl := Option.some.inj hr'
          have hrk : r.kind = kind := hk' ▸ hk
          rw [hrk] at hck
          refine ih (ResourceKind.ne_unknown_of_mem hck) fun rid hgoes => hsafe rid ?_
          exact .contained he (hek.trans hrk) (.inr ⟨_, r, hr, hrk, hn' ▸ hn, hname⟩) hcmem hck
            hparent hgoes
      | none =>
          dsimp only
          cases hentity : a.entities.find? _ with
          | none => exact .pure _
          | some x =>
              have hmem := ha.withers.entities x (List.mem_of_find?_eq_some hentity)
              have hfound := List.find?_some hentity
              obtain ⟨hxk, hptr⟩ := Bool.and_eq_true_iff.1 hfound
              refine deleteNativeEntityEA_deleting fun c hcmem hck hparent => ?_
              refine ih (ResourceKind.ne_unknown_of_mem hck) fun rid hgoes => hsafe rid ?_
              exact .contained hmem (by simpa using hxk) (.inl (by simpa using hptr)) hcmem hck
                hparent hgoes

/-- Deleting a resource natively keeps the invariant when there is no read on the
records that go with it. -/
theorem deleteNativeResourceEA_deleting (env : Env) {rid : ResourceId} {a : Agent} (ha : ReadInv a)
    (hsafe : ∀ rid', DeletedWith a rid rid' → Unread a rid') :
    Deleting a (deleteNativeResourceEA env rid a).2 := by
  refine deleteNativeResourceWith_deleting (hsafe rid (.inl rfl)) ?_ a ⟨ha, refl a, refl a, rfl⟩
  intro r e c hr he hek hname hcmem hck hparent
  refine findContainedResourceAndDeleteEA_deleting 2 (ResourceKind.ne_unknown_of_mem hck)
    fun rid' hgoes => hsafe rid' ?_
  exact .inr ⟨r, e, c, hr, he, hek, hname, hcmem, hck, hparent, hgoes⟩

end AgentM

theorem ReadInv.countOut {a : Agent} (ha : ReadInv a) (rid : ResourceId) (del : Bool) :
    ReadInv (a.countOut rid del) := by
  have hlookup : ∀ rid', (a.countOut rid del).resources.lookup rid' = if rid' = rid then
      (a.resources.lookup rid').map fun r => { r with attachedCount := r.attachedCount - 1,
                                                      pendingDelete := r.pendingDelete || del }
      else a.resources.lookup rid' :=
    fun rid' => Agent.lookup_updateResource (a := a) rid rid' _
  refine ReadInv.of_records ha rfl rfl rfl (fun rid' r' hr' => ?_) fun m rd _ r hr => ?_
  · rw [hlookup] at hr'
    split at hr'
    · obtain ⟨r, hr, rfl⟩ := Option.map_eq_some_iff.1 hr'
      exact ⟨r, hr, .inr ⟨rfl, rfl, rfl⟩⟩
    · exact ⟨r', hr', .inr ⟨rfl, rfl, rfl⟩⟩
  · rw [hlookup, hr]
    split
    · exact ⟨_, rfl, rfl, rfl, rfl, rfl⟩
    · exact ⟨r, rfl, rfl, rfl, rfl, rfl⟩

theorem Withers.countOut (a : Agent) (rid : ResourceId) (del : Bool) :
    Withers a (a.countOut rid del) :=
  .updateResource a rid fun _ => .inr ⟨rfl, rfl, rfl⟩

theorem Withers.of_readFrame {a b : Agent} (h : ReadFrame a b) : Withers a b :=
  .of_same h.entities h.resources

/-- Giving up the record of `rid`, on which there is no read. -/
theorem ReadInv.erase {a : Agent} (ha : ReadInv a) {rid : ResourceId} (hunread : Unread a rid) :
    ReadInv { a with resources := a.resources.erase rid } := by
  refine ReadInv.of_records ha rfl rfl rfl (fun rid' r' hr' => ?_) fun m rd hm r hr => ?_
  · by_cases heq : rid' = rid
    · subst heq
      rw [AList.lookup_erase] at hr'
      cases hr'
    · rw [AList.lookup_erase_ne heq] at hr'
      exact ⟨r', hr', .inr ⟨rfl, rfl, rfl⟩⟩
  · refine ⟨r, ?_, rfl, rfl, rfl, rfl⟩
    rw [AList.lookup_erase_ne (hunread m rd hm)]
    exact hr

/-- Returning the buffer of an attached resource without a read. -/
theorem ReadInv.unlink {a : Agent} (ha : ReadInv a) {n : ℕ}
    (hquiet : (a.attached n).readReq = none) :
    ReadInv (a.unlink n) := by
  have hread : ∀ m rd, ((a.unlink n).attached m).readReq = some rd →
      m ≠ n ∧ (a.attached m).readReq = some rd ∧ (a.unlink n).attached m = a.attached m := by
    intro m rd hm
    have hmn : m ≠ n := by
      rintro rfl
      rw [Agent.attached_unlink, if_pos rfl] at hm
      rw [hquiet] at hm
      cases hm
    rw [Agent.attached_unlink, if_neg hmn] at hm ⊢
    exact ⟨hmn, hm, rfl⟩
  refine ⟨?_, ?_, ?_, ?_, ha.nodup, ha.own, ha.uniq, ha.sound, ha.ids, ha.states, ha.distinct,
    ha.keyed⟩
  · intro m rd hm
    obtain ⟨-, hm, heq⟩ := hread m rd hm
    rw [heq]
    exact ha.kind m rd hm
  · intro m rd hm
    exact ha.live m rd (hread m rd hm).2.1
  · intro m rd hm
    obtain ⟨-, hm, heq⟩ := hread m rd hm
    obtain ⟨r, reader, hrec, hmem⟩ := ha.reg m rd hm
    refine ⟨r, reader, ⟨?_, hrec.kind, hrec.id, hrec.alive, hrec.state⟩, hmem⟩
    rw [heq]
    exact hrec.lookup
  · intro m m' rd hm hm'
    exact ha.excl m m' rd (hread m rd hm).2.1 (hread m' rd hm').2.1

/-- From `a` to `b` an attached resource has been counted out: no read was started and
no record revived. -/
theorem CountOutExit.settled {a b : Agent} {n : ℕ} {del : Bool} {res : Option Bool}
    (h : CountOutExit a n del res b) : Withers a b ∧
      ∀ m, (b.attached m).resource = (a.attached m).resource ∧
        ((b.attached m).readReq.isSome = true → (a.attached m).readReq.isSome = true) := by
  have hended : ∀ {c d : Agent}, ReadsEnded c d → ∀ m,
      (d.attached m).resource = (c.attached m).resource ∧
        ((d.attached m).readReq.isSome = true → (c.attached m).readReq.isSome = true) := by
    intro c d hcd m
    refine ⟨hcd.1.resource_eq m, fun hm => ?_⟩
    rcases hcd.2.readReq m with h | h
    · rw [h] at hm
      exact hm
    · rw [h] at hm
      cases hm
  cases h with
  | failed hb => exact ⟨.of_readFrame hb.1, hended hb⟩
  | @counted _ c r _ _ _ hc hb _ =>
      refine ⟨?_, fun m => ?_⟩
      · have hout := IsTrans.trans _ _ _ (Withers.of_readFrame hc.1)
          (Withers.countOut c (a.attached n).resource del)
        exact IsTrans.trans _ _ _ hout (.of_readFrame hb.1)
      · obtain ⟨hres, hread⟩ := hended hb m
        obtain ⟨hres', hread'⟩ := hended hc m
        exact ⟨hres.trans hres', fun hm => hread' (hread hm)⟩

/-- From `a` to `b` nothing has been added: entities, records, deletions to be made,
attached resources and reads have only been given up. -/
structure Subsides (a b : Agent) : Prop where
  withers : Withers a b
  pending : KeepsPending a b
  resource : ∀ m, (b.attached m).resource = .none ∨
    (b.attached m).resource = (a.attached m).resource
  readReq : ∀ m, (b.attached m).readReq.isSome = true → (a.attached m).readReq.isSome = true ∧
    (b.attached m).resource = (a.attached m).resource

namespace Subsides

instance : IsPreorder Agent Subsides where
  refl a := ⟨refl a, refl a, fun _ => .inr rfl, fun _ h => ⟨h, rfl⟩⟩
  trans a b c h h' := by
    refine ⟨IsTrans.trans _ _ _ h.withers h'.withers, IsTrans.trans _ _ _ h.pending h'.pending,
      fun m => ?_, fun m hm => ?_⟩
    · rcases h'.resource m with hm | hm
      · exact .inl hm
      · rw [hm]
        exact h.resource m
    · obtain ⟨hb, heq⟩ := h'.readReq m hm
      obtain ⟨ha, heq'⟩ := h.readReq m hb
      exact ⟨ha, heq.trans heq'⟩

theorem of_readsEnded {a b : Agent} (h : ReadsEnded a b) : Subsides a b where
  withers := .of_readFrame h.1
  pending := .of_same h.1.resources
  resource m := .inr (h.1.resource_eq m)
  readReq m hm := by
    refine ⟨?_, h.1.resource_eq m⟩
    rcases h.2.readReq m with hsame | hnone
    · exact hsame ▸ hm
    · rw [hnone] at hm
      cases hm

theorem unlink {a : Agent} {n : ℕ} (hquiet : (a.attached n).readReq = none) :
    Subsides a (a.unlink n) where
  withers := .of_same rfl rfl
  pending := .of_same rfl
  resource m := by
    rw [Agent.attached_unlink]
    split
    · exact .inl rfl
    · exact .inr rfl
  readReq m hm := by
    have hmn : m ≠ n := by
      rintro rfl
      rw [Agent.attached_unlink, if_pos rfl] at hm
      rw [hquiet] at hm
      cases hm
    rw [Agent.attached_unlink, if_neg hmn] at hm ⊢
    exact ⟨hm, rfl⟩

end Subsides

namespace Deleting

variable {a b : Agent}

theorem attached_eq (h : Deleting a b) (m : ℕ) : b.attached m = a.attached m := by
  rw [Agent.attached, h.attached, Agent.attached]

theorem subsides (h : Deleting a b) : Subsides a b where
  withers := h.withers
  pending := h.pending
  resource m := .inr (by rw [h.attached_eq])
  readReq m hm := by
    rw [h.attached_eq] at hm ⊢
    exact ⟨hm, rfl⟩

theorem erase (h : Deleting a b) {rid : ResourceId} (hunread : Unread a rid) :
    Deleting a { b with resources := b.resources.erase rid } where
  inv := h.inv.erase (h.unread hunread)
  withers := by
    refine IsTrans.trans _ _ _ h.withers
      ⟨fun _ he => he, fun rid' r' hr' => .inr ⟨r', ?_, rfl, rfl, rfl⟩⟩
    exact AList.lookup_of_lookup_erase hr'
  pending := by
    refine IsTrans.trans _ _ _ h.pending fun rid' r' hr' hd hp => ⟨r', ?_, hd, hp⟩
    exact AList.lookup_of_lookup_erase hr'
  attached := h.attached

end Deleting

/-- Detaching `n` asks at most for the deletion of a record that was natively deleted. -/
def DeletesDead (a : Agent) (n : ℕ) (del : Bool) : Prop :=
  del = true → ∀ r, a.resources.lookup (a.attached n).resource = some r →
    r.attachedCount ≠ 0 → r.nativeDeleted = true

/-- Counting out adds nothing, unless it asks for the deletion of a record in use. -/
theorem CountOutExit.subsides {a b : Agent} {n : ℕ} {del : Bool} {res : Option Bool}
    (h : CountOutExit a n del res b)
    (hdel : DeletesDead a n del) : Subsides a b := by
  cases h with
  | failed hb => exact .of_readsEnded hb
  | @counted _ c r _ hr hcount hc hb _ =>
      have hout : Subsides c (c.countOut (a.attached n).resource del) := by
        refine ⟨.countOut _ _ _, .updateResource fun r' hr' hd hp => ⟨hd, ?_⟩, fun _ => .inr rfl,
          fun _ hm => ⟨hm, rfl⟩⟩
        rcases Bool.or_eq_true_iff.1 hp with hp | hwanted
        · exact hp
        · rw [hc.1.resources, hr] at hr'
          obtain rfl := Option.some.inj hr'
          rw [hdel hwanted r hr hcount] at hd
          cases hd
      exact IsTrans.trans _ _ _ (IsTrans.trans _ _ _ (.of_readsEnded hc) hout)
        (.of_readsEnded hb)

namespace AgentM

variable {env : Env}

/-- Detaching `n` gives up no record with a read of another attached resource on it. -/
def SparesReads (a : Agent) (n : ℕ) (del : Bool) : Prop :=
  ∀ r, a.resources.lookup (a.attached n).resource = some r → r.nativeDeleted = false →
    (r.pendingDelete || del) = true → r.attachedCount = 1 →
    ∀ m, m ≠ n → (a.attached m).readReq.isSome = true →
      ¬ DeletedWith a (a.attached n).resource (a.attached m).resource

/-- The exits of counting out: when it returns, the attached resource has no read. -/
def CountedOut (n : ℕ) (res : Option Bool) (b : Agent) : Prop :=
  ReadInv b ∧ (res ≠ none → (b.attached n).readReq = none)

/-- Counting out ends the read of the attached resource. -/
theorem countOutEA_readInv (henv : env.EndsReads) (key : ClientSessionKey) (n : ℕ) (del : Bool)
    {a : Agent} (ha : ReadInv a) :
    CountedOut n (countOutEA env key n del a).1 (countOutEA env key n del a).2 := by
  have hquiet : ∀ b, ReadFrame a b → ReadInv b →
    (onlyIf (decide ((a.attached n).kind = .dataReader) &&
      (a.attached n).readReq.isSome) (cancelReadEA env n (a.attached n).resource) a) =
        (some (), b) →
      (b.attached n).readReq = none := by
    intro b hframe hb h
    by_contra hne
    obtain ⟨rd, hrd⟩ := Option.ne_none_iff_exists'.1 hne
    have hk : (a.attached n).kind = .dataReader := by
      rw [← hframe.kind_eq n]
      exact hb.kind n rd hrd
    cases hread : (a.attached n).readReq with
    | none =>
        simp only [hk, hread, decide_true, Option.isSome_none, Bool.and_false, onlyIf_false,
          pure_eq_some] at h
        obtain ⟨-, rfl⟩ := h
        exact hne hread
    | some rd' =>
        simp only [hk, hread, decide_true, Option.isSome_some, Bool.and_true, onlyIf_true] at h
        exact hne (readReq_of_cancelReadEA h)
  have hcancel : ReadInv (onlyIf (decide ((a.attached n).kind = .dataReader) &&
      (a.attached n).readReq.isSome) (cancelReadEA env n (a.attached n).resource) a).2 :=
    keeps_onlyIf ha fun _ => cancelReadEA_readInv henv ha
  have hframe : ReadFrame a (onlyIf (decide ((a.attached n).kind = .dataReader) &&
      (a.attached n).readReq.isSome) (cancelReadEA env n (a.attached n).resource) a).2 :=
    Within.onlyIf (fun _ => cancelReadEA_frame env n _) a
  have hfail : ∀ {c : Agent}, ReadInv c → CountedOut n none c :=
    fun hc => ⟨hc, fun h => absurd rfl h⟩
  unfold countOutEA
  rw [read_bind_apply]
  refine exits_ensure (K := CountedOut n) (hfail ha) fun _ => ?_
  refine exits_lookupResource (K := CountedOut n) (hfail ha) fun _ => ?_
  refine exits_require (K := CountedOut n) (hfail ha) fun r _ => ?_
  refine exits_ensure (K := CountedOut n) (hfail ha) fun _ => ?_
  refine exits_bind (K := CountedOut n) (fun _ => hfail hcancel) fun _ hres => ?_
  have hnone := hquiet _ hframe hcancel (eq_of_fst_eq_some hres)
  generalize (onlyIf _ _ a).2 = b at hcancel hnone
  rw [modify_bind_apply]
  have hb := hcancel.countOut (a.attached n).resource del
  refine exits_ensure (K := CountedOut n) (hfail hb) fun _ => ?_
  cases decide ((a.attached n).kind = .dataReader) && (a.attached n).readReq.isSome with
  | false => exact ⟨hb, fun _ => hnone⟩
  | true => exact ⟨ReadInv.of_same hb rfl rfl rfl rfl rfl, fun _ => hnone⟩

/-- The deletion of the resource in `detachResourceEA`, once it was counted out. -/
theorem deleteDetached_deleting (env : Env) {n : ℕ} {del : Bool} {a b : Agent}
    (hspare : SparesReads a n del) (hexit : CountOutExit a n del (some true) b) (hb : ReadInv b)
    (hquiet : (b.attached n).readReq = none) :
    Deleting b (deleteNativeResourceEA env (a.attached n).resource b).2 ∧
      Unread b (a.attached n).resource := by
  obtain ⟨hwithers, hsame⟩ := hexit.settled
  obtain ⟨r, hr, hflag, r', hr', hdel⟩ : ∃ r, a.resources.lookup (a.attached n).resource = some r ∧
      ((r.pendingDelete || del) = true ∧ r.attachedCount = 1) ∧
      ∃ r', b.resources.lookup (a.attached n).resource = some r' ∧
        r'.nativeDeleted = r.nativeDeleted := by
    cases hexit with
    | @counted _ c r _ hr hcount hc hb hres =>
        have hflag := (hres true rfl).symm
        obtain ⟨hwanted, hlast⟩ := Bool.and_eq_true_iff.1 hflag
        have hlast : r.attachedCount - 1 = 0 := by simpa using hlast
        refine ⟨r, hr, ⟨hwanted, by omega⟩, { r with
          attachedCount := r.attachedCount - 1, pendingDelete := r.pendingDelete || del }, ?_, rfl⟩
        rw [hb.1.resources]
        change (c.updateResource _ _).resources.lookup _ = _
        rw [Agent.lookup_updateResource, if_pos rfl, hc.1.resources, hr]
        rfl
  cases hdead : r.nativeDeleted with
  | true =>
      -- the record was deleted before, so no read is on it
      rw [deleteNativeResourceEA_deleted hr' (hdel.trans hdead)]
      refine ⟨⟨hb, refl b, refl b, rfl⟩, ?_⟩
      intro m rd hm heq
      obtain ⟨r'', _, hrec, -⟩ := hb.reg m rd hm
      have hlookup := hrec.lookup
      rw [heq, hr'] at hlookup
      have halive := hrec.alive
      rw [← Option.some.inj hlookup, hdel, hdead] at halive
      cases halive
  | false =>
      have hsafe : ∀ rid', DeletedWith b (a.attached n).resource rid' → Unread b rid' := by
        rintro rid' hgoes m rd hm rfl
        have hmn : m ≠ n := by
          rintro rfl
          rw [hquiet] at hm
          cases hm
        obtain ⟨hres, hread⟩ := hsame m
        rw [hres] at hgoes
        exact hspare r hr hdead hflag.1 hflag.2 m hmn (hread (by rw [hm]; rfl))
          (hgoes.mono hwithers)
      exact ⟨deleteNativeResourceEA_deleting env hb hsafe, hsafe _ (.inl rfl)⟩

/-- Detaching ends the read of the attached resource, gives up its record when nobody
uses it any more, and leaves the reads of others alone. -/
theorem detachResourceEA_readInv (henv : env.EndsReads) (key : ClientSessionKey) {n : ℕ}
    {del copyOut : Bool} {a : Agent} (ha : ReadInv a) (hspare : SparesReads a n del) :
    ReadInv (detachResourceEA env key n del copyOut a).2 ∧
      (DeletesDead a n del → Subsides a (detachResourceEA env key n del copyOut a).2) := by
  obtain ⟨hb, hquiet⟩ := countOutEA_readInv henv key n del ha
  have hexit := countOutEA_exits env key n del a
  unfold detachResourceEA
  rw [read_bind_apply]
  refine keeps_bind (I := fun c => ReadInv c ∧ (DeletesDead a n del → Subsides a c))
    (fun _ => ⟨hb, fun hdel => hexit.subsides hdel⟩) fun flag hflag => ?_
  have hquiet := hquiet (by rw [hflag]; exact fun h => by cases h)
  rw [hflag] at hexit
  generalize (countOutEA env key n del a).2 = b at hb hquiet hexit
  have hdeleted : Deleting b (onlyIf flag (do
      deleteNativeResourceEA env (a.attached n).resource
      ensure (env.ok (.deleteResource (a.attached n).resource))
      modify fun b : Agent => { b with resources := b.resources.erase (a.attached n).resource })
      b).2 := by
    refine keeps_onlyIf (I := Deleting b) ⟨hb, refl b, refl b, rfl⟩ ?_
    rintro rfl
    obtain ⟨hc, hunread⟩ := deleteDetached_deleting env hspare hexit hb hquiet
    refine keeps_bind (fun _ => hc) fun _ _ => keeps_ensure hc fun _ => ?_
    exact hc.erase hunread
  have hdone : ∀ {c}, Deleting b c → ReadInv c ∧ (DeletesDead a n del → Subsides a c) :=
    fun hc => ⟨hc.inv, fun hdel => IsTrans.trans _ _ _ (hexit.subsides hdel) hc.subsides⟩
  refine keeps_bind (I := fun c => ReadInv c ∧ (DeletesDead a n del → Subsides a c))
    (fun _ => hdone hdeleted) fun _ _ => ?_
  generalize (onlyIf flag _ b).2 = c at hdeleted
  rw [onlyIf_ensure]
  refine keeps_ensure (I := fun c => ReadInv c ∧ (DeletesDead a n del → Subsides a c))
    (hdone hdeleted) fun _ => ?_
  have hcquiet : (c.attached n).readReq = none := by
    rw [hdeleted.attached_eq]
    exact hquiet
  refine ⟨hdeleted.inv.unlink hcquiet, fun hdel => ?_⟩
  exact IsTrans.trans _ _ _ ((hdone hdeleted).2 hdel) (.unlink hcquiet)

end AgentM

end NanoAgent
