import NanoAgent.Foundations.Directory
import NanoAgent.Service.Binding

/-!
# The mapping table

The table maps the locators of peers to client keys. It is written in one place,
`recordMapping`, which stores the locator of a client whose session is being opened;
with the allocations it needs this is `Directory.put`. A reset does not touch the
table, nor does anything else.

A message without a key is delivered to a session of the client that its sender's
locator is mapped to. `Tracked` adds to the state of the agent the peer that each
session was last opened or reset from, and `mappings_sound` says under which
conditions on the connecting clients the two agree.
-/

namespace NanoAgent

open Prog

namespace Service

/-- The recorded length is that of the array, and no locator occurs twice. -/
structure TableSound (a : Service) : Prop where
  len : a.clientMappingsLen = a.clientMappings.length
  distinct : (a.clientMappings.map (·.locator)).Nodup

theorem mappedKey_eq {a : Service} (h : a.clientMappingsLen = a.clientMappings.length)
    (l : Locator) :
    a.mappedKey l = (Directory.find (·.locator) a.clientMappings l).map (·.clientKey) := by
  have hpos : a.findClientLocatorMapping l = Directory.position (·.locator) a.clientMappings l := by
    rw [findClientLocatorMapping, h, List.take_length]
    rfl
  rw [mappedKey, hpos]
  cases hp : Directory.position (·.locator) a.clientMappings l with
  | none => rw [Directory.find_eq_none_of_position _ hp]; rfl
  | some i => rw [Option.bind_some, Directory.getElem?_of_position _ hp]

theorem mem_of_mappedKey {a : Service} (h : a.clientMappingsLen = a.clientMappings.length)
    {l : Locator} {k : ℕ} (hk : a.mappedKey l = some k) :
    ∃ e ∈ a.clientMappings, e.locator = l ∧ e.clientKey = k := by
  rw [mappedKey_eq h] at hk
  obtain ⟨e, he, hkey⟩ := Option.map_eq_some_iff.1 hk
  refine ⟨e, List.mem_of_find?_eq_some he, ?_, hkey⟩
  simpa using List.find?_some he

/-- The mapping table has not changed. -/
def SameMappings (a b : Service) : Prop :=
  b.clientMappings = a.clientMappings ∧ b.clientMappingsLen = a.clientMappingsLen

theorem SameMappings.tableSound {a b : Service} (h : SameMappings a b) (ha : a.TableSound) :
    b.TableSound :=
  ⟨by rw [h.1, h.2, ha.len], by rw [h.1]; exact ha.distinct⟩

theorem SameMappings.mappedKey {a b : Service} (h : SameMappings a b) (l : Locator) :
    b.mappedKey l = a.mappedKey l := by
  simp only [Service.mappedKey, findClientLocatorMapping, h.1, h.2]

instance : IsPreorder Service SameMappings where
  refl _ := ⟨rfl, rfl⟩
  trans _ _ _ h h' := ⟨h'.1.trans h.1, h'.2.trans h.2⟩

/-- The table maps the locator of `e` to its client, and is as before otherwise. -/
def Stored (e : ClientLocatorMapping) (a b : Service) : Prop :=
  b.clientMappings = Directory.put (·.locator) a.clientMappings e ∧
    b.clientMappingsLen = b.clientMappings.length

theorem Stored.trans {e : ClientLocatorMapping} {a b d : Service} (h : Stored e a b)
    (h' : SameMappings b d) : Stored e a d :=
  ⟨h'.1.trans h.1, by rw [h'.1, h'.2, h.2]⟩

theorem Stored.tableSound {e : ClientLocatorMapping} {a b : Service} (h : Stored e a b)
    (ha : a.TableSound) : b.TableSound :=
  ⟨h.2, by rw [h.1]; exact Directory.nodup_put _ ha.distinct e⟩

theorem Stored.mappedKey_self {e : ClientLocatorMapping} {a b : Service} (h : Stored e a b) :
    b.mappedKey e.locator = some e.clientKey := by
  rw [mappedKey_eq h.2, h.1, Directory.find_put_self]
  rfl

theorem Stored.mappedKey_of_ne {e : ClientLocatorMapping} {a b : Service} (h : Stored e a b)
    (ha : a.TableSound) {l : Locator} (hl : l ≠ e.locator) : b.mappedKey l = a.mappedKey l := by
  rw [mappedKey_eq h.2, mappedKey_eq ha.len, h.1, Directory.find_put_of_ne _ _ hl]

end Service

open Service

/-- The mapping of a client: its key and the locator it is bound to. -/
def ProxyClient.mapping (p : ProxyClient) : ClientLocatorMapping := ⟨p.key, p.bindEntry.locator⟩

/-- The allocations for the mapping table succeed. -/
def ServiceEnv.Maps (env : ServiceEnv) : Prop :=
  env.ok .reallocateMappings = true ∧ env.ok .copyMappingLocator = true

namespace ServiceM

variable (env : ServiceEnv)

theorem storeMapping_mappings {env : ServiceEnv} (hok : env.ok .copyMappingLocator = true)
    (c i : ℕ) (a : Service) :
    (storeMapping env c i a).2.clientMappings = a.clientMappings.modify i (fun _ =>
        ⟨(a.client c).key, (a.client c).bindEntry.locator⟩) ∧
      (storeMapping env c i a).2.clientMappingsLen = a.clientMappingsLen := by
  have hstate : (storeMapping env c i a).2.clientMappings =
      (a.clientMappings.modify i fun m => { m with clientKey := (a.client c).key }).modify i
        fun m => { m with locator := (a.client c).bindEntry.locator } := by
    unfold storeMapping
    rw [modify_bind_apply, hok]
    rfl
  constructor
  · rw [hstate, List.modify_modify_eq]
    rfl
  · unfold storeMapping
    rw [modify_bind_apply, hok]
    rfl

/-- Recording the locator of a client stores it in the table. -/
theorem recordMapping_stored {env : ServiceEnv} (hok : env.Maps) (c : ℕ) {a : Service}
    (ha : a.clientMappingsLen = a.clientMappings.length) :
    Stored (a.client c).mapping a (recordMapping env c a).2 := by
  have hpos : a.findClientLocatorMapping (a.client c).bindEntry.locator =
      Directory.position (·.locator) a.clientMappings (a.client c).bindEntry.locator := by
    rw [findClientLocatorMapping, ha, List.take_length]
    rfl
  rw [Stored, Directory.put]
  cases hp : Directory.position (·.locator) a.clientMappings (a.client c).bindEntry.locator with
  | some i =>
      have hrun : recordMapping env c a = storeMapping env c i a := by
        rw [recordMapping, read_bind_apply, hpos, hp]
      obtain ⟨hmap, hlen⟩ := storeMapping_mappings hok.2 c i a
      rw [hrun, hlen, hmap, List.length_modify, ha, ProxyClient.mapping, hp]
      exact ⟨rfl, rfl⟩
  | none =>
      set b : Service := { a with
        clientMappings := a.clientMappings ++ [default]
        clientMappingsLen := a.clientMappingsLen + 1 } with hb
      have hrun : recordMapping env c a = storeMapping env c a.clientMappings.length b := by
        rw [recordMapping, read_bind_apply, hpos, hp, ← ha]
        change (growMappings env >>= fun _ => _) a = _
        rw [growMappings, hok.1]
        rfl
      obtain ⟨hmap, hlen⟩ := storeMapping_mappings hok.2 c a.clientMappings.length b
      have hlast : b.clientMappings.modify a.clientMappings.length (fun _ =>
          ⟨(b.client c).key, (b.client c).bindEntry.locator⟩) =
            a.clientMappings ++ [(a.client c).mapping] :=
        Directory.modify_append_length a.clientMappings default _
      rw [hrun, hlen, hmap, hlast, ProxyClient.mapping, hp]
      exact ⟨rfl, by simp [hb, ha]⟩

theorem within_sameMappings_of_work {α : Type} {x : ServiceM α} (h : Within ClientWork x) :
    Within SameMappings x := fun a =>
  ⟨congrArg Registry.clientMappings (h a).registry,
    congrArg Registry.clientMappingsLen (h a).registry⟩

theorem scheduleHeartbeat_sameMappings (key : ClientSessionKey) (c : ℕ) :
    Within SameMappings (scheduleHeartbeat env key c) := by
  refine .bind ?_ fun e => .bind (.modify fun _ => ⟨rfl, rfl⟩) fun _ => ?_
  · refine .read fun a => .bind (.require _) fun s => .ensureThen fun _ => .ensureThen fun _ => ?_
    exact .bind (.modify fun _ => ⟨rfl, rfl⟩) fun _ => .pure _
  · exact .ensureThen fun _ => .modify fun _ => ⟨rfl, rfl⟩

/-- Opening a session stores the mapping of its client when it was asked to, and
leaves the table alone otherwise. -/
theorem onSessionOpened_mappings {env : ServiceEnv} (hok : env.Maps) (key : ClientSessionKey)
    (c : ℕ) {a : Service} (ha : a.clientMappingsLen = a.clientMappings.length) :
    if (a.client c).cacheMapping then
      Stored (a.client c).mapping a (onSessionOpened env key c a).2
    else SameMappings a (onSessionOpened env key c a).2 := by
  have hrest : ∀ period, Within SameMappings (do
      modify fun a : Service => a.updateClient c fun p => { p with connected := true }
      replyToConnection env c
      onlyIf period (scheduleHeartbeat env key c)) := by
    intro period
    refine .bind (.modify fun _ => ⟨rfl, rfl⟩) fun _ => .bind ?_ fun _ => .onlyIf fun _ => ?_
    · exact within_sameMappings_of_work (replyToConnection_work env c)
    · exact scheduleHeartbeat_sameMappings env key c
  rw [onSessionOpened, modify_bind_apply, read_bind_apply, Service.client_updateClient_self]
  set b := a.updateClient c fun p => { p with ddsSession := some key } with hb
  have hbc : (b.client c).mapping = (a.client c).mapping := by simp [hb, ProxyClient.mapping]
  cases hcache : (a.client c).cacheMapping with
  | false => exact hrest _ b
  | true =>
      have hcached : Stored (a.client c).mapping a (cacheClientMapping env c b).2 := by
        have hstored := recordMapping_stored hok c
          (a := (b.updateClient c fun p => { p with cacheMapping := false }).takeMutex) ha
        have hclient : (((b.updateClient c fun p =>
          { p with cacheMapping := false }).takeMutex).client
            c).mapping = (a.client c).mapping := by
          rw [← hbc]
          simp [Service.takeMutex, Service.client, Service.updateClient, ProxyClient.mapping]
        rw [hclient] at hstored
        exact hstored
      refine keeps_bind (I := Stored (a.client c).mapping a) (fun _ => hcached) fun _ _ => ?_
      exact hcached.trans (hrest _ _)

theorem onSessionReset_sameMappings (key : ClientSessionKey) (old : ℕ) :
    Within SameMappings (onSessionReset env key old) := by
  have hclient : ∀ f, Within SameMappings (modify fun a : Service => a.updateClient old f) :=
    fun f => .modify fun _ => ⟨rfl, rfl⟩
  refine .bind (hclient _) fun _ => .bind ?_ fun _ => .bind (hclient _) fun _ => .bind ?_ ?_
  · exact within_sameMappings_of_work (dismissClientFwdDataRequests_work env old none _)
  · exact within_sameMappings_of_work (replyToConnection_work env old)
  · exact fun _ => .bind (hclient _) fun _ => .pure _

theorem resetSession_sameMappings (key : ClientSessionKey) (s : ClientSession) :
    Within SameMappings (resetSession env key s) := by
  refine .ensureThen fun _ => .bind (.modify fun _ => ⟨rfl, rfl⟩) fun _ => .read fun a => ?_
  refine .ensureThen fun _ => .bind (.require _) fun old => .bind ?_ fun data => ?_
  · exact onSessionReset_sameMappings env key old
  · refine .bind (.modify fun _ => ⟨rfl, rfl⟩) fun _ => .ensureThen fun _ => ?_
    exact .modify fun _ => ⟨rfl, rfl⟩

theorem openSession_end_sameMappings (key : ClientSessionKey) :
    Within SameMappings (do
      onSessionActivity env key
      ensure (env.ok .releaseSession)) :=
  .bind (.read fun _ => .bind (.require _) fun _ => .ensure _) fun _ => .ensure _

/-- What opening or resetting the session of `key` does to the table. The mapping `e`
is stored only for a new session, and then whenever the opening succeeds and was
asked to store it. -/
structure OpensMapping (key : ClientSessionKey) (e : ClientLocatorMapping) (cache : Bool)
    (a : Service) (r : Option Unit) (b : Service) : Prop where
  cases : SameMappings a b ∨ a.sessions.lookup key = none ∧ Stored e a b
  stored : r.isSome → a.sessions.lookup key = none → cache = true → Stored e a b

namespace OpensMapping

variable {key : ClientSessionKey} {e : ClientLocatorMapping} {cache : Bool} {a b d : Service}
  {r r' : Option Unit}

theorem failed (h : SameMappings a b) : OpensMapping key e cache a none b :=
  ⟨.inl h, fun hsome => by cases hsome⟩

theorem trans (h : OpensMapping key e cache a r b) (hr : r'.isSome → r.isSome)
    (hd : SameMappings b d) : OpensMapping key e cache a r' d where
  cases := by
    rcases h.cases with hsame | ⟨hnone, hstored⟩
    · exact .inl (IsTrans.trans _ _ _ hsame hd)
    · exact .inr ⟨hnone, hstored.trans hd⟩
  stored hr' hnone hcache := (h.stored (hr hr') hnone hcache).trans hd

end OpensMapping

theorem openNewSession_mappings {env : ServiceEnv} (hok : env.Maps) (key : ClientSessionKey)
    (c : ℕ) {a : Service} (ha : a.clientMappingsLen = a.clientMappings.length)
    (hnone : a.sessions.lookup key = none) :
    OpensMapping key (a.client c).mapping (a.client c).cacheMapping a
      (openNewSession env key c a).1 (openNewSession env key c a).2 := by
  rw [openNewSession, modify_bind_apply]
  set b : Service := { a with
    sessions := a.sessions.insert key (.initial a.intf a.clientSessionTimeout (some c)) } with hb
  have hfailed : OpensMapping key (a.client c).mapping (a.client c).cacheMapping a none b :=
    .failed ⟨rfl, rfl⟩
  have hopened : ∀ r, OpensMapping key (a.client c).mapping (a.client c).cacheMapping a r
      (onSessionOpened env key c b).2 := by
    intro r
    have hmap := onSessionOpened_mappings hok key c (a := b) ha
    cases hcache : (a.client c).cacheMapping with
    | false =>
        rw [show (b.client c).cacheMapping = false from hcache, if_neg (by simp)] at hmap
        exact ⟨.inl hmap, fun _ _ h => by cases h⟩
    | true =>
        rw [show (b.client c).cacheMapping = true from hcache, if_pos rfl] at hmap
        exact ⟨.inr ⟨hnone, hmap⟩, fun _ _ _ => hmap⟩
  have hx : OpensMapping key (a.client c).mapping (a.client c).cacheMapping a
      ((ensure (env.ok (.newSemaphore 0) && env.ok (.newSemaphore 1)) >>= fun _ => do
        ensure (env.ok .attachResources)
        onSessionOpened env key c : ServiceM Unit) b).1 _ :=
    exits_ensure hfailed fun _ => exits_ensure hfailed fun _ => hopened _
  refine exits_onFailure (fun v hv => ?_) fun hv => ?_
  · rw [hv] at hx
    exact hx
  · rw [hv] at hx
    refine hx.trans id ?_
    exact Within.onlyIf (fun _ => .modify fun _ => ⟨rfl, rfl⟩) _

theorem openSession_mappings {env : ServiceEnv} (hok : env.Maps) (key : ClientSessionKey)
    (c : ℕ) {a : Service} (ha : a.clientMappingsLen = a.clientMappings.length) :
    OpensMapping key (a.client c).mapping (a.client c).cacheMapping a
      (openSession env key c a).1 (openSession env key c a).2 := by
  refine exits_ensure (.failed (refl a)) fun _ => ?_
  have hopen : OpensMapping key (a.client c).mapping (a.client c).cacheMapping a
      (resetOrOpenSession env key c a).1 (resetOrOpenSession env key c a).2 := by
    rw [resetOrOpenSession, read_bind_apply]
    cases hs : a.sessions.lookup key with
    | none => exact openNewSession_mappings hok key c ha hs
    | some s =>
        refine ⟨.inl (resetSession_sameMappings env key s a), fun _ hnone => ?_⟩
        rw [hs] at hnone
        cases hnone
  refine exits_bind (fun hnone => ?_) fun v hv => ?_
  · exact hopen.trans (by simp) (refl _)
  · refine hopen.trans (fun _ => by rw [hv]; rfl) ?_
    exact openSession_end_sameMappings env key _

theorem deleteClientSession_sameMappings (a : Service) (c : ℕ) :
    SameMappings a (a.deleteClientSession c) := by
  have hrelease : ∀ (l : List ℕ) (b : Service),
      SameMappings b (l.foldl (fun a r => a.releaseStreamStorage c r) b) := by
    intro l
    induction l with
    | nil => exact fun b => refl b
    | cons r l ih => exact fun b => ih (b.releaseStreamStorage c r)
  exact hrelease (a.client c).streamStorage a

/-- What a `CREATE_CLIENT` from `src` does to the table. -/
theorem processCreateClient_mappings {env : ServiceEnv} (hok : env.Maps) {k sid : ℕ} {m : Message}
    (src : BindEntry) (keyInHeader missing : Bool) {a : Service}
    (ha : a.clientMappingsLen = a.clientMappings.length) {v : ClientRepresentation × Bool}
    (hv : deserializeClientRepr env.wire k sid m = some v) :
    OpensMapping v.1.sessionKey ⟨v.1.clientKey, src.locator⟩ (missing || v.2) a
      (processCreateClient env k sid m src keyInHeader missing a).1
      (processCreateClient env k sid m src keyInHeader missing a).2 := by
  unfold processCreateClient
  rw [hv]
  change OpensMapping _ _ _ _ ((ensure _ >>= fun _ => _ : ServiceM Unit) a).1 _
  refine exits_ensure (.failed (refl a)) fun _ => exits_ensure (.failed (refl a)) fun _ =>
    exits_ensure (.failed (refl a)) fun _ => ?_
  rw [read_bind_apply, modify_bind_apply]
  set c := a.clientsPool.next with hc
  set b : Service := { a with clientsPool := a.clientsPool.take .initializer } with hb
  have hconnect : OpensMapping v.1.sessionKey ⟨v.1.clientKey, src.locator⟩ (missing || v.2) a
      (connectClient env c v.1 (missing || v.2) src b).1
      (connectClient env c v.1 (missing || v.2) src b).2 := by
    have hframe := prepareClient_preparing env c v.1 (missing || v.2) src b
    have hsame : SameMappings a (prepareClient env c v.1 (missing || v.2) src b).2 :=
      ⟨congrArg Registry.clientMappings hframe.registry,
        congrArg Registry.clientMappingsLen hframe.registry⟩
    refine exits_bind (fun _ => .failed hsame) fun _ hprepared => ?_
    have hready := prepareClient_eq_some env c (eq_of_fst_eq_some hprepared)
    set d := (prepareClient env c v.1 (missing || v.2) src b).2 with hd
    have hlen : d.clientMappingsLen = d.clientMappings.length := by
      rw [hsame.1, hsame.2, ha]
    have hopen := openSession_mappings hok v.1.sessionKey c hlen
    have hmapping : (d.client c).mapping = ⟨v.1.clientKey, src.locator⟩ := by
      rw [ProxyClient.mapping, hready.1, hready.2.1]
    rw [hmapping, hready.2.2] at hopen
    have hstored : ∀ {b'}, Stored ⟨v.1.clientKey, src.locator⟩ d b' →
        Stored ⟨v.1.clientKey, src.locator⟩ a b' := by
      intro b' h
      rw [Stored, hsame.1] at h
      exact h
    have hlookup : d.sessions.lookup v.1.sessionKey = a.sessions.lookup v.1.sessionKey := by
      rw [hframe.sessions]
    refine ⟨?_, fun hsome hnone hcache => hstored (hopen.stored hsome (hlookup ▸ hnone) hcache)⟩
    rcases hopen.cases with h | ⟨hnone, h⟩
    · exact .inl (IsTrans.trans _ _ _ hsame h)
    · exact .inr ⟨hlookup ▸ hnone, hstored h⟩
  refine exits_onFailure (fun u hu => ?_) fun hnone => ?_
  · rw [hu] at hconnect
    exact hconnect
  · rw [hnone] at hconnect
    exact hconnect.trans id (deleteClientSession_sameMappings _ c)

end ServiceM

/-- A `CREATE_CLIENT`: the peer it is from, whether its header is without a key, and the
client it asks to connect. -/
structure Creation where
  src : BindEntry
  keyless : Bool
  repr : ClientRepresentation

/-- The mapping that goes with a creation. -/
def Creation.mapping (x : Creation) : ClientLocatorMapping := ⟨x.repr.clientKey, x.src.locator⟩

/-- The `CREATE_CLIENT` that a step receives. -/
def ServiceOperation.creation (w : Wire) : ServiceOperation → Option Creation
  | .receiveMessage src m =>
      if w.noSession m.sessionId then
        (m.clientRepr w).map fun r => ⟨src, !w.hasClientKey m.sessionId, r⟩
      else none
  | _ => none

theorem ServiceOperation.creation_eq_some {w : Wire} {o : ServiceOperation} {x : Creation}
    (h : o.creation w = some x) :
    ∃ m, o = .receiveMessage x.src m ∧ w.noSession m.sessionId = true ∧
      m.clientRepr w = some x.repr ∧ x.keyless = !w.hasClientKey m.sessionId := by
  cases o with
  | receiveMessage src m =>
      dsimp only [creation] at h
      split at h
      · rename_i hsid
        obtain ⟨r, hr, rfl⟩ := Option.map_eq_some_iff.1 h
        exact ⟨m, rfl, hsid, hr, rfl⟩
      · cases h
  | deliverSample key id d => cases h
  | releaseReadSamples key id => cases h
  | acknowledge key m => cases h
  | sessionTimeout key => cases h
  | cleanupSession key => cases h
  | finishCloseSession key => cases h
  | dispatchEvent p => cases h
  | sessionEvent p => cases h

/-- What a `CREATE_CLIENT` does to the table. It asks to store the mapping, unless the peer
is mapped to the client already or to no valid key. -/
def AsksMapping (w : Wire) (x : Creation) (a : Service) (o : Option Unit) (b : Service) : Prop :=
  ∃ cache, ServiceM.OpensMapping x.repr.sessionKey x.mapping cache a o b ∧
    (cache = false → a.mappedKey x.src.locator = some w.clientKeyInvalid ∨
      a.mappedKey x.src.locator = some x.repr.clientKey)

namespace ServiceM

variable (env : ServiceEnv)

/-- The sender of a message is found in the table only for a message without a key. -/
theorem identifySender_found {env : ServiceEnv} {m : Message} {src : BindEntry} {a b : Service}
    {k : ℕ} (h : identifySender env m src a = (some (k, false), b)) :
    env.wire.hasClientKey m.sessionId = false ∧ a.mappedKey src.locator = some k := by
  unfold identifySender at h
  cases hkey : env.wire.hasClientKey m.sessionId with
  | true =>
      rw [hkey, if_pos rfl] at h
      obtain ⟨_, _, -, h⟩ := bind_eq_some.1 h
      cases (pure_eq_some.1 h).1
  | false =>
      rw [hkey, if_neg (by simp), modify_bind_apply, read_bind_apply] at h
      obtain ⟨_, _, -, h⟩ := bind_eq_some.1 h
      rw [modify_bind_apply] at h
      have hpair := (pure_eq_some.1 h).1
      have hmapped : a.takeMutex.mappedKey src.locator = a.mappedKey src.locator := rfl
      rw [hmapped, Prod.mk.injEq] at hpair
      obtain ⟨hk, hfound⟩ := hpair
      obtain ⟨k', hk'⟩ := Option.isSome_iff_exists.1 (Option.isNone_eq_false_iff.1 hfound)
      rw [hk', Option.getD_some] at hk
      exact ⟨rfl, by rw [hk', hk]⟩

/-- A `CREATE_CLIENT` asks to store the mapping of its client, unless its sender is mapped to
that client already or to no valid key. -/
theorem receiveMessage_asksMapping {env : ServiceEnv} (hok : env.Maps) {src : BindEntry}
    {m : Message} {a : Service} (ha : a.clientMappingsLen = a.clientMappings.length)
    (hsid : env.wire.noSession m.sessionId = true) {r : ClientRepresentation}
    (hr : m.clientRepr env.wire = some r) :
    AsksMapping env.wire ⟨src, !env.wire.hasClientKey m.sessionId, r⟩ a
      (receiveMessage env src m a).1 (receiveMessage env src m a).2 := by
  set x : Creation := ⟨src, !env.wire.hasClientKey m.sessionId, r⟩ with hx
  have hfailed : ∀ b, SameMappings a b → AsksMapping env.wire x a none b :=
    fun b h => ⟨true, .failed h, fun hcache => by cases hcache⟩
  refine exits_ensure (K := AsksMapping env.wire x a) (hfailed a (refl a)) fun _ => ?_
  obtain ⟨mutex, hmutex⟩ := identifySender_eq env m src a
  refine exits_bind (K := AsksMapping env.wire x a) (fun _ => ?_) fun sender hsender => ?_
  · rw [hmutex]
    exact hfailed _ ⟨rfl, rfl⟩
  have hfound := eq_of_fst_eq_some hsender
  rw [hmutex] at hfound ⊢
  rw [receiveFrom, if_pos hsid]
  cases hv : deserializeClientRepr env.wire sender.1 m.sessionId m with
  | none =>
      rw [processCreateClient, hv]
      exact hfailed _ ⟨rfl, rfl⟩
  | some v =>
      obtain ⟨hrepr, hchanged⟩ := deserializeClientRepr_eq_some hv
      obtain rfl : r = v.1 := Option.some.inj (hr.symm.trans hrepr)
      have hcreate := processCreateClient_mappings hok src (env.wire.hasClientKey m.sessionId)
        sender.2 (a := { a with mappingsMutex := mutex }) ha hv
      refine ⟨sender.2 || v.2, ⟨hcreate.cases, hcreate.stored⟩, fun hcache => ?_⟩
      rw [Bool.or_eq_false_iff] at hcache
      obtain ⟨hpresent, hsame⟩ := hcache
      obtain ⟨k, missing⟩ := sender
      cases hpresent
      have hmapped := (identifySender_found hfound).2
      rw [hsame] at hchanged
      by_cases hk : k = env.wire.clientKeyInvalid
      · exact .inl (hk ▸ hmapped)
      · have hkey : k = v.1.clientKey := by simpa [hk] using hchanged.symm
        exact .inr (hkey ▸ hmapped)

theorem closeSession_sameMappings (key : ClientSessionKey) :
    Within SameMappings (closeSession env key) := by
  refine .ensureThen fun _ => .ensureThen fun _ => .read fun a => .bind (.require _) fun s => ?_
  refine .ensureThen fun _ => .ensureThen fun _ => .onlyIf fun _ => .bind ?_ fun _ => .ensure _
  exact .modify fun _ => ⟨rfl, rfl⟩

theorem receiveOnSession_sameMappings (key : ClientSessionKey) :
    Within SameMappings (receiveOnSession env key) := by
  refine .ensureThen fun _ => .read fun a => ?_
  cases a.sessions.lookup key with
  | none => exact .pure _
  | some s =>
      refine .ensureThen fun _ => .ensureThen fun _ => .bind ?_ fun _ => ?_
      · exact .read fun a => .bind (.require _) fun s => .ensure _
      · refine .bind (.require _) fun c => .bind ?_ fun _ => .onlyIf fun _ => ?_
        · exact within_sameMappings_of_work (onMessageReceived_work env c)
        · exact .ensureThen fun _ => closeSession_sameMappings env key

theorem onSessionClosed_sameMappings (c : ℕ) : Within SameMappings (onSessionClosed env c) := by
  have hreply : ∀ r, Within SameMappings (do
      modify fun a : Service => a.updateRequest c r fun q => { q with reply := true }
      onFailure (replyToOperation env c r true) (modify fun a => a.returnClientRequest c r)
      modify fun a => a.returnClientRequest c r) := by
    intro r
    refine .bind (.modify fun _ => ⟨rfl, rfl⟩) fun _ => .bind (.onFailure ?_ ?_) fun _ => ?_
    · exact within_sameMappings_of_work (replyToOperation_work env c r true)
    · exact .modify fun _ => ⟨rfl, rfl⟩
    · exact .modify fun _ => ⟨rfl, rfl⟩
  refine .read fun a => .bind (.modify fun _ => ⟨rfl, rfl⟩) fun _ => .bind ?_ fun _ => ?_
  · exact .onlyIf fun _ => hreply _
  · exact .modify fun b => deleteClientSession_sameMappings b c

theorem finishCloseSession_sameMappings (key : ClientSessionKey) :
    Within SameMappings (finishCloseSession env key) := by
  refine .read fun a => .bind (.require _) fun s => .ensureThen fun _ => .ensureThen fun _ => ?_
  refine .bind (.modify fun _ => ⟨rfl, rfl⟩) fun _ => .ensureThen fun _ => .ensureThen fun _ => ?_
  refine .bind (.modify fun _ => ⟨rfl, rfl⟩) fun _ => .ensureThen fun _ => ?_
  exact .bind (.require _) fun c => onSessionClosed_sameMappings env c

theorem onSessionTimeout_sameMappings (key : ClientSessionKey) :
    Within SameMappings (onSessionTimeout env key) := by
  refine .ensureThen fun _ => .read fun a => .bind (.require _) fun s => .ensureThen fun _ => ?_
  refine .bind (.modify fun _ => ⟨rfl, rfl⟩) fun _ => .bind (.require _) fun c => ?_
  refine .bind (.ignore (.read fun b => .bind (.onlyIf fun _ => ?_) fun _ => ?_)) fun _ => ?_
  · refine .ensureThen fun _ => .bind (.modify fun _ => ⟨rfl, rfl⟩) fun _ => ?_
    exact .modify fun _ => ⟨rfl, rfl⟩
  · exact within_sameMappings_of_work (disposeClientSession_work env c none)
  · refine .bind (.onlyIf fun _ => .bind (.modify fun _ => ⟨rfl, rfl⟩) fun _ => .ensure _) ?_
    exact fun _ => .ensure _

theorem cleanupSession_sameMappings (key : ClientSessionKey) :
    Within SameMappings (cleanupSession env key) := by
  refine .read fun a => .bind (.require _) fun s => .ensureThen fun _ => .ensureThen fun _ => ?_
  refine .ite (fun _ => .ensureThen fun _ => .ensureThen fun _ => ?_) fun _ => ?_
  · refine .bind (.modify fun _ => ⟨rfl, rfl⟩) fun _ => .bind (.require _) fun c => ?_
    exact onSessionClosed_sameMappings env c
  · exact .modify fun _ => ⟨rfl, rfl⟩

theorem onSessionEvent_sameMappings (p : Posting) : Within SameMappings (onSessionEvent env p) := by
  refine .read fun a => .ensureThen fun _ => .bind (.require _) fun s => .ensureThen fun _ => ?_
  refine .ensureThen fun _ => .ensureThen fun _ => .bind (.read fun b => ?_) fun _ => ?_
  · exact .ite (fun _ => .pure _) fun _ => .bind (.modify fun _ => ⟨rfl, rfl⟩) fun _ => .pure _
  · exact .onlyIf fun _ => .ensureThen fun _ => .modify fun _ => ⟨rfl, rfl⟩

end ServiceM

namespace Service

/-- A step that receives no `CREATE_CLIENT` leaves the table alone. -/
theorem step_sameMappings (a : Service) {i : ServiceOperation × ServiceEnv}
    (h : i.1.creation i.2.wire = none) : SameMappings a (a.step i) := by
  obtain ⟨o, env⟩ := i
  cases o with
  | receiveMessage src m =>
      refine keeps_ensure (refl a) fun _ => ?_
      obtain ⟨mutex, hmutex⟩ := ServiceM.identifySender_eq env m src a
      have hsender : SameMappings a (ServiceM.identifySender env m src a).2 := by
        rw [hmutex]
        exact ⟨rfl, rfl⟩
      refine keeps_bind (fun _ => hsender) fun sender _ => IsTrans.trans _ _ _ hsender ?_
      rw [ServiceM.receiveFrom]
      dsimp only [ServiceOperation.creation] at h
      split
      · rename_i hsid
        rw [if_pos hsid, Option.map_eq_none_iff] at h
        refine keeps_require (refl _) fun v hv => ?_
        rw [(deserializeClientRepr_eq_some hv).1] at h
        cases h
      · exact keeps_ensure (refl _) fun _ => ServiceM.receiveOnSession_sameMappings env _ _
  | deliverSample key id d =>
      exact ServiceM.within_sameMappings_of_work
        (ServiceOperation.deliverSample_work env key id d) a
  | releaseReadSamples key id =>
      exact ServiceM.within_sameMappings_of_work
        (ServiceOperation.releaseReadSamples_work env key id) a
  | acknowledge key m =>
      exact ServiceM.within_sameMappings_of_work (ServiceOperation.acknowledge_work env key m) a
  | sessionTimeout key => exact ServiceM.onSessionTimeout_sameMappings env key a
  | cleanupSession key => exact ServiceM.cleanupSession_sameMappings env key a
  | finishCloseSession key => exact ServiceM.finishCloseSession_sameMappings env key a
  | dispatchEvent p => exact keeps_ensure (refl a) fun _ => ⟨rfl, rfl⟩
  | sessionEvent p =>
      refine keeps_ensure (refl a) fun _ => ?_
      refine Within.bind (.modify fun _ => ⟨rfl, rfl⟩) (fun _ => ?_) a
      exact ServiceM.onSessionEvent_sameMappings env p

theorem step_asksMapping {a : Service} (ha : a.clientMappingsLen = a.clientMappings.length)
    {i : ServiceOperation × ServiceEnv} {x : Creation} (hi : i.1.creation i.2.wire = some x)
    (hok : i.2.Maps) : AsksMapping i.2.wire x a (i.1.run i.2 a).1 (a.step i) := by
  obtain ⟨o, env⟩ := i
  obtain ⟨src, keyless, r⟩ := x
  obtain ⟨m, rfl, hsid, hr, -⟩ := ServiceOperation.creation_eq_some hi
  exact ServiceM.receiveMessage_asksMapping hok ha hsid hr

theorem Creates.creation {key : ClientSessionKey} {i : ServiceOperation × ServiceEnv}
    (h : Creates key i) : ∃ x, i.1.creation i.2.wire = some x ∧ x.repr.sessionKey = key := by
  obtain ⟨src, m, r, hi, hsid, hr, hkey⟩ := h
  refine ⟨⟨src, !i.2.wire.hasClientKey m.sessionId, r⟩, ?_, hkey⟩
  rw [hi, ServiceOperation.creation, if_pos hsid, hr]
  rfl

/-- A message without a key is delivered to the session of `key`. -/
def DeliversKeyless (env : ServiceEnv) (src : BindEntry) (m : Message) (key : ClientSessionKey)
    (a : Service) : Prop :=
  env.wire.hasClientKey m.sessionId = false ∧ env.wire.noSession m.sessionId = false ∧
    key.id = m.sessionId ∧ (∃ b, ServiceM.identifySender env m src a =
      (some (key.client, false), b)) ∧
    a.sessions.lookup key ≠ none

end Service

/-- The agent, and the peer that each session was last opened or reset from. -/
structure Tracked where
  agent : Service
  peers : ClientSessionKey → Option BindEntry

namespace Tracked

/-- A step opens or resets the session of `key`. -/
def opens (a : Service) (i : ServiceOperation × ServiceEnv) (key : ClientSessionKey) : Bool :=
  (i.1.run i.2 a).1.isSome ||
    ((a.sessions.lookup key).isNone && ((a.step i).sessions.lookup key).isSome)

/-- Carry out an operation, and note the peer of the session it opens or resets. -/
def step (t : Tracked) (i : ServiceOperation × ServiceEnv) : Tracked where
  agent := t.agent.step i
  peers :=
    match i.1.creation i.2.wire with
    | none => t.peers
    | some x =>
        if opens t.agent i x.repr.sessionKey then
          Function.update t.peers x.repr.sessionKey (some x.src)
        else t.peers

/-- The client that connects is known to the agent under no other locator, and the
table can hold its mapping. A client that connects again, without its key, has its
mapping already. -/
structure Connects (t : Tracked) (env : ServiceEnv) (x : Creation) : Prop where
  maps : env.Maps
  mapped : ∀ e ∈ t.agent.clientMappings, e.clientKey = x.repr.clientKey →
    e.locator = x.src.locator
  sessions : t.agent.sessions.lookup x.repr.sessionKey = none →
    ∀ key p, key.client = x.repr.clientKey → t.agent.sessions.lookup key ≠ none →
      t.peers key = some p → p.locator = x.src.locator
  known : x.keyless = true → t.agent.sessions.lookup x.repr.sessionKey ≠ none →
    t.agent.mappedKey x.src.locator = some x.repr.clientKey
  valid : t.agent.mappedKey x.src.locator ≠ some env.wire.clientKeyInvalid

/-- The steps of a run in which every locator belongs to one transport, given by
`home`, and every client to one locator. -/
structure Orderly (home : Locator → ℕ) (t : Tracked) (i : ServiceOperation × ServiceEnv) :
    Prop where
  home : ∀ src m, i.1 = .receiveMessage src m → src.transport = home src.locator
  connects : ∀ x, i.1.creation i.2.wire = some x → Connects t i.2 x

/-- The agent is started, with the mappings it was configured with, and no session was
opened. -/
structure Initial (t : Tracked) : Prop where
  table : t.agent.TableSound
  sessions : t.agent.sessions = ∅
  peers : ∀ key, t.peers key = none

/-- Mappings and sessions agree about the peers of clients. -/
structure MappingsInv (home : Locator → ℕ) (t : Tracked) : Prop where
  table : t.agent.TableSound
  known : ∀ key, t.agent.sessions.lookup key ≠ none → ∃ p, t.peers key = some p
  homes : ∀ key p, t.peers key = some p → p.transport = home p.locator
  served : ∀ e ∈ t.agent.clientMappings, ∀ key p, key.client = e.clientKey →
    t.agent.sessions.lookup key ≠ none → t.peers key = some p → p.locator = e.locator

/-- The table is sound, an accepted `CREATE_CLIENT` without a key maps its peer and
nothing else, and messages without a key are delivered to sessions of their peer. -/
structure MappingsSound (t : Tracked) (i : ServiceOperation × ServiceEnv) : Prop where
  table : t.agent.TableSound
  mapped : ∀ x, i.1.creation i.2.wire = some x → x.keyless = true →
    (i.1.run i.2 t.agent).1 = some () →
      (t.step i).agent.mappedKey x.src.locator = some x.repr.clientKey ∧
        ∀ l, l ≠ x.src.locator → (t.step i).agent.mappedKey l = t.agent.mappedKey l
  delivered : ∀ src m key, i.1 = .receiveMessage src m →
    t.agent.DeliversKeyless i.2 src m key → t.peers key = some src

variable {home : Locator → ℕ} {t : Tracked} {i : ServiceOperation × ServiceEnv}

theorem MappingsInv.of_initial (h : t.Initial) : MappingsInv home t where
  table := h.table
  known key hkey := by
    rw [h.sessions] at hkey
    exact absurd rfl hkey
  homes key p hp := by
    rw [h.peers] at hp
    cases hp
  served e _ key p _ hkey := by
    rw [h.sessions] at hkey
    exact absurd rfl hkey

/-- A step that receives no `CREATE_CLIENT` opens no session and notes no peer. -/
theorem MappingsInv.step_other (h : MappingsInv home t) (hi : i.1.creation i.2.wire = none) :
    MappingsInv home (t.step i) := by
  have hpeers : (t.step i).peers = t.peers := by rw [step, hi]
  have hsame : SameMappings t.agent (t.step i).agent := t.agent.step_sameMappings hi
  have hold : ∀ key, (t.step i).agent.sessions.lookup key ≠ none →
      t.agent.sessions.lookup key ≠ none := by
    intro key hkey
    obtain ⟨s', hs'⟩ := Option.ne_none_iff_exists'.1 hkey
    rcases (t.agent.step_rebinding i key).users s' hs' with ⟨s, hs, -⟩ | ⟨⟨-, hcreates⟩, -⟩
    · rw [hs]
      exact Option.some_ne_none s
    · obtain ⟨x, hx, -⟩ := hcreates.creation
      rw [hi] at hx
      cases hx
  refine ⟨hsame.tableSound h.table, fun key hkey => ?_, fun key p hp => ?_, ?_⟩
  · rw [hpeers]
    exact h.known key (hold key hkey)
  · rw [hpeers] at hp
    exact h.homes key p hp
  · intro e he key p hclient hkey hp
    rw [hsame.1] at he
    rw [hpeers] at hp
    exact h.served e he key p hclient (hold key hkey) hp

theorem peers_step {x : Creation} (hi : i.1.creation i.2.wire = some x) (key : ClientSessionKey) :
    (t.step i).peers key = t.peers key ∨
      key = x.repr.sessionKey ∧ (t.step i).peers key = some x.src := by
  rw [step, hi]
  dsimp only
  split
  · by_cases hx : key = x.repr.sessionKey
    · exact .inr ⟨hx, by rw [hx, Function.update_self]⟩
    · exact .inl (Function.update_of_ne hx _ _)
  · exact .inl rfl

/-- The sessions after a step that receives a `CREATE_CLIENT` were there before, with the peer
noted before, or have the peer of the message. -/
theorem peers_of_creation {x : Creation} (hi : i.1.creation i.2.wire = some x)
    {key : ClientSessionKey} (hkey : (t.step i).agent.sessions.lookup key ≠ none) :
    t.agent.sessions.lookup key ≠ none ∧ (t.step i).peers key = t.peers key ∨
      key = x.repr.sessionKey ∧ (t.step i).peers key = some x.src := by
  obtain ⟨s', hs'⟩ := Option.ne_none_iff_exists'.1 hkey
  rcases (t.agent.step_rebinding i key).users s' hs' with ⟨s, hs, -⟩ | ⟨⟨hnone, hcreates⟩, -⟩
  · have hold : t.agent.sessions.lookup key ≠ none := by
      rw [hs]
      exact Option.some_ne_none s
    rcases peers_step hi key with hpeer | hpeer
    · exact .inl ⟨hold, hpeer⟩
    · exact .inr hpeer
  · obtain ⟨y, hy, rfl⟩ := hcreates.creation
    rw [hi] at hy
    cases hy
    have hopens : opens t.agent i x.repr.sessionKey = true := by
      rw [opens, hnone, show (t.agent.step i).sessions.lookup x.repr.sessionKey = some s' from hs']
      simp
    refine .inr ⟨rfl, ?_⟩
    rw [step, hi]
    dsimp only
    rw [if_pos hopens, Function.update_self]

theorem MappingsInv.step_creation (h : MappingsInv home t) {x : Creation}
    (hi : i.1.creation i.2.wire = some x) (hok : Orderly home t i) :
    MappingsInv home (t.step i) := by
  have hx := hok.connects x hi
  obtain ⟨cache, hopens, -⟩ := step_asksMapping h.table.len hi hx.maps
  have hhome : x.src.transport = home x.src.locator := by
    obtain ⟨m, hm, -⟩ := ServiceOperation.creation_eq_some hi
    exact hok.home _ m hm
  refine ⟨?_, fun key hkey => ?_, fun key p hp => ?_, fun e he key p hclient hkey hp => ?_⟩
  · rcases hopens.cases with hsame | ⟨-, hstored⟩
    · exact hsame.tableSound h.table
    · exact hstored.tableSound h.table
  · rcases peers_of_creation hi hkey with ⟨hold, hpeer⟩ | ⟨-, hpeer⟩
    · rw [hpeer]
      exact h.known key hold
    · exact ⟨_, hpeer⟩
  · rcases peers_step hi key with hpeer | ⟨-, hpeer⟩
    · exact h.homes key p (hpeer ▸ hp)
    · rw [hpeer] at hp
      cases hp
      exact hhome
  · -- an old mapping of the client has its locator, and a new one is that of the client
    have hentry : e ∈ t.agent.clientMappings ∨
        t.agent.sessions.lookup x.repr.sessionKey = none ∧ e = x.mapping := by
      rcases hopens.cases with hsame | ⟨hnone, hstored⟩
      · exact .inl (hsame.1 ▸ he)
      · have hput : e ∈ Directory.put (·.locator) t.agent.clientMappings x.mapping :=
          hstored.1 ▸ he
        rcases Directory.mem_put _ h.table.distinct hput with hnew | ⟨hmem, -⟩
        · exact .inr ⟨hnone, hnew⟩
        · exact .inl hmem
    rcases peers_of_creation hi hkey with ⟨hold, hpeer⟩ | ⟨rfl, hpeer⟩
    · rw [hpeer] at hp
      rcases hentry with hmem | ⟨hnone, rfl⟩
      · exact h.served e hmem key p hclient hold hp
      · exact hx.sessions hnone key p hclient hold hp
    · rw [hpeer] at hp
      cases hp
      rcases hentry with hmem | ⟨-, rfl⟩
      · exact (hx.mapped e hmem hclient.symm).symm
      · rfl

theorem MappingsInv.step (h : MappingsInv home t) (hok : Orderly home t i) :
    MappingsInv home (t.step i) := by
  cases hi : i.1.creation i.2.wire with
  | none => exact h.step_other hi
  | some x => exact h.step_creation hi hok

/-- What an accepted `CREATE_CLIENT` without a key leaves in the table. -/
theorem MappingsInv.mapped (h : MappingsInv home t) {x : Creation}
    (hi : i.1.creation i.2.wire = some x) (hx : Connects t i.2 x) (hkeyless : x.keyless = true)
    (hacc : (i.1.run i.2 t.agent).1 = some ()) :
    (t.step i).agent.mappedKey x.src.locator = some x.repr.clientKey ∧
      ∀ l, l ≠ x.src.locator → (t.step i).agent.mappedKey l = t.agent.mappedKey l := by
  obtain ⟨cache, hopens, hcache⟩ := step_asksMapping h.table.len hi hx.maps
  constructor
  · rcases hopens.cases with hsame | ⟨-, hstored⟩
    · have hbefore : t.agent.mappedKey x.src.locator = some x.repr.clientKey := by
        by_cases hnone : t.agent.sessions.lookup x.repr.sessionKey = none
        · cases cache with
          | true =>
              -- the mapping was stored, so it is what the table had
              have hstored := hopens.stored (by rw [hacc]; rfl) hnone rfl
              rw [← hsame.mappedKey]
              exact hstored.mappedKey_self
          | false => exact (hcache rfl).resolve_left hx.valid
        · exact hx.known hkeyless hnone
      exact (hsame.mappedKey _).trans hbefore
    · exact hstored.mappedKey_self
  · intro l hl
    rcases hopens.cases with hsame | ⟨-, hstored⟩
    · exact hsame.mappedKey l
    · exact hstored.mappedKey_of_ne h.table hl

/-- A message without a key is delivered to a session of its peer. -/
theorem MappingsInv.delivered (h : MappingsInv home t) {src : BindEntry} {m : Message}
    {key : ClientSessionKey} (hhome : src.transport = home src.locator) {env : ServiceEnv}
    (hdelivers : t.agent.DeliversKeyless env src m key) : t.peers key = some src := by
  obtain ⟨-, -, -, ⟨b, hfound⟩, hsession⟩ := hdelivers
  obtain ⟨e, he, hlocator, hclient⟩ :=
    mem_of_mappedKey h.table.len (ServiceM.identifySender_found hfound).2
  obtain ⟨p, hp⟩ := h.known key hsession
  have hpl : p.locator = src.locator :=
    (h.served e he key p hclient.symm hsession hp).trans hlocator
  have hpt : p.transport = src.transport := by rw [h.homes key p hp, hpl, hhome]
  obtain ⟨transport, locator⟩ := p
  rw [hp]
  exact congrArg some
    (by rw [show transport = src.transport from hpt, show locator = src.locator from hpl])

/-- **Mapping table.** In every run in which each locator is used on one transport, each
client connects from one locator, and the table can grow, the table is sound, an
accepted `CREATE_CLIENT` without a key maps its peer to its client and changes no other
mapping, and a message without a key is delivered to sessions that were last
opened or reset from its peer only. -/
theorem mappings_sound (home : Locator → ℕ) {t : Tracked}
    (ht : Reachable Initial Tracked.step (Orderly home) t) (i : ServiceOperation × ServiceEnv)
    (hi : Orderly home t i) : MappingsSound t i := by
  have hinv : MappingsInv home t :=
    ht.invariant (fun _ h => .of_initial h) fun _ _ h hok => h.step hok
  refine ⟨hinv.table, fun x hx hkeyless hacc => ?_, fun src m key hm hdelivers => ?_⟩
  · exact hinv.mapped hx (hi.connects x hx) hkeyless hacc
  · exact hinv.delivered (hi.home src m hm) hdelivers

/-- An agent that was just started. -/
def started : Tracked := ⟨.started true 0 0, fun _ => none⟩

theorem started_initial : started.Initial :=
  ⟨⟨rfl, List.nodup_nil⟩, rfl, fun _ => rfl⟩

theorem started_orderly (key sid : ℕ) (h : Message.clientRepr .xrce (.createClient key sid) =
    some ⟨88, 1, key, sid⟩) :
    Orderly (fun _ => 1) started (.receiveMessage .first (.createClient key sid), .obliging) where
  home src m hm := by
    cases hm
    rfl
  connects x hx := by
    have hcreation : ServiceOperation.creation .xrce
        (.receiveMessage .first (.createClient key sid)) =
          some ⟨.first, true, ⟨88, 1, key, sid⟩⟩ := by
      simp only [ServiceOperation.creation, h]
      rfl
    rw [show ServiceEnv.obliging.wire = Wire.xrce from rfl, hcreation] at hx
    cases hx
    refine ⟨⟨rfl, rfl⟩, ?_, fun _ _ _ _ hlookup _ => ?_, fun _ hlookup => ?_, ?_⟩
    · intro e he
      cases he
    · exact absurd rfl hlookup
    · exact absurd rfl hlookup
    · exact fun hmapped => by cases hmapped

/-- A client that connected without a key is delivered what its peer sends. -/
theorem mappings_sound_started :
    MappingsSound (started.step (.receiveMessage .first (.createClient 5 129), .obliging))
      (.receiveMessage .first ⟨[129, 128, 0, 0]⟩, .obliging) := by
  refine mappings_sound (fun _ => 1) (.next _ (.start started_initial) ?_)
    _ ⟨?_, ?_⟩
  · exact started_orderly 5 129 (by decide)
  · intro src m hm
    cases hm
    rfl
  · intro x hx
    cases hx

/-- A client that connects again from another peer is accepted, and its new peer is not
mapped. -/
theorem reset_leaves_mapping :
    ¬ ∀ t i, Reachable Initial Tracked.step (fun _ _ => True) t → MappingsSound t i := by
  intro hall
  have hsound := hall (started.step (.receiveMessage .first (.createClient 5 1), .obliging))
    (.receiveMessage .second (.createClient 5 1), .obliging)
    (.next _ (.start started_initial) trivial)
  have hmapped := (hsound.mapped ⟨.second, true, ⟨88, 1, 5, 1⟩⟩ rfl rfl (by decide)).1
  exact absurd hmapped (by decide)

end Tracked

end NanoAgent
