import Mathlib.Data.List.TakeWhile
import NanoAgent.DdsAgent.NativeCreation

/-!
# The result of a native creation

A creation that fails should leave nothing behind, and one that succeeds should have
logged a resource of the kind it was asked for. `ResultSound` says this of a call, and
`Handled` under which answers of DDS and of the heap each kind keeps to it.

The functions are run once each: what they return and the state they leave are
computed from the elements that their loops visit.
-/

namespace NanoAgent

open Prog

namespace ResourceFactory

open XmlResource

/-- What is asked of the result of a creation. -/
structure ResultSound (kind : ResourceKind) (r : Option PUnit × FactoryState) : Prop where
  created : r.1 = some ⟨⟩ → ∃ c l, r.2.created = c :: l ∧ c.kind = kind
  restored : r.1 = none → r.2.loaded = [] ∧ r.2.entities = [] ∧ r.2.created = []

variable (env : FactoryEnv)

/-- The element of a resource with a parent, once all checks were made. -/
def parentElement (parent : Option ParentId) (find : ParentId → Option (List Char)) :
    Option (List Char) :=
  if env.ok (.growLog []) then parent.bind find else none

/-- The element of a resource without a parent, and its end. -/
def rootElement (parent : Option ParentId) (xml tag : List Char) :
    Option (List Char × List Char) :=
  if parent.isNone && env.ok .getInstance then findFirstXmlElement xml tag else none

/-- The entry that is logged for an element. -/
def entryOf (kind : ResourceKind) (el ref : List Char) : CreatedResource :=
  ⟨kind, if env.ok (.copyRef el) then some ref else none⟩

theorem sound_of_failed {kind : ResourceKind} {s : FactoryState} :
    ResultSound kind (none, s) ↔ s.loaded = [] ∧ s.entities = [] ∧ s.created = [] :=
  ⟨fun h => h.restored rfl, fun h => ⟨(by rintro ⟨⟩), fun _ => h⟩⟩

theorem sound_of_created {kind : ResourceKind} {s : FactoryState} :
    ResultSound kind (some ⟨⟩, s) ↔ ∃ c l, s.created = c :: l ∧ c.kind = kind :=
  ⟨fun h => h.created rfl, fun h => ⟨fun _ => h, (by rintro ⟨⟩)⟩⟩

theorem loadXmlElement_run (s : FactoryState) : loadXmlElement env s =
    if env.ok .loadXml then
      (some env.insertedName, { s with loaded := env.insertedName :: s.loaded })
    else (none, s) := by
  unfold loadXmlElement
  cases env.ok .loadXml with
  | false => rfl
  | true => rfl

theorem createEntity_run (el : List Char) (s : FactoryState) : createEntity env el s =
    if env.ok (.createEntity el) then (some ⟨⟩, { s with entities := el :: s.entities })
    else (none, s) := by
  unfold createEntity
  cases env.ok (.createEntity el) with
  | false => rfl
  | true => rfl

theorem growLog_run (out : CreationLog) (el : List Char) (s : FactoryState) :
    growLog env out el s =
      if env.ok (.growLog el) then (some ⟨⟩, s.setLog out (s.log out ++ [.initializer]))
      else (none, s) := by
  unfold growLog
  cases env.ok (.growLog el) with
  | false => rfl
  | true => rfl

/-- What is loaded after the element of a failed creation was to be unloaded. -/
def afterUnload : List (List Char) := if env.ok .unloadXml then [] else [env.insertedName]

/-- Only the element of the creation is loaded when it is unloaded. -/
theorem unloadXmlElement_run (entities : List (List Char)) (created inner : List CreatedResource) :
    unloadXmlElement env env.insertedName ⟨[env.insertedName], entities, created, inner⟩ =
      (some ⟨⟩, ⟨afterUnload env, entities, created, inner⟩) := by
  unfold unloadXmlElement afterUnload
  cases env.ok .unloadXml with
  | false => rfl
  | true => simp [onlyIf]

/-- The part that the functions for resources with a parent have in common. -/
theorem forParent_run (parent : Option ParentId) (find : ParentId → Option (List Char))
    (create : List Char → FactoryM PUnit) :
    onFailure (createForParent env parent fun p => do
        let el ← require (find p)
        create el) (clearLog .created) .initial =
      match parentElement env parent find with
      | none => (none, .initial)
      | some el => onFailure (create el) (clearLog .created) ⟨[], [], [.initializer], []⟩ := by
  unfold parentElement
  cases parent with
  | none =>
      cases env.ok (.growLog []) with
      | false => rfl
      | true => rfl
  | some p =>
      cases hgrow : env.ok (.growLog []) with
      | false =>
          simp [createForParent, growLog_run, onFailure, clearLog, bind_apply, hgrow,
            FactoryState.setLog, FactoryState.initial]
      | true =>
          have hgrown : growLog env .created [] ⟨[], [], [], []⟩ =
              (some ⟨⟩, ⟨[], [], [.initializer], []⟩) := by
            rw [growLog_run, hgrow]
            rfl
          cases hfind : find p with
          | none =>
              simp [createForParent, onFailure, clearLog, bind_apply, hgrown, hfind,
                FactoryState.setLog, FactoryState.initial]
          | some el =>
              simp [createForParent, onFailure, bind_apply, hgrown, hfind, FactoryState.initial]

/-- Topics, publishers and subscribers. -/
theorem createFromConfig_run (kind : ResourceKind) (unloads : Bool) (parent : Option ParentId)
    (find : ParentId → Option (List Char)) :
    onFailure (createForParent env parent fun p => do
        let el ← require (find p)
        createFromConfig env kind unloads el) (clearLog .created) .initial =
      match parentElement env parent find with
      | none => (none, .initial)
      | some el =>
          if env.ok .loadXml then
            if env.ok (.createEntity el) then
              (some ⟨⟩, ⟨[env.insertedName], [el], [entryOf env kind el env.insertedName], []⟩)
            else (none, ⟨if unloads && env.ok .unloadXml then [] else [env.insertedName],
              [], [], []⟩)
          else (none, .initial) := by
  rw [forParent_run]
  cases parentElement env parent find with
  | none => rfl
  | some el =>
      dsimp only
      unfold createFromConfig
      cases hload : env.ok .loadXml with
      | false =>
          simp [onFailure, bind_apply, loadXmlElement_run, hload, clearLog, FactoryState.setLog,
            FactoryState.initial]
      | true =>
          cases hcreate : env.ok (.createEntity el) with
          | true =>
              simp [onFailure, bind_apply, loadXmlElement_run, createEntity_run, hload, hcreate,
                writeLog, entryOf, FactoryState.setLog, FactoryState.log]
          | false =>
              cases unloads with
              | false =>
                  simp [onFailure, bind_apply, loadXmlElement_run, createEntity_run, hload,
                    hcreate, clearLog, FactoryState.setLog]
              | true =>
                  simp [onFailure, bind_apply, loadXmlElement_run, createEntity_run,
                    unloadXmlElement_run, afterUnload, hload, hcreate, clearLog,
                    FactoryState.setLog]

/-- Data writers and data readers. -/
theorem createEndpoint_run (kind : ResourceKind) (parent : Option ParentId)
    (find : ParentId → Option (List Char)) :
    onFailure (createForParent env parent fun p => do
        let el ← require (find p)
        createEndpoint env kind el) (clearLog .created) .initial =
      match parentElement env parent find with
      | none => (none, .initial)
      | some el =>
          if env.ok .loadXml then
            if env.ok (.createEntity el) then
              (some ⟨⟩, ⟨[env.insertedName], [el], [entryOf env kind el env.insertedName], []⟩)
            else (some ⟨⟩, ⟨[env.insertedName], [], [.initializer], []⟩)
          else (some ⟨⟩, ⟨[], [], [.initializer], []⟩) := by
  rw [forParent_run]
  cases parentElement env parent find with
  | none => rfl
  | some el =>
      dsimp only
      unfold createEndpoint
      cases hload : env.ok .loadXml with
      | false => simp [onFailure, bind_apply, attempt, loadXmlElement_run, hload]
      | true =>
          cases hcreate : env.ok (.createEntity el) with
          | false =>
              simp [onFailure, bind_apply, attempt, loadXmlElement_run, createEntity_run, hload,
                hcreate]
          | true =>
              simp [onFailure, bind_apply, attempt, loadXmlElement_run, createEntity_run, hload,
                hcreate, writeLog, entryOf, FactoryState.setLog, FactoryState.log]

section Rounds

variable (kind : ResourceKind) (lib tag : List Char)

/-- The name under which an element is logged. -/
def loggedName (el : List Char) : List Char := (qualifiedName env lib el tag).elim [] Prod.fst

/-- The entry for an element whose name is qualified. -/
def namedEntry (el : List Char) : CreatedResource :=
  entryOf env kind el (loggedName env lib tag el)

/-- The element gets its entry. -/
def logged (el : List Char) : Bool :=
  (qualifiedName env lib el tag).isSome && env.ok (.growLog el)

theorem logElement_run (el : List Char) (s : FactoryState) :
    logElement env kind lib tag el s =
      if logged env lib tag el then
        (some ⟨⟩, { s with created := s.created ++ [namedEntry env kind lib tag el] })
      else (none, s) := by
  unfold logElement logged namedEntry loggedName
  cases hname : qualifiedName env lib el tag with
  | none => simp [bind_apply]
  | some name =>
      cases hgrow : env.ok (.growLog el) with
      | false => simp [bind_apply, growLog, ensure, hgrow]
      | true =>
          simp [bind_apply, growLog, writeLog, ensure, hgrow, FactoryState.setLog,
            FactoryState.log, entryOf]

/-- The loop over elements that are only logged. -/
theorem logLoop_run (els : List (List Char)) (s : FactoryState) :
    ∃ l, forEach els (logElement env kind lib tag) s =
      if els.all (logged env lib tag) then
        (some ⟨⟩, { s with created := s.created ++ els.map (namedEntry env kind lib tag) })
      else (none, { s with created := l }) := by
  induction els generalizing s with
  | nil => simp [forEach]
  | cons el els ih =>
      rw [forEach, bind_apply, logElement_run]
      cases hel : logged env lib tag el with
      | false =>
          simp only [Bool.false_eq_true, if_false, List.all_cons, hel, Bool.false_and]
          exact ⟨s.created, rfl⟩
      | true =>
          simp only [if_true, List.all_cons, hel, Bool.true_and]
          obtain ⟨l, hl⟩ := ih { s with created := s.created ++ [namedEntry env kind lib tag el] }
          use l
          rw [hl]
          simp only [List.append_assoc, List.map_cons, List.singleton_append]

end Rounds

/-- The name and the content of a library. -/
def libraryContent (xml tag : List Char) : Option (List Char × List Char) :=
  parseXmlElementName (fun _ => env.ok (.allocateName xml)) xml tag

/-- The elements up to a limit. -/
def elementsOf (tag limit head : List Char) : List (List Char) :=
  elements tag limit (head.length + 1) head

theorem forEachElement_run (tag limit head : List Char) (body : List Char → FactoryM PUnit) :
    forEachElement tag limit head body = forEach (elementsOf tag limit head) body :=
  elementLoop_eq tag limit body _ head

/-- The part that the functions for resources without a parent have in common. -/
theorem fromRoot_run (tag xml : List Char) (parent : Option ParentId)
    (rest : List Char × List Char → List Char → FactoryM PUnit) :
    onFailure (do
        ensure parent.isNone
        ensure (env.ok .getInstance)
        let found ← require (findFirstXmlElement xml tag)
        let name ← loadXmlElement env
        rest found name) (clearLog .created) .initial =
      match rootElement env parent xml tag with
      | none => (none, .initial)
      | some found =>
          if env.ok .loadXml then
            onFailure (rest found env.insertedName) (clearLog .created)
              ⟨[env.insertedName], [], [], []⟩
          else (none, .initial) := by
  unfold rootElement
  cases parent with
  | some p => rfl
  | none =>
      cases hget : env.ok .getInstance with
      | false =>
          simp [bind_apply, onFailure, ensure, clearLog, FactoryState.setLog, FactoryState.initial]
      | true =>
          cases hfound : findFirstXmlElement xml tag with
          | none =>
              simp [bind_apply, onFailure, ensure, clearLog, FactoryState.setLog,
                FactoryState.initial]
          | some found =>
              cases hload : env.ok .loadXml with
              | false =>
                  simp [bind_apply, onFailure, ensure, clearLog, FactoryState.setLog,
                    FactoryState.initial, hload, loadXmlElement]
              | true =>
                  simp [bind_apply, onFailure, ensure, FactoryState.initial, hload, loadXmlElement]

theorem createTypesXml_run (xml : List Char) (parent : Option ParentId) :
    onFailure (do
        ensure parent.isNone
        createTypesXml env xml) (clearLog .created) .initial =
      match rootElement env parent xml typesTag with
      | none => (none, .initial)
      | some found =>
          if env.ok .loadXml then
            if env.ok (.growLog found.1) then
              (some ⟨⟩, ⟨[env.insertedName], [], [entryOf env .type found.1 env.insertedName], []⟩)
            else (none, ⟨[env.insertedName], [], [], []⟩)
          else (none, .initial) := by
  have hrun := fromRoot_run env typesTag xml parent fun found name => do
    growLog env .created found.1
    writeLog env .created .type found.1 name
  apply hrun.trans
  cases rootElement env parent xml typesTag with
  | none => rfl
  | some found =>
      cases hgrow : env.ok (.growLog found.1) with
      | false => simp [bind_apply, onFailure, clearLog, FactoryState.setLog, growLog_run, hgrow]
      | true =>
          simp [bind_apply, onFailure, FactoryState.setLog, FactoryState.log, growLog_run, hgrow,
            writeLog, entryOf]

theorem createDomainLibraryXml_run (xml : List Char) (parent : Option ParentId) :
    onFailure (do
        ensure parent.isNone
        createDomainLibraryXml env xml) (clearLog .created) .initial =
      match rootElement env parent xml domainLibraryTag with
      | none => (none, .initial)
      | some _ =>
          if env.ok .loadXml then
            match libraryContent env xml domainLibraryTag with
            | none => (none, ⟨afterUnload env, [], [], []⟩)
            | some content =>
                if (elementsOf domainTag [] content.2).all
                    (logged env env.insertedName domainTag) then
                  (some ⟨⟩, ⟨[env.insertedName], [], (elementsOf domainTag [] content.2).map
                    (namedEntry env .domain env.insertedName domainTag), []⟩)
                else (none, ⟨afterUnload env, [], [], []⟩)
          else (none, .initial) := by
  have hrun := fromRoot_run env domainLibraryTag xml parent fun _ lib =>
    onFailure
      (do
        let content ← require (libraryContent env xml domainLibraryTag)
        forEachElement domainTag [] content.2 (logElement env .domain lib domainTag))
      (do
        unloadXmlElement env lib
        clearLog .created)
  cases parent with
  | some p => rfl
  | none =>
      apply hrun.trans
      cases rootElement env none xml domainLibraryTag with
      | none => rfl
      | some found =>
          cases libraryContent env xml domainLibraryTag with
          | none =>
              simp [bind_apply, onFailure, clearLog, FactoryState.setLog, unloadXmlElement_run]
          | some content =>
              obtain ⟨l, hl⟩ := logLoop_run env .domain env.insertedName domainTag
                (elementsOf domainTag [] content.2) ⟨[env.insertedName], [], [], []⟩
              cases hall : (elementsOf domainTag [] content.2).all
                  (logged env env.insertedName domainTag) with
              | false =>
                  simp [bind_apply, onFailure, clearLog, FactoryState.setLog,
                    unloadXmlElement_run, forEachElement_run, hl, hall]
              | true => simp [bind_apply, onFailure, forEachElement_run, hl, hall]

theorem createQosLibraryXml_run (xml : List Char) (parent : Option ParentId) :
    onFailure (do
        ensure parent.isNone
        createQosLibraryXml env xml) (clearLog .created) .initial =
      match rootElement env parent xml qosLibraryTag with
      | none => (none, .initial)
      | some found =>
          if env.ok .loadXml then
            match libraryContent env xml qosLibraryTag with
            | none => (none, ⟨[env.insertedName], [], [], []⟩)
            | some content =>
                if (elementsOf qosProfileTag (closeTag qosLibraryTag ++ found.2) content.2).all
                    (logged env content.1 qosProfileTag) then
                  (some ⟨⟩, ⟨[env.insertedName], [],
                    (elementsOf qosProfileTag (closeTag qosLibraryTag ++ found.2) content.2).map
                      (namedEntry env .qosProfile content.1 qosProfileTag), []⟩)
                else (none, ⟨[env.insertedName], [], [], []⟩)
          else (none, .initial) := by
  have hrun := fromRoot_run env qosLibraryTag xml parent fun found _ => do
    let content ← require (libraryContent env xml qosLibraryTag)
    createQosprofileXml env content.1 content.2 (closeTag qosLibraryTag ++ found.2)
  apply hrun.trans
  cases rootElement env parent xml qosLibraryTag with
  | none => rfl
  | some found =>
      cases libraryContent env xml qosLibraryTag with
      | none => simp [bind_apply, onFailure, clearLog, FactoryState.setLog]
      | some content =>
          obtain ⟨l, hl⟩ := logLoop_run env .qosProfile content.1 qosProfileTag
            (elementsOf qosProfileTag (closeTag qosLibraryTag ++ found.2) content.2)
            ⟨[env.insertedName], [], [], []⟩
          cases hall : (elementsOf qosProfileTag (closeTag qosLibraryTag ++ found.2)
              content.2).all (logged env content.1 qosProfileTag) with
          | false =>
              simp [bind_apply, onFailure, clearLog, FactoryState.setLog, createQosprofileXml,
                forEachElement_run, hl, hall]
          | true =>
              simp [bind_apply, onFailure, createQosprofileXml, forEachElement_run, hl, hall]

section Participants

/-- The participant of an element is created. -/
def participantMade (lib el : List Char) : Bool :=
  logged env lib participantTag el && env.ok (.createEntity el)

/-- The participants that are alive after a log entry was cleaned up. -/
def deleteFound (alive : List (List Char)) (c : CreatedResource) : List (List Char) :=
  match c.ref.bind (lookupParticipant env alive) with
  | some (some el) =>
      if env.ok (.deleteParticipant el) then alive.filter fun e => e != el else alive
  | _ => alive

/-- The participants that are alive after the first ones of a library were cleaned up. -/
def leftAlive (lib : List Char) (made before : List (List Char)) : List (List Char) :=
  (made.map (namedEntry env .domainParticipant lib participantTag)).foldl (deleteFound env)
    (made.reverse ++ before)

/-- The state after the participants of some elements were created. -/
def withParticipants (out : CreationLog) (lib : List Char) (made : List (List Char))
    (s : FactoryState) : FactoryState :=
  { s with entities := made.reverse ++ s.entities }.setLog out
    (s.log out ++ made.map (namedEntry env .domainParticipant lib participantTag))

@[simp] theorem log_setLog (s : FactoryState) (out : CreationLog) (l : List CreatedResource) :
    (s.setLog out l).log out = l := by
  cases out <;> rfl

@[simp] theorem setLog_setLog (s : FactoryState) (out : CreationLog) (l l' : List CreatedResource) :
    (s.setLog out l).setLog out l' = s.setLog out l' := by
  cases out <;> rfl

@[simp] theorem entities_setLog (s : FactoryState) (out : CreationLog) (l : List CreatedResource) :
    (s.setLog out l).entities = s.entities := by
  cases out <;> rfl

@[simp] theorem setLog_log (s : FactoryState) (out : CreationLog) :
    s.setLog out (s.log out) = s := by
  cases out <;> rfl

theorem setLog_with_entities (s : FactoryState) (out : CreationLog) (l : List CreatedResource)
    (es : List (List Char)) :
    { s.setLog out l with entities := es } = { s with entities := es }.setLog out l := by
  cases out <;> rfl

@[simp] theorem log_with_entities (s : FactoryState) (out : CreationLog) (es : List (List Char)) :
    FactoryState.log { s with entities := es } out = s.log out := by
  cases out <;> rfl

/-- A round that fails leaves an entry behind when it is DDS that fails. -/
theorem createParticipant_run (out : CreationLog) (lib el : List Char) (s : FactoryState) :
    createParticipant env out lib el s =
      if participantMade env lib el then (some ⟨⟩, withParticipants env out lib [el] s)
      else (none, s.setLog out
        (s.log out ++ if logged env lib participantTag el then [.initializer] else [])) := by
  unfold createParticipant participantMade logged withParticipants namedEntry loggedName
  cases hname : qualifiedName env lib el participantTag with
  | none => simp [bind_apply]
  | some name =>
      cases hgrow : env.ok (.growLog el) with
      | false => simp [bind_apply, growLog, ensure, hgrow]
      | true =>
          cases hcreate : env.ok (.createEntity el) with
          | false => simp [bind_apply, growLog, createEntity, ensure, hgrow, hcreate]
          | true =>
              simp [bind_apply, growLog, writeLog, createEntity, ensure, hgrow, hcreate, hname,
                setLog_with_entities, entryOf]

theorem withParticipants_cons (out : CreationLog) (lib el : List Char) (els : List (List Char))
    (s : FactoryState) :
    withParticipants env out lib els (withParticipants env out lib [el] s) =
      withParticipants env out lib (el :: els) s := by
  simp [withParticipants, setLog_with_entities]

/-- The loop over the participants, up to the first one that is not created. -/
theorem participantLoop_run (out : CreationLog) (lib : List Char) (els : List (List Char))
    (s : FactoryState) :
    ∃ tail : List CreatedResource, (∀ c ∈ tail, c = .initializer) ∧
      forEach els (createParticipant env out lib) s =
        if els.all (participantMade env lib) then (some ⟨⟩, withParticipants env out lib els s)
        else (none, (withParticipants env out lib
          (els.takeWhile (participantMade env lib)) s).setLog
          out ((withParticipants env out lib (els.takeWhile (participantMade env lib)) s).log out ++
            tail)) := by
  induction els generalizing s with
  | nil =>
      use [], List.forall_mem_nil _
      simp [forEach, withParticipants]
  | cons el els ih =>
      rw [forEach, bind_apply, createParticipant_run]
      cases hel : participantMade env lib el with
      | false =>
          use if logged env lib participantTag el then [.initializer] else []
          apply And.intro
          · intro c hc
            split at hc
            · exact List.mem_singleton.1 hc
            · cases hc
          · simp [hel, withParticipants]
      | true =>
          obtain ⟨tail, htail, hrun⟩ := ih (withParticipants env out lib [el] s)
          use tail, htail
          simp only [if_true, hrun, List.all_cons, hel, Bool.true_and, List.takeWhile_cons,
            withParticipants_cons]

theorem deleteLogged_run (c : CreatedResource) (s : FactoryState) :
    deleteLogged env c s = (some ⟨⟩, { s with entities := deleteFound env s.entities c }) := by
  unfold deleteLogged deleteFound
  rw [read_bind_apply]
  rcases c.ref.bind (lookupParticipant env s.entities) with _ | _ | el
  · rfl
  · rfl
  · cases hdelete : env.ok (.deleteParticipant el) <;> simp [deleteParticipant, onlyIf, hdelete]

theorem cleanup_run (cs : List CreatedResource) (s : FactoryState) :
    forEach cs (deleteLogged env) s =
      (some ⟨⟩, { s with entities := cs.foldl (deleteFound env) s.entities }) := by
  have hrun := forEach_foldl (l := cs) (fun c _ s => deleteLogged_run env c s) s
  rw [hrun]
  exact congrArg (Prod.mk _) (List.foldl_hom (fun es => { s with entities := es }) fun _ _ => rfl)

/-- The entries that the clean-up goes through. -/
theorem entries_cleanedUp (lib : List Char) (made : List (List Char))
    (before tail : List CreatedResource) (htail : ∀ c ∈ tail, c = .initializer) :
    ((before ++ made.map (namedEntry env .domainParticipant lib participantTag) ++ tail).drop
        before.length).filter (fun c => c.kind = .domainParticipant) =
      made.map (namedEntry env .domainParticipant lib participantTag) := by
  rw [List.append_assoc, List.drop_left, List.filter_append]
  have hmade : (made.map (namedEntry env .domainParticipant lib participantTag)).filter
      (fun c => c.kind = .domainParticipant) =
      made.map (namedEntry env .domainParticipant lib participantTag) := by
    apply List.filter_eq_self.2
    intro c hc
    obtain ⟨el, -, rfl⟩ := List.mem_map.1 hc
    rfl
  have hrest : tail.filter (fun c => c.kind = .domainParticipant) = [] := by
    apply List.filter_eq_nil_iff.2
    intro c hc
    rw [htail c hc]
    decide
  rw [hmade, hrest, List.append_nil]

/-- The participants of a library or of an application. -/
theorem createParticipantsXml_run (out : CreationLog) (lib head limit : List Char)
    (s : FactoryState) :
    createParticipantsXml env out lib head limit s =
      if (elementsOf participantTag limit head).all (participantMade env lib) then
        (some ⟨⟩, withParticipants env out lib (elementsOf participantTag limit head) s)
      else (none, { s with
        entities := leftAlive env lib ((elementsOf participantTag limit head).takeWhile
          (participantMade env lib)) s.entities }.setLog out []) := by
  obtain ⟨tail, htail, hrun⟩ := participantLoop_run env out lib
    (elementsOf participantTag limit head) s
  unfold createParticipantsXml
  rw [read_bind_apply, forEachElement_run, onFailure, hrun]
  cases (elementsOf participantTag limit head).all (participantMade env lib) with
  | true => rfl
  | false =>
      simp only [Bool.false_eq_true, if_false]
      rw [read_bind_apply]
      simp only [withParticipants, log_setLog, setLog_setLog]
      rw [entries_cleanedUp env lib _ _ tail htail, bind_apply, cleanup_run]
      simp [clearLog, leftAlive, setLog_with_entities]

theorem createParticipantLibraryXml_run (xml : List Char) (parent : Option ParentId) :
    ∃ es, onFailure (do
        ensure parent.isNone
        createParticipantLibraryXml env xml) (clearLog .created) .initial =
      match rootElement env parent xml participantLibraryTag with
      | none => (none, .initial)
      | some found =>
          if env.ok .loadXml then
            match libraryContent env xml participantLibraryTag with
            | none => (none, ⟨[env.insertedName], [], [], []⟩)
            | some content =>
                if (elementsOf participantTag (closeTag participantLibraryTag ++ found.2)
                    content.2).all (participantMade env content.1) then
                  (some ⟨⟩, withParticipants env .created content.1
                    (elementsOf participantTag
                      (closeTag participantLibraryTag ++ found.2) content.2)
                    ⟨[env.insertedName], [], [], []⟩)
                else (none, ⟨[env.insertedName], es, [], []⟩)
          else (none, .initial) := by
  have hrun := fromRoot_run env participantLibraryTag xml parent fun found _ => do
    let content ← require (libraryContent env xml participantLibraryTag)
    createParticipantsXml env .created content.1 content.2
      (closeTag participantLibraryTag ++ found.2)
  have hclear : onFailure (do
      ensure parent.isNone
      createParticipantLibraryXml env xml) (clearLog .created) .initial =
      onFailure (do
        ensure parent.isNone
        ensure (env.ok .getInstance)
        let found ← require (findFirstXmlElement xml participantLibraryTag)
        let _ ← loadXmlElement env
        let content ← require (libraryContent env xml participantLibraryTag)
        createParticipantsXml env .created content.1 content.2
          (closeTag participantLibraryTag ++ found.2)) (clearLog .created) .initial := by
    cases parent with
    | some p => rfl
    | none => exact onFailure_twice _ (fun s => rfl) _
  rw [hclear, hrun]
  cases rootElement env parent xml participantLibraryTag with
  | none => exact ⟨[], rfl⟩
  | some found =>
      cases libraryContent env xml participantLibraryTag with
      | none => simp [bind_apply, onFailure, clearLog, FactoryState.setLog]
      | some content =>
          use leftAlive env content.1 ((elementsOf participantTag
            (closeTag participantLibraryTag ++ found.2) content.2).takeWhile
              (participantMade env content.1)) []
          cases hall : (elementsOf participantTag (closeTag participantLibraryTag ++ found.2)
              content.2).all (participantMade env content.1) with
          | false =>
              simp [bind_apply, onFailure, clearLog, FactoryState.setLog,
                createParticipantsXml_run, hall]
          | true => simp [bind_apply, onFailure, createParticipantsXml_run, hall]

end Participants

section Applications

/-- The parts of an application that is logged: its name, its content and its end. -/
def applicationParts (lib el : List Char) : Option (List Char × List Char × List Char) :=
  match qualifiedName env lib el applicationTag, findFirstXmlElement el applicationTag with
  | some name, some found =>
      if env.ok (.growLog el) then some (name.1, name.2, closeTag applicationTag ++ found.2)
      else none
  | _, _ => none

/-- The participants of an application. -/
def participantsOf (p : List Char × List Char × List Char) : List (List Char) :=
  elementsOf participantTag p.2.2 p.2.1

/-- An application is logged and its participants are created. -/
def applicationMade (lib el : List Char) : Bool :=
  match applicationParts env lib el with
  | none => false
  | some p => (participantsOf p).all (participantMade env p.1)

/-- The participants of an application that are created, up to the first one that is not. -/
def madeWithin (lib el : List Char) : List (List Char) :=
  match applicationParts env lib el with
  | none => []
  | some p => (participantsOf p).takeWhile (participantMade env p.1)

/-- The participants that are alive after the creation of an application has failed. -/
def leftByApplication (lib el : List Char) (before : List (List Char)) : List (List Char) :=
  match applicationParts env lib el with
  | none => before
  | some p => leftAlive env p.1 (madeWithin env lib el) before

/-- An application is logged before its participants are created. -/
theorem createApplication_eq (lib el : List Char) (s : FactoryState) :
    createApplication env lib el s =
      match applicationParts env lib el with
      | none => (none, s)
      | some p => createParticipantsXml env .inner p.1 p.2.1 p.2.2
          { s with created := s.created ++
            [namedEntry env .application lib applicationTag el] } := by
  unfold createApplication applicationParts namedEntry loggedName
  cases hname : qualifiedName env lib el applicationTag with
  | none => simp [bind_apply]
  | some name =>
      cases hfound : findFirstXmlElement el applicationTag with
      | none => simp [bind_apply]
      | some found =>
          cases hgrow : env.ok (.growLog el) with
          | false => simp [bind_apply, growLog, ensure, hgrow]
          | true =>
              simp [bind_apply, growLog, writeLog, ensure, hgrow, FactoryState.setLog,
                FactoryState.log, entryOf]

theorem createApplication_run (lib el : List Char) (s : FactoryState) :
    ∃ l i, createApplication env lib el s =
      if applicationMade env lib el then
        (some ⟨⟩, ⟨s.loaded, (madeWithin env lib el).reverse ++ s.entities,
          s.created ++ [namedEntry env .application lib applicationTag el], i⟩)
      else (none, ⟨s.loaded, leftByApplication env lib el s.entities, l, i⟩) := by
  unfold applicationMade leftByApplication madeWithin
  rw [createApplication_eq]
  cases applicationParts env lib el with
  | none => exact ⟨s.created, s.inner, rfl⟩
  | some p =>
      have hels : elementsOf participantTag p.2.2 p.2.1 = participantsOf p := rfl
      simp only [createParticipantsXml_run, hels]
      cases hall : (participantsOf p).all (participantMade env p.1) with
      | false => exact ⟨_, _, rfl⟩
      | true =>
          have hmade : (participantsOf p).takeWhile (participantMade env p.1) = participantsOf p :=
            List.takeWhile_eq_self_iff.2 (List.all_eq_true.1 hall)
          rw [hmade]
          exact ⟨[], _, rfl⟩

/-- The participants of the applications that are created. -/
def madeBefore (lib : List Char) (els : List (List Char)) : List (List Char) :=
  ((els.takeWhile (applicationMade env lib)).flatMap (madeWithin env lib)).reverse

/-- The first application that is not created. -/
def firstFailed (lib : List Char) (els : List (List Char)) : Option (List Char) :=
  els.find? fun el => !applicationMade env lib el

theorem applicationLoop_run (lib : List Char) (els : List (List Char)) (s : FactoryState) :
    match firstFailed env lib els with
    | none => ∃ es i, forEach els (createApplication env lib) s =
        (some ⟨⟩, ⟨s.loaded, es,
          s.created ++ els.map (namedEntry env .application lib applicationTag), i⟩)
    | some el => ∃ l i, forEach els (createApplication env lib) s =
        (none, ⟨s.loaded, leftByApplication env lib el (madeBefore env lib els ++ s.entities),
          l, i⟩) := by
  unfold firstFailed madeBefore
  induction els generalizing s with
  | nil =>
      use s.entities, s.inner
      simp [forEach]
  | cons el els ih =>
      obtain ⟨l, i, hround⟩ := createApplication_run env lib el s
      rw [List.find?_cons, List.takeWhile_cons]
      cases hel : applicationMade env lib el with
      | false =>
          use l, i
          rw [forEach, bind_apply, hround, hel]
          rfl
      | true =>
          have hrest := ih ⟨s.loaded, (madeWithin env lib el).reverse ++ s.entities,
            s.created ++ [namedEntry env .application lib applicationTag el], i⟩
          simp only [Bool.not_true]
          cases hfind : els.find? fun el => !applicationMade env lib el with
          | none =>
              rw [hfind] at hrest
              obtain ⟨es, i', hloop⟩ := hrest
              use es, i'
              rw [forEach, bind_apply, hround, hel, if_pos rfl]
              simpa using hloop
          | some bad =>
              rw [hfind] at hrest
              obtain ⟨l', i', hloop⟩ := hrest
              use l', i'
              rw [forEach, bind_apply, hround, hel, if_pos rfl]
              simpa using hloop

theorem createApplicationLibraryXml_run (xml : List Char) (parent : Option ParentId) :
    ∃ es i, onFailure (do
        ensure parent.isNone
        createApplicationLibraryXml env xml) (clearLog .created) .initial =
      match rootElement env parent xml applicationLibraryTag with
      | none => (none, .initial)
      | some _ =>
          if env.ok .loadXml then
            match libraryContent env xml applicationLibraryTag with
            | none => (none, ⟨afterUnload env, [], [], []⟩)
            | some content =>
                match firstFailed env env.insertedName (elementsOf applicationTag [] content.2) with
                | none => (some ⟨⟩, ⟨[env.insertedName], es,
                    (elementsOf applicationTag [] content.2).map
                      (namedEntry env .application env.insertedName applicationTag), i⟩)
                | some el => (none, ⟨afterUnload env, leftByApplication env env.insertedName el
                    (madeBefore env env.insertedName (elementsOf applicationTag [] content.2)),
                    [], i⟩)
          else (none, .initial) := by
  have hrun := fromRoot_run env applicationLibraryTag xml parent fun _ lib =>
    onFailure
      (do
        let content ← require (libraryContent env xml applicationLibraryTag)
        forEachElement applicationTag [] content.2 (createApplication env lib))
      (do
        unloadXmlElement env lib
        clearLog .created)
  have hclear : onFailure (do
      ensure parent.isNone
      createApplicationLibraryXml env xml) (clearLog .created) .initial =
      onFailure (do
        ensure parent.isNone
        ensure (env.ok .getInstance)
        let _ ← require (findFirstXmlElement xml applicationLibraryTag)
        let lib ← loadXmlElement env
        onFailure
          (do
            let content ← require (libraryContent env xml applicationLibraryTag)
            forEachElement applicationTag [] content.2 (createApplication env lib))
          (do
            unloadXmlElement env lib
            clearLog .created)) (clearLog .created) .initial := by
    cases parent <;> rfl
  rw [hclear, hrun]
  cases rootElement env parent xml applicationLibraryTag with
  | none => exact ⟨[], [], rfl⟩
  | some found =>
      cases libraryContent env xml applicationLibraryTag with
      | none =>
          use [], []
          simp [bind_apply, onFailure, clearLog, FactoryState.setLog, unloadXmlElement_run]
      | some content =>
          have hloop := applicationLoop_run env env.insertedName
            (elementsOf applicationTag [] content.2) ⟨[env.insertedName], [], [], []⟩
          cases hfailed : firstFailed env env.insertedName
            (elementsOf applicationTag [] content.2) with
          | none =>
              rw [hfailed] at hloop
              obtain ⟨es, i, hloop⟩ := hloop
              use es, i
              simp [bind_apply, onFailure, forEachElement_run, hloop, hfailed]
          | some el =>
              rw [hfailed] at hloop
              obtain ⟨l, i, hloop⟩ := hloop
              use [], i
              simp [bind_apply, onFailure, clearLog, FactoryState.setLog, unloadXmlElement_run,
                forEachElement_run, hloop, hfailed]

end Applications

section Handled

variable (parent : Option ParentId) (text : List Char)

/-- Topics and publishers: the element is unloaded when the entity is not created. -/
def EntityHandled (find : ParentId → Option (List Char)) : Prop :=
  ∀ el ∈ parentElement env parent find, env.ok .loadXml = true →
    env.ok (.createEntity el) = true ∨ env.ok .unloadXml = true

/-- Subscribers: the element is never unloaded, so the entity has to be created. -/
def SubscriberHandled : Prop :=
  ∀ el ∈ parentElement env parent (findInParticipant env text subscriberTag),
    env.ok .loadXml = true → env.ok (.createEntity el) = true

/-- Data writers and data readers: no failure of DDS is noticed. -/
def EndpointHandled (find : ParentId → Option (List Char)) : Prop :=
  ∀ el ∈ parentElement env parent find,
    env.ok .loadXml = true ∧ env.ok (.createEntity el) = true

/-- Types: the element is never unloaded, so it has to be logged. -/
def TypesHandled : Prop :=
  ∀ found ∈ rootElement env parent text typesTag, env.ok .loadXml = true →
    env.ok (.growLog found.1) = true

/-- Domains: the library has one when all are logged, and is unloaded otherwise. -/
def DomainsHandled : Prop :=
  (rootElement env parent text domainLibraryTag).isSome = true → env.ok .loadXml = true →
    match libraryContent env text domainLibraryTag with
    | none => env.ok .unloadXml = true
    | some content =>
        if (elementsOf domainTag [] content.2).all (logged env env.insertedName domainTag) then
          elementsOf domainTag [] content.2 ≠ []
        else env.ok .unloadXml = true

/-- Profiles: the library is never unloaded, so it has one and all are logged. -/
def QosprofilesHandled : Prop :=
  ∀ found ∈ rootElement env parent text qosLibraryTag, env.ok .loadXml = true →
    ∃ content, libraryContent env text qosLibraryTag = some content ∧
      elementsOf qosProfileTag (closeTag qosLibraryTag ++ found.2) content.2 ≠ [] ∧
      (elementsOf qosProfileTag (closeTag qosLibraryTag ++ found.2) content.2).all
        (logged env content.1 qosProfileTag) = true

/-- Participants: the library is never unloaded, so it has one and all are created. -/
def ParticipantsHandled : Prop :=
  ∀ found ∈ rootElement env parent text participantLibraryTag, env.ok .loadXml = true →
    ∃ content, libraryContent env text participantLibraryTag = some content ∧
      elementsOf participantTag (closeTag participantLibraryTag ++ found.2) content.2 ≠ [] ∧
      (elementsOf participantTag (closeTag participantLibraryTag ++ found.2) content.2).all
        (participantMade env content.1) = true

/-- Applications: the library has one when all are created. Otherwise it is unloaded, and
DDS finds and deletes all participants, those of the applications before included, under
the names of the participants of the one that failed. -/
def ApplicationsHandled : Prop :=
  (rootElement env parent text applicationLibraryTag).isSome = true → env.ok .loadXml = true →
    match libraryContent env text applicationLibraryTag with
    | none => env.ok .unloadXml = true
    | some content =>
        match firstFailed env env.insertedName (elementsOf applicationTag [] content.2) with
        | none => elementsOf applicationTag [] content.2 ≠ []
        | some el =>
            env.ok .unloadXml = true ∧ leftByApplication env env.insertedName el
              (madeBefore env env.insertedName (elementsOf applicationTag [] content.2)) = []

/-- The answers to a call under which its result is right. -/
def Handled (kind : ResourceKind) (repr : NativeRepresentation) : Prop :=
  match repr with
  | .xml text =>
      match kind with
      | .application => ApplicationsHandled env parent text
      | .domainParticipant => ParticipantsHandled env parent text
      | .topic => EntityHandled env parent (findInParticipant env text topicTag)
      | .publisher => EntityHandled env parent (findInParticipant env text publisherTag)
      | .subscriber => SubscriberHandled env parent text
      | .dataWriter => EndpointHandled env parent (findInEntity env text dataWriterTag .publisher)
      | .dataReader => EndpointHandled env parent (findInEntity env text dataReaderTag .subscriber)
      | .domain => DomainsHandled env parent text
      | .qosProfile => QosprofilesHandled env parent text
      | .type => TypesHandled env parent text
      | .unknown => True
  | .ref _ | .other => True

end Handled

section Sound

variable {env} {parent : Option ParentId} {text : List Char}

theorem sound_initial {kind : ResourceKind} : ResultSound kind (none, FactoryState.initial) :=
  sound_of_failed.2 ⟨rfl, rfl, rfl⟩

theorem sound_logged {kind : ResourceKind} {els : List (List Char)}
    (f : List Char → CreatedResource) (hf : ∀ el, (f el).kind = kind) {s : FactoryState}
    (hs : s.created = els.map f) : ResultSound kind (some ⟨⟩, s) ↔ els ≠ [] := by
  rw [sound_of_created, hs]
  cases els with
  | nil => simp
  | cons el els => simp [hf]

theorem afterUnload_eq_nil : afterUnload env = [] ↔ env.ok .unloadXml = true := by
  unfold afterUnload
  cases env.ok .unloadXml <;> simp

theorem sound_configured_iff (kind : ResourceKind) (unloads : Bool)
    (find : ParentId → Option (List Char)) :
    ResultSound kind (onFailure (createForParent env parent fun p => do
        let el ← require (find p)
        createFromConfig env kind unloads el) (clearLog .created) .initial) ↔
      ∀ el ∈ parentElement env parent find, env.ok .loadXml = true →
        env.ok (.createEntity el) = true ∨ (unloads && env.ok .unloadXml) = true := by
  rw [createFromConfig_run]
  cases parentElement env parent find with
  | none => simp [sound_initial]
  | some el =>
      cases hload : env.ok .loadXml with
      | false => simp [sound_initial]
      | true =>
          cases hcreate : env.ok (.createEntity el) with
          | true => simp [sound_of_created, entryOf, hcreate]
          | false =>
              cases unloads with
              | false => simp [sound_of_failed, hcreate]
              | true => simp [sound_of_failed, hcreate]

theorem sound_endpoint_iff (kind : ResourceKind) (hkind : kind ≠ .unknown)
    (find : ParentId → Option (List Char)) :
    ResultSound kind (onFailure (createForParent env parent fun p => do
        let el ← require (find p)
        createEndpoint env kind el) (clearLog .created) .initial) ↔
      EndpointHandled env parent find := by
  unfold EndpointHandled
  rw [createEndpoint_run]
  cases parentElement env parent find with
  | none => simp [sound_initial]
  | some el =>
      cases hload : env.ok .loadXml with
      | false => simp [sound_of_created, CreatedResource.initializer, hkind.symm]
      | true =>
          cases hcreate : env.ok (.createEntity el) with
          | true => simp [sound_of_created, entryOf, hcreate]
          | false => simp [sound_of_created, hcreate, CreatedResource.initializer, hkind.symm]

theorem sound_types_iff :
    ResultSound .type (onFailure (do
        ensure parent.isNone
        createTypesXml env text) (clearLog .created) .initial) ↔ TypesHandled env parent text := by
  unfold TypesHandled
  rw [createTypesXml_run]
  cases rootElement env parent text typesTag with
  | none => simp [sound_initial]
  | some found =>
      cases hload : env.ok .loadXml with
      | false => simp [sound_initial]
      | true =>
          cases hgrow : env.ok (.growLog found.1) with
          | true => simp [sound_of_created, entryOf, hgrow]
          | false => simp [sound_of_failed, hgrow]

theorem sound_domains_iff :
    ResultSound .domain (onFailure (do
        ensure parent.isNone
        createDomainLibraryXml env text) (clearLog .created) .initial) ↔
      DomainsHandled env parent text := by
  unfold DomainsHandled
  rw [createDomainLibraryXml_run]
  cases rootElement env parent text domainLibraryTag with
  | none => simp [sound_initial]
  | some found =>
      cases hload : env.ok .loadXml with
      | false => simp [sound_initial]
      | true =>
          cases libraryContent env text domainLibraryTag with
          | none => simp [sound_of_failed, afterUnload_eq_nil]
          | some content =>
              cases hall : (elementsOf domainTag [] content.2).all
                  (logged env env.insertedName domainTag) with
              | true =>
                  simp only [hall, if_true, Option.isSome_some, forall_const]
                  exact sound_logged (namedEntry env .domain env.insertedName domainTag)
                    (fun _ => rfl) rfl
              | false => simp [sound_of_failed, hall, afterUnload_eq_nil]

theorem sound_qosprofiles_iff :
    ResultSound .qosProfile (onFailure (do
        ensure parent.isNone
        createQosLibraryXml env text) (clearLog .created) .initial) ↔
      QosprofilesHandled env parent text := by
  unfold QosprofilesHandled
  rw [createQosLibraryXml_run]
  cases rootElement env parent text qosLibraryTag with
  | none => simp [sound_initial]
  | some found =>
      cases hload : env.ok .loadXml with
      | false => simp [sound_initial]
      | true =>
          cases libraryContent env text qosLibraryTag with
          | none => simp [sound_of_failed]
          | some content =>
              cases hall : (elementsOf qosProfileTag (closeTag qosLibraryTag ++ found.2)
                  content.2).all (logged env content.1 qosProfileTag) with
              | true =>
                  simp only [hall, if_true]
                  rw [sound_logged (namedEntry env .qosProfile content.1 qosProfileTag)
                    (fun _ => rfl) rfl]
                  simp [hall, -List.all_eq_true]
              | false => simp [sound_of_failed, hall, -List.all_eq_true]

theorem sound_participants_iff :
    ResultSound .domainParticipant (onFailure (do
        ensure parent.isNone
        createParticipantLibraryXml env text) (clearLog .created) .initial) ↔
      ParticipantsHandled env parent text := by
  unfold ParticipantsHandled
  obtain ⟨es, hrun⟩ := createParticipantLibraryXml_run env text parent
  rw [hrun]
  cases rootElement env parent text participantLibraryTag with
  | none => simp [sound_initial]
  | some found =>
      cases hload : env.ok .loadXml with
      | false => simp [sound_initial]
      | true =>
          cases libraryContent env text participantLibraryTag with
          | none => simp [sound_of_failed]
          | some content =>
              cases hall : (elementsOf participantTag (closeTag participantLibraryTag ++ found.2)
                  content.2).all (participantMade env content.1) with
              | true =>
                  simp only [hall, if_true]
                  rw [sound_logged (namedEntry env .domainParticipant content.1 participantTag)
                    (fun _ => rfl) rfl]
                  simp [hall, -List.all_eq_true]
              | false => simp [sound_of_failed, hall, -List.all_eq_true]

theorem sound_applications_iff :
    ResultSound .application (onFailure (do
        ensure parent.isNone
        createApplicationLibraryXml env text) (clearLog .created) .initial) ↔
      ApplicationsHandled env parent text := by
  unfold ApplicationsHandled
  obtain ⟨es, i, hrun⟩ := createApplicationLibraryXml_run env text parent
  rw [hrun]
  cases rootElement env parent text applicationLibraryTag with
  | none => simp [sound_initial]
  | some found =>
      cases hload : env.ok .loadXml with
      | false => simp [sound_initial]
      | true =>
          cases libraryContent env text applicationLibraryTag with
          | none => simp [sound_of_failed, afterUnload_eq_nil]
          | some content =>
              cases hfailed : firstFailed env env.insertedName
                  (elementsOf applicationTag [] content.2) with
              | none =>
                  simp only [hfailed, if_true, Option.isSome_some, forall_const]
                  exact sound_logged (namedEntry env .application env.insertedName applicationTag)
                    (fun _ => rfl) rfl
              | some el => simp [sound_of_failed, hfailed, afterUnload_eq_nil]

/-- A reference creates nothing. -/
theorem sound_ref (kind : ResourceKind) (parent : Option ParentId) :
    ResultSound kind (createResourceNativeRef env kind text parent .initial) := by
  unfold createResourceNativeRef onFailure
  cases fullRef env text parent with
  | none => exact sound_initial
  | some full =>
      simp only [bind_apply, require_apply]
      cases lookupResource env kind full with
      | none => exact sound_initial
      | some found =>
          cases found with
          | false => exact sound_initial
          | true =>
              cases hgrow : env.ok (.growLog text) with
              | false =>
                  simp [ensure, growLog, bind_apply, hgrow, clearLog, FactoryState.setLog,
                    FactoryState.initial, sound_of_failed]
              | true =>
                  simp [ensure, growLog, writeLog, bind_apply, hgrow, FactoryState.setLog,
                    FactoryState.log, FactoryState.initial, sound_of_created]

end Sound

/-- The result of a creation is right exactly under the answers that its kind handles. -/
theorem createResourceNative_sound_iff (kind : ResourceKind) (repr : NativeRepresentation)
    (parent : Option ParentId) :
    ResultSound kind (createResourceNative env kind repr parent .initial) ↔
      Handled env parent kind repr := by
  cases repr with
  | other => exact ⟨fun _ => trivial, fun _ => sound_initial⟩
  | ref text => exact ⟨fun _ => trivial, fun _ => sound_ref kind parent⟩
  | xml text =>
      cases kind with
      | application => exact sound_applications_iff
      | domainParticipant => exact sound_participants_iff
      | topic => exact sound_configured_iff .topic true _
      | publisher => exact sound_configured_iff .publisher true _
      | subscriber =>
          apply (sound_configured_iff .subscriber false _).trans
          simp [Handled, SubscriberHandled]
      | dataWriter => exact sound_endpoint_iff .dataWriter (by decide) _
      | dataReader => exact sound_endpoint_iff .dataReader (by decide) _
      | domain => exact sound_domains_iff
      | qosProfile => exact sound_qosprofiles_iff
      | type => exact sound_types_iff
      | unknown => exact ⟨fun _ => trivial, fun _ => sound_initial⟩

/-- DDS finds the subscriber of a data reader but does not create the reader. -/
def refusing : FactoryEnv where
  ok
    | .createEntity _ => false
    | _ => true
  insertedName := "R".toList
  find _ _ _ name := some name

/-- The failure of a data reader is reported as success. -/
theorem not_sound_dataReader :
    ¬ ResultSound .dataReader (createResourceNative refusing .dataReader
      (.xml "<data_reader name=\"R\"></data_reader>".toList)
      (some ⟨some "L::P::S".toList⟩) .initial) := by
  intro h
  obtain ⟨c, l, hlog, hkind⟩ := h.created (by decide +kernel)
  have hcreated : (createResourceNative refusing .dataReader
      (.xml "<data_reader name=\"R\"></data_reader>".toList)
      (some ⟨some "L::P::S".toList⟩) .initial).2.created = [.initializer] := by
    decide +kernel
  rw [hcreated] at hlog
  cases hlog
  cases hkind

end ResourceFactory

end NanoAgent
