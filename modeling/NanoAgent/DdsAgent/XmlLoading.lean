import NanoAgent.DdsAgent.NamedRecords
import NanoAgent.DdsAgent.NativeCreation

/-!
# Loading resources from XML

The elements of the XML that DDS has parsed are visited from the libraries of participants
down to the data writers and data readers. A visit creates a record for an element that has
none yet, by a reference to the entity that DDS has created for it, and logs the element.

`visited` lists the elements in the order of the visits, so that the nested loops are one
loop over this list (`visitXml_eq`).
-/

namespace NanoAgent

open Prog

/-- `DDS_XMLObject`: its tag, its fully qualified name and its children. -/
inductive XmlObject
  | mk (tag : List Char) (fqn : Option (List Char)) (children : List XmlObject)

namespace XmlObject

def tag : XmlObject → List Char
  | mk t _ _ => t

def fqn : XmlObject → Option (List Char)
  | mk _ n _ => n

def children : XmlObject → List XmlObject
  | mk _ _ l => l

/-- The children that `DDS_XMLObject_get_first_child_with_tag` and
`DDS_XMLObject_get_next_sibling_with_tag` find. -/
def childrenWithTag (o : XmlObject) (tag : List Char) : List XmlObject :=
  o.children.filter fun c => c.tag = tag

/-- `NDDSA_XmlResourceVisitor_get_resource_id`, the name without a leading separator. -/
def resourceId (o : XmlObject) : Option (List Char) :=
  match o.fqn with
  | none => none
  | some name =>
      if name.isEmpty then none
      else if EntityName.refSep.isPrefixOf name then some (name.drop 2) else some name

end XmlObject

/-- A reference as an identifier. It is missing when it could not be copied. -/
def refId : Option (List Char) → ResourceId
  | none => .none
  | some ref => .ref (String.ofList ref)

/-- The components in a reference to an entity, `D2S2_ENTITYNAME_DEPTH_PARTICIPANT` and so
on. -/
def ResourceKind.depth : ResourceKind → ℕ
  | .topic | .publisher | .subscriber => 3
  | .dataWriter | .dataReader => 4
  | _ => 2

/-- What a load has done: `created` is `result_seq` of the visitor. -/
structure XmlLoading where
  agent : Agent
  created : List CreatedResource

/-- The calls of a visit that may fail. -/
inductive VisitCall
  | lookupResource | createParticipant | growLog | copyRef | releaseResource
  deriving DecidableEq, Repr

/-- The answers during one visit. `entities` are those of a participant that DDS creates from
its configuration. -/
structure VisitEnv where
  ok : VisitCall → Bool
  env : Env
  factory : FactoryEnv
  entities : List Entity

abbrev XmlM := Prog XmlLoading

namespace XmlM

open EntityName

/-- A function of the agent. -/
def onAgent {α : Type} (x : AgentM α) : XmlM α := fun s =>
  ((x s.agent).1, { s with agent := (x s.agent).2 })

/-- What the factory does for a representation by reference. -/
def refOutcome (factory : FactoryEnv) (kind : ResourceKind) (ref : List Char)
    (parent : Option ParentId) : FactoryOutcome :=
  let done := ResourceFactory.createResourceNativeRef factory kind ref parent .initial
  ⟨done.1.isSome, [], done.2.created.map fun c => (c.kind, refId c.ref)⟩

/-- The representation and the parent with which a record is created for an element. A
participant is created from its configuration first. -/
def prepareRecord (x : VisitEnv) (kind : ResourceKind) (el : List Char)
    (names : List (List Char)) : XmlM (List Char × Option ParentId) :=
  match kind with
  | .domainParticipant => do
      ensure (x.ok .createParticipant)
      onAgent (modify fun a => { a with entities := a.entities ++ x.entities })
      pure (el, none)
  | .publisher | .subscriber | .topic | .dataReader | .dataWriter => do
      let parent ← require (toRef (x.factory.ok (.printName el)) names (kind.depth - 1))
      pure (names.getLastD [], some ⟨some parent⟩)
  | _ => fail

/-- Create the record of an element that has none. The result tells whether the record is
handed out, which it is not when it is about to be deleted. -/
def insertRecord (x : VisitEnv) (kind : ResourceKind) (el : List Char) : XmlM Bool := do
  let names ← require (ResourceFactory.entityName x.factory el)
  let prepared ← prepareRecord x kind el names
  let inserted ← onAgent (AgentM.insertResourceRecordEA
    { x.env with factory := refOutcome x.factory kind prepared.1 prepared.2 }
    ⟨0, kind, .ref (String.ofList prepared.1), 0, false, false⟩)
  pure inserted.isSome

/-- Find the record of an element, or create it. -/
def obtainRecord (x : VisitEnv) (kind : ResourceKind) (el : List Char) : XmlM Bool := do
  let s ← read
  if (s.agent.resources.lookup (refId (some el))).isSome then pure true
  else insertRecord x kind el

/-- `NDDSA_XmlResourceVisitor_append_created_resource`. -/
def appendCreatedResource (x : VisitEnv) (kind : ResourceKind) (el : List Char) : XmlM Unit := do
  ensure (x.ok .growLog)
  modify fun s => { s with
    created := s.created ++ [⟨kind, if x.ok .copyRef then some el else none⟩] }

/-- `NDDSA_XmlResourceVisitor_on_resource`. -/
def onResource (x : VisitEnv) (kind : ResourceKind) (o : XmlObject) : XmlM Unit := do
  let el ← require o.resourceId
  ensure (x.ok .lookupResource)
  let held ← obtainRecord x kind el
  appendCreatedResource x kind el
  ensure (!held || x.ok .releaseResource)

/-- The callbacks of the visitor, `NDDSA_XmlResourceVisitor_on_participant` and so on. The
answers of a visit are given by its place among the visits. -/
def onElement (env : ℕ → VisitEnv) (kind : ResourceKind) (o : XmlObject) : XmlM Unit := do
  let s ← read
  onResource (env s.created.length) kind o

/-- `NDDSA_Agent_visit_xml_children`. -/
def visitXmlChildren (parent : XmlObject) (tag : List Char) (visit : XmlObject → XmlM Unit) :
    XmlM Unit :=
  forEach (parent.childrenWithTag tag) visit

variable (env : ℕ → VisitEnv)

/-- `NDDSA_Agent_visit_xml_topic`. -/
def visitXmlTopic (o : XmlObject) : XmlM Unit := onElement env .topic o

/-- `NDDSA_Agent_visit_xml_datareader`. -/
def visitXmlDatareader (o : XmlObject) : XmlM Unit := onElement env .dataReader o

/-- `NDDSA_Agent_visit_xml_datawriter`. -/
def visitXmlDatawriter (o : XmlObject) : XmlM Unit := onElement env .dataWriter o

/-- `NDDSA_Agent_visit_xml_subscriber`. -/
def visitXmlSubscriber (o : XmlObject) : XmlM Unit := do
  onElement env .subscriber o
  visitXmlChildren o ResourceFactory.dataReaderTag (visitXmlDatareader env)

/-- `NDDSA_Agent_visit_xml_publisher`. -/
def visitXmlPublisher (o : XmlObject) : XmlM Unit := do
  onElement env .publisher o
  visitXmlChildren o ResourceFactory.dataWriterTag (visitXmlDatawriter env)

/-- `NDDSA_Agent_visit_xml_domain_participant`. -/
def visitXmlDomainParticipant (o : XmlObject) : XmlM Unit := do
  onElement env .domainParticipant o
  visitXmlChildren o ResourceFactory.publisherTag (visitXmlPublisher env)
  visitXmlChildren o ResourceFactory.subscriberTag (visitXmlSubscriber env)
  visitXmlChildren o ResourceFactory.topicTag (visitXmlTopic env)

/-- `NDDSA_Agent_visit_xml_domain_participant_library`. -/
def visitXmlDomainParticipantLibrary (o : XmlObject) : XmlM Unit :=
  visitXmlChildren o ResourceFactory.participantTag (visitXmlDomainParticipant env)

/-- `NDDSA_Agent_visit_xml`, from the root of the XML. -/
def visitXml (root : XmlObject) : XmlM Unit :=
  visitXmlChildren root ResourceFactory.participantLibraryTag
    (visitXmlDomainParticipantLibrary env)

end XmlM

/-- `url_profile` and `string_profile` of the participant factory. -/
structure XmlProfiles where
  urlProfile : List (Option (List Char))
  stringProfile : List (Option (List Char))

/-- The calls of a load that may fail. -/
inductive LoadCall
  | getInstance | getQos | growProfiles | copyUrl | setQos | lockResources | unlockResources
  deriving DecidableEq, Repr

/-- The answers during a load. `root` is what DDS has parsed from the profiles, and `visit`
answers the visits in their order. -/
structure LoadEnv where
  ok : LoadCall → Bool
  root : XmlProfiles → Option XmlObject
  visit : ℕ → VisitEnv

namespace AgentM

/-- The visits from the root, with an empty log. -/
def visitRoot (visit : ℕ → VisitEnv) (root : XmlObject) : AgentM (List CreatedResource) := fun a =>
  let done := XmlM.visitXml visit root ⟨a, []⟩
  (done.1.map fun _ => done.2.created, done.2.agent)

/-- The part of `NDDSA_Agent_create_implicit_resources` that holds the lock. The identifiers are
only printed. -/
def createResourcesLocked (env : LoadEnv) (root : Option XmlObject) : AgentM Unit := do
  ensure (env.ok .getInstance)
  let root ← require root
  let created ← visitRoot env.visit root
  let a ← read
  forEach created fun c => ensure (a.generateAttachedResourceId (refId c.ref) c.kind).isSome

/-- `NDDSA_Agent_create_implicit_resources`, which succeeds when the unlocking fails. -/
def createImplicitResources (env : LoadEnv) (root : Option XmlObject) : AgentM Unit := do
  ensure (env.ok .lockResources)
  let done ← attempt (createResourcesLocked env root)
  ensure (done.isSome || !env.ok .unlockResources)

end AgentM

/-- The agent and the profiles of the participant factory. -/
structure XmlLoader where
  agent : Agent
  profiles : XmlProfiles

namespace XmlLoader

/-- A function of the agent. -/
def onAgent {α : Type} (x : AgentM α) : Prog XmlLoader α := fun s =>
  ((x s.agent).1, { s with agent := (x s.agent).2 })

def fileScheme : List Char := "file://".toList
def strScheme : List Char := "str://".toList

/-- The profiles with one more URL. A URL that could not be copied is not noticed. -/
def withUrl (env : LoadEnv) (url : List Char) (p : XmlProfiles) : XmlProfiles :=
  let copied := if env.ok .copyUrl then some url else none
  if fileScheme.isPrefixOf url then { p with urlProfile := p.urlProfile ++ [copied] }
  else { p with stringProfile := p.stringProfile ++ [copied] }

/-- `NDDSA_Agent_load_resources_from_xml`. The shortest URL is the same for both schemes. -/
def loadResourcesFromXml (env : LoadEnv) (url : List Char) : Prog XmlLoader Unit := do
  ensure (env.ok .getInstance)
  ensure (env.ok .getQos)
  ensure (7 < url.length)
  ensure (fileScheme.isPrefixOf url || strScheme.isPrefixOf url)
  ensure (env.ok .growProfiles)
  ensure (env.ok .setQos)
  modify fun s => { s with profiles := withUrl env url s.profiles }
  let s ← read
  onAgent (AgentM.createImplicitResources env (env.root s.profiles))

end XmlLoader

namespace XmlObject

open ResourceFactory

/-- A publisher and its data writers, in the order of the visits. -/
def visitedPublisher (o : XmlObject) : List (ResourceKind × XmlObject) :=
  (.publisher, o) :: (o.childrenWithTag dataWriterTag).map fun c => (.dataWriter, c)

def visitedSubscriber (o : XmlObject) : List (ResourceKind × XmlObject) :=
  (.subscriber, o) :: (o.childrenWithTag dataReaderTag).map fun c => (.dataReader, c)

def visitedParticipant (o : XmlObject) : List (ResourceKind × XmlObject) :=
  (.domainParticipant, o) :: ((o.childrenWithTag publisherTag).flatMap visitedPublisher ++
    ((o.childrenWithTag subscriberTag).flatMap visitedSubscriber ++
      (o.childrenWithTag topicTag).map fun c => (.topic, c)))

/-- The elements below the root, in the order of the visits. -/
def visited (root : XmlObject) : List (ResourceKind × XmlObject) :=
  (root.childrenWithTag participantLibraryTag).flatMap fun lib =>
    (lib.childrenWithTag participantTag).flatMap visitedParticipant

end XmlObject

namespace XmlM

variable (env : ℕ → VisitEnv)

/-- The visits of the elements of a list. -/
def visitAll (l : List (ResourceKind × XmlObject)) : XmlM Unit :=
  forEach l fun e => onElement env e.1 e.2

theorem visitXmlPublisher_eq (o : XmlObject) :
    visitXmlPublisher env o = visitAll env o.visitedPublisher := by
  unfold visitAll XmlObject.visitedPublisher
  rw [forEach, forEach_map]
  rfl

theorem visitXmlSubscriber_eq (o : XmlObject) :
    visitXmlSubscriber env o = visitAll env o.visitedSubscriber := by
  unfold visitAll XmlObject.visitedSubscriber
  rw [forEach, forEach_map]
  rfl

theorem visitXmlDomainParticipant_eq (o : XmlObject) :
    visitXmlDomainParticipant env o = visitAll env o.visitedParticipant := by
  unfold visitAll XmlObject.visitedParticipant visitXmlDomainParticipant visitXmlChildren
  rw [forEach, forEach_append, forEach_append, forEach_flatMap, forEach_flatMap, forEach_map,
    show visitXmlPublisher env = _ from funext (visitXmlPublisher_eq env),
    show visitXmlSubscriber env = _ from funext (visitXmlSubscriber_eq env)]
  rfl

/-- The nested loops visit the elements one after the other. -/
theorem visitXml_eq (root : XmlObject) : visitXml env root = visitAll env root.visited := by
  have hlibrary : visitXmlDomainParticipantLibrary env = fun lib =>
      visitAll env ((lib.childrenWithTag ResourceFactory.participantTag).flatMap
        XmlObject.visitedParticipant) := by
    funext lib
    unfold visitAll visitXmlDomainParticipantLibrary visitXmlChildren
    rw [forEach_flatMap, show visitXmlDomainParticipant env = _ from
      funext (visitXmlDomainParticipant_eq env)]
    rfl
  unfold visitXml visitXmlChildren
  rw [hlibrary]
  unfold visitAll XmlObject.visited
  rw [forEach_flatMap]

end XmlM

end NanoAgent
