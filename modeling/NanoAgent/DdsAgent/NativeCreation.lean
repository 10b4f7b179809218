import NanoAgent.DdsAgent.Data
import NanoAgent.DdsAgent.EntityNameRef
import NanoAgent.DdsAgent.XmlResource

/-!
# Creating native resources

`createResourceNative` creates DDS entities from an XML representation, or looks up
those that a reference names. Every kind has a function of its own, which loads the
XML element, creates what it stands for and logs what was created.

The state is what the call has added: the XML elements that are loaded, the entities
that are alive and the log. An entity is known by the place of its element in the
XML, and the calls of DDS and of the heap are told apart by this place.
-/

namespace NanoAgent

open Prog

/-- `NDDSA_CreatedResourceLog`. -/
structure CreatedResource where
  kind : ResourceKind
  ref : Option (List Char)
  deriving DecidableEq, Repr

/-- `NDDSA_CREATEDRESOURCELOG_INITIALIZER`. -/
def CreatedResource.initializer : CreatedResource := ⟨.unknown, none⟩

/-- The two logs of a call: the one that is handed out and that of the entities created
within others. -/
inductive CreationLog
  | created | inner
  deriving DecidableEq, Repr

/-- What a call has added. -/
structure FactoryState where
  loaded : List (List Char)
  entities : List (List Char)
  created : List CreatedResource
  inner : List CreatedResource
  deriving DecidableEq, Repr

namespace FactoryState

/-- Nothing yet. The log is empty when the agent makes the call. -/
def initial : FactoryState := ⟨[], [], [], []⟩

def log (s : FactoryState) : CreationLog → List CreatedResource
  | .created => s.created
  | .inner => s.inner

def setLog (s : FactoryState) (out : CreationLog) (l : List CreatedResource) : FactoryState :=
  match out with
  | .created => { s with created := l }
  | .inner => { s with inner := l }

end FactoryState

/-- The calls that may fail. -/
inductive FactoryCall
  | getInstance
  | lookupXml
  | parseName (ref : List Char)
  | printName (ref : List Char)
  | allocateName (el : List Char)
  | appendName (el : List Char)
  | growLog (el : List Char)
  | copyRef (el : List Char)
  | loadXml
  | unloadXml
  | createEntity (el : List Char)
  | deleteParticipant (el : List Char)
  deriving DecidableEq, Repr

/-- The answers to one call. `insertedName` is the name under which DDS loads an XML
element, and `find` the entity that DDS finds by its name in another one, when those of
its first argument are alive that the call has created. -/
structure FactoryEnv where
  ok : FactoryCall → Bool
  insertedName : List Char
  find : List (List Char) → ResourceKind → List Char → List Char → Option (List Char)

/-- The representations a native resource can be created from. -/
inductive NativeRepresentation
  | xml (text : List Char)
  | ref (text : List Char)
  | other
  deriving DecidableEq, Repr

/-- The identifier of a parent, which should be a reference. -/
structure ParentId where
  ref : Option (List Char)
  deriving DecidableEq, Repr

abbrev FactoryM := Prog FactoryState

namespace ResourceFactory

open XmlResource EntityName

variable (env : FactoryEnv)

/-- `D2S2_EntityName_from_id`. -/
def entityName (ref : List Char) : Option (List (List Char)) :=
  if env.ok (.parseName ref) then some (components ref) else none

/-- `D2S2_EntityName_component`. -/
def component (names : List (List Char)) (depth : ℕ) : Option (List Char) :=
  if depth > names.length then none else some (names.getD (depth - 1) [])

/-- `NDDSA_RefResource_lookup_participant`, which looks for the second component of the
reference. -/
def lookupParticipant (alive : List (List Char)) (ref : List Char) :
    Option (Option (List Char)) :=
  if env.ok .getInstance then
    match entityName env ref with
    | none => none
    | some names => (component names 2).map (env.find alive .domainParticipant [])
  else none

/-- `NDDSA_RefResource_lookup_topic`, `_publisher` and `_subscriber`. -/
def lookupInParticipant (kind : ResourceKind) (ref : List Char) : Option (Option (List Char)) :=
  match entityName env ref with
  | none => none
  | some names =>
      match toRef (env.ok (.printName ref)) names 2 with
      | none => none
      | some participantRef =>
          match lookupParticipant env [] participantRef with
          | none => none
          | some none => some none
          | some (some participant) => (component names 3).map (env.find [] kind participant)

/-- `NDDSA_RefResource_lookup_datawriter` and `_datareader`. -/
def lookupEndpoint (kind parentKind : ResourceKind) (ref : List Char) :
    Option (Option (List Char)) :=
  match entityName env ref with
  | none => none
  | some names =>
      match toRef (env.ok (.printName ref)) names 3 with
      | none => none
      | some parentRef =>
          match lookupInParticipant env parentKind parentRef with
          | none => none
          | some none => some none
          | some (some parent) => (component names 4).map (env.find [] kind parent)

/-- Whether a resource exists, or `none` when this cannot be told. The look-ups of domains,
profiles and types find nothing. -/
def lookupResource (kind : ResourceKind) (ref : List Char) : Option Bool :=
  match kind with
  | .application =>
      if env.ok .getInstance && env.ok .lookupXml then some (env.find [] .application [] ref).isSome
      else none
  | .domainParticipant => (lookupParticipant env [] ref).map Option.isSome
  | .topic => (lookupInParticipant env .topic ref).map Option.isSome
  | .publisher => (lookupInParticipant env .publisher ref).map Option.isSome
  | .subscriber => (lookupInParticipant env .subscriber ref).map Option.isSome
  | .dataWriter => (lookupEndpoint env .dataWriter .publisher ref).map Option.isSome
  | .dataReader => (lookupEndpoint env .dataReader .subscriber ref).map Option.isSome
  | .domain | .qosProfile | .type => some false
  | .unknown => none

/-- `NDDSA_CreatedResourceLogSeq_set_length` to zero. -/
def clearLog (out : CreationLog) : FactoryM PUnit := modify fun s => s.setLog out []

/-- `NDDSA_CreatedResourceLogSeq_ensure_length` for one more entry. -/
def growLog (out : CreationLog) (el : List Char) : FactoryM PUnit := do
  ensure (env.ok (.growLog el))
  modify fun s => s.setLog out (s.log out ++ [.initializer])

/-- What is written to the last entry of a log. `D2S2_ResourceId_initialize_ref` does not
check whether the reference could be copied. -/
def writeLog (out : CreationLog) (kind : ResourceKind) (el ref : List Char) : FactoryM PUnit :=
  modify fun s => s.setLog out
    ((s.log out).dropLast ++ [⟨kind, if env.ok (.copyRef el) then some ref else none⟩])

/-- `DDS_DomainParticipantFactory_load_xml_element`. -/
def loadXmlElement : FactoryM (List Char) := do
  ensure (env.ok .loadXml)
  modify fun s => { s with loaded := env.insertedName :: s.loaded }
  pure env.insertedName

/-- `DDS_DomainParticipantFactory_unload_xml_element`. -/
def unloadXmlElement (name : List Char) : FactoryM PUnit :=
  onlyIf (env.ok .unloadXml) (modify fun s => { s with loaded := s.loaded.erase name })

/-- The functions of DDS that create entities from their configuration. -/
def createEntity (el : List Char) : FactoryM PUnit := do
  ensure (env.ok (.createEntity el))
  modify fun s => { s with entities := el :: s.entities }

/-- `DDS_DomainParticipantFactory_delete_participant`. -/
def deleteParticipant (el : List Char) : FactoryM PUnit :=
  onlyIf (env.ok (.deleteParticipant el))
    (modify fun s => { s with entities := s.entities.filter fun e => e != el })

/-- The name of an element, qualified by that of its library. -/
def qualifiedName (lib el tag : List Char) : Option (List Char × List Char) :=
  match parseXmlElementName (fun _ => env.ok (.allocateName el)) el tag with
  | none => none
  | some (name, content) =>
      if env.ok (.appendName el) then some (lib ++ refSep ++ name, content) else none

/-- The part of the functions for topics, publishers and subscribers that loads the element
and creates the entity. `unloads` says whether `loaded_xml` is set. -/
def createFromConfig (kind : ResourceKind) (unloads : Bool) (el : List Char) :
    FactoryM PUnit := do
  let name ← loadXmlElement env
  onFailure (createEntity env el) (onlyIf unloads (unloadXmlElement env name))
  writeLog env .created kind el name

/-- The checks of the functions for topics, publishers and subscribers: the result is where
the element starts. -/
def findInParticipant (xml tag : List Char) (parent : ParentId) : Option (List Char) :=
  if env.ok .getInstance then
    match findFirstXmlElement xml tag, parent.ref with
    | some (el, _), some ref =>
        match lookupParticipant env [] ref with
        | some (some _) => some el
        | _ => none
    | _, _ => none
  else none

def topicTag : List Char := "topic".toList
def publisherTag : List Char := "publisher".toList
def subscriberTag : List Char := "subscriber".toList
def dataWriterTag : List Char := "data_writer".toList
def dataReaderTag : List Char := "data_reader".toList
def typesTag : List Char := "types".toList
def domainLibraryTag : List Char := "domain_library".toList
def domainTag : List Char := "domain".toList
def qosLibraryTag : List Char := "qos_library".toList
def qosProfileTag : List Char := "qos_profile".toList
def participantLibraryTag : List Char := "domain_participant_library".toList
def participantTag : List Char := "domain_participant".toList
def applicationLibraryTag : List Char := "application_library".toList
def applicationTag : List Char := "application".toList

/-- `NDDSA_ResourceFactory_create_topic_xml`. -/
def createTopicXml (xml : List Char) (parent : ParentId) : FactoryM PUnit := do
  let el ← require (findInParticipant env xml topicTag parent)
  createFromConfig env .topic true el

/-- `NDDSA_ResourceFactory_create_publisher_xml`. -/
def createPublisherXml (xml : List Char) (parent : ParentId) : FactoryM PUnit := do
  let el ← require (findInParticipant env xml publisherTag parent)
  createFromConfig env .publisher true el

/-- `NDDSA_ResourceFactory_create_subscriber_xml`, which never sets `loaded_xml`. -/
def createSubscriberXml (xml : List Char) (parent : ParentId) : FactoryM PUnit := do
  let el ← require (findInParticipant env xml subscriberTag parent)
  createFromConfig env .subscriber false el

/-- The checks of the functions for data writers and data readers: the name of the parent,
the participant, the parent in it and the element. -/
def findInEntity (xml tag : List Char) (parentKind : ResourceKind) (parent : ParentId) :
    Option (List Char) :=
  if env.ok .getInstance then
    match parent.ref with
    | none => none
    | some ref =>
        match entityName env ref with
        | none => none
        | some names =>
            if names.length = 3 then
              match toRef (env.ok (.printName ref)) names 2 with
              | none => none
              | some participantRef =>
                  match lookupParticipant env [] participantRef with
                  | some (some participant) =>
                      match env.find [] parentKind participant (names.getD 2 []) with
                      | none => none
                      | some _ => (findFirstXmlElement xml tag).map Prod.fst
                  | _ => none
            else none
  else none

/-- The part of the functions for data writers and data readers that loads the element and
creates the entity. The return codes of DDS are kept in `retcode`, where those of an
error count as true, so nothing is undone. -/
def createEndpoint (kind : ResourceKind) (el : List Char) : FactoryM PUnit := do
  let loaded ← attempt (loadXmlElement env)
  match loaded with
  | none => pure ⟨⟩
  | some name => do
      let made ← attempt (createEntity env el)
      match made with
      | none => pure ⟨⟩
      | some _ => writeLog env .created kind el name

/-- `NDDSA_ResourceFactory_create_datawriter_xml`. -/
def createDatawriterXml (xml : List Char) (parent : ParentId) : FactoryM PUnit := do
  let el ← require (findInEntity env xml dataWriterTag .publisher parent)
  createEndpoint env .dataWriter el

/-- `NDDSA_ResourceFactory_create_datareader_xml`. -/
def createDatareaderXml (xml : List Char) (parent : ParentId) : FactoryM PUnit := do
  let el ← require (findInEntity env xml dataReaderTag .subscriber parent)
  createEndpoint env .dataReader el

/-- `NDDSA_ResourceFactory_create_types_xml`, which does not unload. -/
def createTypesXml (xml : List Char) : FactoryM PUnit := do
  ensure (env.ok .getInstance)
  let found ← require (findFirstXmlElement xml typesTag)
  let name ← loadXmlElement env
  growLog env .created found.1
  writeLog env .created .type found.1 name

/-- A round of the loops that only log what an element stands for. -/
def logElement (kind : ResourceKind) (lib tag el : List Char) : FactoryM PUnit := do
  let name ← require (qualifiedName env lib el tag)
  growLog env .created el
  writeLog env .created kind el name.1

/-- `NDDSA_ResourceFactory_create_domain_library_xml`. -/
def createDomainLibraryXml (xml : List Char) : FactoryM PUnit := do
  clearLog .created
  ensure (env.ok .getInstance)
  let _ ← require (findFirstXmlElement xml domainLibraryTag)
  let lib ← loadXmlElement env
  onFailure
    (do
      let content ← require
        (parseXmlElementName (fun _ => env.ok (.allocateName xml)) xml domainLibraryTag)
      forEachElement domainTag [] content.2 (logElement env .domain lib domainTag))
    (do
      unloadXmlElement env lib
      clearLog .created)

/-- `NDDSA_ResourceFactory_create_qosprofile_xml`. -/
def createQosprofileXml (lib head limit : List Char) : FactoryM PUnit :=
  onFailure (forEachElement qosProfileTag limit head (logElement env .qosProfile lib qosProfileTag))
    (clearLog .created)

/-- `NDDSA_ResourceFactory_create_qos_library_xml`, which does not unload. -/
def createQosLibraryXml (xml : List Char) : FactoryM PUnit := do
  ensure (env.ok .getInstance)
  let found ← require (findFirstXmlElement xml qosLibraryTag)
  let _ ← loadXmlElement env
  let content ← require
    (parseXmlElementName (fun _ => env.ok (.allocateName xml)) xml qosLibraryTag)
  createQosprofileXml env content.1 content.2 (closeTag qosLibraryTag ++ found.2)

/-- A round of the loop over the participants of a library. -/
def createParticipant (out : CreationLog) (lib el : List Char) : FactoryM PUnit := do
  let name ← require (qualifiedName env lib el participantTag)
  growLog env out el
  createEntity env el
  writeLog env out .domainParticipant el name.1

/-- A participant is deleted when it is found by its reference. -/
def deleteLogged (c : CreatedResource) : FactoryM PUnit := do
  let s ← read
  match c.ref.bind (lookupParticipant env s.entities) with
  | some (some el) => deleteParticipant env el
  | _ => pure ⟨⟩

/-- `NDDSA_ResourceFactory_create_participants_xml`. When it fails, the participants it has
logged are looked up and deleted. -/
def createParticipantsXml (out : CreationLog) (lib head limit : List Char) : FactoryM PUnit := do
  let s ← read
  onFailure (forEachElement participantTag limit head (createParticipant env out lib))
    (do
      let s' ← read
      -- the last entry is not that of a participant when its creation has failed
      forEach (((s'.log out).drop (s.log out).length).filter fun c => c.kind = .domainParticipant)
        (deleteLogged env)
      clearLog out)

/-- `NDDSA_ResourceFactory_create_participant_library_xml`, which never sets `initd_lib`. -/
def createParticipantLibraryXml (xml : List Char) : FactoryM PUnit := do
  clearLog .created
  onFailure
    (do
      ensure (env.ok .getInstance)
      let found ← require (findFirstXmlElement xml participantLibraryTag)
      let _ ← loadXmlElement env
      let content ← require
        (parseXmlElementName (fun _ => env.ok (.allocateName xml)) xml participantLibraryTag)
      createParticipantsXml env .created content.1 content.2
        (closeTag participantLibraryTag ++ found.2))
    (clearLog .created)

/-- A round of the loop over the applications of a library. The participants of an
application end before its end tag. -/
def createApplication (lib el : List Char) : FactoryM PUnit := do
  let name ← require (qualifiedName env lib el applicationTag)
  let found ← require (findFirstXmlElement el applicationTag)
  growLog env .created el
  writeLog env .created .application el name.1
  createParticipantsXml env .inner name.1 name.2 (closeTag applicationTag ++ found.2)

/-- `NDDSA_ResourceFactory_create_application_library_xml`. -/
def createApplicationLibraryXml (xml : List Char) : FactoryM PUnit := do
  clearLog .created
  ensure (env.ok .getInstance)
  let _ ← require (findFirstXmlElement xml applicationLibraryTag)
  let lib ← loadXmlElement env
  onFailure
    (do
      let content ← require
        (parseXmlElementName (fun _ => env.ok (.allocateName xml)) xml applicationLibraryTag)
      forEachElement applicationTag [] content.2 (createApplication env lib))
    (do
      unloadXmlElement env lib
      clearLog .created)

/-- The log entry of a kind that is created for a parent, and the creation. -/
def createForParent (parent : Option ParentId) (create : ParentId → FactoryM PUnit) :
    FactoryM PUnit := do
  let parent ← require parent
  growLog env .created []
  create parent

/-- `NDDSA_ResourceFactory_create_resource_native_xml`. -/
def createResourceNativeXml (kind : ResourceKind) (xml : List Char) (parent : Option ParentId) :
    FactoryM PUnit :=
  onFailure
    (match kind with
    | .application => do
        ensure parent.isNone
        createApplicationLibraryXml env xml
    | .domainParticipant => do
        ensure parent.isNone
        createParticipantLibraryXml env xml
    | .topic => createForParent env parent (createTopicXml env xml)
    | .publisher => createForParent env parent (createPublisherXml env xml)
    | .subscriber => createForParent env parent (createSubscriberXml env xml)
    | .dataWriter => createForParent env parent (createDatawriterXml env xml)
    | .dataReader => createForParent env parent (createDatareaderXml env xml)
    | .domain => do
        ensure parent.isNone
        createDomainLibraryXml env xml
    | .qosProfile => do
        ensure parent.isNone
        createQosLibraryXml env xml
    | .type => do
        ensure parent.isNone
        createTypesXml env xml
    | .unknown => fail)
    (clearLog .created)

/-- The reference of a resource with a parent. -/
def fullRef (ref : List Char) (parent : Option ParentId) : Option (List Char) :=
  match parent with
  | none => some ref
  | some p => if env.ok (.appendName ref) then p.ref.map fun r => r ++ refSep ++ ref else none

/-- `NDDSA_ResourceFactory_create_resource_native_ref`. -/
def createResourceNativeRef (kind : ResourceKind) (ref : List Char) (parent : Option ParentId) :
    FactoryM PUnit :=
  onFailure
    (do
      let full ← require (fullRef env ref parent)
      let found ← require (lookupResource env kind full)
      ensure found
      growLog env .created ref
      writeLog env .created kind ref full)
    (clearLog .created)

/-- `NDDSA_ResourceFactory_create_resource_native`. -/
def createResourceNative (kind : ResourceKind) (repr : NativeRepresentation)
    (parent : Option ParentId) : FactoryM PUnit :=
  match repr with
  | .xml text => createResourceNativeXml env kind text parent
  | .ref text => createResourceNativeRef env kind text parent
  | .other => fail

end ResourceFactory

end NanoAgent
