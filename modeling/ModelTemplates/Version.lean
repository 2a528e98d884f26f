import ModelTemplates.Template
import ModelTemplates.Text
/-! Versions of model templates: what to serve and how, and the number given to it. -/
namespace ModelTemplates

inductive EngineType where
  | vllm
  | embedding
deriving DecidableEq, Inhabited

namespace EngineType

def variants : List (String × EngineType) :=
  [("VLLMEngine", .vllm), ("EmbeddingEngine", .embedding)]

def text : EngineType → String
  | .vllm => "VLLMEngine"
  | .embedding => "EmbeddingEngine"

end EngineType

inductive PlacementStrategy where
  | strictPack
  | pack
  | spread
deriving DecidableEq, Inhabited

namespace PlacementStrategy

def variants : List (String × PlacementStrategy) :=
  [("STRICT_PACK", .strictPack), ("PACK", .pack), ("SPREAD", .spread)]

def text : PlacementStrategy → String
  | .strictPack => "STRICT_PACK"
  | .pack => "PACK"
  | .spread => "SPREAD"

end PlacementStrategy

structure PromptFormat where
  system : String
  assistant : String
  trailingAssistant : String
  user : String
  defaultSystemMessage : String
  systemInUser : Bool
  addSystemTagsEvenIfMessageIsEmpty : Bool
  stripWhitespace : Bool
deriving DecidableEq, Inhabited

structure Generation where
  promptFormat : PromptFormat
  stoppingSequences : Option (List String)
deriving DecidableEq, Inhabited

structure EngineConfig where
  type : EngineType
  maxTotalTokens : Int32
  /-- The text of a YAML mapping. -/
  vllmArgs : Option String
  generation : Generation
deriving DecidableEq, Inhabited

structure DeploymentConfig where
  replicas : Int32
  minReplicas : Int32
  maxReplicas : Int32
  maxConcurrentQueries : Int32
  /-- Zero asks for a share of the concurrent queries. -/
  targetNumOngoingRequests : Int32
deriving DecidableEq, Inhabited

structure ScalingConfig where
  numWorkers : Int32
  numCpusPerWorker : Int32
  placementStrategy : PlacementStrategy
  resourcesPerWorker : Table String String
deriving DecidableEq, Inhabited

structure VersionSpec where
  templateName : String
  modelId : String
  hfModelId : Option String
  mirrorConfig : Option String
  engineConfig : EngineConfig
  deploymentConfig : DeploymentConfig
  scalingConfig : ScalingConfig
deriving DecidableEq, Inhabited

structure VersionStatus where
  /-- The number given, zero before. -/
  version : UInt32
  conditions : Conditions
  generatedModelConfig : Option String
deriving DecidableEq, Inhabited

abbrev Version := Object VersionSpec VersionStatus

namespace PromptFormat

def empty : PromptFormat := ⟨"", "", "", "", "", false, false, false⟩

def toData (p : PromptFormat) : Data :=
  .object [("system", .text p.system), ("assistant", .text p.assistant),
    ("trailingAssistant", .text p.trailingAssistant), ("user", .text p.user),
    ("defaultSystemMessage", .text p.defaultSystemMessage), ("systemInUser", .bool p.systemInUser),
    ("addSystemTagsEvenIfMessageIsEmpty", .bool p.addSystemTagsEvenIfMessageIsEmpty),
    ("stripWhitespace", .bool p.stripWhitespace)]

def member (dialect : Dialect) (p : PromptFormat) (name : String) (d : Data) :
    Decoded PromptFormat :=
  match name with
  | "system" => do .ok { p with system := ← Data.string dialect d }
  | "assistant" => do .ok { p with assistant := ← Data.string dialect d }
  | "trailingAssistant" => do .ok { p with trailingAssistant := ← Data.string dialect d }
  | "user" => do .ok { p with user := ← Data.string dialect d }
  | "defaultSystemMessage" => do .ok { p with defaultSystemMessage := ← Data.string dialect d }
  | "systemInUser" => do .ok { p with systemInUser := ← Data.boolean dialect d }
  | "addSystemTagsEvenIfMessageIsEmpty" => do
    .ok { p with addSystemTagsEvenIfMessageIsEmpty := ← Data.boolean dialect d }
  | "stripWhitespace" => do .ok { p with stripWhitespace := ← Data.boolean dialect d }
  | _ => .ok p

def ofData : Decoder PromptFormat :=
  Data.members "struct PromptFormat"
    ["system", "assistant", "trailingAssistant", "user", "defaultSystemMessage", "systemInUser",
      "addSystemTagsEvenIfMessageIsEmpty", "stripWhitespace"] empty member fun _ => .ok

end PromptFormat

namespace Generation

def empty : Generation := ⟨.empty, none⟩

def toData (g : Generation) : Data :=
  .object ([("promptFormat", g.promptFormat.toData)]
    ++ Meta.optionalMember "stoppingSequences" (fun ss => .list (ss.map .text)) g.stoppingSequences)

def member (dialect : Dialect) (g : Generation) (name : String) (d : Data) : Decoded Generation :=
  match name with
  | "promptFormat" => do .ok { g with promptFormat := ← PromptFormat.ofData dialect d }
  | "stoppingSequences" => do
    .ok { g with stoppingSequences := ← Data.optional (Data.listOf Data.string) dialect d }
  | _ => .ok g

def ofData : Decoder Generation :=
  Data.members "struct GenerationConfig" ["promptFormat", "stoppingSequences"] empty member fun _ =>
    .ok

end Generation

namespace EngineConfig

def empty : EngineConfig := ⟨.vllm, 0, none, .empty⟩

def toData (e : EngineConfig) : Data :=
  .object ([("type", .text e.type.text), ("maxTotalTokens", .int e.maxTotalTokens.toInt)]
    ++ Meta.optionalMember "vLLMArgs" .text e.vllmArgs
    ++ [("generation", e.generation.toData)])

def member (dialect : Dialect) (e : EngineConfig) (name : String) (d : Data) :
    Decoded EngineConfig :=
  match name with
  | "type" => do .ok { e with type := ← Data.variant EngineType.variants dialect d }
  | "maxTotalTokens" => do .ok { e with maxTotalTokens := ← Data.int32 dialect d }
  | "vLLMArgs" => do .ok { e with vllmArgs := ← Data.optional Data.string dialect d }
  | "generation" => do .ok { e with generation := ← Generation.ofData dialect d }
  | _ => .ok e

def ofData : Decoder EngineConfig :=
  Data.members "struct EngineConfig" ["type", "maxTotalTokens", "vLLMArgs",
    "generation"] empty member
    fun _ => .ok

end EngineConfig

namespace DeploymentConfig

def standard : DeploymentConfig := ⟨1, 1, 2, 0, 0⟩

def toData (c : DeploymentConfig) : Data :=
  .object [("replicas", .int c.replicas.toInt), ("minReplicas", .int c.minReplicas.toInt),
    ("maxReplicas", .int c.maxReplicas.toInt),
    ("maxConcurrentQueries", .int c.maxConcurrentQueries.toInt),
    ("targetNumOngoingRequests", .int c.targetNumOngoingRequests.toInt)]

def member (dialect : Dialect) (c : DeploymentConfig) (name : String) (d : Data) :
    Decoded DeploymentConfig :=
  match name with
  | "replicas" => do .ok { c with replicas := ← Data.int32 dialect d }
  | "minReplicas" => do .ok { c with minReplicas := ← Data.int32 dialect d }
  | "maxReplicas" => do .ok { c with maxReplicas := ← Data.int32 dialect d }
  | "maxConcurrentQueries" => do .ok { c with maxConcurrentQueries := ← Data.int32 dialect d }
  | "targetNumOngoingRequests" => do
      .ok { c with targetNumOngoingRequests := ← Data.int32 dialect d }
  | _ => .ok c

def ofData : Decoder DeploymentConfig :=
  Data.members "struct DeploymentConfig"
    ["replicas", "minReplicas", "maxReplicas", "maxConcurrentQueries",
      "targetNumOngoingRequests"] standard
    member fun _ => .ok

end DeploymentConfig

namespace ScalingConfig

def empty : ScalingConfig := ⟨0, 0, .strictPack, .empty⟩

def toData (c : ScalingConfig) : Data :=
  .object ([("numWorkers", .int c.numWorkers.toInt),
    ("numCPUsPerWorker", .int c.numCpusPerWorker.toInt),
      ("placementStrategy", .text c.placementStrategy.text)]
    ++ Meta.tableMember "resourcesPerWorker" c.resourcesPerWorker)

def member (dialect : Dialect) (c : ScalingConfig) (name : String) (d : Data) :
    Decoded ScalingConfig :=
  match name with
  | "numWorkers" => do .ok { c with numWorkers := ← Data.int32 dialect d }
  | "numCPUsPerWorker" => do .ok { c with numCpusPerWorker := ← Data.int32 dialect d }
  | "placementStrategy" => do
    .ok { c with placementStrategy := ← Data.variant PlacementStrategy.variants dialect d }
  | "resourcesPerWorker" => do .ok { c with resourcesPerWorker := ← Data.textTable dialect d }
  | _ => .ok c

def ofData : Decoder ScalingConfig :=
  Data.members "struct ScalingConfig"
    ["numWorkers", "numCPUsPerWorker", "placementStrategy",
      "resourcesPerWorker"] empty member fun _ => .ok

end ScalingConfig

/-- Why a spec cannot be served. -/
inductive SpecError where
  | missingModelId
  | conflictingModelSource
  | negativeDeploymentValue (field : String) (value : Int32)
deriving DecidableEq

def SpecError.message : SpecError → String
  | .missingModelId => "modelID is required"
  | .conflictingModelSource => "can't set both HF model ID and mirror config at the same time"
  | .negativeDeploymentValue field value =>
    "deploymentConfig." ++ field ++ " must not be negative, got " ++ toString value.toInt

namespace VersionSpec

def empty : VersionSpec := ⟨"", "", none, none, .empty, .standard, .empty⟩

def toData (s : VersionSpec) : Data :=
  .object ([("templateName", .text s.templateName), ("modelID", .text s.modelId)]
    ++ Meta.optionalMember "hfModelID" .text s.hfModelId
    ++ Meta.optionalMember "mirrorConfig" .text s.mirrorConfig
    ++ [("engineConfig", s.engineConfig.toData), ("deploymentConfig", s.deploymentConfig.toData),
      ("scalingConfig", s.scalingConfig.toData)])

def member (dialect : Dialect) (p : Option String × VersionSpec) (name : String) (d : Data) :
    Decoded (Option String × VersionSpec) :=
  let s := p.2
  match name with
  | "templateName" => do .ok (some (← Data.string dialect d), s)
  | "modelID" => do .ok (p.1, { s with modelId := ← Data.string dialect d })
  | "hfModelID" => do .ok (p.1, { s with hfModelId := ← Data.optional Data.string dialect d })
  | "mirrorConfig" => do .ok (p.1, { s with mirrorConfig := ← Data.optional Data.string dialect d })
  | "engineConfig" => do .ok (p.1, { s with engineConfig := ← EngineConfig.ofData dialect d })
  | "deploymentConfig" => do
      .ok (p.1, { s with deploymentConfig := ← DeploymentConfig.ofData dialect d })
  | "scalingConfig" => do .ok (p.1, { s with scalingConfig := ← ScalingConfig.ofData dialect d })
  | _ => .ok p

def finish (missing : String → DecodeError) (p : Option String × VersionSpec) :
    Decoded VersionSpec := do
  let templateName ← Data.require missing "templateName" p.1
  .ok { p.2 with templateName := templateName }

def ofData : Decoder VersionSpec :=
  Data.members "struct ModelTemplateVersionSpec"
    ["templateName", "modelID", "hfModelID", "mirrorConfig", "engineConfig", "deploymentConfig",
      "scalingConfig"] (none, empty) member finish

/-- A source of the model that is given and not empty. -/
def given (source : Option String) : Bool :=
  match source with
  | some s => s ≠ ""
  | none => false

def deploymentValues (s : VersionSpec) : List (String × Int32) :=
  let c := s.deploymentConfig
  [("replicas", c.replicas), ("minReplicas", c.minReplicas), ("maxReplicas", c.maxReplicas),
    ("maxConcurrentQueries", c.maxConcurrentQueries),
    ("targetNumOngoingRequests", c.targetNumOngoingRequests)]

/-- The first fault of a spec: no model, two sources, a negative count. -/
def validate (s : VersionSpec) : Except SpecError Unit :=
  if Text.allBlank s.modelId then .error .missingModelId
  else if given s.hfModelId && given s.mirrorConfig then .error .conflictingModelSource
  else match s.deploymentValues.find? fun v => v.2 < 0 with
    | some (field, value) => .error (.negativeDeploymentValue field value)
    | none => .ok ()

end VersionSpec

namespace VersionStatus

def empty : VersionStatus := ⟨0, [], none⟩

def toData (s : VersionStatus) : Data :=
  .object ([("version", .int s.version.toNat)]
    ++ Meta.listMember "conditions" (s.conditions.map Condition.toData)
    ++ Meta.optionalMember "generatedModelConfig" .text s.generatedModelConfig)

def member (dialect : Dialect) (s : VersionStatus) (name : String) (d : Data) :
    Decoded VersionStatus :=
  match name with
  | "version" => do .ok { s with version := ← Data.uint32 dialect d }
  | "conditions" => do .ok { s with conditions := ← Data.listOf Condition.ofData dialect d }
  | "generatedModelConfig" => do
    .ok { s with generatedModelConfig := ← Data.optional Data.string dialect d }
  | _ => .ok s

def ofData : Decoder VersionStatus :=
  Data.members "struct ModelTemplateVersionStatus" ["version", "conditions",
    "generatedModelConfig"] empty
    member fun _ => .ok

end VersionStatus

namespace Version

def withModelId (v : Version) (id : String) : Version :=
  { v with spec := { v.spec with modelId := id } }

/-- The template that the version names. -/
def templateKey (v : Version) : Key := ⟨v.metadata.space, v.spec.templateName⟩

def assigned (v : Version) : Bool := Conditions.holds v.status.conditions .assigned

def configured (v : Version) : Bool := Conditions.holds v.status.conditions .configured

/-- The number of a version that has one. -/
def assignedNumber (v : Version) : Option UInt32 :=
  if v.assigned then some v.status.version else none

/-- The template that the version's first reference to one of its name belongs to. -/
def ownerUid (v : Version) : Option Uid :=
  (v.metadata.owners.find? fun o => o.kind = Kind.template.text ∧ o.name = v.spec.templateName).map
    OwnerReference.uid

def ownedBy (v : Version) (t : Template) : Bool :=
  match t.metadata.uid with
  | some uid => v.metadata.ownedBy .template uid
  | none => false

/-- Label and owner reference both lead to the template. -/
def linkedTo (v : Version) (t : Template) : Bool :=
  v.metadata.labels.find? templateLabel = some t.metadata.name && v.ownedBy t

def toData (v : Version) : Data := Object.toData VersionSpec.toData VersionStatus.toData v

def member (dialect : Dialect) (p : Option Meta × Option VersionSpec × VersionStatus)
    (name : String) (d : Data) : Decoded (Option Meta × Option VersionSpec × VersionStatus) :=
  match name with
  | "metadata" => do .ok (some (← Meta.ofData dialect d), p.2)
  | "spec" => do .ok (p.1, some (← VersionSpec.ofData dialect d), p.2.2)
  | "status" => do .ok (p.1, p.2.1, ← VersionStatus.ofData dialect d)
  | _ => .ok p

def finish (missing : String → DecodeError) (p : Option Meta × Option VersionSpec × VersionStatus) :
    Decoded Version := do
  let metadata ← Data.require missing "metadata" p.1
  let spec ← Data.require missing "spec" p.2.1
  .ok ⟨metadata, spec, p.2.2⟩

def ofData : Decoder Version :=
  Data.members "struct ModelTemplateVersion" ["metadata", "spec", "status"]
    (none, none, VersionStatus.empty) member finish

end Version
end ModelTemplates
