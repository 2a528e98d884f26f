import ModelTemplates.Text
import ModelTemplates.Version
import ModelTemplates.Yaml.Read
import ModelTemplates.Yaml.Writer
/-! Serving configurations: what a serving engine is told of a version. -/
namespace ModelTemplates

/-- Where the engine takes the model from. -/
inductive ModelSource where
  /-- A model of the hub, by its name there. -/
  | hub (id : String)
  | s3 (uri : String)
  | gcs (uri : String)
deriving DecidableEq

structure ServingConfig where
  deployment : DeploymentConfig
  modelId : String
  source : ModelSource
  engineType : EngineType
  /-- Arguments of the engine, a mapping. -/
  engineArgs : Data
  maxTotalTokens : Int32
  prompt : PromptFormat
  stoppingSequences : List String
  scaling : ScalingConfig

/-- Why no serving configuration can be made. -/
inductive ServingError where
  | invalidSpec (e : SpecError)
  | invalidMirror (found : String)
  | invalidArgs (why : String)
  | render (why : String)
deriving DecidableEq

def ServingError.message : ServingError → String
  | .invalidSpec e => e.message
  | .invalidMirror found => "invalid mirror config: " ++ found
  | .invalidArgs why => "failed to convert vLLMArgs, error: " ++ why
  | .render why => "failed to convert to YAML config, error: " ++ why

/-- Makes the text of a serving configuration. -/
abbrev ServingGenerator := Version → Except ServingError String

namespace ServingConfig

/-- The percentage of the concurrent queries that one replica aims at. -/
def targetPercent : Int := 40

/-- The share of the concurrent queries that is aimed at by default. -/
def derivedTarget (maxConcurrentQueries : Int32) : Int32 :=
  Int32.ofInt (Int.tdiv (maxConcurrentQueries.toInt * targetPercent) 100)

/-- With the target that zero stands for. -/
def deploymentOf (c : DeploymentConfig) : DeploymentConfig :=
  { c with
    targetNumOngoingRequests :=
      if c.targetNumOngoingRequests = 0 then derivedTarget c.maxConcurrentQueries
      else c.targetNumOngoingRequests }

/-- Arguments for an engine that is given none. -/
def defaultArgs (maxTotalTokens : Int32) : Data :=
  .object [("trust_remote_code", .bool true), ("max_num_batched_tokens", .int maxTotalTokens.toInt),
    ("max_num_seq", .int 32), ("gpu_memory_utilization", .float (.ofDecimal false 9 (-1)))]

/-- The arguments that are given, or the default ones. `tell` words the fault of a text that is no
mapping. -/
def argsOf (tell : Yaml.ReadError → String) (e : EngineConfig) : Except ServingError Data :=
  match e.vllmArgs with
  | some args =>
    if Text.allBlank args then .ok (defaultArgs e.maxTotalTokens)
    else match Yaml.readMapping args with
      | .ok d => .ok d
      | .error why => .error (.invalidArgs (tell why))
  | none => .ok (defaultArgs e.maxTotalTokens)

def defaultSystem : String := "<<SYS>>\\n\x7binstruction\x7d\\n<</SYS>>\\n\\n"

def defaultAssistant : String := " \x7binstruction\x7d </s><s>"

def defaultUser : String := "[INST] \x7bsystem\x7d\x7binstruction\x7d [/INST]"

def defaultStoppingSequence : String := "\"<unk>\""

def orDefault (s other : String) : String := if s = "" then other else s

/-- Empty texts take their defaults. The system text always stands in that of the user. -/
def promptOf (p : PromptFormat) : PromptFormat :=
  { p with
    system := orDefault p.system defaultSystem
    assistant := orDefault p.assistant defaultAssistant
    user := orDefault p.user defaultUser
    systemInUser := true }

def sourceOf (s : VersionSpec) : Except ServingError ModelSource :=
  match s.mirrorConfig.filter (· ≠ "") with
  | some uri =>
    if Text.includes "s3://".toList uri.toList then .ok (.s3 uri)
    else if Text.includes "gs://".toList uri.toList then .ok (.gcs uri)
    else .error (.invalidMirror uri)
  | none => .ok (.hub ((s.hfModelId.filter (· ≠ "")).getD s.modelId))

def ofSpec (tell : Yaml.ReadError → String) (s : VersionSpec) :
    Except ServingError ServingConfig := do
  match s.validate with
  | .error e => .error (.invalidSpec e)
  | .ok _ => pure ()
  let args ← argsOf tell s.engineConfig
  let source ← sourceOf s
  .ok {
    deployment := deploymentOf s.deploymentConfig
    modelId := s.modelId
    source := source
    engineType := s.engineConfig.type
    engineArgs := args
    maxTotalTokens := s.engineConfig.maxTotalTokens
    prompt := promptOf s.engineConfig.generation.promptFormat
    stoppingSequences := s.engineConfig.generation.stoppingSequences.getD [defaultStoppingSequence]
    scaling := s.scalingConfig }

/-- Tenths as a number with a point. -/
def tenths (n : Nat) : Data := .float (.ofDecimal false n (-1))

def deploymentData (c : DeploymentConfig) : Data :=
  .object [
    ("auto_scaling_config", .object [
      ("min_replicas", .int c.minReplicas.toInt),
      ("max_replicas", .int c.maxReplicas.toInt),
      ("initial_replicas", .int c.replicas.toInt),
      ("target_num_ongoing_requests_per_replica", .int c.targetNumOngoingRequests.toInt),
      ("metrics_interval_s", tenths 100),
      ("look_back_period_s", tenths 300),
      ("smoothing_factor", tenths 6),
      ("downscale_delay_s", tenths 3000),
      ("upscale_delay_s", tenths 600)]),
    ("max_concurrent_queries", .int c.maxConcurrentQueries.toInt),
    ("ray_actor_options", .object [])]

def sourceMember : ModelSource → String × Data
  | .hub id => ("hf_model_id", .text id)
  | .s3 uri => ("s3_mirror_config", .object [("bucket_uri", .text uri)])
  | .gcs uri => ("gcs_mirror_config", .object [("bucket_uri", .text uri)])

def promptData (p : PromptFormat) : Data :=
  .object [
    ("system", .text p.system),
    ("assistant", .text p.assistant),
    ("trailing_assistant", .text p.trailingAssistant),
    ("user", .text p.user),
    ("default_system_message", .text p.defaultSystemMessage),
    ("system_in_user", .bool p.systemInUser),
    ("add_system_tags_even_if_message_is_empty", .bool p.addSystemTagsEvenIfMessageIsEmpty),
    ("strip_whitespace", .bool p.stripWhitespace)]

/-- Each worker has one accelerator. -/
def scalingData (c : ScalingConfig) : Data :=
  .object ([
    ("num_workers", .int c.numWorkers.toInt),
    ("num_gpus_per_worker", .int 1),
    ("num_cpus_per_worker", .int c.numCpusPerWorker.toInt),
    ("placement_strategy", .text c.placementStrategy.text)]
    ++ Meta.tableMember "resources_per_worker" c.resourcesPerWorker)

def toData (c : ServingConfig) : Data :=
  .object [
    ("deployment_config", deploymentData c.deployment),
    ("engine_config", .object [
      ("model_id", .text c.modelId),
      sourceMember c.source,
      ("type", .text c.engineType.text),
      ("engine_kwargs", c.engineArgs),
      ("max_total_tokens", .int c.maxTotalTokens.toInt),
      ("generation", .object [
        ("prompt_format", promptData c.prompt),
        ("stopping_sequences", .list (c.stoppingSequences.map .text))])]),
    ("scaling_config", scalingData c.scaling)]

def toYaml (c : ServingConfig) : String := Yaml.Writer.write c.toData

def generateWith (tell : Yaml.ReadError → String) : ServingGenerator :=
  fun v => (ofSpec tell v.spec).map toYaml

/-- The generator that is used unless another one is given. -/
def generate : ServingGenerator := generateWith Yaml.ReadError.message

end ServingConfig
end ModelTemplates
