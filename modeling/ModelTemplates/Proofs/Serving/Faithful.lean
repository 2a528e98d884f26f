import Mathlib.Data.Rat.Floor
import Mathlib.Tactic.NormNum
import ModelTemplates.Proofs.Data.Paths
import ModelTemplates.Proofs.Serving.Source
/-! What a serving configuration keeps of the version that it is made of. Every value of the version
is in it unchanged, or a default for one that is left out; but the system text stands in that of the
user, whatever the version says. -/
namespace ModelTemplates

namespace ServingConfig

variable {v : Version} {s : VersionSpec} {c : ServingConfig} {d : Data} {text : String}

def targetProduct (maxConcurrentQueries : Int32) : Int64 := maxConcurrentQueries.toInt64 * 40

theorem toInt_targetProduct (m : Int32) : (targetProduct m).toInt = m.toInt * targetPercent := by
  have hlow := m.le_toInt
  have hhigh := m.toInt_lt
  rw [targetProduct, Int64.toInt_mul, Int32.toInt_toInt64]
  change (m.toInt * 40).bmod (2 ^ 64) = m.toInt * 40
  exact Int.bmod_eq_of_le (by norm_num; omega) (by norm_num; omega)

theorem toInt_derivedTarget (m : Int32) :
    (derivedTarget m).toInt = (targetProduct m / 100).toInt ∧
      (derivedTarget m).toInt = Int.tdiv (m.toInt * targetPercent) 100 := by
  have hlow := m.le_toInt
  have hhigh := m.toInt_lt
  have hfits : -2 ^ 31 ≤ Int.tdiv (m.toInt * targetPercent) 100 ∧
    Int.tdiv (m.toInt * targetPercent) 100 < 2 ^ 31 := by
    rw [Int.tdiv_eq_ediv, targetPercent]
    split
    · omega
    · have hone : Int.sign 100 = 1 := rfl
      omega
  have hexact : (derivedTarget m).toInt = Int.tdiv (m.toInt * targetPercent) 100 :=
    Int32.toInt_ofInt_of_le hfits.1 hfits.2
  have hword : targetProduct m ≠ Int64.minValue := by
    intro heq
    have hmin : m.toInt * 40 = -9223372036854775808 :=
      (toInt_targetProduct m).symm.trans (congrArg Int64.toInt heq)
    omega
  refine ⟨?_, hexact⟩
  rw [hexact, Int64.toInt_div_of_ne_left _ _ hword, toInt_targetProduct]
  rfl

/-- The default target of a count is two fifths of it, rounded down. -/
theorem derivedTarget_eq_floor {m : Int32} (h : 0 ≤ m.toInt) :
    (derivedTarget m).toInt = ⌊(0.4 : ℚ) * m.toInt⌋ ∧ 0 ≤ (derivedTarget m).toInt ∧
      (derivedTarget m).toInt ≤ m.toInt := by
  have hquotient : (derivedTarget m).toInt = m.toInt * 40 / 100 := by
    rw [(toInt_derivedTarget m).2]
    exact Int.tdiv_eq_ediv_of_nonneg (Int.mul_nonneg h (by decide))
  have hfloor : ⌊(0.4 : ℚ) * m.toInt⌋ = m.toInt * 40 / 100 := by
    have hshare : (0.4 : ℚ) * m.toInt = ((m.toInt * 40 : ℤ) : ℚ) / ((100 : ℕ) : ℚ) := by
      push_cast
      ring
    rw [hshare, Rat.floor_intCast_div_natCast]
    rfl
  rw [hfloor, hquotient]
  omega

/-- A member of a configuration, and the value of the version that it stands for. -/
structure Counterpart where
  path : List String
  value : Data
  /-- What is there instead of a value that is left out. -/
  instead : Option Data

def Counterpart.due (m : Counterpart) : Data := m.instead.getD m.value

def kept (path : List String) (value : Data) : Counterpart := ⟨path, value, none⟩

def filled (path : List String) (s standard : String) : Counterpart :=
  ⟨path, .text s, if s = "" then some (.text standard) else none⟩

def deploymentCounterparts (c : DeploymentConfig) : List Counterpart :=
  let scaling (name : String) : List String := ["deployment_config", "auto_scaling_config", name]
  [kept (scaling "min_replicas") (.int c.minReplicas.toInt),
    kept (scaling "max_replicas") (.int c.maxReplicas.toInt),
    kept (scaling "initial_replicas") (.int c.replicas.toInt),
    ⟨scaling "target_num_ongoing_requests_per_replica", .int c.targetNumOngoingRequests.toInt,
      if c.targetNumOngoingRequests = 0 then
        some (.int (derivedTarget c.maxConcurrentQueries).toInt) else none⟩,
    kept ["deployment_config", "max_concurrent_queries"] (.int c.maxConcurrentQueries.toInt)]

def promptPath (name : String) : List String :=
  ["engine_config", "generation", "prompt_format", name]

def promptCounterparts (p : PromptFormat) : List Counterpart :=
  [filled (promptPath "system") p.system defaultSystem,
    filled (promptPath "assistant") p.assistant defaultAssistant,
    kept (promptPath "trailing_assistant") (.text p.trailingAssistant),
    filled (promptPath "user") p.user defaultUser,
    kept (promptPath "default_system_message") (.text p.defaultSystemMessage),
    kept (promptPath "system_in_user") (.bool p.systemInUser),
    kept (promptPath "add_system_tags_even_if_message_is_empty")
      (.bool p.addSystemTagsEvenIfMessageIsEmpty),
    kept (promptPath "strip_whitespace") (.bool p.stripWhitespace)]

def engineCounterparts (s : VersionSpec) : List Counterpart :=
  let e := s.engineConfig
  [kept ["engine_config", "model_id"] (.text s.modelId),
    kept ["engine_config", "type"] (.text e.type.text),
    kept ["engine_config", "max_total_tokens"] (.int e.maxTotalTokens.toInt),
    ⟨["engine_config", "generation", "stopping_sequences"],
      .list ((e.generation.stoppingSequences.getD []).map .text),
      if e.generation.stoppingSequences = none then
        some (.list [.text defaultStoppingSequence]) else none⟩]

def scalingCounterparts (c : ScalingConfig) : List Counterpart :=
  [kept ["scaling_config", "num_workers"] (.int c.numWorkers.toInt),
    kept ["scaling_config", "num_cpus_per_worker"] (.int c.numCpusPerWorker.toInt),
    kept ["scaling_config", "placement_strategy"] (.text c.placementStrategy.text)]

def counterparts (s : VersionSpec) : List Counterpart :=
  deploymentCounterparts s.deploymentConfig ++ engineCounterparts s ++
    promptCounterparts s.engineConfig.generation.promptFormat ++ scalingCounterparts s.scalingConfig

def argsPath : List String := ["engine_config", "engine_kwargs"]

/-- The configuration has everything that the version says of how to deploy, run, prompt and scale
the engine. -/
structure Faithful (s : VersionSpec) (d : Data) : Prop where
  members : ∀ m ∈ counterparts s, d.at? m.path = some m.due
  /-- Arguments that are given are the mapping that they say. -/
  args : ∀ args, s.engineConfig.vllmArgs = some args → Text.allBlank args = false →
    ∃ mapping, Yaml.readMapping args = .ok mapping ∧ d.at? argsPath = some mapping
  standardArgs : (∀ args, s.engineConfig.vllmArgs = some args → Text.allBlank args = true) →
    d.at? argsPath = some (defaultArgs s.engineConfig.maxTotalTokens)
  /-- A mirror that is given stands with its store, and a model of the hub with its name there. -/
  mirror : ∀ uri, s.mirrorConfig = some uri → uri ≠ "" →
    d.at? ["engine_config", "s3_mirror_config", "bucket_uri"] = some (.text uri) ∨
      d.at? ["engine_config", "gcs_mirror_config", "bucket_uri"] = some (.text uri)
  hub : ∀ id, s.hfModelId = some id → id ≠ "" →
    d.at? ["engine_config", "hf_model_id"] = some (.text id)
  /-- A table without entries is not written. -/
  resources : d.at? ["scaling_config", "resources_per_worker"] =
    if s.scalingConfig.resourcesPerWorker.isEmpty then none
    else some (.object (s.scalingConfig.resourcesPerWorker.entries.map fun e => (e.1, .text e.2)))
  /-- The default target is two fifths of the concurrent queries, rounded down, and the words that
  it is computed in hold every number on the way. -/
  target : (derivedTarget s.deploymentConfig.maxConcurrentQueries).toInt =
        ⌊(0.4 : ℚ) * s.deploymentConfig.maxConcurrentQueries.toInt⌋ ∧
      0 ≤ (derivedTarget s.deploymentConfig.maxConcurrentQueries).toInt ∧
      (derivedTarget s.deploymentConfig.maxConcurrentQueries).toInt ≤
        s.deploymentConfig.maxConcurrentQueries.toInt ∧
      (targetProduct s.deploymentConfig.maxConcurrentQueries).toInt =
        s.deploymentConfig.maxConcurrentQueries.toInt * targetPercent ∧
      (derivedTarget s.deploymentConfig.maxConcurrentQueries).toInt =
        (targetProduct s.deploymentConfig.maxConcurrentQueries / 100).toInt

/-- The spec that asks for the system text in that of the user, and is the same otherwise. -/
def withSystemInUser (s : VersionSpec) : VersionSpec :=
  { s with engineConfig := { s.engineConfig with generation := { s.engineConfig.generation with
      promptFormat := { s.engineConfig.generation.promptFormat with systemInUser := true } } } }

def assembled (s : VersionSpec) (args : Data) (source : ModelSource) : ServingConfig where
  deployment := deploymentOf s.deploymentConfig
  modelId := s.modelId
  source := source
  engineType := s.engineConfig.type
  engineArgs := args
  maxTotalTokens := s.engineConfig.maxTotalTokens
  prompt := promptOf s.engineConfig.generation.promptFormat
  stoppingSequences := s.engineConfig.generation.stoppingSequences.getD [defaultStoppingSequence]
  scaling := s.scalingConfig

theorem ofSpec_eq_ok {tell : Yaml.ReadError → String} (h : ofSpec tell s = .ok c) :
    s.validate = .ok () ∧ ∃ args source, argsOf tell s.engineConfig = .ok args ∧
      sourceOf s = .ok source ∧ c = assembled s args source := by
  unfold ofSpec at h
  cases hvalid : s.validate with
  | error e => simp [hvalid, bind, Except.bind] at h
  | ok =>
    cases hargs : argsOf tell s.engineConfig with
    | error e => simp [hvalid, hargs, bind, Except.bind] at h
    | ok args =>
      cases hsource : sourceOf s with
      | error e => simp [hvalid, hargs, hsource, bind, Except.bind] at h
      | ok source =>
        simp only [hvalid, hargs, hsource, bind, Except.bind, Except.ok.injEq] at h
        exact ⟨rfl, args, source, rfl, rfl, h.symm⟩

theorem maxConcurrentQueries_nonneg (h : s.validate = .ok ()) :
    0 ≤ s.deploymentConfig.maxConcurrentQueries.toInt := by
  unfold VersionSpec.validate at h
  split at h
  · contradiction
  · split at h
    · contradiction
    · split at h
      · contradiction
      · next hnone =>
        have hcount :=
          List.find?_eq_none.mp hnone ("maxConcurrentQueries",
            s.deploymentConfig.maxConcurrentQueries)
          (by simp [VersionSpec.deploymentValues])
        have hle : ¬ s.deploymentConfig.maxConcurrentQueries < 0 := by simpa using hcount
        exact Int.not_lt.mp fun hlt => hle (Int32.lt_iff_toInt_lt.mpr hlt)

variable {args : Data} {source : ModelSource}

theorem deployment_found (s : VersionSpec) (args : Data) (source : ModelSource) :
    ∀ m ∈ deploymentCounterparts s.deploymentConfig, (assembled s args source).toData.at? m.path =
      some m.due := by
  simp only [deploymentCounterparts, List.forall_mem_cons]
  refine ⟨rfl, rfl, rfl, ?_, rfl, List.forall_mem_nil _⟩
  have htarget : (assembled s args source).toData.at?
      ["deployment_config", "auto_scaling_config", "target_num_ongoing_requests_per_replica"] =
        some (.int (deploymentOf s.deploymentConfig).targetNumOngoingRequests.toInt) := rfl
  rw [htarget]
  unfold deploymentOf Counterpart.due
  split <;> rfl

theorem engine_found (s : VersionSpec) (args : Data) (source : ModelSource) :
    ∀ m ∈ engineCounterparts s, (assembled s args source).toData.at? m.path = some m.due := by
  have hstopping :
      (assembled s args source).toData.at? ["engine_config", "generation", "stopping_sequences"] =
      some
        (.list ((s.engineConfig.generation.stoppingSequences.getD [defaultStoppingSequence]).map
          .text)) := by
    cases source <;> rfl
  simp only [engineCounterparts, List.forall_mem_cons]
  refine ⟨rfl, ?_, ?_, ?_, List.forall_mem_nil _⟩
  · cases source <;> rfl
  · cases source <;> rfl
  · rw [hstopping]
    cases s.engineConfig.generation.stoppingSequences <;> rfl

theorem prompt_found (s : VersionSpec) (args : Data) (source : ModelSource) (name : String) :
    (assembled s args source).toData.at? (promptPath name) =
      (promptData (promptOf s.engineConfig.generation.promptFormat)).at? [name] := by
  cases source <;> rfl

theorem filled_found {path : List String} {t other : String}
    (h : d.at? path = some (.text (orDefault t other))) :
    d.at? (filled path t other).path = some (filled path t other).due := by
  unfold orDefault at h
  unfold filled Counterpart.due
  split <;> simp_all

theorem prompts_found (s : VersionSpec) (args : Data) (source : ModelSource) :
    ∀ m ∈ promptCounterparts (withSystemInUser s).engineConfig.generation.promptFormat,
      (assembled s args source).toData.at? m.path = some m.due := by
  have hfilled (name t other : String)
      (h : (promptData (promptOf s.engineConfig.generation.promptFormat)).at? [name] =
        some (.text (orDefault t other))) :=
    filled_found ((prompt_found s args source name).trans h)
  have hkept (name : String) (value : Data)
      (h : (promptData (promptOf s.engineConfig.generation.promptFormat)).at? [name] = some value) :
      (assembled s args source).toData.at? (kept (promptPath name) value).path =
        some (kept (promptPath name) value).due :=
    (prompt_found s args source name).trans h
  simp only [promptCounterparts, List.forall_mem_cons]
  exact ⟨hfilled _ _ _ rfl, hfilled _ _ _ rfl, hkept _ _ rfl, hfilled _ _ _ rfl, hkept _ _ rfl,
    hkept _ _ rfl, hkept _ _ rfl, hkept _ _ rfl, List.forall_mem_nil _⟩

theorem scaling_found (s : VersionSpec) (args : Data) (source : ModelSource) :
    ∀ m ∈ scalingCounterparts s.scalingConfig, (assembled s args source).toData.at? m.path =
      some m.due := by
  simp only [scalingCounterparts, List.forall_mem_cons]
  exact ⟨rfl, rfl, rfl, List.forall_mem_nil _⟩

theorem args_found (s : VersionSpec) (args : Data) (source : ModelSource) :
    (assembled s args source).toData.at? argsPath = some args := by
  cases source <;> rfl

theorem resources_found (s : VersionSpec) (args : Data) (source : ModelSource) :
    (assembled s args source).toData.at? ["scaling_config", "resources_per_worker"] =
      if s.scalingConfig.resourcesPerWorker.isEmpty then none
      else some (.object (s.scalingConfig.resourcesPerWorker.entries.map fun e =>
        (e.1, .text e.2))) := by
  have hscaling : (assembled s args source).toData.at? ["scaling_config", "resources_per_worker"] =
      (scalingData s.scalingConfig).at? ["resources_per_worker"] := rfl
  rw [hscaling, scalingData, Meta.tableMember]
  split <;> rfl

theorem args_given {tell : Yaml.ReadError → String} {e : EngineConfig} {given : String}
    (h : argsOf tell e = .ok args) (hgiven : e.vllmArgs = some given)
    (hblank : Text.allBlank given = false) :
    Yaml.readMapping given = .ok args := by
  simp only [argsOf, hgiven, hblank, Bool.false_eq_true, if_false] at h
  cases hread : Yaml.readMapping given with
  | error why => rw [hread] at h; contradiction
  | ok d =>
    rw [hread] at h
    exact congrArg Except.ok (Except.ok.inj h)

theorem args_standard {tell : Yaml.ReadError → String} {e : EngineConfig}
    (h : argsOf tell e = .ok args)
    (hblank : ∀ given, e.vllmArgs = some given → Text.allBlank given = true) :
    args = defaultArgs e.maxTotalTokens := by
  unfold argsOf at h
  cases hgiven : e.vllmArgs with
  | none => rw [hgiven] at h; exact (Except.ok.inj h).symm
  | some given =>
    simp only [hgiven, hblank given hgiven, if_true] at h
    exact (Except.ok.inj h).symm

theorem source_of_mirror {uri : String} (h : sourceOf s = .ok source)
    (hmirror : s.mirrorConfig = some uri) (hgiven : uri ≠ "") :
    source = .s3 uri ∨ source = .gcs uri := by
  rw [sourceOf_of_given hmirror hgiven] at h
  split at h
  · exact .inl (Except.ok.inj h).symm
  · split at h
    · exact .inr (Except.ok.inj h).symm
    · contradiction

theorem source_of_hub {id : String} (hvalid : s.validate = .ok ()) (h : sourceOf s = .ok source)
    (hid : s.hfModelId = some id) (hgiven : id ≠ "") : source = .hub id := by
  have hnone : ∀ uri, s.mirrorConfig = some uri → uri = "" := by
    intro uri hmirror
    refine Decidable.of_not_not fun hother => ?_
    have hboth : (VersionSpec.given s.hfModelId && VersionSpec.given s.mirrorConfig) = true := by
      simp [VersionSpec.given, hid, hmirror, hgiven, hother]
    unfold VersionSpec.validate at hvalid
    rw [hboth] at hvalid
    split at hvalid <;> contradiction
  rw [sourceOf_of_none hnone, hid, Option.filter_some] at h
  simpa [hgiven, eq_comm] using h

/-- A configuration has everything of the version, if the system text is to stand in that of the
user. -/
theorem faithful_assembled {tell : Yaml.ReadError → String} (hvalid : s.validate = .ok ())
    (hargs : argsOf tell s.engineConfig = .ok args) (hsource : sourceOf s = .ok source) :
    Faithful (withSystemInUser s) (assembled s args source).toData where
  members := by
    simp only [counterparts, List.forall_mem_append]
    exact ⟨⟨⟨deployment_found s args source, engine_found s args source⟩,
      prompts_found s args source⟩, scaling_found s args source⟩
  args given hgiven hblank := ⟨args, args_given hargs hgiven hblank, args_found s args source⟩
  standardArgs hblank :=
    (args_found s args source).trans (congrArg some (args_standard hargs hblank))
  mirror uri hmirror hgiven := by
    rcases source_of_mirror hsource hmirror hgiven with rfl | rfl
    · exact .inl rfl
    · exact .inr rfl
  hub id hid hgiven := by
    obtain rfl := source_of_hub hvalid hsource hid hgiven
    rfl
  resources := resources_found s args source
  target := by
    obtain ⟨hfloor, hlow, hhigh⟩ := derivedTarget_eq_floor (maxConcurrentQueries_nonneg hvalid)
    exact ⟨hfloor, hlow, hhigh, toInt_targetProduct _, (toInt_derivedTarget _).1⟩

/-- What is written down of a version is made of its spec, its arguments and its source, and has
everything but what the version says of the system text. -/
theorem faithful_of_tree (h : tree v = .ok d) :
    Faithful (withSystemInUser v.spec) d ∧
      d.at? (promptPath "system_in_user") = some (.bool true) := by
  cases hc : ofSpec Yaml.ReadError.message v.spec with
  | error why => rw [tree, hc] at h; contradiction
  | ok c =>
    rw [tree, hc] at h
    obtain rfl := Except.ok.inj h
    obtain ⟨hvalid, args, source, hargs, hsource, rfl⟩ := ofSpec_eq_ok hc
    exact ⟨faithful_assembled hvalid hargs hsource,
      prompt_found v.spec args source "system_in_user"⟩

/-- A configuration in which the engine is told to put the system text there is only faithful to a
version that asks for it. -/
theorem asked_of_faithful (hall : Faithful s d)
    (hsaid : d.at? (promptPath "system_in_user") = some (.bool true)) :
    s.engineConfig.generation.promptFormat.systemInUser = true := by
  have hmember := hall.members (kept (promptPath "system_in_user")
    (.bool s.engineConfig.generation.promptFormat.systemInUser))
      (by simp [counterparts, promptCounterparts])
  have hsame := Option.some.inj (hsaid.symm.trans hmember)
  exact (Data.bool.inj hsame).symm

/-- For every version that a configuration can be made of, the configuration has everything of the
version exactly when the version asks for the system text in that of the user: it says so itself in
any case, and all else is kept. -/
theorem faithful_iff_systemInUser (h : generate v = .ok text) :
    ∃ d, tree v = .ok d ∧ text = Yaml.Writer.write d ∧
      (Faithful v.spec d ↔ v.spec.engineConfig.generation.promptFormat.systemInUser = true) ∧
      Faithful (withSystemInUser v.spec) d ∧
      d.at? (promptPath "system_in_user") = some (.bool true) := by
  rw [generate_eq] at h
  cases htree : tree v with
  | error why => rw [htree] at h; contradiction
  | ok d =>
    rw [htree] at h
    obtain ⟨hfaithful, hsaid⟩ := faithful_of_tree htree
    refine ⟨d, rfl, (Except.ok.inj h).symm,
      ⟨fun hall => asked_of_faithful hall hsaid, fun hasked => ?_⟩, hfaithful, hsaid⟩
    have hsame : withSystemInUser v.spec = v.spec := by
      rw [withSystemInUser, ← hasked]
    exact hsame ▸ hfaithful

def prompted (asked : Bool) : Version :=
  ⟨.named "default" "v1",
    { VersionSpec.empty with
      templateName := "llama"
      modelId := "m"
      engineConfig := { EngineConfig.empty with
        vllmArgs := some "max_num_seq: 8"
        generation := { Generation.empty with
          promptFormat := { PromptFormat.empty with user := "<user>", systemInUser := asked } } }
      deploymentConfig := { DeploymentConfig.standard with maxConcurrentQueries := 64 } },
    .empty⟩

theorem generated_prompted (asked : Bool) : ∃ text, generate (prompted asked) = .ok text := by
  rw [generate_eq]
  have hok : (tree (prompted asked)).isOk = true := by
    cases asked <;> decide +kernel
  cases htree : tree (prompted asked) with
  | error why =>
    rw [htree] at hok
    contradiction
  | ok d => exact ⟨_, rfl⟩

/-- A version that asks for the system text there is kept whole, with its arguments and the default
target. -/
theorem faithful_iff_systemInUser_asked :
    ∃ text d mapping, generate (prompted true) = .ok text ∧ tree (prompted true) = .ok d ∧
      Faithful (prompted true).spec d ∧ Yaml.readMapping "max_num_seq: 8" = .ok mapping ∧
      d.at? argsPath = some mapping ∧
      d.at? ["deployment_config", "auto_scaling_config",
        "target_num_ongoing_requests_per_replica"] = some (.int 25) := by
  obtain ⟨text, htext⟩ := generated_prompted true
  obtain ⟨d, htree, -, hiff, -⟩ := faithful_iff_systemInUser htext
  have hall := hiff.mpr rfl
  obtain ⟨mapping, hread, hargs⟩ := hall.args _ rfl (by decide)
  have hderived : (derivedTarget 64).toInt = 25 := by decide +kernel
  have htarget := hall.members
    ⟨["deployment_config", "auto_scaling_config", "target_num_ongoing_requests_per_replica"],
      .int 0, some (.int 25)⟩
    (by simp [counterparts, deploymentCounterparts, prompted, DeploymentConfig.standard, hderived])
  exact ⟨text, d, mapping, htext, htree, hall, hread, hargs, htarget⟩

/-- A version that does not ask for the system text in its own text of the user is told to the
engine as if it did. -/
theorem systemInUser_overruled :
    (∃ text, generate (prompted false) = .ok text) ∧
      ∀ d, tree (prompted false) = .ok d → d.at? (promptPath "system_in_user") = some (.bool true) ∧
        ¬ Faithful (prompted false).spec d := by
  refine ⟨generated_prompted false, fun d htree => ?_⟩
  have hsaid := (faithful_of_tree htree).2
  exact ⟨hsaid, fun hall => Bool.noConfusion (asked_of_faithful hall hsaid)⟩

end ServingConfig

end ModelTemplates
