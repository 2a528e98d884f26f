import ModelTemplates.Proofs.Object.Reading
import ModelTemplates.Version
/-! Versions read back from what is written of them. -/
namespace ModelTemplates

open Data (ReadsAs)

variable {d : Data} {dialect : Dialect}

theorem EngineType.lookup_text (t : EngineType) : EngineType.variants.lookup t.text = some t := by
  cases t <;> decide

theorem PlacementStrategy.lookup_text (p : PlacementStrategy) :
    PlacementStrategy.variants.lookup p.text = some p := by
  cases p <;> decide

namespace PromptFormat

def upTo (p : PromptFormat) (seen : List String) : PromptFormat where
  system := if "system" ∈ seen then p.system else ""
  assistant := if "assistant" ∈ seen then p.assistant else ""
  trailingAssistant := if "trailingAssistant" ∈ seen then p.trailingAssistant else ""
  user := if "user" ∈ seen then p.user else ""
  defaultSystemMessage := if "defaultSystemMessage" ∈ seen then p.defaultSystemMessage else ""
  systemInUser := if "systemInUser" ∈ seen then p.systemInUser else false
  addSystemTagsEvenIfMessageIsEmpty :=
    if "addSystemTagsEvenIfMessageIsEmpty" ∈ seen then
      p.addSystemTagsEvenIfMessageIsEmpty else false
  stripWhitespace := if "stripWhitespace" ∈ seen then p.stripWhitespace else false

theorem ofData_reads (p : PromptFormat) : ReadsAs ofData p.toData p := by
  refine Data.members_read p.upTo rfl ?_ fun seen hseen => ?_
  · simp only [List.forall_mem_cons, member]
    refine ⟨fun seen => (Data.string_reads _).bind ?_, fun seen => (Data.string_reads _).bind ?_,
      fun seen => (Data.string_reads _).bind ?_, fun seen => (Data.string_reads _).bind ?_,
      fun seen => (Data.string_reads _).bind ?_, fun seen => (Data.boolean_reads _).bind ?_,
      fun seen => (Data.boolean_reads _).bind ?_, fun seen => (Data.boolean_reads _).bind ?_, nofun⟩
    all_goals simp [upTo]
  · simp only [List.forall_mem_cons] at hseen
    simp [upTo, hseen]

end PromptFormat

namespace Generation

def upTo (g : Generation) (seen : List String) : Generation where
  promptFormat := if "promptFormat" ∈ seen then g.promptFormat else .empty
  stoppingSequences := if "stoppingSequences" ∈ seen then g.stoppingSequences else none

theorem ofData_reads (g : Generation) : ReadsAs ofData g.toData g := by
  have hlist (ss : List String) :
      ReadsAs (Data.optional (Data.listOf Data.string)) (.list (ss.map .text)) (some ss) :=
    Data.optional_reads (Data.listOf_reads fun s _ => Data.string_reads s) nofun
  refine Data.members_read g.upTo rfl ?_ fun seen hseen => ?_
  · simp only [List.forall_mem_append, List.forall_mem_cons, Data.forall_optionalMember,
      member, and_assoc]
    refine ⟨fun seen => g.promptFormat.ofData_reads.bind ?_, nofun, fun ss hss seen =>
      (hlist ss).bind ?_⟩
    all_goals simp [upTo, *]
  · simp only [List.forall_mem_append, List.forall_mem_cons, Data.forall_optionalMember,
      and_assoc] at hseen
    obtain ⟨hformat, -, hsequences⟩ := hseen
    simp [upTo, hformat, Data.kept_some hsequences]

end Generation

namespace EngineConfig

def upTo (e : EngineConfig) (seen : List String) : EngineConfig where
  type := if "type" ∈ seen then e.type else .vllm
  maxTotalTokens := if "maxTotalTokens" ∈ seen then e.maxTotalTokens else 0
  vllmArgs := if "vLLMArgs" ∈ seen then e.vllmArgs else none
  generation := if "generation" ∈ seen then e.generation else .empty

theorem ofData_reads (e : EngineConfig) : ReadsAs ofData e.toData e := by
  refine Data.members_read e.upTo rfl ?_ fun seen hseen => ?_
  · simp only [List.forall_mem_append, List.forall_mem_cons, Data.forall_optionalMember,
      member, and_assoc]
    refine ⟨fun seen => (Data.variant_reads e.type.lookup_text).bind ?_, fun seen =>
      (Data.int32_reads _).bind ?_, nofun, fun t ht seen =>
        (Data.optional_reads (Data.string_reads t) nofun).bind ?_,
      fun seen => e.generation.ofData_reads.bind ?_, nofun⟩
    all_goals simp [upTo, *]
  · simp only [List.forall_mem_append, List.forall_mem_cons, Data.forall_optionalMember,
      and_assoc] at hseen
    obtain ⟨htype, htokens, -, hargs, hgeneration, -⟩ := hseen
    simp [upTo, htype, htokens, Data.kept_some hargs, hgeneration]

end EngineConfig

namespace DeploymentConfig

def upTo (c : DeploymentConfig) (seen : List String) : DeploymentConfig where
  replicas := if "replicas" ∈ seen then c.replicas else 1
  minReplicas := if "minReplicas" ∈ seen then c.minReplicas else 1
  maxReplicas := if "maxReplicas" ∈ seen then c.maxReplicas else 2
  maxConcurrentQueries := if "maxConcurrentQueries" ∈ seen then c.maxConcurrentQueries else 0
  targetNumOngoingRequests :=
    if "targetNumOngoingRequests" ∈ seen then c.targetNumOngoingRequests else 0

theorem ofData_reads (c : DeploymentConfig) : ReadsAs ofData c.toData c := by
  refine Data.members_read c.upTo rfl ?_ fun seen hseen => ?_
  · simp only [List.forall_mem_cons, member]
    refine ⟨fun seen => (Data.int32_reads _).bind ?_, fun seen => (Data.int32_reads _).bind ?_,
      fun seen => (Data.int32_reads _).bind ?_, fun seen => (Data.int32_reads _).bind ?_,
      fun seen => (Data.int32_reads _).bind ?_, nofun⟩
    all_goals simp [upTo]
  · simp only [List.forall_mem_cons] at hseen
    simp [upTo, hseen]

end DeploymentConfig

namespace ScalingConfig

def upTo (c : ScalingConfig) (seen : List String) : ScalingConfig where
  numWorkers := if "numWorkers" ∈ seen then c.numWorkers else 0
  numCpusPerWorker := if "numCPUsPerWorker" ∈ seen then c.numCpusPerWorker else 0
  placementStrategy := if "placementStrategy" ∈ seen then c.placementStrategy else .strictPack
  resourcesPerWorker := if "resourcesPerWorker" ∈ seen then c.resourcesPerWorker else .empty

theorem ofData_reads (c : ScalingConfig) : ReadsAs ofData c.toData c := by
  refine Data.members_read c.upTo rfl ?_ fun seen hseen => ?_
  · simp only [List.forall_mem_append, List.forall_mem_cons, Data.forall_tableMember,
      member, and_assoc]
    refine ⟨fun seen => (Data.int32_reads _).bind ?_, fun seen => (Data.int32_reads _).bind ?_,
      fun seen => (Data.variant_reads c.placementStrategy.lookup_text).bind ?_, nofun,
      fun _ seen => (Data.textTable_reads _).bind ?_⟩
    all_goals simp [upTo]
  · simp only [List.forall_mem_append, List.forall_mem_cons, Data.forall_tableMember,
      and_assoc] at hseen
    obtain ⟨hworkers, hcpus, hstrategy, -, hresources⟩ := hseen
    simp [upTo, hworkers, hcpus, hstrategy, Data.kept hresources]

end ScalingConfig

namespace VersionSpec

def upTo (s : VersionSpec) (seen : List String) : Option String × VersionSpec :=
  (if "templateName" ∈ seen then some s.templateName else none,
    { templateName := ""
      modelId := if "modelID" ∈ seen then s.modelId else ""
      hfModelId := if "hfModelID" ∈ seen then s.hfModelId else none
      mirrorConfig := if "mirrorConfig" ∈ seen then s.mirrorConfig else none
      engineConfig := if "engineConfig" ∈ seen then s.engineConfig else .empty
      deploymentConfig := if "deploymentConfig" ∈ seen then s.deploymentConfig else .standard
      scalingConfig := if "scalingConfig" ∈ seen then s.scalingConfig else .empty })

theorem ofData_reads (s : VersionSpec) : ReadsAs ofData s.toData s := by
  refine Data.members_read s.upTo rfl ?_ fun seen hseen => ?_
  · simp only [List.forall_mem_append, List.forall_mem_cons, Data.forall_optionalMember,
      member, and_assoc]
    refine ⟨fun seen => (Data.string_reads _).bind ?_, fun seen =>
      (Data.string_reads _).bind ?_, nofun, fun t ht seen =>
        (Data.optional_reads (Data.string_reads t) nofun).bind ?_,
      fun t ht seen => (Data.optional_reads (Data.string_reads t) nofun).bind ?_,
      fun seen => s.engineConfig.ofData_reads.bind ?_, fun seen =>
        s.deploymentConfig.ofData_reads.bind ?_,
      fun seen => s.scalingConfig.ofData_reads.bind ?_, nofun⟩
    all_goals simp [upTo, *]
  · simp only [List.forall_mem_append, List.forall_mem_cons, Data.forall_optionalMember,
      and_assoc] at hseen
    obtain ⟨hname, hmodel, -, hhf, hmirror, hengine, hdeployment, hscaling, -⟩ := hseen
    simp [upTo, finish, hname, hmodel, Data.kept_some hhf, Data.kept_some hmirror, hengine,
      hdeployment, hscaling, Data.require, ok_bind]

end VersionSpec

namespace VersionStatus

def upTo (s : VersionStatus) (seen : List String) : VersionStatus where
  version := if "version" ∈ seen then s.version else 0
  conditions := if "conditions" ∈ seen then s.conditions else []
  generatedModelConfig := if "generatedModelConfig" ∈ seen then s.generatedModelConfig else none

theorem ofData_reads {s : VersionStatus} (h : ∀ c ∈ s.conditions, c.Regular) :
    ReadsAs ofData s.toData s := by
  refine Data.members_read s.upTo rfl ?_ fun seen hseen => ?_
  · simp only [List.forall_mem_append, List.forall_mem_cons, Data.forall_listMember,
      Data.forall_optionalMember, member, and_assoc]
    refine ⟨fun seen => (Data.uint32_reads _).bind ?_, nofun,
      fun _ seen => (Data.listOf_reads fun c hc => Condition.ofData_reads (h c hc)).bind ?_,
      fun t ht seen => (Data.optional_reads (Data.string_reads t) nofun).bind ?_⟩
    all_goals simp [upTo, *]
  · simp only [List.forall_mem_append, List.forall_mem_cons, Data.forall_listMember,
      Data.forall_optionalMember, and_assoc] at hseen
    obtain ⟨hversion, -, hconditions, hconfig⟩ := hseen
    rw [ne_eq, List.map_eq_nil_iff] at hconditions
    simp [upTo, hversion, Data.kept hconditions, Data.kept_some hconfig]

theorem regular_of_ofData {s : VersionStatus} (h : ofData dialect d = .ok s) :
    ∀ c ∈ s.conditions, c.Regular := by
  refine Data.members_forall (K := fun s => ∀ c ∈ s.conditions, c.Regular)
    (P := fun s => ∀ c ∈ s.conditions, c.Regular) ?_ ?_ ?_ h
  · exact List.forall_mem_nil _
  · intro s name e s' hs h
    rw [member.eq_def] at h
    split at h <;> simp only [bind_eq_ok, Except.ok.injEq] at h
    case h_2 =>
      obtain ⟨cs, hcs, rfl⟩ := h
      exact Data.forall_of_listOf (fun _ _ => Condition.regular_of_ofData) hcs
    case h_4 => exact h ▸ hs
    all_goals
      obtain ⟨a, -, rfl⟩ := h
      exact hs
  · rintro missing s _ hs ⟨⟩
    exact hs

end VersionStatus

namespace Version

structure Regular (v : Version) : Prop where
  metadata : v.metadata.Regular
  conditions : ∀ c ∈ v.status.conditions, c.Regular

def upTo (v : Version) (seen : List String) : Option Meta × Option VersionSpec × VersionStatus :=
  (if "metadata" ∈ seen then some v.metadata else none, if "spec" ∈ seen then some v.spec else none,
    if "status" ∈ seen then v.status else .empty)

theorem ofData_reads {v : Version} (h : Regular v) : ReadsAs ofData v.toData v := by
  refine Data.members_read (upTo v) rfl ?_ fun seen hseen => ?_
  · simp only [List.forall_mem_cons, member]
    refine ⟨fun seen => (Meta.ofData_reads h.metadata).bind ?_, fun seen =>
      (VersionSpec.ofData_reads _).bind ?_, fun seen =>
        (VersionStatus.ofData_reads h.conditions).bind ?_, nofun⟩
    all_goals simp [upTo]
  · simp only [List.forall_mem_cons] at hseen
    obtain ⟨hmetadata, hspec, hstatus, -⟩ := hseen
    simp [upTo, finish, hmetadata, hspec, hstatus, Data.require, ok_bind]

theorem regular_of_ofData {v : Version} (h : ofData dialect d = .ok v) : Regular v := by
  refine Data.members_forall
    (K := fun p => (∀ m ∈ p.1, m.Regular) ∧ ∀ c ∈ p.2.2.conditions, c.Regular) ?_ ?_ ?_ h
  · refine ⟨?_, List.forall_mem_nil _⟩
    rintro m ⟨⟩
  · rintro p name e s' ⟨hmeta, hconditions⟩ h
    rw [member.eq_def] at h
    split at h <;> simp only [bind_eq_ok, Except.ok.injEq] at h
    case h_1 =>
      obtain ⟨m, hm, rfl⟩ := h
      refine ⟨?_, hconditions⟩
      rintro _ ⟨⟩
      exact Meta.regular_of_ofData hm
    case h_2 =>
      obtain ⟨s, -, rfl⟩ := h
      exact ⟨hmeta, hconditions⟩
    case h_3 =>
      obtain ⟨s, hs, rfl⟩ := h
      exact ⟨hmeta, VersionStatus.regular_of_ofData hs⟩
    case h_4 => exact h ▸ ⟨hmeta, hconditions⟩
  · rintro missing p v ⟨hmeta, hconditions⟩ h
    obtain ⟨m, hm, h⟩ := bind_eq_ok.mp h
    obtain ⟨s, -, h⟩ := bind_eq_ok.mp h
    obtain rfl := Except.ok.inj h
    exact ⟨hmeta m (Data.require_eq_ok hm), hconditions⟩

end Version
end ModelTemplates
