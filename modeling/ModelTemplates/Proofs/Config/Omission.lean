import ModelTemplates.Config.Load
import ModelTemplates.Proofs.Data.Members
import ModelTemplates.Proofs.Disk.Writing
import ModelTemplates.Proofs.Yaml.Library
/-! Configurations are read back from what is written of them, also after members that have the
standard values have been taken away. What a section is without some of its members and what it is
when it is left out as a whole agree. -/
namespace ModelTemplates

open Yaml.NodeReader (ReadsAs count_reads string_reads boolean_reads variant_reads optional_reads)

variable {α σ : Type} {paths : List (List String)} {seen : List String} {name : String} {t e : Data}
  {usual : List String → Option Data}

namespace Data

/-- At each path there is the usual value. -/
def UsualAt (t : Data) (usual : List String → Option Data) (paths : List (List String)) : Prop :=
  ∀ path ∈ paths, ∃ d, t.at? path = some d ∧ usual path = some d

theorem UsualAt.below (h : t.UsualAt usual paths) (he : t.get? name = some e) :
    e.UsualAt (fun path => usual (name :: path)) (pathsBelow name paths) := by
  intro path hpath
  obtain ⟨d, hd, husual⟩ := h _ (mem_pathsBelow.mp hpath)
  rw [at?, he] at hd
  exact ⟨d, hd, husual⟩

/-- What is not seen because it has been taken away is the usual value. -/
theorem UsualAt.kept_usual {write : α → Data} {a b : α} (h : t.UsualAt usual paths)
    (hgone : name ∉ seen → [name] ∈ paths) (hwrite : Function.Injective write)
    (ha : t.at? [name] = some (write a)) (hb : usual [name] = some (write b)) :
    (if name ∈ seen then a else b) = a := by
  refine kept fun hne => ?_
  by_contra hseen
  obtain ⟨d, hd, husual⟩ := h _ (hgone hseen)
  have hsame : write a = write b :=
    Option.some.inj (ha.symm.trans (hd.trans (husual.symm.trans hb)))
  exact hne (hwrite hsame)

theorem UsualAt.seen_of_none (h : t.UsualAt usual paths) (hgone : name ∉ seen → [name] ∈ paths)
    (hnone : usual [name] = none) : name ∈ seen := by
  by_contra hseen
  obtain ⟨d, -, husual⟩ := h _ (hgone hseen)
  exact absurd (hnone.symm.trans husual) nofun

theorem text_injective : Function.Injective text := fun _ _ => text.inj

theorem bool_injective : Function.Injective bool := fun _ _ => bool.inj

theorem uint64_injective : Function.Injective fun n : UInt64 => int n.toNat :=
  fun _ _ h => UInt64.toNat_inj.mp (Int.ofNat.inj (int.inj h))

theorem uint16_injective : Function.Injective fun n : UInt16 => int n.toNat :=
  fun _ _ h => UInt16.toNat_inj.mp (Int.ofNat.inj (int.inj h))

end Data

/-- A record is read without some of its members when each that stays is taken in as `stage` says,
and the stage without those that are gone makes the value. -/
theorem Yaml.NodeReader.record_reads_without {type : String} {names : List String}
    {members : List (String × Data)} {member : Yaml.Document → Yaml.Path → σ → String → Yaml.Node →
      Yaml.Read σ} {finish : σ → Decoded α} {a : α}
    (stage : List String → σ) (hnames : members.map Prod.fst ⊆ names)
    (hdistinct : (members.map Prod.fst).Nodup)
    (hmember : ∀ m ∈ members, ∀ seen, ReadsAs (fun d path node =>
      member d path (stage seen) m.1 node) (m.2.without (Data.pathsBelow m.1 paths))
        (stage (m.1 :: seen)))
    (hfinish : ∀ seen, (∀ m ∈ members, m.1 ∉ seen → [m.1] ∈ paths) → finish (stage seen) = .ok a) :
    ReadsAs (record type names (stage []) member finish)
      ((Data.object members).without paths) a := by
  rw [Data.without_object]
  have hmap :
      ((members.filter fun m => [m.1] ∉ paths).map fun m =>
        (m.1, m.2.without (Data.pathsBelow m.1 paths))).map
      Prod.fst = (members.filter fun m => [m.1] ∉ paths).map Prod.fst := by
    rw [List.map_map]
    rfl
  have hsub : (members.filter fun m => [m.1] ∉ paths).Sublist members := List.filter_sublist
  refine record_reads stage ?_ ?_ ?_ ?_
  · intro member hmem
    obtain ⟨m, hm, rfl⟩ := List.mem_map.mp hmem
    have hname : m.1 ∈ members.map Prod.fst := List.mem_map_of_mem (hsub.subset hm)
    exact hnames hname
  · rw [hmap]
    exact hdistinct.sublist (hsub.map _)
  · intro member hmem
    obtain ⟨m, hm, rfl⟩ := List.mem_map.mp hmem
    exact hmember m (hsub.subset hm)
  · refine hfinish _ fun m hm hgone => ?_
    by_contra hstays
    refine hgone ?_
    rw [hmap, List.mem_reverse]
    exact List.mem_map_of_mem (List.mem_filter.mpr ⟨hm, by simpa using hstays⟩)

namespace Config

/-- What is usual at a path: what is written there of the standard configuration, unless a manifest
cannot do without it. The standard configuration has no metrics; usual for a member of metrics is
that of an exporter that is enabled on the usual port. -/
def usualAt : List String → Option Data
  | ["apiVersion"] | ["kind"] | ["metadata"] | ["metadata", "name"] => none
  | ["spec", "observability", "metrics", name] => MetricsConfig.standard.toData.get? name
  | path => standard.toData.at? path

end Config

theorem uint64OfNode_reads (n : UInt64) : ReadsAs uint64OfNode (.int n.toNat) n :=
  (count_reads (Nat.le_pred_of_lt n.toNat_lt) n.toNat_lt).bind (by rw [UInt64.ofNat_toNat])

namespace WorkerConfig

def upTo (c : WorkerConfig) (seen : List String) : WorkerConfig where
  workers := if "workers" ∈ seen then c.workers else standard.workers
  releaseName := if "release_name" ∈ seen then c.releaseName else standard.releaseName

theorem toData_injective : Function.Injective toData := by
  rintro ⟨workers, releaseName⟩ ⟨workers', releaseName'⟩ h
  simpa [toData, Data.object, Int.natCast_inj, UInt64.toNat_inj] using h

theorem ofNode_reads (c : WorkerConfig)
    (h : c.toData.UsualAt (fun path => Config.usualAt ("spec" :: "controller" :: path)) paths) :
    ReadsAs ofNode (c.toData.without paths) c := by
  refine Yaml.NodeReader.record_reads_without c.upTo (by simp) (by simp) ?_ fun seen hgone => ?_
  · simp only [List.forall_mem_cons]
    refine ⟨fun seen =>
      (count_reads (Nat.le_pred_of_lt c.workers.toNat_lt) c.workers.toNat_lt).bind ?_,
      fun seen => (string_reads _).bind ?_, List.forall_mem_nil _⟩
    all_goals simp [upTo]
  · simp only [List.forall_mem_cons] at hgone
    obtain ⟨hworkers, hrelease, -⟩ := hgone
    have hw :=
      h.kept_usual hworkers Data.uint64_injective (a := c.workers) (b := standard.workers) rfl rfl
    have hr :=
      h.kept_usual hrelease Data.text_injective (a := c.releaseName)
        (b := standard.releaseName) rfl rfl
    rw [upTo, hw, hr]

end WorkerConfig

namespace RetryConfig

def upTo (c : RetryConfig) (seen : List String) : RetryConfig where
  baseDelayMs := if "base_delay_ms" ∈ seen then c.baseDelayMs else standard.baseDelayMs
  maxDelayMs := if "max_delay_ms" ∈ seen then c.maxDelayMs else standard.maxDelayMs

theorem toData_injective : Function.Injective toData := by
  rintro ⟨base, max⟩ ⟨base', max'⟩ h
  simpa [toData, Data.object, Int.natCast_inj, UInt64.toNat_inj] using h

theorem ofNode_reads (c : RetryConfig)
    (h : c.toData.UsualAt (fun path => Config.usualAt ("spec" :: "retry" :: path)) paths) :
    ReadsAs ofNode (c.toData.without paths) c := by
  refine Yaml.NodeReader.record_reads_without c.upTo (by simp) (by simp) ?_ fun seen hgone => ?_
  · simp only [List.forall_mem_cons]
    refine ⟨fun seen => (uint64OfNode_reads _).bind ?_, fun seen => (uint64OfNode_reads _).bind ?_,
      List.forall_mem_nil _⟩
    all_goals simp [upTo]
  · simp only [List.forall_mem_cons] at hgone
    obtain ⟨hbase, hmax, -⟩ := hgone
    have hb :=
      h.kept_usual hbase Data.uint64_injective (a := c.baseDelayMs)
        (b := standard.baseDelayMs) rfl rfl
    have hm :=
      h.kept_usual hmax Data.uint64_injective (a := c.maxDelayMs) (b := standard.maxDelayMs) rfl rfl
    rw [upTo, hb, hm]

end RetryConfig

namespace ElectionConfig

def upTo (c : ElectionConfig) (seen : List String) : ElectionConfig where
  enabled := if "enabled" ∈ seen then c.enabled else standard.enabled
  lockName := if "lock_name" ∈ seen then c.lockName else standard.lockName
  leaseDurationSecs :=
    if "lease_duration_secs" ∈ seen then c.leaseDurationSecs else standard.leaseDurationSecs
  renewPeriodSecs :=
    if "renew_period_secs" ∈ seen then c.renewPeriodSecs else standard.renewPeriodSecs
  retryPeriodSecs :=
    if "retry_period_secs" ∈ seen then c.retryPeriodSecs else standard.retryPeriodSecs

theorem toData_injective : Function.Injective toData := by
  rintro ⟨enabled, lock, lease, renew, retry⟩ ⟨enabled', lock', lease', renew', retry'⟩ h
  simpa [toData, Data.object, Int.natCast_inj, UInt64.toNat_inj] using h

theorem ofNode_reads (c : ElectionConfig)
    (h : c.toData.UsualAt (fun path =>
      Config.usualAt ("spec" :: "leader_election" :: path)) paths) :
    ReadsAs ofNode (c.toData.without paths) c := by
  refine Yaml.NodeReader.record_reads_without c.upTo (by simp) (by simp) ?_ fun seen hgone => ?_
  · simp only [List.forall_mem_cons]
    refine ⟨fun seen => (boolean_reads _).bind ?_, fun seen => (string_reads _).bind ?_,
      fun seen => (uint64OfNode_reads _).bind ?_, fun seen => (uint64OfNode_reads _).bind ?_,
      fun seen => (uint64OfNode_reads _).bind ?_, List.forall_mem_nil _⟩
    all_goals simp [upTo]
  · simp only [List.forall_mem_cons] at hgone
    obtain ⟨henabled, hlock, hlease, hrenew, hretry, -⟩ := hgone
    have he :=
      h.kept_usual henabled Data.bool_injective (a := c.enabled) (b := standard.enabled) rfl rfl
    have hl :=
      h.kept_usual hlock Data.text_injective (a := c.lockName) (b := standard.lockName) rfl rfl
    have hd :=
      h.kept_usual hlease Data.uint64_injective (a := c.leaseDurationSecs)
        (b := standard.leaseDurationSecs)
      rfl rfl
    have hn :=
      h.kept_usual hrenew Data.uint64_injective (a := c.renewPeriodSecs)
        (b := standard.renewPeriodSecs)
      rfl rfl
    have ht :=
      h.kept_usual hretry Data.uint64_injective (a := c.retryPeriodSecs)
        (b := standard.retryPeriodSecs)
      rfl rfl
    rw [upTo, he, hl, hd, hn, ht]

end ElectionConfig

namespace MetricsConfig

def upTo (c : MetricsConfig) (seen : List String) : MetricsConfig where
  enabled := if "enabled" ∈ seen then c.enabled else standard.enabled
  port := if "port" ∈ seen then c.port else standard.port

theorem toData_injective : Function.Injective toData := by
  rintro ⟨enabled, port⟩ ⟨enabled', port'⟩ h
  simpa [toData, Data.object, Int.natCast_inj, UInt16.toNat_inj] using h

theorem ofNode_reads (c : MetricsConfig)
    (h : c.toData.UsualAt (fun path =>
      Config.usualAt ("spec" :: "observability" :: "metrics" :: path)) paths) :
    ReadsAs ofNode (c.toData.without paths) c := by
  have hport : c.port.toNat < 2 ^ 16 := c.port.toNat_lt
  refine Yaml.NodeReader.record_reads_without c.upTo (by simp) (by simp) ?_ fun seen hgone => ?_
  · simp only [List.forall_mem_cons]
    refine ⟨fun seen => (boolean_reads _).bind ?_,
      fun seen => (count_reads (Nat.le_pred_of_lt hport) (hport.trans (by decide))).bind ?_,
      List.forall_mem_nil _⟩
    all_goals simp [upTo]
  · simp only [List.forall_mem_cons] at hgone
    obtain ⟨henabled, hport, -⟩ := hgone
    have he :=
      h.kept_usual henabled Data.bool_injective (a := c.enabled) (b := standard.enabled) rfl rfl
    have hp := h.kept_usual hport Data.uint16_injective (a := c.port) (b := standard.port) rfl rfl
    rw [upTo, he, hp]

end MetricsConfig

theorem LogFormat.name_injective : Function.Injective LogFormat.name := by
  intro f g h
  cases f <;> cases g <;> first | rfl | exact absurd h (by decide)

namespace ObservabilityConfig

def upTo (c : ObservabilityConfig) (seen : List String) : ObservabilityConfig where
  logLevel := if "log_level" ∈ seen then c.logLevel else standard.logLevel
  logFormat := if "log_format" ∈ seen then c.logFormat else standard.logFormat
  metrics := if "metrics" ∈ seen then c.metrics else none

theorem toData_injective : Function.Injective toData := by
  rintro ⟨level, format, metrics⟩ ⟨level', format', metrics'⟩ h
  cases metrics <;> cases metrics' <;>
    simp_all [toData, Data.object, LogFormat.name_injective.eq_iff,
      MetricsConfig.toData_injective.eq_iff]

theorem ofNode_reads (c : ObservabilityConfig)
    (h : c.toData.UsualAt (fun path => Config.usualAt ("spec" :: "observability" :: path)) paths) :
    ReadsAs ofNode (c.toData.without paths) c := by
  have htree :
      c.toData =
      Data.object ([("log_level", .text c.logLevel), ("log_format", .text c.logFormat.name)] ++
      Meta.optionalMember "metrics" MetricsConfig.toData c.metrics) := by
    cases hm : c.metrics <;> simp [toData, hm, Meta.optionalMember]
  have hmetrics (m : MetricsConfig) (hm : c.metrics = some m) :
      c.toData.get? "metrics" = some m.toData := by
    simp [htree, hm, Meta.optionalMember, Data.object, Data.get?, Data.member?]
  rw [htree]
  refine Yaml.NodeReader.record_reads_without c.upTo ?_ ?_ ?_ fun seen hgone => ?_
  · cases c.metrics <;> simp [Meta.optionalMember]
  · cases c.metrics <;> simp [Meta.optionalMember]
  · simp only [List.forall_mem_append, List.forall_mem_cons, Data.forall_optionalMember, and_assoc]
    refine ⟨fun seen => (string_reads _).bind ?_,
      fun seen => (variant_reads (a := c.logFormat) (by cases c.logFormat <;> rfl)).bind ?_,
      List.forall_mem_nil _, fun m hm seen =>
        (optional_reads (MetricsConfig.ofNode_reads m (h.below (hmetrics m hm)))).bind ?_⟩
    all_goals simp [upTo, *]
  · simp only [List.forall_mem_append, List.forall_mem_cons, Data.forall_optionalMember,
      and_assoc] at hgone
    obtain ⟨hlevel, hformat, -, hexporter⟩ := hgone
    have hl :=
      h.kept_usual hlevel Data.text_injective (a := c.logLevel) (b := standard.logLevel) rfl rfl
    have hf :=
      h.kept_usual hformat (Data.text_injective.comp LogFormat.name_injective) (a := c.logFormat)
      (b := standard.logFormat) rfl rfl
    have hm := Data.kept_some fun m hm => h.seen_of_none (hexporter m hm) rfl
    rw [upTo, hl, hf, hm]

end ObservabilityConfig

namespace ConfigSpec

def upTo (c : ConfigSpec) (seen : List String) : ConfigSpec where
  controller := if "controller" ∈ seen then c.controller else standard.controller
  retry := if "retry" ∈ seen then c.retry else standard.retry
  election := if "leader_election" ∈ seen then c.election else standard.election
  observability := if "observability" ∈ seen then c.observability else standard.observability

theorem toData_injective : Function.Injective toData := by
  rintro ⟨controller, retry, election, observability⟩ ⟨controller', retry', election',
    observability'⟩ h
  simpa [toData, Data.object, WorkerConfig.toData_injective.eq_iff,
    RetryConfig.toData_injective.eq_iff, ElectionConfig.toData_injective.eq_iff,
    ObservabilityConfig.toData_injective.eq_iff] using h

theorem ofNode_reads (c : ConfigSpec)
    (h : c.toData.UsualAt (fun path => Config.usualAt ("spec" :: path)) paths) :
    ReadsAs ofNode (c.toData.without paths) c := by
  refine Yaml.NodeReader.record_reads_without c.upTo (by simp) (by simp) ?_ fun seen hgone => ?_
  · simp only [List.forall_mem_cons]
    refine ⟨fun seen => (WorkerConfig.ofNode_reads _ (h.below rfl)).bind ?_,
      fun seen => (RetryConfig.ofNode_reads _ (h.below rfl)).bind ?_,
      fun seen => (ElectionConfig.ofNode_reads _ (h.below rfl)).bind ?_,
      fun seen => (ObservabilityConfig.ofNode_reads _ (h.below rfl)).bind ?_, List.forall_mem_nil _⟩
    all_goals simp [upTo]
  · simp only [List.forall_mem_cons] at hgone
    obtain ⟨hcontroller, hretry, helection, hobservability, -⟩ := hgone
    have hc :=
      h.kept_usual hcontroller WorkerConfig.toData_injective (a := c.controller)
        (b := standard.controller)
      rfl rfl
    have hr :=
      h.kept_usual hretry RetryConfig.toData_injective (a := c.retry) (b := standard.retry) rfl rfl
    have he :=
      h.kept_usual helection ElectionConfig.toData_injective (a := c.election)
        (b := standard.election) rfl rfl
    have ho :=
      h.kept_usual hobservability ObservabilityConfig.toData_injective (a := c.observability)
      (b := standard.observability) rfl rfl
    rw [upTo, hc, hr, he, ho]

end ConfigSpec

namespace Config

theorem nameOfNode_reads (name : String) (h : (Data.object [("name", .text name)]).UsualAt
    (fun path => usualAt ("metadata" :: path)) paths) :
    ReadsAs nameOfNode ((Data.object [("name", .text name)]).without paths) name := by
  refine Yaml.NodeReader.record_reads_without (fun seen => if "name" ∈ seen then some name
    else none) (by simp)
    (by simp) ?_ fun seen hgone => ?_
  · simp only [List.forall_mem_cons]
    refine ⟨fun seen => (string_reads _).bind ?_, List.forall_mem_nil _⟩
    simp
  · simp only [List.forall_mem_cons] at hgone
    have hname := h.seen_of_none hgone.1 rfl
    rw [if_pos hname]
    rfl

def upTo (c : Config) (seen : List String) : Draft where
  apiVersion := if "apiVersion" ∈ seen then some c.apiVersion else none
  kind := if "kind" ∈ seen then some c.kind else none
  name := if "metadata" ∈ seen then some c.name else none
  spec := if "spec" ∈ seen then c.spec else .standard

theorem ofNode_reads (c : Config) (h : c.toData.UsualAt usualAt paths) :
    ReadsAs ofNode (c.toData.without paths) c := by
  refine Yaml.NodeReader.record_reads_without c.upTo (by simp) (by simp) ?_ fun seen hgone => ?_
  · simp only [List.forall_mem_cons]
    refine ⟨fun seen => (string_reads _).bind ?_, fun seen => (string_reads _).bind ?_,
      fun seen => (nameOfNode_reads _ (h.below rfl)).bind ?_,
      fun seen => (ConfigSpec.ofNode_reads _ (h.below rfl)).bind ?_, List.forall_mem_nil _⟩
    all_goals simp [upTo]
  · simp only [List.forall_mem_cons] at hgone
    obtain ⟨hversion, hkind, hmetadata, hspec, -⟩ := hgone
    have hv := h.seen_of_none hversion rfl
    have hk := h.seen_of_none hkind rfl
    have hm := h.seen_of_none hmetadata rfl
    have hs := h.kept_usual hspec ConfigSpec.toData_injective (a := c.spec) (b := .standard) rfl rfl
    rw [upTo, if_pos hv, if_pos hk, if_pos hm, hs]
    rfl

theorem toData_basic (c : Config) : c.toData.Basic := by
  have hcount (n : UInt64) : (Data.int n.toNat).Basic := .count n.toNat_lt_size
  have hmetrics (m : MetricsConfig) : m.toData.Basic := by
    refine .object (by simp) ?_
    simp only [List.forall_mem_cons]
    exact ⟨.bool _, .count (m.port.toNat_lt.trans (by decide)), List.forall_mem_nil _⟩
  have hobservability (o : ObservabilityConfig) : o.toData.Basic := by
    cases hm : o.metrics <;> rw [ObservabilityConfig.toData, hm] <;> refine .object (by simp) ?_ <;>
      simp only [List.forall_mem_append, List.forall_mem_cons]
    · exact ⟨⟨.text _, .text _, List.forall_mem_nil _⟩, List.forall_mem_nil _⟩
    · exact ⟨⟨.text _, .text _, List.forall_mem_nil _⟩, hmetrics _, List.forall_mem_nil _⟩
  have hspec : c.spec.toData.Basic := by
    refine .object (by simp) ?_
    simp only [List.forall_mem_cons]
    refine ⟨.object (by simp) ?_, .object (by simp) ?_, .object (by simp) ?_, hobservability _,
      List.forall_mem_nil _⟩
    all_goals simp only [List.forall_mem_cons]
    · exact ⟨hcount _, .text _, List.forall_mem_nil _⟩
    · exact ⟨hcount _, hcount _, List.forall_mem_nil _⟩
    · exact ⟨.bool _, .text _, hcount _, hcount _, hcount _, List.forall_mem_nil _⟩
  have hname : (Data.object [("name", .text c.name)]).Basic := by
    refine .object (by simp) ?_
    simp only [List.forall_mem_cons]
    exact ⟨.text _, List.forall_mem_nil _⟩
  refine .object (by simp) ?_
  simp only [List.forall_mem_cons]
  exact ⟨.text _, .text _, hname, hspec, List.forall_mem_nil _⟩

variable {y : Yaml.Library}

/-- A text that says what is left of a configuration is read as that configuration. -/
theorem ofYaml_of_tells {c : Config} {s : String} (h : c.toData.UsualAt usualAt paths)
    (htells : y.tells s (c.toData.without paths) = true) : ofYaml y s = .ok c := by
  unfold Yaml.Library.tells at htells
  unfold ofYaml Yaml.Library.readOne
  split at htells
  · next d hd =>
    rw [Bool.and_eq_true, Option.isNone_iff_eq_none] at htells
    obtain ⟨hwhole, hspells⟩ := htells
    have hread : d.read (fun node => ofNode d .root node) = .ok c := by
      rw [Yaml.Document.read, ofNode_reads c h d .root d.root 0 hspells, hwhole]
    simp only [hd, hread]
    rfl
  · contradiction

theorem readFile_of_ofYaml {c : Config} {s path : String} {disk disk' : Disk}
    (h : ofYaml y s = .ok c) (hwritten : disk.write path s = .ok disk') :
    readFile y disk' path = .ok c := by
  rw [readFile, Disk.read_write hwritten]
  simp only [h]

/-- With a library that reads back the basic data it writes, a configuration is read back from the
manifest that is written of it, and from what is written of it without some members that are usual,
wherever they stand and however many they are, and so from every other text that says what is left:
from the text itself, and from the file that it has been written to. -/
theorem read_back_without_usual (hy : y.RoundTrips) (c : Config) :
    (ofYaml y (c.toYaml y) = .ok c ∧
        ∀ disk disk' path, c.writeFile y disk path = .ok disk' → readFile y disk' path = .ok c) ∧
      ∀ paths, c.toData.UsualAt usualAt paths →
        ofYaml y (y.write (c.toData.without paths)) = .ok c ∧
          ∀ s, y.tells s (c.toData.without paths) = true →
            ofYaml y s = .ok c ∧
              ∀ disk disk' path, Disk.write disk path s = .ok disk' →
                readFile y disk' path = .ok c := by
  have hleft : ∀ paths, c.toData.UsualAt usualAt paths →
      ofYaml y (y.write (c.toData.without paths)) = .ok c := fun paths h =>
    ofYaml_of_tells h (hy _ (c.toData_basic.without paths))
  have hwhole : ofYaml y (c.toYaml y) = .ok c := by
    have h := hleft [] nofun
    rwa [Data.without_nil] at h
  refine ⟨⟨hwhole, fun disk disk' path hwritten => readFile_of_ofYaml hwhole hwritten⟩, ?_⟩
  intro paths h
  refine ⟨hleft paths h, fun s htells => ?_⟩
  have hread := ofYaml_of_tells h htells
  exact ⟨hread, fun disk disk' path hwritten => readFile_of_ofYaml hread hwritten⟩

def tuned : Config where
  apiVersion := requiredApiVersion
  kind := requiredKind
  name := "prod"
  spec := {
    ConfigSpec.standard with
    controller := ⟨4, "vela"⟩
    election := { ElectionConfig.standard with lockName := "locks" }
    observability := ⟨"info", .json, some ⟨true, 8080⟩⟩ }

def tunedUsual : List (List String) :=
  [["spec", "controller", "release_name"], ["spec", "retry"],
    ["spec", "leader_election", "enabled"], ["spec", "leader_election", "lease_duration_secs"],
    ["spec", "leader_election", "renew_period_secs"],
    ["spec", "leader_election", "retry_period_secs"], ["spec", "observability", "log_level"],
    ["spec", "observability", "metrics", "enabled"]]

def tunedShort : List Char :=
  ["apiVersion: vela.dev/v1", "kind: ControllerConfig", "metadata:", "  name: prod", "spec:",
    "  controller:", "    workers: 4", "  leader_election:", "    lock_name: locks",
    "  observability:", "    log_format: json", "    metrics:",
    "      port: 8080"].flatMap fun line => line.toList ++ ['\n']

theorem tuned_tells : Yaml.Library.standard.tells (tuned.toYaml .standard) tuned.toData = true := by
  rewrite [Yaml.Library.tells, Yaml.Library.standard_documents, Yaml.documents, toYaml,
    Yaml.Library.standard_write, Yaml.Writer.write, Yaml.Writer.Pen.text, Yaml.events_ofList]
  decide +kernel

theorem tunedShort_tells :
    Yaml.Library.standard.tells (String.ofList tunedShort) (tuned.toData.without tunedUsual) =
      true := by
  rewrite [Yaml.Library.tells, Yaml.Library.standard_documents, Yaml.documents, Yaml.events_ofList]
  decide +kernel

theorem tuned_head : (tuned.toYaml .standard).toList.head? ≠ some '\x00' := by
  rewrite [toYaml, Yaml.Library.standard_write, Yaml.Writer.write, Yaml.Writer.Pen.text,
    String.toList_ofList]
  decide +kernel

theorem tuned_usualAt : tuned.toData.UsualAt usualAt tunedUsual := by
  simp only [Data.UsualAt, tunedUsual, List.forall_mem_cons]
  exact ⟨⟨_, rfl, rfl⟩, ⟨_, rfl, rfl⟩, ⟨_, rfl, rfl⟩, ⟨_, rfl, rfl⟩, ⟨_, rfl, rfl⟩, ⟨_, rfl, rfl⟩,
    ⟨_, rfl, rfl⟩, ⟨_, rfl, rfl⟩, nofun⟩

theorem ofYaml_mended {s : String} (h : s.toList.head? ≠ some '\x00') :
    ofYaml y.mended s = ofYaml y s := Yaml.Library.mended_readOne h

theorem exists_write_tunedShort :
    ∃ disk, Disk.empty.write "vela-config.yaml" (String.ofList tunedShort) = .ok disk := by
  cases hdisk : Disk.empty.write "vela-config.yaml" (String.ofList tunedShort) with
  | error e =>
    have hok : (Disk.empty.write "vela-config.yaml" (String.ofList tunedShort)).isOk = true := by
      decide +kernel
    rw [hdisk] at hok
    exact Bool.noConfusion hok
  | ok disk => exact ⟨disk, rfl⟩

/-- The mended library writes and reads these texts as the standard one does. By it the manifest
that is written of a configuration is read as it, and so is a short one, from a file as well. -/
theorem read_back_without_usual_tuned :
    ofYaml .standard (tuned.toYaml .standard) = .ok tuned ∧
      ofYaml .standard (String.ofList tunedShort) = .ok tuned ∧
        ∃ disk, Disk.empty.write "vela-config.yaml" (String.ofList tunedShort) = .ok disk ∧
          readFile .standard disk "vela-config.yaml" = .ok tuned := by
  have hmended := Yaml.Library.mended_roundTrips .standard
  obtain ⟨⟨hwhole, -⟩, hwithout⟩ := read_back_without_usual hmended tuned
  have hsame : tuned.toYaml Yaml.Library.standard.mended = tuned.toYaml .standard :=
    Yaml.Library.mended_write tuned_tells tuned_head
  rw [hsame, ofYaml_mended tuned_head] at hwhole
  have hplain : (String.ofList tunedShort).toList.head? ≠ some '\x00' := by
    rw [String.toList_ofList]
    decide +kernel
  obtain ⟨-, hleft⟩ := hwithout tunedUsual tuned_usualAt
  obtain ⟨hread, -⟩ := hleft _ ((Yaml.Library.mended_tells hplain).trans tunedShort_tells)
  rw [ofYaml_mended hplain] at hread
  obtain ⟨disk, hdisk⟩ := exists_write_tunedShort
  exact ⟨hwhole, hread, disk, hdisk, readFile_of_ofYaml hread hdisk⟩

end Config

end ModelTemplates
