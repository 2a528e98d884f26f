import ModelTemplates.Serving
/-! Where a serving engine takes the model from. Every configuration tells it of one source. A
mirror counts as one of a store when the scheme of the store stands anywhere in it, not only in
front. -/
namespace ModelTemplates

namespace ServingConfig

variable {v : Version} {s : VersionSpec} {e : EngineConfig} {source : ModelSource}
  {why : ServingError} {uri name other : String} {value found : Data}

def tree (v : Version) : Except ServingError Data :=
  (ofSpec Yaml.ReadError.message v.spec).map toData

theorem generate_eq (v : Version) : generate v = (tree v).map Yaml.Writer.write := by
  unfold generate generateWith tree
  cases ofSpec Yaml.ReadError.message v.spec <;> rfl

def sourceNames : List String := ["hf_model_id", "s3_mirror_config", "gcs_mirror_config"]

def sourcesIn (d : Data) : List (Data × Data) :=
  match d.get? "engine_config" with
  | some (.record members) => members.filter fun m =>
    match m.1 with
    | .text name => sourceNames.contains name
    | _ => false
  | _ => []

/-- A bucket of a store. -/
def bucket (uri : String) : Data := .object [("bucket_uri", .text uri)]

/-- There is a configuration for the version, and it tells the engine of one source alone, by its
name and where it is. -/
def Renders (v : Version) (name : String) (value : Data) : Prop :=
  ∃ d, tree v = .ok d ∧ generate v = .ok (Yaml.Writer.write d) ∧ sourcesIn d = [(.text name, value)]

theorem Renders.unique (h : Renders v name value) (h' : Renders v other found) :
    name = other ∧ value = found := by
  obtain ⟨d, htree, -, hsources⟩ := h
  obtain ⟨d', htree', -, hsources'⟩ := h'
  obtain rfl : d = d' := Except.ok.inj (htree.symm.trans htree')
  simpa using hsources.symm.trans hsources'

theorem Renders.generated (h : Renders v name value) : ∃ text, generate v = .ok text := by
  obtain ⟨d, -, htext, -⟩ := h
  exact ⟨_, htext⟩

theorem sourcesIn_toData (c : ServingConfig) :
    sourcesIn c.toData = [(.text (sourceMember c.source).1, (sourceMember c.source).2)] := by
  cases c with
  | mk deployment modelId source engineType engineArgs maxTotalTokens prompt
      stoppingSequences scaling =>
    cases source <;> rfl

def ArgsRead (e : EngineConfig) : Prop :=
  ∀ args, e.vllmArgs = some args → Text.allBlank args = true ∨ ∃ d, Yaml.readMapping args = .ok d

theorem ArgsRead.argsOf (h : ArgsRead e) (tell : Yaml.ReadError → String) :
    ∃ d, argsOf tell e = .ok d := by
  unfold ServingConfig.argsOf
  cases hargs : e.vllmArgs with
  | none => exact ⟨_, rfl⟩
  | some args =>
    rcases h args hargs with hblank | ⟨d, hread⟩
    · exact ⟨_, if_pos hblank⟩
    · simp only [hread]
      split <;> exact ⟨_, rfl⟩

/-- Of a valid spec whose arguments can be read, only the source can be at fault. -/
theorem map_source_ofSpec (hvalid : s.validate = .ok ()) (hargs : ArgsRead s.engineConfig)
    (tell : Yaml.ReadError → String) : (ofSpec tell s).map ServingConfig.source = sourceOf s := by
  obtain ⟨args, hread⟩ := hargs.argsOf tell
  cases hsource : sourceOf s <;> simp [ofSpec, hvalid, hread, hsource, bind,
    Except.bind, Except.map]

theorem renders_source (hvalid : v.spec.validate = .ok ()) (hargs : ArgsRead v.spec.engineConfig)
    (hsource : sourceOf v.spec = .ok source) :
    Renders v (sourceMember source).1 (sourceMember source).2 := by
  have hmap := map_source_ofSpec hvalid hargs Yaml.ReadError.message
  cases hc : ofSpec Yaml.ReadError.message v.spec with
  | error why =>
    rw [hc, hsource] at hmap
    contradiction
  | ok c =>
    rw [hc, hsource] at hmap
    obtain rfl : c.source = source := Except.ok.inj hmap
    have htree : tree v = .ok c.toData := by rw [tree, hc]; rfl
    exact ⟨c.toData, htree, by rw [generate_eq, htree]; rfl, sourcesIn_toData c⟩

theorem generate_of_sourceOf_error (hvalid : v.spec.validate = .ok ())
    (hargs : ArgsRead v.spec.engineConfig) (hsource : sourceOf v.spec = .error why) :
    generate v = .error why := by
  have hmap := map_source_ofSpec hvalid hargs Yaml.ReadError.message
  cases hc : ofSpec Yaml.ReadError.message v.spec with
  | error found =>
    rw [hc, hsource] at hmap
    obtain rfl : found = why := Except.error.inj hmap
    rw [generate_eq, tree, hc]
    rfl
  | ok c =>
    rw [hc, hsource] at hmap
    contradiction

theorem sourceOf_of_given (hmirror : s.mirrorConfig = some uri) (hgiven : uri ≠ "") : sourceOf s =
    if Text.includes "s3://".toList uri.toList then .ok (.s3 uri)
    else if Text.includes "gs://".toList uri.toList then .ok (.gcs uri)
    else .error (.invalidMirror uri) := by
  simp only [sourceOf, hmirror, Option.filter_some, hgiven, ne_eq, not_false_eq_true,
    decide_true, if_true]

theorem sourceOf_of_none (hnone : ∀ uri, s.mirrorConfig = some uri → uri = "") :
    sourceOf s = .ok (.hub ((s.hfModelId.filter (· ≠ "")).getD s.modelId)) := by
  unfold sourceOf
  cases hmirror : s.mirrorConfig with
  | none => rfl
  | some uri => simp [hnone uri hmirror, Option.filter_some]

theorem not_begins_both {cs : List Char} (hs3 : "s3://".toList <+: cs) :
    ¬ "gs://".toList <+: cs := by
  intro hgcs
  have hsame := List.prefix_of_prefix_length_le hs3 hgcs (by decide)
  exact absurd hsame (by decide)

/-- A mirror that begins with the scheme of a store is one of that store, and the only source. Any
other is refused. -/
structure FollowsScheme (v : Version) (uri : String) : Prop where
  generated : (∃ text, generate v = .ok text) ↔
    "s3://".toList <+: uri.toList ∨ "gs://".toList <+: uri.toList
  s3 : "s3://".toList <+: uri.toList → Renders v "s3_mirror_config" (bucket uri)
  gcs : "gs://".toList <+: uri.toList → Renders v "gcs_mirror_config" (bucket uri)
  refused : ¬ "s3://".toList <+: uri.toList → ¬ "gs://".toList <+: uri.toList →
    generate v = .error (.invalidMirror uri)

/-- The scheme of a mirror tells of which store it is. Without a mirror, the model is taken from the
hub: the one that is named for it, or else the one of the version. -/
structure ChosenByScheme (v : Version) : Prop where
  mirror : ∀ uri, v.spec.mirrorConfig = some uri → uri ≠ "" → FollowsScheme v uri
  named : (∀ uri, v.spec.mirrorConfig = some uri → uri = "") →
    ∀ id, v.spec.hfModelId = some id → id ≠ "" → Renders v "hf_model_id" (.text id)
  own : (∀ uri, v.spec.mirrorConfig = some uri → uri = "") →
    (∀ id, v.spec.hfModelId = some id → id = "") → Renders v "hf_model_id" (.text v.spec.modelId)

/-- The scheme that a mirror is judged by stands in front of it, or there is none in it. That of S3
is looked for before the other one. -/
def SchemeInFront (uri : String) : Prop :=
  "s3://".toList <+: uri.toList ∨
    ¬ "s3://".toList <:+: uri.toList ∧
    ("gs://".toList <+: uri.toList ∨ ¬ "gs://".toList <:+: uri.toList)

theorem schemeInFront_empty : SchemeInFront "" := by
  simp [SchemeInFront]

theorem renders_mirror (hvalid : v.spec.validate = .ok ()) (hargs : ArgsRead v.spec.engineConfig)
    (hmirror : v.spec.mirrorConfig = some uri) (hgiven : uri ≠ "") :
    ("s3://".toList <:+: uri.toList → Renders v "s3_mirror_config" (bucket uri)) ∧
      (¬ "s3://".toList <:+: uri.toList → "gs://".toList <:+: uri.toList →
        Renders v "gcs_mirror_config" (bucket uri)) ∧
      (¬ "s3://".toList <:+: uri.toList → ¬ "gs://".toList <:+: uri.toList →
        generate v = .error (.invalidMirror uri)) := by
  simp only [← Text.includes_iff]
  have hsource := sourceOf_of_given hmirror hgiven
  refine ⟨fun hs3 => ?_, fun hs3 hgcs => ?_, fun hs3 hgcs => ?_⟩
  · rw [if_pos hs3] at hsource
    exact renders_source hvalid hargs hsource
  · rw [if_neg hs3, if_pos hgcs] at hsource
    exact renders_source hvalid hargs hsource
  · rw [if_neg hs3, if_neg hgcs] at hsource
    exact generate_of_sourceOf_error hvalid hargs hsource

/-- What the configuration of a valid version without a mirror tells. -/
theorem renders_hub (hvalid : v.spec.validate = .ok ()) (hargs : ArgsRead v.spec.engineConfig)
    (hnone : ∀ uri, v.spec.mirrorConfig = some uri → uri = "") :
    (∀ id, v.spec.hfModelId = some id → id ≠ "" → Renders v "hf_model_id" (.text id)) ∧
      ((∀ id, v.spec.hfModelId = some id → id = "") →
        Renders v "hf_model_id" (.text v.spec.modelId)) := by
  have hrenders := renders_source hvalid hargs (sourceOf_of_none hnone)
  constructor
  · intro id hid hgiven
    simpa [sourceMember, hid, hgiven, Option.filter_some] using hrenders
  · intro hempty
    cases hid : v.spec.hfModelId with
    | none => simpa [sourceMember, hid] using hrenders
    | some id => simpa [sourceMember, hid, hempty id hid, Option.filter_some] using hrenders

theorem followsScheme_iff (hvalid : v.spec.validate = .ok ()) (hargs : ArgsRead v.spec.engineConfig)
    (hmirror : v.spec.mirrorConfig = some uri) (hgiven : uri ≠ "") :
    FollowsScheme v uri ↔ SchemeInFront uri := by
  obtain ⟨hs3, hgcs, hrefused⟩ := renders_mirror hvalid hargs hmirror hgiven
  constructor
  · intro h
    by_cases hins3 : "s3://".toList <:+: uri.toList
    · have hrenders := hs3 hins3
      rcases h.generated.mp hrenders.generated with hbegins | hbegins
      · exact .inl hbegins
      · exact absurd (hrenders.unique (h.gcs hbegins)).1 (by decide)
    · refine .inr ⟨hins3, ?_⟩
      by_cases hingcs : "gs://".toList <:+: uri.toList
      · rcases h.generated.mp (hgcs hins3 hingcs).generated with hbegins | hbegins
        · exact absurd hbegins.isInfix hins3
        · exact .inl hbegins
      · exact .inr hingcs
  · rintro (hbegins | ⟨hins3, hbegins | hingcs⟩)
    · have hother := not_begins_both hbegins
      have hrenders := hs3 hbegins.isInfix
      exact ⟨iff_of_true hrenders.generated (.inl hbegins), fun _ => hrenders,
        fun h => absurd h hother, fun h => absurd hbegins h⟩
    · have hother : ¬ "s3://".toList <+: uri.toList := fun h => hins3 h.isInfix
      have hrenders := hgcs hins3 hbegins.isInfix
      exact ⟨iff_of_true hrenders.generated (.inr hbegins), fun h => absurd h hother,
        fun _ => hrenders, fun _ h => absurd hbegins h⟩
    · have hother : ¬ ("s3://".toList <+: uri.toList ∨ "gs://".toList <+: uri.toList) := by
        rintro (h | h)
        · exact hins3 h.isInfix
        · exact hingcs h.isInfix
      have herror := hrefused hins3 hingcs
      refine ⟨iff_of_false ?_ hother, fun h => absurd (.inl h) hother,
        fun h => absurd (.inr h) hother, fun _ _ => herror⟩
      rintro ⟨text, htext⟩
      rw [herror] at htext
      contradiction

/-- For a valid version whose arguments can be read, the source is the one that the scheme of its
mirror tells exactly when that scheme stands in front, or none in the mirror at all; always so
without a mirror. A scheme that stands elsewhere makes the mirror one of its store as well. -/
theorem chosen_by_scheme_iff (hvalid : v.spec.validate = .ok ())
    (hargs : ArgsRead v.spec.engineConfig) :
    (ChosenByScheme v ↔ ∀ uri, v.spec.mirrorConfig = some uri → SchemeInFront uri) ∧
      ∀ uri, v.spec.mirrorConfig = some uri → ¬ SchemeInFront uri →
        ("s3://".toList <:+: uri.toList → Renders v "s3_mirror_config" (bucket uri)) ∧
          (¬ "s3://".toList <:+: uri.toList → Renders v "gcs_mirror_config" (bucket uri)) := by
  refine ⟨⟨fun h uri hmirror => ?_, fun hfront => ?_⟩, fun uri hmirror helsewhere => ?_⟩
  · by_cases hgiven : uri = ""
    · exact hgiven ▸ schemeInFront_empty
    · exact (followsScheme_iff hvalid hargs hmirror hgiven).mp (h.mirror uri hmirror hgiven)
  · constructor
    · intro uri hmirror hgiven
      exact (followsScheme_iff hvalid hargs hmirror hgiven).mpr (hfront uri hmirror)
    · intro hnone
      exact (renders_hub hvalid hargs hnone).1
    · intro hnone
      exact (renders_hub hvalid hargs hnone).2
  · have hgiven : uri ≠ "" := by
      rintro rfl
      exact helsewhere schemeInFront_empty
    obtain ⟨hs3, hgcs, -⟩ := renders_mirror hvalid hargs hmirror hgiven
    refine ⟨hs3, fun hins3 => hgcs hins3 ?_⟩
    by_cases hingcs : "gs://".toList <:+: uri.toList
    · exact hingcs
    · exact absurd (.inr ⟨hins3, .inr hingcs⟩) helsewhere

def mirrored (uri : String) : Version :=
  ⟨.named "default" "v1",
    { VersionSpec.empty with templateName := "llama", modelId := "m", mirrorConfig := some uri },
    .empty⟩

theorem validate_mirrored (uri : String) : (mirrored uri).spec.validate = .ok () := by
  have hmodel : Text.allBlank (mirrored uri).spec.modelId = false :=
    show Text.allBlank "m" = false by decide
  have hone :
      (VersionSpec.given (mirrored uri).spec.hfModelId &&
        VersionSpec.given (mirrored uri).spec.mirrorConfig) =
      false := rfl
  have hcounts : (mirrored uri).spec.deploymentValues.find? (fun v => v.2 < 0) = none :=
    show VersionSpec.empty.deploymentValues.find? (fun v => v.2 < 0) = none by decide
  simp only [VersionSpec.validate, hmodel, hone, hcounts, Bool.false_eq_true, if_false]

theorem argsRead_mirrored (uri : String) : ArgsRead (mirrored uri).spec.engineConfig := nofun

theorem chosen_by_scheme_iff_gcs :
    ∃ v : Version, v.spec.validate = .ok () ∧ ArgsRead v.spec.engineConfig ∧ ChosenByScheme v ∧
      Renders v "gcs_mirror_config" (bucket "gs://models/llama") := by
  have hins3 : ¬ "s3://".toList <:+: "gs://models/llama".toList := by simp [List.infix_cons_iff]
  have hbegins : "gs://".toList <+: "gs://models/llama".toList := by decide
  have hchosen : ChosenByScheme (mirrored "gs://models/llama") := by
    apply (chosen_by_scheme_iff (validate_mirrored _) (argsRead_mirrored _)).1.mpr
    intro uri hmirror
    obtain rfl : "gs://models/llama" = uri := Option.some.inj hmirror
    exact .inr ⟨hins3, .inl hbegins⟩
  exact ⟨_, validate_mirrored _, argsRead_mirrored _, hchosen,
    (hchosen.mirror _ rfl (by decide)).gcs hbegins⟩

/-- Two valid versions have mirrors in which the scheme of S3 stands inside. One that is of no store
is not refused, and one of the other store is told as one of S3. -/
theorem inner_scheme_chosen :
    ¬ ChosenByScheme (mirrored "ftp://models/s3://llama") ∧
      ¬ ChosenByScheme (mirrored "gs://models/s3://llama") := by
  constructor
  · intro h
    have hins3 : "s3://".toList <:+: "ftp://models/s3://llama".toList := by
      simp [List.infix_cons_iff]
    have hrenders :=
      (renders_mirror (validate_mirrored _) (argsRead_mirrored _) rfl (by decide)).1 hins3
    have hbegins := (h.mirror _ rfl (by decide)).generated.mp hrenders.generated
    exact absurd hbegins (by decide)
  · intro h
    have hins3 : "s3://".toList <:+: "gs://models/s3://llama".toList := by
      simp [List.infix_cons_iff]
    have hrenders :=
      (renders_mirror (validate_mirrored _) (argsRead_mirrored _) rfl (by decide)).1 hins3
    have hgcs := (h.mirror _ rfl (by decide)).gcs (by decide)
    exact absurd (hrenders.unique hgcs).1 (by decide)

end ServingConfig

end ModelTemplates
