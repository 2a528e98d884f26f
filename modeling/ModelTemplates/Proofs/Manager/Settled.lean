import ModelTemplates.Proofs.Manager.Workers
/-! What every step of a manager keeps: an object that a handler would find something to do on is
pending, in work, or owed another look. -/
namespace ModelTemplates

structure World.Founded (w : World) : Prop where
  recorded : ∃ past, w.stores.versions.Recorded past
  keyed : w.stores.templates.Keyed
  templates : w.stores.templates.watch.kept.length ≤ w.stores.templates.watch.sent
  versions : w.stores.versions.watch.kept.length ≤ w.stores.versions.watch.sent

namespace ManagerWorkers

variable {generate : ServingGenerator} {s s' : ManagerWorkers} {w : World}

/-- What every step keeps. A template that is owed another look is queued before the work that owes
it ends. -/
structure Sound (generate : ServingGenerator) (s : ManagerWorkers) : Prop where
  recorded : s.world.stores.versions.Recorded s.seen
  keyed : s.world.stores.templates.Keyed
  templates : s.templates.controller.Follows s.world.stores.templates s.templates.busy
  versions : s.versions.controller.Follows s.world.stores.versions s.versions.busy
  tidy : ∀ job ∈ s.templates.jobs, job.2.Asks (Template.Tidy job.1)
  conducted : Version.Conducted s.seen s.versions
  quiet : ∀ k v, s.world.stores.versions.get? k = some v →
    s.versions.Sees (Version.concern generate) True s.world.stores.versions k v
  /-- What versions owe to a template need not be known of it yet. -/
  settled : ∀ k t, s.world.stores.templates.get? k = some t → Version.Owed s.seen s.versions k ∨
    s.templates.Sees Template.concern (s.known t) s.world.stores.templates k t

/-- A manager starts in every such world, with everything before it. -/
theorem start_eq (h : w.Founded) (generate : ServingGenerator) (retry : RetryPolicy) (m : Moment) :
    ∃ templates versions,
      Manager.start (World.siteFor generate) m (.make retry w) =
      (.ok (), ⟨templates, versions, w.rebuilt⟩) ∧
      Controller.start (Manager.templateWiring (World.siteFor generate)) m
        (.empty retry) w.rebuilt = (none, templates, w.rebuilt) ∧
      templates.Follows w.stores.templates [] ∧
      (∀ k t, w.stores.templates.get? k = some t → templates.Pending w.stores.templates k) ∧
      versions.Follows w.stores.versions [] ∧
      ∀ k v, w.stores.versions.get? k = some v → versions.Pending w.stores.versions k := by
  obtain ⟨past, hrecorded⟩ := h.recorded
  -- Both begin with nothing queued, and list what is stored.
  obtain ⟨templates, ht, htf, htp⟩ :=
    Controller.follows_start (m := m) (w := w.rebuilt) (c := .empty retry)
    (Template.wiring_serves generate) h.keyed h.templates (TimedQueue.orderly_empty retry) rfl
  obtain ⟨versions, hv, hvf, hvp⟩ :=
    Controller.follows_start (m := m) (w := w.rebuilt) (c := .empty retry)
    (Version.wiring_serves generate) hrecorded.keyed h.versions (TimedQueue.orderly_empty retry) rfl
  refine ⟨templates, versions, ?_, ht, htf, htp, hvf, hvp⟩
  have hrebuild : Manager.rebuild (World.siteFor generate) w = (.ok (), w.rebuilt) := rfl
  simp only [Manager.start, Manager.make, hrebuild, ht, hv]

theorem sound_opening (h : w.Founded) (generate : ServingGenerator) (retry : RetryPolicy)
    (m : Moment) :
    Sound generate (opening generate retry m w) := by
  obtain ⟨templates, versions, hs, -, htf, htp, hvf, hvp⟩ := start_eq h generate retry m
  obtain ⟨past, hrecorded⟩ := h.recorded
  rw [opening, hs]
  exact ⟨hrecorded.current, h.keyed, htf, hvf, fun _ hj => absurd hj List.not_mem_nil,
    fun _ hj => absurd hj List.not_mem_nil, fun k v hv => .inl (hvp k v hv), fun k t ht =>
      .inr (.inl (htp k t ht))⟩

theorem founded_empty {capacity : Nat} {stores : Stores} (h : Stores.make? capacity = some stores) :
    ({ World.empty with stores := stores } : World).Founded := by
  obtain ⟨templates, ht, h⟩ := Option.bind_eq_some_iff.mp h
  obtain ⟨versions, hv, h⟩ := Option.bind_eq_some_iff.mp h
  obtain rfl := Option.some.inj h
  obtain ⟨c, hc, rfl⟩ := Option.map_eq_some_iff.mp ht
  obtain ⟨c', hc', rfl⟩ := Option.map_eq_some_iff.mp hv
  have hkept {α : Type} {c : Channel α} (h : Channel.make? capacity = some c) :
      c.kept.length ≤ c.sent := by
    unfold Channel.make? at h
    split at h
    · contradiction
    · obtain rfl := Option.some.inj h
      exact Nat.le_refl 0
  exact ⟨⟨[], Store.recorded_of_empty rfl⟩, (Store.recorded_of_empty rfl).keyed,
    hkept hc, hkept hc'⟩

theorem Sound.founded (h : Sound generate s) : s.world.forget.Founded :=
  ⟨⟨s.seen, h.recorded⟩, h.keyed, h.templates.watch.kept, h.versions.watch.kept⟩

theorem Sound.client_template (h : Sound generate s) (c : Store.Call TemplateSpec TemplateStatus) :
    Sound generate
      { s with world := s.world.withTemplates (s.world.stores.templates.serve c) } where
  recorded := h.recorded
  keyed := (Store.served h.keyed c).keyed h.keyed
  templates := h.templates.moves (Store.served h.keyed c).moves
  versions := h.versions
  tidy := h.tidy
  conducted := h.conducted
  quiet := h.quiet
  settled k t ht := by
    by_cases ho : Version.Owed s.seen s.versions k
    · exact .inl ho
    · refine .inr (ControllerWorkers.Sees.moves (N := s.known) (fun o hs =>
        ?_) h.templates (Store.served h.keyed c).moves ht)
      exact (h.settled k o hs).resolve_left ho

theorem Sound.client_version (h : Sound generate s) (c : Store.Call VersionSpec VersionStatus)
    (hr : s.world.stores.versions.HasRoom) :
    Sound generate (s.edit (s.world.stores.versions.serve c)) := by
  have hserved := Store.served h.recorded.keyed c
  have hmore : s.seen ⊆ (s.world.stores.versions.serve c).objects.values ++ s.seen :=
    List.subset_append_right _ _
  refine ⟨hserved.recorded h.recorded hr, h.keyed, h.templates,
    h.versions.moves hserved.moves, h.tidy, h.conducted.mono hmore, fun k v hv => ?_,
    fun k t ht => ?_⟩
  · exact ControllerWorkers.Sees.moves (N := fun _ => True) (h.quiet k) h.versions hserved.moves hv
  · exact (h.settled k t ht).imp (fun ho => ho.mono hmore) fun hs => hs.mono (known_edit s t _)

theorem Sound.on_templates (h : Sound generate s) {asked : Option (Key × Request)}
    {b : ControllerWorkers TemplateSpec TemplateStatus}
    (hs : ControllerWorkers.Step Template.handlers
      (Manager.templateWiring (World.siteFor generate)) s.templates s.world asked b w) :
    Sound generate { s.look asked with templates := b, world := w } := by
  have ha := Template.attentive generate
  obtain ⟨hfollows, hmoves⟩ := hs.follows ha h.templates h.keyed
  obtain ⟨htidy, hasked⟩ := hs.asks Template.tidy_handlers h.tidy
  have hworld := hs.world ha
  have hversions : w.stores.versions = s.world.stores.versions := by
    rw [hworld]
    cases asked with
    | none => rfl
    | some p => exact ((hasked p rfl).answer s.world).1
  -- What the step learns of a template is known from now on.
  have hknown (t : Template) : t.concern.learned t.key s.world (s.known t) asked ≤
      known { s.look asked with templates := b, world := w } t := by
    cases asked with
    | none => exact known_le rfl rfl (hworld ▸ .refl t s.world)
    | some p => rw [hworld]; exact learned_le (hasked p rfl) b
  constructor
  · simp only [hversions, look_seen]; exact h.recorded
  · exact hmoves.keyed h.keyed
  · exact hfollows
  · simp only [hversions, look_versions]; exact h.versions
  · exact htidy
  · simp only [look_seen, look_versions]; exact h.conducted
  · simp only [hversions, look_versions]; exact h.quiet
  · simp only [look_seen, look_versions]
    intro k t ht
    by_cases ho : Version.Owed s.seen s.versions k
    · exact .inl ho
    · have hsees :=
        ControllerWorkers.Sees.step (N := s.known) (fun o hg =>
          (h.settled k o hg).resolve_left ho) hs ha
        h.templates h.keyed ht
      obtain rfl := hmoves.keyed h.keyed k t ht
      exact .inr (hsees.mono (hknown t))

theorem Sound.on_versions (h : Sound generate s) {asked : Option (Key × Request)}
    {b : ControllerWorkers VersionSpec VersionStatus} (hr : s.world.stores.versions.HasRoom)
    (hs : ControllerWorkers.Step (Version.handlers generate)
      (Manager.versionWiring (World.siteFor generate)) s.versions s.world asked
      b w) : Sound generate (s.pass b w) := by
  have ha := Version.attentive generate
  obtain ⟨hfollows, hmoves⟩ := hs.follows ha h.versions h.recorded.keyed
  have hworld := hs.world ha
  obtain ⟨hconducted, htemplates, hdebts⟩ := h.conducted.step h.recorded h.keyed hs
  have hrecorded : w.stores.versions.Recorded (w.stores.versions.objects.values ++ s.seen) := by
    rw [hworld]
    cases asked with
    | none => exact h.recorded.note
    | some p => exact (World.answer_leaves s.world p.2).recorded h.recorded hr
  refine ⟨hrecorded, ?_, ?_, hfollows, h.tidy, hconducted, fun k v hv => ?_, fun k t ht => ?_⟩
  · exact htemplates ▸ h.keyed
  · exact htemplates ▸ h.templates.addAll _
  · exact (ControllerWorkers.Sees.step (N := fun _ =>
      True) (h.quiet k) hs ha h.versions h.recorded.keyed hv).mono fun _ => trivial
  · -- A template for which something changed is owed another look, or has just been queued.
    change w.stores.templates.get? k = some t at ht
    change _ ∨ ControllerWorkers.Sees _ _ _ w.stores.templates k t
    rw [htemplates] at ht ⊢
    obtain rfl := h.keyed k t ht
    rcases hdebts t with howed | hqueued | ⟨hnone, halike⟩
    · exact .inl howed
    · exact .inr (.inl (.inl (.inl ((Controller.coming_addAll h.templates _).mpr (.inl hqueued)))))
    · have hsees := ((h.settled _ t ht).resolve_left hnone).addAll h.templates w.enqueued
      exact .inr (hsees.mono (known_le rfl rfl ⟨halike.prospect, halike.latest⟩))

theorem Sound.step (h : Sound generate s) (hs : Step generate s s') : Sound generate s' := by
  cases hs with
  | template c => exact h.client_template c
  | version c hr => exact h.client_version c hr
  | onTemplates hs => exact h.on_templates hs
  | onVersions hr hs => exact h.on_versions hr hs
  | restart retry m => exact sound_opening h.founded generate retry m

theorem Reachable.sound (h : Reachable generate s) : Sound generate s := by
  induction h with
  | opening retry m hstores => exact sound_opening (founded_empty hstores) generate retry m
  | step _ hs ih => exact ih.step hs

end ManagerWorkers
end ModelTemplates
