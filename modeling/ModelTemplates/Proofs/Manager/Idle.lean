import ModelTemplates.Proofs.Manager.Sequential
import ModelTemplates.Proofs.Manager.Settled
/-! Idle controllers have settled everything but what clients did to the versions. -/
namespace ModelTemplates

def Controller.Wiring.Rests {σ τ : Type} (wiring : Controller.Wiring World σ τ) (k : Key)
    (o : Object σ τ) (w : World) :
    Prop :=
  ∀ m, ∀ handler ∈ wiring.change, handler m k o w = (.ok .unchanged, w)

namespace ManagerWorkers

variable {generate : ServingGenerator} {s : ManagerWorkers} {k : Key}

/-- A template rests as long as it is being deleted, or is as a look at the versions leaves it and
has the latest number. -/
theorem rests_template_iff (t : Template) (w : World) :
    (Manager.templateWiring (World.siteFor generate)).Rests t.key t w ↔
      t.deleting = true ∨ t.meets (t.prospect w.stores.versions) = true ∧ t.Synced w.ledger := by
  have hboth : (Manager.templateWiring (World.siteFor generate)).Rests t.key t w ↔ ∀ m : Moment,
      w.perform (t.resolveDefault m.time) = (.ok .unchanged, w) ∧
        w.perform (t.syncLatest t.key m.time) = (.ok .unchanged, w) := by
    refine forall_congr' fun m => ?_
    simp only [Manager.templateWiring, List.forall_mem_cons, List.not_mem_nil, false_implies,
      implies_true, and_true]
    rfl
  rw [hboth]
  simp only [Template.resolveDefault_unchanged_iff, Template.syncLatest_unchanged_iff,
    forall_const, or_and_left]

theorem rests_version {v : Version} (h : v.Quiet generate) (k : Key) (w : World) :
    (Manager.versionWiring (World.siteFor generate)).Rests k v w := by
  intro m
  simp only [Manager.versionWiring, List.forall_mem_cons, List.not_mem_nil, false_implies,
    implies_true, and_true]
  exact ⟨congrArg (Plan.run World.answer · w) (h.number m.time),
    congrArg (Plan.run World.answer · w) (h.configure m.time)⟩

theorem sees_idle {κ σ τ : Type} [Preorder κ] {x : Object σ τ → Concern κ σ τ} {n : κ}
    {b : ControllerWorkers σ τ} {d : Store σ τ} {o : Object σ τ} (h : b.Sees x n d k o)
    (hb : b.busy = []) (hp : ¬ b.controller.Pending d k) :
    (x o).enough n := by
  rcases h with h | ⟨L, hL, -⟩ | ⟨-, he⟩
  · exact absurd h hp
  · have hk : k ∈ b.busy := List.mem_map_of_mem hL
    exact absurd (hb ▸ hk) List.not_mem_nil
  · exact he

/-- What holds as soon as both controllers are idle and have read all that they were told. -/
structure Calm (generate : ServingGenerator) (s : ManagerWorkers) : Prop where
  templates : s.templates.busy = []
  versions : s.versions.busy = []
  quiet : ∀ k v, s.world.stores.versions.get? k = some v → Version.Quiet generate v
  settled : ∀ (k : Key) (t : Template), s.world.stores.templates.get? k = some t →
    t.deleting = true ∨ s.Looked t ∧ t.Synced s.world.ledger

theorem Sound.calm (hs : Sound generate s) (hidle : s.manager.isIdle = true)
    (ht : Controller.waiting
      (Manager.templateWiring (World.siteFor generate)) s.templates.controller s.world = 0)
    (hv : Controller.waiting
      (Manager.versionWiring (World.siteFor generate)) s.versions.controller s.world = 0) :
    Calm generate s := by
  rw [Manager.isIdle, Bool.and_eq_true] at hidle
  obtain ⟨hbusy, hpending⟩ :=
    hs.templates.idle (w := s.world) (Template.wiring_serves generate) hidle.1 ht
  obtain ⟨hbusy', hpending'⟩ :=
    hs.versions.idle (w := s.world) (Version.wiring_serves generate) hidle.2 hv
  refine ⟨hbusy, hbusy', fun k v hk => sees_idle (hs.quiet k v hk) hbusy' (hpending' k),
    fun k t hk => ?_⟩
  have hnone : ¬ Version.Owed s.seen s.versions k := by
    rintro ⟨job, hj, -⟩
    have hk : job.1 ∈ s.versions.busy := List.mem_map_of_mem hj
    exact absurd (hbusy' ▸ hk) List.not_mem_nil
  exact sees_idle ((hs.settled k t hk).resolve_left hnone) hbusy (hpending k)

/-- Whenever both controllers are idle and have read all that they were told, every version rests. A
template rests as well unless the versions, as they are now, make something else of its default than
when they were last looked at, and only clients can have brought that about. -/
theorem idle_settled_iff (h : Reachable generate s) (hidle : s.manager.isIdle = true)
    (ht : Controller.waiting
      (Manager.templateWiring (World.siteFor generate)) s.templates.controller s.world = 0)
    (hv : Controller.waiting
      (Manager.versionWiring (World.siteFor generate)) s.versions.controller s.world = 0) :
    (∀ k v, s.world.stores.versions.get? k = some v →
      (Manager.versionWiring (World.siteFor generate)).Rests k v s.world) ∧
    ∀ (k : Key) (t : Template), s.world.stores.templates.get? k = some t →
      ((Manager.templateWiring (World.siteFor generate)).Rests k t s.world ↔ t.deleting = true ∨
        ∃ d, s.views k = some d ∧ t.prospect s.world.stores.versions = t.prospect d) ∧
      ((∀ e ∈ s.edits k, t.prospect e.1 = t.prospect e.2) →
        (Manager.templateWiring (World.siteFor generate)).Rests k t s.world) := by
  have hcalm := h.sound.calm hidle ht hv
  constructor
  · intro k v hk
    exact rests_version (hcalm.quiet k v hk) k s.world
  intro k t hk
  have henough := hcalm.settled k t hk
  obtain rfl := h.sound.keyed k t hk
  rw [rests_template_iff]
  rcases henough with hdel | ⟨⟨d, hd, hmeets, hclean⟩, hsynced⟩
  · exact ⟨iff_of_true (.inl hdel) (.inl hdel), fun _ => .inl hdel⟩
  · constructor
    · apply or_congr_right
      constructor
      · rintro ⟨hnow, -⟩
        exact ⟨d, hd, Template.prospect_unique hnow hmeets⟩
      · rintro ⟨d', hd', he⟩
        obtain rfl := Option.some.inj (hd.symm.trans hd')
        rw [he]
        exact ⟨hmeets, hsynced⟩
    · intro hc
      right
      rw [hclean hc]
      exact ⟨hmeets, hsynced⟩

def llama : Template := ⟨.named "default" "llama", .empty, .empty⟩

def first : Version :=
  ⟨.named "default" "v1", { VersionSpec.empty with templateName := "llama" }, .empty⟩

def written : ServingGenerator := fun _ => .ok "config"

def born : ManagerWorkers :=
  opening written default default { World.empty with stores := Stores.empty }

theorem born_unmanned : born.Unmanned born.manager := ⟨rfl, rfl, rfl, rfl⟩

theorem reachable_born : Reachable written born :=
  have h : Stores.make? Store.defaultWatchCapacity = some Stores.empty := rfl
  .opening default default h

def rounds (n : Nat) : List Manager.Move :=
  (List.replicate n [.feed .template, .work .template, .feed .version, .work .version]).flatten

def grown : Manager World :=
  born.manager.moved written default
    (.template (.create llama ⟨0⟩ default) :: .version (.create first ⟨1⟩ default) :: rounds 6)

def llamaIn (n : Manager World) : Template := (n.state.stores.templates.get? llama.key).getD default

def firstIn (n : Manager World) : Version := (n.state.stores.versions.get? first.key).getD default

/-- When all is done, the template has looked at the version with its number. -/
theorem idle_settled_iff_grown :
    ∃ (s : ManagerWorkers) (d : VersionStore), Reachable written s ∧ s.manager = grown ∧
      (firstIn grown).assigned = true ∧
      (Manager.versionWiring (World.siteFor written)).Rests first.key (firstIn grown) s.world ∧
      s.views llama.key = some d ∧ (llamaIn grown).prospect d = .number 1 := by
  have hrun : ∃ s, Run written born s ∧ s.Unmanned grown := born_unmanned.moved _
  obtain ⟨s, hr, hu⟩ := hrun
  have hs : Reachable written s := reachable_born.run hr
  have hv : s.world.stores.versions.get? first.key = some (firstIn grown) := by
    rw [hu.world]; decide +kernel
  have ht : s.world.stores.templates.get? llama.key = some (llamaIn grown) := by
    rw [hu.world]; decide +kernel
  have h :=
    idle_settled_iff hs (by rw [hu.manager]; decide +kernel)
      (by rw [hu.templates, hu.world]; decide +kernel)
    (by rw [hu.versions, hu.world]; decide +kernel)
  have hrests :
      (Manager.templateWiring (World.siteFor written)).Rests llama.key (llamaIn grown) s.world := by
    have hkey : llama.key = (llamaIn grown).key := by decide +kernel
    rw [hkey, rests_template_iff, hu.world]
    exact .inr ⟨by decide +kernel, by unfold Template.Synced; decide +kernel⟩
  rcases (h.2 _ _ ht).1.mp hrests with hdel | ⟨d, hd, hp⟩
  · exact absurd hdel (by decide +kernel)
  · refine ⟨s, d, hs, hu.manager, by decide +kernel, h.1 _ _ hv, hd, ?_⟩
    rw [← hp, hu.world]
    decide +kernel

def orphaned : Manager World :=
  grown.moved written default (.version (.delete first.key default) :: rounds 2)

/-- Nothing brings the template of a deleted default back. -/
theorem deleted_default_unsettled :
    ∃ s : ManagerWorkers, Reachable written s ∧ s.manager.isIdle = true ∧
      Controller.waiting (Manager.templateWiring (World.siteFor written)) s.templates.controller
        s.world = 0 ∧
      Controller.waiting (Manager.versionWiring (World.siteFor written)) s.versions.controller
        s.world = 0 ∧
      ∃ t : Template, s.world.stores.templates.get? llama.key = some t ∧
        ¬ (Manager.templateWiring (World.siteFor written)).Rests llama.key t s.world := by
  have hgrown : ∃ s, Run written born s ∧ s.Unmanned grown := born_unmanned.moved _
  obtain ⟨s₀, hr₀, hu₀⟩ := hgrown
  have horphaned : ∃ s, Run written s₀ s ∧ s.Unmanned orphaned := hu₀.moved _
  obtain ⟨s, hr, hu⟩ := horphaned
  refine ⟨s, (reachable_born.run hr₀).run hr, by rw [hu.manager]; decide +kernel,
    by rw [hu.templates, hu.world]; decide +kernel, by rw [hu.versions, hu.world]; decide +kernel,
    llamaIn orphaned, by rw [hu.world]; decide +kernel, ?_⟩
  have hkey : llama.key = (llamaIn orphaned).key := by decide +kernel
  rw [hkey, rests_template_iff, hu.world]
  rintro (hdel | ⟨hmeets, -⟩)
  · exact absurd hdel (by decide +kernel)
  · exact absurd hmeets (by decide +kernel)

end ManagerWorkers
end ModelTemplates
