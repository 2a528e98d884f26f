import ModelTemplates.Proofs.Manager.Idle
import ModelTemplates.Proofs.Template.Selection
/-! A template without a default comes to its earliest member when it can refer to it by its
name. -/
namespace ModelTemplates
namespace ManagerWorkers

variable {generate : ServingGenerator} {s : ManagerWorkers} {k : Key} {t : Template}

/-- Wherever a template without a default has a member, deliveries of it come to the earliest one:
by the third of them when the name of that version is a reference to it, and never otherwise. -/
theorem settles_on_earliest_iff (h : Reachable generate s)
    (ht : s.world.stores.templates.get? k = some t) (hl : t.deleting = false)
    (hk : t.defaultVersionKey = none)
    (hm : ∃ j v, s.world.stores.versions.get? j = some v ∧ t.Lists v) (now : Nat → Timestamp) :
    ∃ v, t.Earliest s.world.stores.versions v ∧
      (t.Referable v → Template.SettlesOn s.world k now v 2) ∧
      ∀ n, Template.SettlesOn s.world k now v n → t.Referable v := by
  have hkeyed : s.world.stores.versions.Keyed := h.sound.recorded.keyed
  obtain rfl := h.sound.keyed k t ht
  obtain ⟨j, x, hj, hx⟩ := hm
  obtain ⟨v, hv⟩ := Template.exists_earliest hkeyed hj hx
  have hstart := Template.underway_start (v := v) rfl ht hl hk
  refine ⟨v, hv, fun hr => ?_, fun n hs => ?_⟩
  · exact Template.settlesOn_third hstart hkeyed hv hk hr
  · exact Template.referable_of_settlesOn hstart hkeyed hv hs

/-- A template and a version of it that has its number, before the template is looked at. -/
def numberedWith (v : Version) : Manager World :=
  born.manager.moved written default
    [.template (.create llama ⟨0⟩ default), .version (.create v ⟨1⟩ default), .feed .version,
      .work .version, .feed .version, .work .version]

def versionIn (n : Manager World) (k : Key) : Version :=
  (n.state.stores.versions.get? k).getD default

theorem settles_on_earliest_iff_first :
    ∃ (s : ManagerWorkers) (v : Version), Reachable written s ∧ v.key = first.key ∧
      v.status.version = 1 ∧ Template.SettlesOn s.world llama.key (fun _ => default) v 2 := by
  have hrun : ∃ s, Run written born s ∧ s.Unmanned (numberedWith first) := born_unmanned.moved _
  obtain ⟨s, hr, hu⟩ := hrun
  have hs : Reachable written s := reachable_born.run hr
  have ht : s.world.stores.templates.get? llama.key = some (llamaIn (numberedWith first)) := by
    rw [hu.world]; decide +kernel
  have hall : s.world.stores.versions.all = [versionIn (numberedWith first) first.key] := by
    rw [hu.world]; decide +kernel
  have hlists : (llamaIn (numberedWith first)).Lists (versionIn (numberedWith first) first.key) :=
    ⟨by decide +kernel, by decide +kernel, by decide +kernel⟩
  have hv := Template.earliest_of_all_eq hs.sound.recorded.keyed hall hlists
  obtain ⟨v, hearliest, hsettles, -⟩ :=
    settles_on_earliest_iff hs ht (by decide +kernel) (by decide +kernel)
    ⟨_, _, hv.stored, hlists⟩ fun _ => default
  obtain rfl := hearliest.unique hv
  exact ⟨s, _, hs, by decide +kernel, by decide +kernel, hsettles (by decide +kernel)⟩

def slashed : Version :=
  ⟨.named "default" "a/b", { VersionSpec.empty with templateName := "llama" }, .empty⟩

/-- Deliveries never come to the only member when its name has a slash. -/
theorem slashed_default_unsettled :
    ∃ (s : ManagerWorkers) (t : Template) (v : Version), Reachable written s ∧
      s.world.stores.templates.get? llama.key = some t ∧ t.deleting = false ∧
      t.defaultVersionKey = none ∧ t.Earliest s.world.stores.versions v ∧ v.metadata.name = "a/b" ∧
      ∀ now n, ¬ Template.SettlesOn s.world llama.key now v n := by
  have hrun : ∃ s, Run written born s ∧ s.Unmanned (numberedWith slashed) := born_unmanned.moved _
  obtain ⟨s, hr, hu⟩ := hrun
  have hs : Reachable written s := reachable_born.run hr
  have hkeyed : s.world.stores.versions.Keyed := hs.sound.recorded.keyed
  have ht : s.world.stores.templates.get? llama.key = some (llamaIn (numberedWith slashed)) := by
    rw [hu.world]; decide +kernel
  have hall : s.world.stores.versions.all = [versionIn (numberedWith slashed) slashed.key] := by
    rw [hu.world]; decide +kernel
  have hv : (llamaIn (numberedWith slashed)).Earliest s.world.stores.versions
      (versionIn (numberedWith slashed) slashed.key) :=
    Template.earliest_of_all_eq hkeyed hall
      ⟨by decide +kernel, by decide +kernel, by decide +kernel⟩
  have hkey : llama.key = (llamaIn (numberedWith slashed)).key := by decide +kernel
  refine ⟨s, _, _, hs,
    ht, by decide +kernel, by decide +kernel, hv, by decide +kernel, fun now n hsettles => ?_⟩
  rw [hkey] at ht hsettles
  have hstart := Template.underway_start (v := versionIn (numberedWith slashed) slashed.key) rfl ht
    (by decide +kernel) (by decide +kernel)
  have hreferable := Template.referable_of_settlesOn hstart hkeyed hv hsettles
  exact absurd hreferable (by decide +kernel)

end ManagerWorkers
end ModelTemplates
