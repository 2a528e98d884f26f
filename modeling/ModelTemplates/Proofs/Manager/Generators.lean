import ModelTemplates.Proofs.Manager.Turns
import ModelTemplates.Proofs.Plan.Requests
/-! Numbering does not depend on how versions are configured. Two runs of the same turns, with
configurations from different generators, stay alike: they differ only in what `Version.bare` takes
away. -/
namespace ModelTemplates

variable {α : Type} {w w' : World} {r : Request} {p : Plan α} {t : Template} {d d' : VersionStore}
  {v v' : Version} {k : Key} {now : Timestamp} {m : Moment} {generate generate' : ServingGenerator}

def Version.Alike (d d' : VersionStore) : Prop :=
  ∀ k, (d.get? k).map Version.bare = (d'.get? k).map Version.bare

theorem Version.Alike.symm (h : Version.Alike d d') : Version.Alike d' d := fun k => (h k).symm

theorem Version.Alike.get? (h : Version.Alike d d') (hk : d.get? k = some v) :
    ∃ v' : Version, d'.get? k = some v' ∧ v'.bare = v.bare := by
  have hbare := h k
  rw [hk] at hbare
  exact Option.map_eq_some_iff.mp hbare.symm

theorem Version.Alike.get?_none (h : Version.Alike d d') (hk : d.get? k = none) :
    d'.get? k = none := by
  have hbare := h k
  rw [hk] at hbare
  exact Option.map_eq_none_iff.mp hbare.symm

structure World.Alike (w w' : World) : Prop where
  templates : w.stores.templates = w'.stores.templates
  ledger : w.ledger = w'.ledger
  versions : Version.Alike w.stores.versions w'.stores.versions

def Request.Unversioned : Request → Prop
  | .version _ => False
  | .versions .. => False
  | .updateVersion _ => False
  | .updateVersionStatus _ => False
  | _ => True

theorem World.Alike.answer (h : w.Alike w') (hr : r.Unversioned) :
    (World.answer r w).1 = (World.answer r w').1 ∧
      (World.answer r w).2.Alike (World.answer r w').2 := by
  obtain ⟨ht, hl, hv⟩ := h
  cases r with
  | version | versions | updateVersion | updateVersionStatus => exact hr.elim
  | template | templates => exact ⟨by simp only [World.answer, ht], ht, hl, hv⟩
  | updateTemplate t =>
    simp only [World.answer, ht]
    cases w'.stores.templates.update t with
    | error e => exact ⟨rfl, ht, hl, hv⟩
    | ok p => exact ⟨rfl, rfl, hl, hv⟩
  | updateTemplateStatus t =>
    simp only [World.answer, ht]
    cases w'.stores.templates.updateStatus t with
    | error e => exact ⟨rfl, ht, hl, hv⟩
    | ok p => exact ⟨rfl, rfl, hl, hv⟩
  | latest => exact ⟨by simp only [World.answer, hl], ht, hl, hv⟩
  | advance => exact ⟨by simp only [World.answer, hl], ht, by simp only [World.answer, hl], hv⟩
  | removeEntry => exact ⟨by simp only [World.answer, hl], ht, by simp only [World.answer, hl], hv⟩
  | lock | unlock | publish | enqueue => exact ⟨rfl, ht, hl, hv⟩

theorem World.Alike.perform (h : w.Alike w') (hp : p.Asks Request.Unversioned) :
    (w.perform p).1 = (w'.perform p).1 ∧ (w.perform p).2.Alike (w'.perform p).2 := by
  induction p generalizing w w' with
  | done a => exact ⟨rfl, h⟩
  | ask r next ih =>
    obtain ⟨hanswer, hafter⟩ := h.answer hp.1
    have hnext := ih _ hafter (hp.2 (World.answer r w').1)
    simp only [World.perform, Plan.run_ask, hanswer]
    exact hnext

namespace Template

theorem resolution_bare (t : Template) (o : Option Version) :
    t.resolution (o.map Version.bare) = t.resolution o := by
  cases o with
  | none => rfl
  | some v =>
    simp only [resolution, Option.map_some]
    rw [Version.bare_assignedNumber]
    rfl

theorem lists_bare : t.Lists v.bare ↔ t.Lists v := by
  have hm : t.isMember v.bare = t.isMember v := by
    simp only [isMember, Version.bare_ownedBy, Version.bare_assigned]
  constructor
  · rintro ⟨hs, hl, h⟩
    exact ⟨hs, hl, hm ▸ h⟩
  · rintro ⟨hs, hl, h⟩
    exact ⟨hs, hl, hm.symm ▸ h⟩

/-- The first version to be selected is the same but for its configuration. -/
theorem Earliest.alike (h : t.Earliest d v) (hd : d'.Keyed) (ha : Version.Alike d d') :
    ∃ v', t.Earliest d' v' ∧ v'.bare = v.bare := by
  obtain ⟨v', hv', hbare⟩ := ha.get? h.stored
  have hkey : v'.key = v.key := hd _ _ hv'
  refine ⟨v', ⟨hkey ▸ hv', ?_, fun k x hk (hx : t.Lists x) => ?_⟩, hbare⟩
  · rw [← lists_bare, hbare, lists_bare]
    exact h.lists
  · obtain ⟨y, hy, hsame⟩ := ha.symm.get? hk
    have hprecedes : precedes v y = true :=
      h.least k y hy (lists_bare.mp (hsame ▸ lists_bare.mpr hx))
    have hcongr : precedes v'.bare (Version.bare x) = precedes v.bare y.bare := by rw [hbare, hsame]
    exact hcongr.trans hprecedes

theorem earliest?_alike (hd : d.Keyed) (hd' : d'.Keyed) (ha : Version.Alike d d') :
    (t.earliest? (t.labelled d)).map Version.bare =
      (t.earliest? (t.labelled d')).map Version.bare := by
  cases h : t.earliest? (t.labelled d) with
  | some v =>
    obtain ⟨v', hv', hbare⟩ := ((earliest?_labelled hd).mp h).alike hd' ha
    rw [(earliest?_labelled hd').mpr hv', Option.map_some, Option.map_some, hbare]
  | none =>
    cases h' : t.earliest? (t.labelled d') with
    | none => rfl
    | some v' =>
      obtain ⟨v, hv, -⟩ := ((earliest?_labelled hd').mp h').alike hd ha.symm
      rw [(earliest?_labelled hd).mpr hv] at h
      contradiction

theorem alike_selectDefault (h : w.Alike w') (hd : w.stores.versions.Keyed)
    (hd' : w'.stores.versions.Keyed) (t : Template) (now : Timestamp) :
    (w.perform (t.selectDefault now)).1 = (w'.perform (t.selectDefault now)).1 ∧
      (w.perform (t.selectDefault now)).2.Alike (w'.perform (t.selectDefault now)).2 := by
  have hearliest := earliest?_alike (t := t) hd hd' h.versions
  rw [perform_selectDefault, perform_selectDefault]
  cases hv : t.earliest? (t.labelled w.stores.versions) with
  | none =>
    rw [hv] at hearliest
    rw [Option.map_eq_none_iff.mp hearliest.symm]
    exact ⟨rfl, h⟩
  | some v =>
    rw [hv] at hearliest
    obtain ⟨v', hv', hbare⟩ := Option.map_eq_some_iff.mp hearliest.symm
    have hname : v'.metadata.name = v.metadata.name := congrArg (·.metadata.name) hbare
    rw [hv']
    simp only
    rw [hname]
    exact h.perform (.commit (Plan.asks_request trivial) (Plan.asks_request trivial))

theorem unversioned_conclude (t : Template) (key : Key) (now : Timestamp)
    (r : Except Unresolved UInt32) :
    (t.conclude key now r).Asks Request.Unversioned := by
  cases r with
  | error why =>
    simp only [conclude, settle]
    split
    · exact Plan.asks_pure _
    · exact .commit (Plan.asks_request trivial) (Plan.asks_request trivial)
  | ok n =>
    simp only [conclude]
    split
    · exact Plan.asks_pure _
    · exact .commit (Plan.asks_request trivial) (Plan.asks_request trivial)

theorem alike_resolveRef (h : w.Alike w') (t : Template) (key : Key) (now : Timestamp) :
    (w.perform (t.resolveRef key now)).1 = (w'.perform (t.resolveRef key now)).1 ∧
      (w.perform (t.resolveRef key now)).2.Alike (w'.perform (t.resolveRef key now)).2 := by
  have hresolution :
      t.resolution (w.stores.versions.get? key) = t.resolution (w'.stores.versions.get? key) := by
    rw [← resolution_bare, h.versions key, resolution_bare]
  rw [perform_resolveRef_eq, perform_resolveRef_eq, hresolution]
  exact h.perform (unversioned_conclude t key now _)

theorem alike_resolveDefault (h : w.Alike w') (hd : w.stores.versions.Keyed)
    (hd' : w'.stores.versions.Keyed) (t : Template) (now : Timestamp) :
    (w.perform (t.resolveDefault now)).1 = (w'.perform (t.resolveDefault now)).1 ∧
      (w.perform (t.resolveDefault now)).2.Alike (w'.perform (t.resolveDefault now)).2 := by
  unfold resolveDefault
  split
  · exact ⟨rfl, h⟩
  · split
    · exact alike_selectDefault h hd hd' t now
    · exact alike_resolveRef h t _ now

theorem unversioned_syncLatest (k : Key) (t : Template) (now : Timestamp) :
    (t.syncLatest k now).Asks Request.Unversioned := by
  unfold syncLatest
  split
  · exact Plan.asks_pure _
  · refine .bind (Plan.asks_request trivial) fun n => ?_
    split
    · exact Plan.asks_pure _
    · exact .commit (Plan.asks_request trivial) (Plan.asks_request trivial)

theorem unversioned_forgetNumbers (k : Key) (t : Template) (now : Timestamp) :
    (t.forgetNumbers k now).Asks Request.Unversioned := by
  unfold forgetNumbers
  refine .bind (Plan.asks_request trivial) fun removed => ?_
  split
  · exact .bind (.bind (Plan.asks_request trivial) fun _ => Plan.asks_pure _) fun _ =>
      Plan.asks_pure _
  · exact Plan.asks_pure _

end Template

namespace World.Alike

theorem attended_template (h : w.Alike w') (hk : w.stores.templates.Keyed)
    (hd : w.stores.versions.Keyed) (hd' : w'.stores.versions.Keyed) (m : Moment) (k : Key) :
    (Controller.attended (Manager.templateWiring (World.siteFor generate)) m k w).Alike
      (Controller.attended (Manager.templateWiring (World.siteFor generate')) m k w') := by
  cases ht : w.stores.templates.get? k with
  | none =>
    have ht' : w'.stores.templates.get? k = none := h.templates ▸ ht
    rwa [Controller.attended_template_of_none ht, Controller.attended_template_of_none ht']
  | some t =>
    obtain rfl := hk _ _ ht
    have ht' : w'.stores.templates.get? t.key = some t := h.templates ▸ ht
    obtain ⟨hverdict, hresolved⟩ := Template.alike_resolveDefault h hd hd' t m.time
    rw [Controller.attended_template_eq ht, Controller.attended_template_eq ht', hverdict]
    exact (hresolved.perform (Template.unversioned_syncLatest _ _ _)).2

theorem attended_version (h : w.Alike w') (hd : w.stores.versions.Keyed)
    (hd' : w'.stores.versions.Keyed) (m : Moment) (k : Key) :
    (Controller.attended (Manager.versionWiring (World.siteFor generate)) m k w).Alike
      (Controller.attended (Manager.versionWiring (World.siteFor generate')) m k w') := by
  cases hv : w.stores.versions.get? k with
  | none =>
    have hv' := h.versions.get?_none hv
    rwa [Controller.attended_version_of_none hv, Controller.attended_version_of_none hv']
  | some v =>
    obtain ⟨v', hv', hbare⟩ := h.versions.get? hv
    obtain rfl := hd _ _ hv
    have hkey : v'.key = v.key := hd' _ _ hv'
    obtain ⟨q, hq⟩ := Controller.attended_version hv generate m
    obtain ⟨q', hq'⟩ := Controller.attended_version (hkey.symm ▸ hv') generate' m
    rw [hkey] at hq'
    have hcourse :=
      Version.course_congr hbare.symm
        (w.stores.templates.get? (Version.templateKey v)) w.ledger m.time
    have hnamed : v'.templateKey = Version.templateKey v := by
      rw [← Version.bare_templateKey, hbare, Version.bare_templateKey]
    rw [hnamed, ← h.templates, ← h.ledger] at hq'
    refine ⟨?_, ?_, fun j => ?_⟩
    · rw [hq.templates, hq'.templates, h.templates]
    · rw [hq.ledger, hq'.ledger, hcourse.2]
    · by_cases hj : j = v.key
      · rw [hj, hq.stored, hq'.stored, Option.map_some, Option.map_some, hq.bare,
          hq'.bare, hcourse.1]
      · rw [hq.others j hj, hq'.others j hj, h.versions j]

end World.Alike

namespace ManagerTurns

variable {s s' : ManagerTurns}

/-- States that differ at most in how versions are configured. -/
structure Alike (s s' : ManagerTurns) : Prop where
  world : s.world.Alike s'.world
  gone : s.gone = s'.gone

theorem Alike.step (h : s.Alike s') (hs : s.Keyed) (hs' : s'.Keyed) (turn : Turn) :
    (s.step generate turn).Alike (s'.step generate' turn) := by
  obtain ⟨m, act⟩ := turn
  obtain ⟨⟨ht, hl, hv⟩, hgone⟩ := h
  cases act with
  | createTemplate t uid =>
    refine ⟨⟨?_, hl, hv⟩, hgone⟩
    simp only [ManagerTurns.step, World.withTemplates, ht]
  | deleteTemplate k =>
    refine ⟨⟨?_, hl, hv⟩, ?_⟩
    · simp only [ManagerTurns.step, World.withTemplates, ht]
    · simp only [ManagerTurns.step, ht, hgone]
  | createVersion v uid =>
    refine ⟨⟨ht, hl, fun k => ?_⟩, hgone⟩
    have hnone : s.world.stores.versions.get? k = none ↔
      s'.world.stores.versions.get? k = none := by
      rw [← Option.map_eq_none_iff, hv k, Option.map_eq_none_iff]
    simp only [ManagerTurns.step, World.withVersions, Store.serve_create_get?, hnone]
    split
    · rfl
    · exact hv k
  | deleteVersion j =>
    refine ⟨⟨ht, hl, fun k => ?_⟩, hgone⟩
    simp only [ManagerTurns.step, World.withVersions, Store.serve_delete_get?]
    split
    · rfl
    · exact hv k
  | template k =>
    exact ⟨World.Alike.attended_template ⟨ht, hl, hv⟩ hs.templates hs.versions hs'.versions m k,
      hgone⟩
  | version k =>
    exact ⟨World.Alike.attended_version ⟨ht, hl, hv⟩ hs.versions hs'.versions m k, hgone⟩
  | cleanup k uid =>
    have hfound : s.gone? k uid = s'.gone? k uid := by simp only [gone?, hgone]
    unfold ManagerTurns.step
    simp only [hfound]
    split
    · next t _ =>
      have hforgotten :=
        World.Alike.perform ⟨ht, hl, hv⟩ (Template.unversioned_forgetNumbers k t m.time)
      exact ⟨hforgotten.2, hgone⟩
    · exact ⟨⟨ht, hl, hv⟩, hgone⟩

theorem Alike.run (h : s.Alike s') (hs : s.Keyed) (hs' : s'.Keyed)
    (generate generate' : Nat → ServingGenerator) (turns : List Turn) :
    (s.run generate turns).Alike (s'.run generate' turns) := by
  induction turns generalizing s s' generate generate' with
  | nil => exact h
  | cons turn turns ih => exact ih (h.step hs hs' turn) (hs.step _ turn) (hs'.step _ turn) _ _

theorem Alike.refl (s : ManagerTurns) : s.Alike s := ⟨⟨rfl, rfl, fun _ => rfl⟩, rfl⟩

/-- Whatever the turns so far, and however two generators configured versions or failed to: the
ledger and the templates are the same, versions are the same but for their configuration, and every
version has the same number. -/
theorem numbering_whatever_the_configuration (h : s.Keyed)
    (generate generate' : Nat → ServingGenerator) (turns : List Turn) :
    (s.run generate turns).world.ledger = (s.run generate' turns).world.ledger ∧
      (s.run generate turns).world.stores.templates =
      (s.run generate' turns).world.stores.templates ∧
      (∀ k, ((s.run generate turns).world.stores.versions.get? k).map Version.bare =
        ((s.run generate' turns).world.stores.versions.get? k).map Version.bare) ∧
      ∀ k, ((s.run generate turns).world.stores.versions.get? k).bind Version.assignedNumber =
        ((s.run generate' turns).world.stores.versions.get? k).bind Version.assignedNumber := by
  have halike : (s.run generate turns).Alike (s.run generate' turns) :=
    (Alike.refl s).run h h _ _ turns
  obtain ⟨ht, hl, hv⟩ := halike.world
  refine ⟨hl, ht, hv, fun k => ?_⟩
  have hbare (o : Option Version) :
      o.bind Version.assignedNumber = (o.map Version.bare).bind Version.assignedNumber := by
    cases o with
    | none => rfl
    | some v => exact (Version.bare_assignedNumber v).symm
  rw [hbare, hv k, ← hbare]

/-- The version gets the number 1, whether it is configured or not. -/
theorem numbering_whatever_the_configuration_first :
    let configured := empty.run (fun _ _ => .ok "model") firstNumber
    let failing := empty.run (fun _ _ => .error (.invalidSpec .missingModelId)) firstNumber
    (configured.world.stores.versions.get? ⟨"models", "a"⟩).map Version.configured = some true ∧
      (failing.world.stores.versions.get? ⟨"models", "a"⟩).map Version.configured = some false ∧
      (configured.world.stores.versions.get? ⟨"models", "a"⟩).bind Version.assignedNumber = some 1 ∧
      (failing.world.stores.versions.get? ⟨"models", "a"⟩).bind Version.assignedNumber =
      some 1 := by
  intro configured failing
  obtain ⟨-, -, -, hnumbers⟩ :=
    numbering_whatever_the_configuration keyed_empty (fun _ _ => .ok "model")
    (fun _ _ => .error (.invalidSpec .missingModelId)) firstNumber
  have hnumber :
      (configured.world.stores.versions.get? ⟨"models", "a"⟩).bind Version.assignedNumber =
      some 1 := by
    decide
  exact ⟨by decide, by decide, hnumber, (hnumbers _).symm.trans hnumber⟩

end ManagerTurns
end ModelTemplates
