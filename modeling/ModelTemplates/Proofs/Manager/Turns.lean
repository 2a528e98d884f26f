import ModelTemplates.Proofs.Handler.Contract
import ModelTemplates.Proofs.Store.Client
import ModelTemplates.Proofs.Template.Upkeep
/-! Clients and controllers that take turns: in each turn a client creates or deletes an object, the
handlers of a controller are called with what is stored under a key, or the numbers of a deleted
template are forgotten. -/
namespace ModelTemplates

namespace Controller

variable {ω σ τ : Type} {generate : ServingGenerator}

/-- The world after the handlers were called with a live object, all of them unless one broke
off. -/
def shown (wiring : Wiring ω σ τ) (m : Moment) (k : Key) (live : Option (Object σ τ)) (w : ω) : ω :=
  match live with
  | some o => (changeAll m k wiring.change true o w).2
  | none => w

def attended (wiring : Wiring ω σ τ) (m : Moment) (k : Key) (w : ω) : ω :=
  match wiring.read k w with
  | (.ok live, w) => shown wiring m k live w
  | (.error _, w) => w

theorem settleLive_world (wiring : Wiring ω σ τ) (m : Moment) (k : Key) (live : Option (Object σ τ))
    (c : Controller σ τ) (w : ω) :
    (settleLive wiring m k live c w).2.2 = shown wiring m k live w := by
  cases live with
  | none => rfl
  | some o => exact settleLive_some_world wiring m k o c w

theorem process_snd {wiring : Wiring ω σ τ} {m : Moment} {k : Key} {w w' : ω}
    {c c' : Controller σ τ} {removed : Bool} (live : Option (Object σ τ))
    (hread : wiring.read k w = (.ok live, w))
    (ht : settleTombstone wiring m k live c w = (some removed, c', w')) :
    (process wiring m k c w).2 = shown wiring m k live w' := by
  cases hl : settleLive wiring m k live c' w' with
  | mk changed rest =>
  obtain ⟨c₂, w₂⟩ := rest
  rw [process_of_turn hread ht hl, ← settleLive_world wiring m k live c' w', hl]

theorem process_version (generate : ServingGenerator) (m : Moment) (k : Key)
    (c : Controller VersionSpec VersionStatus) (w : World) :
    (process (Manager.versionWiring (World.siteFor generate)) m k c w).2 =
      attended (Manager.versionWiring (World.siteFor generate)) m k w := by
  have hremove : (Manager.versionWiring (World.siteFor generate)).remove = [] := rfl
  obtain ⟨c', ht⟩ := settleTombstone_of_nil hremove m k (w.stores.versions.get? k) c w
  rw [process_snd (w.stores.versions.get? k) rfl ht]
  rfl

/-- Work on the key of a template has the numbers forgotten of one that is gone, and does nothing
else to the world. -/
theorem process_template (generate : ServingGenerator) (m : Moment) (k : Key)
    (c : Controller TemplateSpec TemplateStatus) (w : World) :
    (process (Manager.templateWiring (World.siteFor generate)) m k c w).2 =
      attended (Manager.templateWiring (World.siteFor generate)) m k
        (match (c.tombstones.find? k).filter fun t => isGone t (w.stores.templates.get? k) with
          | some t => (w.perform (Template.forgetNumbers k t m.time)).2
          | none => w) := by
  cases htomb : c.tombstones.find? k with
  | none =>
    have ht :
        settleTombstone (Manager.templateWiring (World.siteFor generate)) m k
          (w.stores.templates.get? k) c w =
        (some true, c, w) := by
      simp only [settleTombstone, htomb]
    rw [process_snd (w.stores.templates.get? k) rfl ht]
    rfl
  | some t =>
    by_cases hgone : isGone t (w.stores.templates.get? k) = true
    · have hforget : (Template.forgetNumbers k t m.time).run (World.siteFor generate).answer w =
          (.ok (), (w.perform (Template.forgetNumbers k t m.time)).2) := by
        change w.perform _ = _
        rw [Template.perform_forgetNumbers]
      have hremove :
          removeAll m k t (Manager.templateWiring (World.siteFor generate)).remove true w =
          (some true, (w.perform (Template.forgetNumbers k t m.time)).2) := by
        simp only [removeAll, Manager.templateWiring, hforget]
      have ht : ∃ c', settleTombstone (Manager.templateWiring (World.siteFor generate)) m k
          (w.stores.templates.get? k) c w =
            (some true, c', (w.perform (Template.forgetNumbers k t m.time)).2) := by
        simp only [settleTombstone, htomb, hgone, if_true, hremove]
        exact ⟨_, rfl⟩
      obtain ⟨c', ht⟩ := ht
      have hstored : (w.perform (Template.forgetNumbers k t m.time)).2.stores = w.stores :=
        (Template.forgotten w k t m.time).2.stores
      rw [process_snd (w.stores.templates.get? k) rfl ht]
      simp only [hgone, if_true, Option.filter_some]
      change _ =
        shown _ m k ((w.perform (Template.forgetNumbers k t m.time)).2.stores.templates.get? k) _
      rw [hstored]
    · have ht : ∃ c', settleTombstone (Manager.templateWiring (World.siteFor generate)) m k
          (w.stores.templates.get? k) c w = (some true, c', w) := by
        simp only [settleTombstone, htomb, if_neg hgone]
        exact ⟨_, rfl⟩
      obtain ⟨c', ht⟩ := ht
      rw [process_snd (w.stores.templates.get? k) rfl ht]
      simp only [hgone, Option.filter_some]
      rfl

variable {k : Key} {w : World} {v : Version} {t : Template}

theorem attended_version_of_none (hk : w.stores.versions.get? k = none)
    (generate : ServingGenerator) (m : Moment) :
    attended (Manager.versionWiring (World.siteFor generate)) m k w = w := by
  change shown _ m k (w.stores.versions.get? k) w = w
  rw [hk]
  rfl

theorem attended_version (hv : w.stores.versions.get? v.key = some v) (generate : ServingGenerator)
    (m : Moment) :
    ∃ q, Version.Comes w (attended (Manager.versionWiring (World.siteFor generate)) m v.key w) v.key
      (v.course (w.stores.templates.get? v.templateKey) w.ledger m.time) q := by
  have hnumber := Version.comesBy_number hv m.time
  have hconfigure := Version.comesBy_configure (hnumber.key.symm ▸ hnumber.stored) generate m.time
  unfold Version.ComesBy at hconfigure
  rw [hnumber.key] at hconfigure
  have hattended : attended (Manager.versionWiring (World.siteFor generate)) m v.key w =
      (calls m v.key (Manager.versionWiring (World.siteFor generate)).change v w).2 := by
    change shown _ m v.key (w.stores.versions.get? v.key) w = _
    rw [hv]
    exact (changeAll_eq _ _ _ _ _ _).1
  rw [hattended]
  by_cases hbroke : brokeOff (w.perform (v.number m.time)).1 = true
  · have hcalls : (calls m v.key (Manager.versionWiring (World.siteFor generate)).change v w).2 =
        (w.perform (v.number m.time)).2 := congrArg Prod.snd (if_pos hbroke)
    rw [hcalls]
    exact ⟨_, hnumber⟩
  · have hcalls : (calls m v.key (Manager.versionWiring (World.siteFor generate)).change v w).2 =
        ((w.perform (v.number m.time)).2.perform
          (Version.configure generate (passedOn v (w.perform (v.number m.time)).1) m.time)).2 :=
      (congrArg Prod.snd (if_neg hbroke)).trans (calls_last _ _ _ _ _)
    rw [hcalls]
    exact ⟨_, hnumber.trans hconfigure⟩

theorem attended_template_of_none (hk : w.stores.templates.get? k = none)
    (generate : ServingGenerator) (m : Moment) :
    attended (Manager.templateWiring (World.siteFor generate)) m k w = w := by
  change shown _ m k (w.stores.templates.get? k) w = w
  rw [hk]
  rfl

theorem attended_template_eq (ht : w.stores.templates.get? t.key = some t)
    (generate : ServingGenerator) (m : Moment) :
    attended (Manager.templateWiring (World.siteFor generate)) m t.key w =
      ((w.perform (t.resolveDefault m.time)).2.perform
        (Template.syncLatest t.key
          (passedOn t (w.perform (t.resolveDefault m.time)).1) m.time)).2 := by
  change shown _ m t.key (w.stores.templates.get? t.key) w = _
  rw [ht]
  refine (changeAll_eq _ _ _ _ _ _).1.trans ?_
  have hwhole : ¬ brokeOff (w.perform (t.resolveDefault m.time)).1 = true := by
    rw [World.perform, Template.brokeOff_resolveDefault]
    exact Bool.false_ne_true
  exact (congrArg Prod.snd (if_neg hwhole)).trans (calls_last _ _ _ _ _)

/-- The status of a template that was attended to has the number of the ledger. -/
theorem attended_template (ht : w.stores.templates.get? t.key = some t)
    (generate : ServingGenerator) (m : Moment) :
    ∃ p, Template.Comes w
      (attended (Manager.templateWiring (World.siteFor generate)) m t.key w) t p ∧
      p.status.latestVersion = t.nextLatest w.ledger := by
  rw [attended_template_eq ht]
  by_cases hd : t.deleting = true
  · have hresolve : w.perform (t.resolveDefault m.time) = (.ok .unchanged, w) := by
      rw [Template.resolveDefault, if_pos hd]
      rfl
    rw [hresolve]
    exact ⟨_, Template.comesBy_syncLatest ht m.time⟩
  · have hresolve := Template.comesBy_resolveDefault ht m.time
    obtain ⟨hsync, hlatest⟩ :=
      Template.comesBy_syncLatest (hresolve.key.symm ▸ hresolve.stored) m.time
    rw [Template.nextLatest, if_neg (hresolve.deleting.symm ▸ hd), hresolve.uid,
      hresolve.ledger] at hlatest
    rw [hresolve.key] at hsync hlatest
    rw [Template.nextLatest, if_neg hd]
    exact ⟨_, hresolve.trans hsync, hlatest⟩

end Controller

namespace Store

variable {σ τ : Type} [DecidableEq σ]

theorem serve_create_get? (s : Store σ τ) (o : Object σ τ) (uid : Uid) (now : Timestamp) (k : Key) :
    (s.serve (.create o uid now)).get? k =
      if k = o.key ∧ s.get? k = none then some (s.created o uid now) else s.get? k := by
  by_cases hnone : s.get? o.key = none
  · have hkey : (s.created o uid now).key = o.key := rfl
    simp only [serve, create_eq_ok.mpr ⟨hnone, rfl, rfl⟩, put_get?, hkey]
    by_cases hk : k = o.key
    · rw [if_pos hk, if_pos ⟨hk, hk ▸ hnone⟩]
    · rw [if_neg hk, if_neg fun h => hk h.1]
  · simp only [serve, create_eq_error.mpr ⟨hnone, rfl⟩]
    rw [if_neg]
    rintro ⟨rfl, h⟩
    exact hnone h

theorem serve_delete_get? (s : Store σ τ) (j : Key) (now : Timestamp) (k : Key) :
    (s.serve (.delete j now)).get? k = if k = j then none else s.get? k := by
  cases hj : s.get? j with
  | none =>
    simp only [serve, delete, hj]
    split
    · next hk => rw [hk, hj]
    · rfl
  | some c =>
    simp only [serve, delete, hj]
    exact Table.find?_erase _ _ _

end Store

/-- The world, and the last states of the templates that were deleted. -/
structure ManagerTurns where
  world : World
  gone : List Template

namespace ManagerTurns

inductive Act where
  | createTemplate (t : Template) (uid : Uid)
  | createVersion (v : Version) (uid : Uid)
  | deleteTemplate (k : Key)
  | deleteVersion (k : Key)
  /-- The handlers of templates are called. -/
  | template (k : Key)
  /-- The handlers of versions are called. -/
  | version (k : Key)
  /-- The numbers of a template that was deleted are forgotten. -/
  | cleanup (k : Key) (uid : Uid)
deriving DecidableEq

structure Turn where
  moment : Moment
  act : Act

def empty : ManagerTurns := ⟨.empty, []⟩

def gone? (s : ManagerTurns) (k : Key) (uid : Uid) : Option Template :=
  s.gone.find? fun t => t.key = k ∧ t.metadata.uid = some uid

def step (generate : ServingGenerator) (s : ManagerTurns) (turn : Turn) : ManagerTurns :=
  let w := s.world
  let m := turn.moment
  match turn.act with
  | .createTemplate t uid =>
    { s with world := w.withTemplates (w.stores.templates.serve (.create t uid m.time)) }
  | .createVersion v uid =>
    { s with world := w.withVersions (w.stores.versions.serve (.create v uid m.time)) }
  | .deleteTemplate k =>
    { world := w.withTemplates (w.stores.templates.serve (.delete k m.time))
      gone := (w.stores.templates.get? k).toList.map (Store.buried · m.time) ++ s.gone }
  | .deleteVersion k =>
    { s with world := w.withVersions (w.stores.versions.serve (.delete k m.time)) }
  | .template k =>
    { s with world := Controller.attended (Manager.templateWiring (World.siteFor generate)) m k w }
  | .version k =>
    { s with world := Controller.attended (Manager.versionWiring (World.siteFor generate)) m k w }
  | .cleanup k uid =>
    match s.gone? k uid with
    | some t => { s with world := (w.perform (t.forgetNumbers k m.time)).2 }
    | none => s

def run (generate : Nat → ServingGenerator) (s : ManagerTurns) : List Turn → ManagerTurns
  | [] => s
  | turn :: turns => run (fun n => generate (n + 1)) (s.step (generate 0) turn) turns

structure Keyed (s : ManagerTurns) : Prop where
  templates : s.world.stores.templates.Keyed
  versions : s.world.stores.versions.Keyed

variable {s : ManagerTurns}

theorem step_template_of_none {k : Key} (hk : s.world.stores.templates.get? k = none)
    (generate : ServingGenerator) (m : Moment) : s.step generate ⟨m, .template k⟩ = s :=
  congrArg (ManagerTurns.mk · s.gone) (Controller.attended_template_of_none hk generate m)

theorem step_version_of_none {k : Key} (hk : s.world.stores.versions.get? k = none)
    (generate : ServingGenerator) (m : Moment) : s.step generate ⟨m, .version k⟩ = s :=
  congrArg (ManagerTurns.mk · s.gone) (Controller.attended_version_of_none hk generate m)

theorem step_template_comes {t : Template} (ht : s.world.stores.templates.get? t.key = some t)
    (generate : ServingGenerator) (m : Moment) :
    ∃ p, Template.Comes s.world (s.step generate ⟨m, .template t.key⟩).world t p ∧
      p.status.latestVersion = t.nextLatest s.world.ledger :=
  Controller.attended_template ht generate m

theorem step_version_comes {v : Version} (hv : s.world.stores.versions.get? v.key = some v)
    (generate : ServingGenerator) (m : Moment) :
    ∃ q, Version.Comes s.world (s.step generate ⟨m, .version v.key⟩).world v.key
      (v.course (s.world.stores.templates.get? v.templateKey) s.world.ledger m.time) q :=
  Controller.attended_version hv generate m

theorem keyed_empty : empty.Keyed :=
  ⟨(Store.recorded_empty _).keyed, (Store.recorded_empty _).keyed⟩

theorem Keyed.step (h : s.Keyed) (generate : ServingGenerator) (turn : Turn) :
    (s.step generate turn).Keyed := by
  obtain ⟨m, act⟩ := turn
  cases act with
  | createTemplate t uid => exact ⟨(Store.served h.templates _).keyed h.templates, h.versions⟩
  | createVersion v uid => exact ⟨h.templates, (Store.served h.versions _).keyed h.versions⟩
  | deleteTemplate k => exact ⟨(Store.served h.templates _).keyed h.templates, h.versions⟩
  | deleteVersion k => exact ⟨h.templates, (Store.served h.versions _).keyed h.versions⟩
  | template k =>
    cases hk : s.world.stores.templates.get? k with
    | none => rwa [step_template_of_none hk]
    | some t =>
      obtain rfl := h.templates _ _ hk
      obtain ⟨p, hp, -⟩ := step_template_comes hk generate m
      refine ⟨fun j q hq => ?_, ?_⟩
      · by_cases hj : j = t.key
        · obtain rfl : p = q := Option.some.inj (hp.stored.symm.trans (hj ▸ hq))
          exact hp.key.trans hj.symm
        · exact h.templates j q ((hp.others j hj).symm.trans hq)
      · exact hp.versions.symm ▸ h.versions
  | version k =>
    cases hk : s.world.stores.versions.get? k with
    | none => rwa [step_version_of_none hk]
    | some v =>
      obtain rfl := h.versions _ _ hk
      obtain ⟨p, hp⟩ := step_version_comes hk generate m
      refine ⟨hp.templates.symm ▸ h.templates, fun j q hq => ?_⟩
      by_cases hj : j = v.key
      · obtain rfl : p = q := Option.some.inj (hp.stored.symm.trans (hj ▸ hq))
        exact hp.key.trans hj.symm
      · exact h.versions j q ((hp.others j hj).symm.trans hq)
  | cleanup k uid =>
    unfold ManagerTurns.step
    simp only
    split
    · next t _ =>
      have hstores := (Template.forgotten s.world k t m.time).2.stores
      exact ⟨hstores.symm ▸ h.templates, hstores.symm ▸ h.versions⟩
    · exact h

def firstNumber : List Turn :=
  [.createTemplate ⟨Meta.named "models" "llama", .empty, .empty⟩ ⟨1⟩,
    .createVersion ⟨Meta.named "models" "a",
      { VersionSpec.empty with templateName := "llama" }, .empty⟩ ⟨2⟩,
    .version ⟨"models", "a"⟩, .version ⟨"models", "a"⟩].map fun act => ⟨default, act⟩

end ManagerTurns
end ModelTemplates
