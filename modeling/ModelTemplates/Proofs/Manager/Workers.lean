import Mathlib.Logic.Function.Basic
import Mathlib.Logic.Relation
import ModelTemplates.Proofs.Version.Debt
/-! Both controllers of a manager at work in one world, each with any number of workers. Between any
two steps of them clients write templates and versions, and a process may end and another begin. -/
namespace ModelTemplates

structure ManagerWorkers where
  templates : ControllerWorkers TemplateSpec TemplateStatus
  versions : ControllerWorkers VersionSpec VersionStatus
  world : World
  /-- Every state that a version was stored in. -/
  seen : List Version
  /-- The versions as the work on the template of a key last looked at them. -/
  views : Key → Option VersionStore
  /-- What clients did to the versions since then, as what was stored before and after. -/
  edits : Key → List (VersionStore × VersionStore)

namespace ManagerWorkers

variable {generate : ServingGenerator} {s s' : ManagerWorkers} {t : Template}

def manager (s : ManagerWorkers) : Manager World :=
  ⟨s.templates.controller, s.versions.controller, s.world⟩

def opening (generate : ServingGenerator) (retry : RetryPolicy) (m : Moment) (w : World) :
    ManagerWorkers :=
  let n := (Manager.start (World.siteFor generate) m (.make retry w)).2
  ⟨⟨n.templates, []⟩, ⟨n.versions, []⟩, n.state, n.state.stores.versions.objects.values,
    fun _ => none, fun _ => []⟩

def look (s : ManagerWorkers) : Option (Key × Request) → ManagerWorkers
  | none => s
  | some (k, r) =>
    if Template.Looks r then
      { s with
        views := Function.update s.views k (some s.world.stores.versions)
        edits := Function.update s.edits k [] }
    else s

@[simp] theorem look_seen (s : ManagerWorkers) (asked : Option (Key × Request)) :
    (s.look asked).seen = s.seen := by
  unfold look
  split
  · rfl
  · split <;> rfl

@[simp] theorem look_versions (s : ManagerWorkers) (asked : Option (Key × Request)) :
    (s.look asked).versions = s.versions := by
  unfold look
  split
  · rfl
  · split <;> rfl

def edit (s : ManagerWorkers) (d : VersionStore) : ManagerWorkers :=
  { s with
    world := s.world.withVersions d
    seen := d.objects.values ++ s.seen
    edits := fun k => (s.world.stores.versions, d) :: s.edits k }

def pass (s : ManagerWorkers) (b : ControllerWorkers VersionSpec VersionStatus) (w : World) :
    ManagerWorkers :=
  { s with
    templates :=
      { s.templates with controller := s.templates.controller.onQueue (·.addAll w.enqueued) }
    versions := b
    world := { w with enqueued := [] }
    seen := w.stores.versions.objects.values ++ s.seen }

inductive Step (generate : ServingGenerator) (s : ManagerWorkers) : ManagerWorkers → Prop where
  | template (c : Store.Call TemplateSpec TemplateStatus) :
      Step generate s { s with world := s.world.withTemplates (s.world.stores.templates.serve c) }
  | version (c : Store.Call VersionSpec VersionStatus) : s.world.stores.versions.HasRoom →
      Step generate s (s.edit (s.world.stores.versions.serve c))
  | onTemplates {asked : Option (Key × Request)} {b : ControllerWorkers TemplateSpec TemplateStatus}
      {w : World} :
      ControllerWorkers.Step Template.handlers
        (Manager.templateWiring (World.siteFor generate)) s.templates s.world asked b w →
      Step generate s { s.look asked with templates := b, world := w }
  | onVersions {asked : Option (Key × Request)} {b : ControllerWorkers VersionSpec VersionStatus}
      {w : World} :
      s.world.stores.versions.HasRoom →
      ControllerWorkers.Step (Version.handlers generate)
        (Manager.versionWiring (World.siteFor generate)) s.versions s.world asked b
        w → Step generate s (s.pass b w)
  | restart (retry : RetryPolicy) (m : Moment) :
      Step generate s (opening generate retry m s.world.forget)

abbrev Run (generate : ServingGenerator) : ManagerWorkers → ManagerWorkers → Prop :=
  Relation.ReflTransGen (Step generate)

/-- One step of the controllers and their workers, with no client and no end of the process in
between. -/
inductive WorkerStep (generate : ServingGenerator) (s : ManagerWorkers) :
    ManagerWorkers → Prop where
  | onTemplates {asked : Option (Key × Request)} {b : ControllerWorkers TemplateSpec TemplateStatus}
      {w : World} :
      ControllerWorkers.Step Template.handlers
        (Manager.templateWiring (World.siteFor generate)) s.templates s.world asked b w →
      WorkerStep generate s { s.look asked with templates := b, world := w }
  | onVersions {asked : Option (Key × Request)} {b : ControllerWorkers VersionSpec VersionStatus}
      {w : World} :
      s.world.stores.versions.HasRoom →
      ControllerWorkers.Step (Version.handlers generate)
        (Manager.versionWiring (World.siteFor generate)) s.versions s.world asked b
        w → WorkerStep generate s (s.pass b w)

theorem WorkerStep.step (h : WorkerStep generate s s') : Step generate s s' := by
  cases h with
  | onTemplates hs => exact .onTemplates hs
  | onVersions hr hs => exact .onVersions hr hs

abbrev WorkerRun (generate : ServingGenerator) : ManagerWorkers → ManagerWorkers → Prop :=
  Relation.ReflTransGen (WorkerStep generate)

theorem WorkerRun.run (h : WorkerRun generate s s') : Run generate s s' :=
  Relation.ReflTransGen.mono (fun _ _ => WorkerStep.step) _ _ h

inductive Reachable (generate : ServingGenerator) : ManagerWorkers → Prop where
  | opening {capacity : Nat} {stores : Stores} (retry : RetryPolicy) (m : Moment) :
      Stores.make? capacity = some stores →
      Reachable generate (opening generate retry m { World.empty with stores := stores })
  | step {s s' : ManagerWorkers} : Reachable generate s → Step generate s s' → Reachable generate s'

theorem Reachable.run (h : Reachable generate s) (hr : Run generate s s') :
    Reachable generate s' := by
  induction hr with
  | refl => exact h
  | tail _ hs ih => exact ih.step hs

/-- No client changed what the versions make of the default of the template since they were last
looked at. -/
def Clean (s : ManagerWorkers) (t : Template) : Prop :=
  ∀ e ∈ s.edits t.key, t.prospect e.1 = t.prospect e.2

/-- The template is as the last look at the versions leaves it. Only clients can have changed what
it would find now. -/
def Looked (s : ManagerWorkers) (t : Template) : Prop :=
  ∃ d, s.views t.key = some d ∧ t.meets (t.prospect d) = true ∧
    (s.Clean t → t.prospect s.world.stores.versions = t.prospect d)

def known (s : ManagerWorkers) (t : Template) : Prop × Prop := (s.Looked t, t.Synced s.world.ledger)

/-- What is known of a template stays known as long as nothing changes for it. -/
theorem known_le (hviews : s'.views t.key = s.views t.key) (hedits : s'.edits t.key = s.edits t.key)
    (h : t.Alike s.world s'.world) : s.known t ≤ s'.known t := by
  refine ⟨?_, fun hs => h.latest.trans hs⟩
  rintro ⟨d, hd, hm, hc⟩
  refine ⟨d, hviews.trans hd, hm, fun hclean => h.prospect.trans (hc ?_)⟩
  rwa [Clean, hedits] at hclean

/-- Clients leave it open whether the template would find the same now. -/
theorem known_edit (s : ManagerWorkers) (t : Template) (d : VersionStore) :
    s.known t ≤ (s.edit d).known t := by
  refine ⟨?_, fun hs => hs⟩
  rintro ⟨d', hd, hm, hc⟩
  refine ⟨d', hd, hm, fun hclean => ?_⟩
  have hnew : t.prospect s.world.stores.versions = t.prospect d := hclean _ List.mem_cons_self
  exact hnew.symm.trans (hc fun e he => hclean e (List.mem_cons_of_mem _ he))

/-- What a step of the work on templates learns is known afterwards. -/
theorem learned_le {j : Key} {r : Request} (hr : Template.Tidy j r)
    (b : ControllerWorkers TemplateSpec TemplateStatus) :
    t.concern.learned t.key s.world (s.known t) (some (j, r)) ≤
      known
        { s.look (some (j, r)) with templates := b, world := (World.answer r s.world).2 } t := by
  obtain ⟨hversions, hledger⟩ := hr.answer s.world
  have hprospect :
      t.prospect (World.answer r s.world).2.stores.versions = t.prospect s.world.stores.versions :=
    congrArg t.prospect hversions
  by_cases hj : j = t.key
  · subst hj
    simp only [Concern.learned, if_true, Template.concern]
    constructor
    · by_cases hl : Template.Looks r = true
      · simp only [if_pos hl]
        intro hm
        refine ⟨s.world.stores.versions, ?_, hm, fun _ => hprospect⟩
        simp only [look, if_pos hl, Function.update_self]
      · simp only [if_neg hl]
        rintro ⟨d, hd, hm, hc⟩
        refine ⟨d, ?_, hm, fun hclean => hprospect.trans (hc ?_)⟩
        · simp only [look, if_neg hl, hd]
        · simpa only [Clean, look, if_neg hl] using hclean
    · by_cases hcount : Template.Counts r = true
      · simp only [if_pos hcount]
        exact le_refl _
      · simp only [if_neg hcount]
        exact fun hs => (hledger _ _ (.inr (Bool.not_eq_true _ ▸ hcount))).trans hs
  · simp only [Concern.learned, if_neg hj]
    have hne : t.key ≠ j := Ne.symm hj
    refine known_le ?_ ?_ ⟨hprospect, hledger _ _ (.inl hne)⟩
    · by_cases hl : Template.Looks r = true
      · simp only [look, if_pos hl, Function.update_of_ne hne]
      · simp only [look, if_neg hl]
    · by_cases hl : Template.Looks r = true
      · simp only [look, if_pos hl, Function.update_of_ne hne]
      · simp only [look, if_neg hl]

end ManagerWorkers
end ModelTemplates
