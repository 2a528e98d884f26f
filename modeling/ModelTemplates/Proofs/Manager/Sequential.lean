import ModelTemplates.Proofs.Manager.Workers
/-! A manager that handles one key at a time, with nobody else at work, does nothing that it could
not do with many workers. -/
namespace ModelTemplates

variable {σ τ : Type} {generate : ServingGenerator} {m : Moment} {k : Key}

/-- A request only adds to the templates that are asked for, and does not depend on them. -/
theorem World.answer_enqueued (r : Request) (w : World) :
    ∃ ks, (answer r w).2.enqueued = w.enqueued ++ ks ∧
      answer r { w with enqueued := [] } =
      ((answer r w).1, { (answer r w).2 with enqueued := ks }) := by
  cases r with
  | enqueue k => exact ⟨[k], rfl, rfl⟩
  | updateTemplate t =>
    refine ⟨[], ?_⟩
    simp only [answer, settle, List.append_nil]
    split <;> exact ⟨rfl, rfl⟩
  | updateTemplateStatus t =>
    refine ⟨[], ?_⟩
    simp only [answer, settle, List.append_nil]
    split <;> exact ⟨rfl, rfl⟩
  | updateVersion v =>
    refine ⟨[], ?_⟩
    simp only [answer, settle, List.append_nil]
    split <;> exact ⟨rfl, rfl⟩
  | updateVersionStatus v =>
    refine ⟨[], ?_⟩
    simp only [answer, settle, List.append_nil]
    split <;> exact ⟨rfl, rfl⟩
  | _ => exact ⟨[], (List.append_nil _).symm, rfl⟩

namespace Processing

/-- With nobody else there, the work gets its locks, and resource versions for all that it
writes. -/
def Granted (m : Moment) (k : Key) : Processing σ τ → Controller σ τ → World → Prop
  | ended, _, w => w.stores.versions.HasRoom
  | ask r next, c, w => (w.stores.versions.HasRoom ∧ VersionHandlers.Free w r) ∧
      (next (World.answer r w).1).Granted m k c (World.answer r w).2
  | clock next, c, w => w.stores.versions.HasRoom ∧ (next m).Granted m k c w
  | own a next, c, w => w.stores.versions.HasRoom ∧ (next (a.act k c).1).Granted m k (a.act k c).2 w

instance decidableGranted (m : Moment) (k : Key) :
    (L : Processing σ τ) → (c : Controller σ τ) → (w : World) → Decidable (L.Granted m k c w)
  | ended, _, w => inferInstanceAs (Decidable w.stores.versions.HasRoom)
  | ask r next, c, w =>
    let _ := decidableGranted m k (next (World.answer r w).1) c (World.answer r w).2
    inferInstanceAs (Decidable ((_ ∧ _) ∧ _))
  | clock next, c, w =>
    let _ := decidableGranted m k (next m) c w
    inferInstanceAs (Decidable (_ ∧ _))
  | own a next, c, w =>
    let _ := decidableGranted m k (next (a.act k c).1) (a.act k c).2 w
    inferInstanceAs (Decidable (_ ∧ _))

theorem Granted.room {L : Processing σ τ} {c : Controller σ τ} {w : World} (h : L.Granted m k c w) :
    w.stores.versions.HasRoom := by
  cases L with
  | ended => exact h
  | ask r next => exact h.1.1
  | clock next => exact h.1
  | own a next => exact h.1

theorem Granted.room_after {L : Processing σ τ} {c : Controller σ τ} {w : World}
    (h : L.Granted m k c w) :
    (L.run World.answer m k c w).2.stores.versions.HasRoom := by
  induction L generalizing c w with
  | ended => exact h
  | ask r next ih => exact ih _ h.2
  | clock next ih => exact ih m h.2
  | own a next ih => exact ih _ h.2

def Alone (k : Key) (p q : Processing σ τ × Controller σ τ × World) : Prop :=
  p.2.2.stores.versions.HasRoom ∧ ∃ r, p.1.Turn k p.2.1 p.2.2 r q.1 q.2.1 q.2.2

theorem Granted.alone {L : Processing σ τ} {c : Controller σ τ} {w : World}
    (h : L.Granted m k c w) :
    Relation.ReflTransGen (Alone k) (L, c, w) (.ended, L.run World.answer m k c w) := by
  induction L generalizing c w with
  | ended => exact .refl
  | ask r next ih => exact .head ⟨h.1.1, some r, .ask h.1.2⟩ (ih _ h.2)
  | clock next ih => exact .head ⟨h.1, none, .clock m⟩ (ih m h.2)
  | own a next ih => exact .head ⟨h.1, none, .own⟩ (ih _ h.2)

end Processing

namespace ManagerWorkers

variable {s s' : ManagerWorkers} {w w' : World} {n n' : Manager World}

theorem turn_template {L L' : Processing TemplateSpec TemplateStatus}
    {c c' : Controller TemplateSpec TemplateStatus} {r : Option Request}
    (hb : s.templates = ⟨c, [(k, L)]⟩) (hw : s.world = w) (ht : L.Turn k c w r L' c' w') :
    ∃ s', WorkerStep generate s s' ∧ s'.templates = ⟨c', [(k, L')]⟩ ∧ s'.world = w' ∧
      s'.versions = s.versions := by
  have hj : s.templates.jobs = [] ++ (k, L) :: [] := by rw [hb]; rfl
  have hc : s.templates.controller = c := by rw [hb]
  subst hw hc
  exact ⟨_, .onTemplates (.turn hj ht), rfl, rfl, look_versions _ _⟩

theorem take_template (generate : ServingGenerator) {c : Controller TemplateSpec TemplateStatus}
    {q : WorkQueue} (hb : s.templates = ⟨c, []⟩) (hq : c.queue.queue.take? = some (k, q)) :
    ∃ s', WorkerStep generate s s' ∧
      s'.templates = ⟨c.onQueue fun _ => q, [(k, Template.handlers.process k)]⟩ ∧
      s'.world = s.world ∧ s'.versions = s.versions := by
  have hc : s.templates.controller = c := by rw [hb]
  exact ⟨_, .onTemplates (.take (hc.symm ▸ hq)), by simp only [hb], rfl, look_versions _ _⟩

theorem run_template (generate : ServingGenerator)
    {p q : Processing TemplateSpec TemplateStatus × Controller TemplateSpec TemplateStatus × World}
    (h : Relation.ReflTransGen (Processing.Alone k) p q) (hb : s.templates = ⟨p.2.1, [(k, p.1)]⟩)
    (hw : s.world = p.2.2) :
    ∃ s', WorkerRun generate s s' ∧ s'.templates = ⟨q.2.1, [(k, q.1)]⟩ ∧ s'.world = q.2.2 ∧
      s'.versions = s.versions := by
  induction h with
  | refl => exact ⟨s, .refl, hb, hw, rfl⟩
  | tail _ ht ih =>
    obtain ⟨s₁, hr, hb₁, hw₁, hv₁⟩ := ih
    obtain ⟨-, r, ht⟩ := ht
    obtain ⟨s', hs, hb', hw', hv'⟩ := turn_template hb₁ hw₁ ht
    exact ⟨s', hr.tail hs, hb', hw', hv'.trans hv₁⟩

/-- The workers are at the steps of work on a version. Templates that the work asked for are queued
already. -/
structure Carries (s : ManagerWorkers)
    (templates : Controller TemplateSpec TemplateStatus) (k : Key)
    (p : Processing VersionSpec VersionStatus × Controller VersionSpec VersionStatus × World) :
    Prop where
  versions : s.versions = ⟨p.2.1, [(k, p.1)]⟩
  templates : s.templates = ⟨templates.onQueue (·.addAll p.2.2.enqueued), []⟩
  world : s.world = { p.2.2 with enqueued := [] }

variable {templates : Controller TemplateSpec TemplateStatus}
  {p q : Processing VersionSpec VersionStatus × Controller VersionSpec VersionStatus × World}

theorem turn_enqueued {L L' : Processing VersionSpec VersionStatus}
    {c c' : Controller VersionSpec VersionStatus} {r : Option Request}
    (ht : L.Turn k c w r L' c' w') : ∃ ks, w'.enqueued = w.enqueued ++ ks ∧
      L.Turn k c { w with enqueued := [] } r L' c' { w' with enqueued := ks } := by
  cases ht with
  | @ask r f hfree =>
    obtain ⟨ks, hks, ha⟩ := World.answer_enqueued r w
    have hfree' : VersionHandlers.Free { w with enqueued := [] } r := by cases r <;> exact hfree
    have hturn : Processing.Turn k c { w with enqueued := [] } (.ask r f) _ _ _ _ := .ask hfree'
    rw [ha] at hturn
    exact ⟨ks, hks, hturn⟩
  | clock m => exact ⟨[], (List.append_nil _).symm, .clock m⟩
  | own => exact ⟨[], (List.append_nil _).symm, .own⟩

theorem Carries.turn (h : s.Carries templates k p) (ha : Processing.Alone k p q) :
    ∃ s', WorkerStep generate s s' ∧ s'.Carries templates k q := by
  obtain ⟨L, c, w⟩ := p
  obtain ⟨L', c', w'⟩ := q
  obtain ⟨hroom, r, ht⟩ := ha
  obtain ⟨ks, hks, ht'⟩ := turn_enqueued ht
  obtain ⟨hv, htem, hw⟩ := h
  have hj : s.versions.jobs = [] ++ (k, L) :: [] := by rw [hv]; rfl
  have hc : s.versions.controller = c := by rw [hv]
  rw [← hc, ← hw] at ht'
  refine ⟨_, .onVersions (hw ▸ hroom) (.turn hj ht'), rfl, ?_, rfl⟩
  have hqueue (q : WorkQueue) : (q.addAll w.enqueued).addAll ks = q.addAll w'.enqueued := by
    rw [hks]
    exact List.foldl_append.symm
  simp only [pass, htem, Controller.onQueue, TimedQueue.modify, hqueue]

theorem Carries.run (h : s.Carries templates k p)
    (ha : Relation.ReflTransGen (Processing.Alone k) p q) :
    ∃ s', WorkerRun generate s s' ∧ s'.Carries templates k q := by
  induction ha with
  | refl => exact ⟨s, .refl, h⟩
  | tail _ ht ih =>
    obtain ⟨s₁, hr, h₁⟩ := ih
    obtain ⟨s', hs, h'⟩ := h₁.turn ht
    exact ⟨s', hr.tail hs, h'⟩

/-- Nobody is at work, and no template waits to be queued. -/
structure Unmanned (s : ManagerWorkers) (n : Manager World) : Prop where
  templates : s.templates = ⟨n.templates, []⟩
  versions : s.versions = ⟨n.versions, []⟩
  world : s.world = n.state
  enqueued : n.state.enqueued = []

theorem Unmanned.manager (h : s.Unmanned n) : s.manager = n := by
  rw [ManagerWorkers.manager, h.templates, h.versions, h.world]

/-- Nothing is in the way of the work on the key that comes next, and the worker does not break off
with it. -/
def Unhindered (handlers : Handlers σ τ) (m : Moment) (c : Controller σ τ) (w : World) : Prop :=
  ∀ p ∈ c.queue.queue.take?, (handlers.process p.1).Granted m p.1 (c.onQueue fun _ => p.2) w ∧
    p.1 ∉ ((handlers.process p.1).run World.answer m p.1 (c.onQueue fun _ => p.2) w).1.abandoned

instance (handlers : Handlers σ τ) (m : Moment) (c : Controller σ τ) (w : World) :
    Decidable (Unhindered handlers m c w) :=
  inferInstanceAs (Decidable (∀ p ∈ c.queue.queue.take?, _))

theorem Unmanned.feed_template (h : s.Unmanned n)
    (hn : n.feedTemplate? (World.siteFor generate) m = some n') :
    ∃ s', WorkerRun generate s s' ∧ s'.Unmanned n' := by
  obtain ⟨⟨c, w⟩, hf, rfl⟩ := Option.map_eq_some_iff.mp hn
  obtain rfl := Controller.feedOne?_world (Template.wiring_serves generate) hf
  obtain ⟨ht, hv, hw, he⟩ := h
  have hb : s.templates.controller = n.templates := by rw [ht]
  rw [← hb, ← hw] at hf
  exact ⟨_, .single (.onTemplates (.feed hf)), by rw [ht], hv, hw, he⟩

theorem Unmanned.feed_version (h : s.Unmanned n) (hroom : n.state.stores.versions.HasRoom)
    (hn : n.feedVersion? (World.siteFor generate) m = some n') :
    ∃ s', WorkerRun generate s s' ∧ s'.Unmanned n' := by
  obtain ⟨⟨c, w⟩, hf, rfl⟩ := Option.map_eq_some_iff.mp hn
  obtain rfl := Controller.feedOne?_world (Version.wiring_serves generate) hf
  obtain ⟨ht, hv, hw, he⟩ := h
  have hb : s.versions.controller = n.versions := by rw [hv]
  rw [← hb, ← hw] at hf
  refine ⟨_, .single (.onVersions (hw ▸ hroom) (.feed hf)), ?_, by simp only [pass, hv], ?_, he⟩
  · simp only [pass, ht, hw, he]; rfl
  · simp only [pass, hw]
    exact congrArg (fun ks => { n.state with enqueued := ks }) he.symm

theorem Unmanned.work_template (h : s.Unmanned n)
    (hg : Unhindered Template.handlers m n.templates n.state)
    (hn : n.workTemplate? (World.siteFor generate) m = some n') :
    ∃ s', WorkerRun generate s s' ∧ s'.Unmanned n' := by
  obtain ⟨⟨c, w⟩, hwork, rfl⟩ := Option.map_eq_some_iff.mp hn
  rw [Handlers.run_workOne? (Template.handlers_wires _)] at hwork
  obtain ⟨⟨k, q⟩, htake, hdone⟩ := Option.map_eq_some_iff.mp hwork
  obtain ⟨rfl, rfl⟩ := Prod.mk.inj hdone
  obtain ⟨hgranted, hleft⟩ := hg _ htake
  obtain ⟨ht, hv, hw, he⟩ := h
  -- The key is handed out, its work is done, and the worker is free again.
  obtain ⟨s₀, hstep, hb₀, hw₀, hv₀⟩ := take_template generate ht htake
  obtain ⟨s₁, hrun, hb₁, hw₁, hv₁⟩ := run_template generate hgranted.alone hb₀ (hw₀.trans hw)
  have hj : s₁.templates.jobs = [] ++ (k, .ended) :: [] := by rw [hb₁]; rfl
  have hleft₁ : k ∉ s₁.templates.controller.abandoned := by rw [hb₁]; exact hleft
  refine ⟨_, (hrun.head hstep).tail (.onTemplates (.done hj hleft₁)), ?_, ?_, hw₁, ?_⟩
  · simp only [hb₁]
    exact congrArg (ControllerWorkers.mk · []) (if_neg hleft).symm
  · exact (look_versions _ _).trans (hv₁.trans (hv₀.trans hv))
  · exact (Template.tidy_handlers k).run (fun r w hr hw => (hr.enqueued w).trans hw) m k he

theorem Unmanned.work_version (h : s.Unmanned n)
    (hg : Unhindered (Version.handlers generate) m n.versions n.state)
    (hn : n.workVersion? (World.siteFor generate) m = some n') :
    ∃ s', WorkerRun generate s s' ∧ s'.Unmanned n' := by
  obtain ⟨⟨c, w⟩, hwork, rfl⟩ := Option.map_eq_some_iff.mp hn
  rw [Handlers.run_workOne? (Version.handlers_wires _)] at hwork
  obtain ⟨⟨k, q⟩, htake, hdone⟩ := Option.map_eq_some_iff.mp hwork
  obtain ⟨rfl, rfl⟩ := Prod.mk.inj hdone
  obtain ⟨hgranted, hleft⟩ := hg _ htake
  obtain ⟨ht, hv, hw, he⟩ := h
  have hb : s.versions.controller = n.versions := by rw [hv]
  have hbusy : s.versions.jobs = [] := by rw [hv]
  have hstep : WorkerStep generate s (s.pass
      ⟨s.versions.controller.onQueue fun _ => q,
        (k, (Version.handlers generate).process k) :: s.versions.jobs⟩ s.world) :=
    .onVersions (hw ▸ hgranted.room) (.take (hb ▸ htake))
  have hcarries : Carries (s.pass
      ⟨s.versions.controller.onQueue fun _ => q,
        (k, (Version.handlers generate).process k) :: s.versions.jobs⟩ s.world)
      n.templates k ((Version.handlers generate).process k, n.versions.onQueue fun _ => q,
        n.state) := by
    refine ⟨?_, ?_, ?_⟩
    · simp only [pass, hb, hbusy]
    · simp only [pass, ht, hw]
    · simp only [pass, hw]
  obtain ⟨s₁, hrun, hv₁, ht₁, hw₁⟩ := hcarries.run hgranted.alone
  have hj : s₁.versions.jobs = [] ++ (k, .ended) :: [] := by rw [hv₁]; rfl
  have hleft₁ : k ∉ s₁.versions.controller.abandoned := by rw [hv₁]; exact hleft
  refine ⟨_, (hrun.head hstep).tail (.onVersions (hw₁ ▸ hgranted.room_after) (.done hj hleft₁)),
    ?_, ?_, ?_, rfl⟩
  · simp only [pass, ht₁, hw₁]; rfl
  · simp only [pass, hv₁]
    exact congrArg (ControllerWorkers.mk · []) (if_neg hleft).symm
  · simp only [pass, hw₁]; rfl

end ManagerWorkers

namespace Manager

inductive Move where
  | template (c : Store.Call TemplateSpec TemplateStatus)
  | version (c : Store.Call VersionSpec VersionStatus)
  | feed (kind : Kind)
  | work (kind : Kind)

def move? (generate : ServingGenerator) (m : Moment) (n : Manager World) :
    Move → Option (Manager World)
  | .template c => some { n with state := n.state.withTemplates (n.state.stores.templates.serve c) }
  | .version c =>
    if n.state.stores.versions.HasRoom then
      some { n with state := n.state.withVersions (n.state.stores.versions.serve c) }
    else none
  | .feed .template => n.feedTemplate? (World.siteFor generate) m
  | .feed .version =>
    if n.state.stores.versions.HasRoom then n.feedVersion? (World.siteFor generate) m else none
  | .work .template =>
    if ManagerWorkers.Unhindered Template.handlers m n.templates n.state then
      n.workTemplate? (World.siteFor generate) m
    else none
  | .work .version =>
    if ManagerWorkers.Unhindered (Version.handlers generate) m n.versions n.state then
      n.workVersion? (World.siteFor generate) m
    else none

def moved (generate : ServingGenerator) (m : Moment) (moves : List Move) (n : Manager World) :
    Manager World :=
  moves.foldl (fun n mv => (n.move? generate m mv).getD n) n

end Manager

namespace ManagerWorkers

variable {s : ManagerWorkers} {n n' : Manager World}

theorem Unmanned.feed (h : s.Unmanned n) {kind : Kind}
    (hn : n.move? generate m (.feed kind) = some n') :
    ∃ s', WorkerRun generate s s' ∧ s'.Unmanned n' := by
  cases kind with
  | template => exact h.feed_template hn
  | version =>
    simp only [Manager.move?] at hn
    split at hn
    · next hroom => exact h.feed_version hroom hn
    · contradiction

theorem Unmanned.work (h : s.Unmanned n) {kind : Kind}
    (hn : n.move? generate m (.work kind) = some n') :
    ∃ s', WorkerRun generate s s' ∧ s'.Unmanned n' := by
  cases kind with
  | template =>
    simp only [Manager.move?] at hn
    split at hn
    · next hg => exact h.work_template hg hn
    · contradiction
  | version =>
    simp only [Manager.move?] at hn
    split at hn
    · next hg => exact h.work_version hg hn
    · contradiction

theorem Unmanned.move (h : s.Unmanned n) {mv : Manager.Move}
    (hn : n.move? generate m mv = some n') :
    ∃ s', Run generate s s' ∧ s'.Unmanned n' := by
  cases mv with
  | template c =>
    obtain rfl := Option.some.inj hn
    exact ⟨_, .single (.template c), h.templates, h.versions, by rw [h.world], h.enqueued⟩
  | version c =>
    simp only [Manager.move?] at hn
    split at hn
    · next hroom =>
      obtain rfl := Option.some.inj hn
      refine ⟨_, .single (.version c (h.world.symm ▸ hroom)), h.templates, h.versions,
        ?_, h.enqueued⟩
      simp only [edit, h.world]
    · contradiction
  | feed kind =>
    obtain ⟨s', hworkers, hu⟩ := h.feed hn
    exact ⟨s', hworkers.run, hu⟩
  | work kind =>
    obtain ⟨s', hworkers, hu⟩ := h.work hn
    exact ⟨s', hworkers.run, hu⟩

/-- What a manager does one key at a time while clients write is a run of it with all its
workers. -/
theorem Unmanned.moved (h : s.Unmanned n) (moves : List Manager.Move) :
    ∃ s', Run generate s s' ∧ s'.Unmanned (n.moved generate m moves) := by
  induction moves generalizing s n with
  | nil => exact ⟨s, .refl, h⟩
  | cons mv moves ih =>
    rw [Manager.moved, List.foldl_cons]
    cases hn : n.move? generate m mv with
    | none => exact ih h
    | some n' =>
      obtain ⟨s₁, hr, h₁⟩ := h.move hn
      obtain ⟨s', hr', h'⟩ := ih h₁
      exact ⟨s', hr.trans hr', h'⟩

end ManagerWorkers
end ModelTemplates
