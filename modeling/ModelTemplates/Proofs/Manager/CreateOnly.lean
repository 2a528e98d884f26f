import ModelTemplates.Proofs.Controller.Intact
import ModelTemplates.Proofs.Manager.Settled
import ModelTemplates.Proofs.Numbering.Books
import ModelTemplates.Proofs.Template.Rules
/-! A manager whose clients only create templates and versions. Everybody at work keeps to the
rules, and the ledger has the numbers that are stored. -/
namespace ModelTemplates

/-- The identifiers of the templates that are stored. -/
def World.knows (w : World) (k : Key) (u : Uid) : Prop :=
  ∃ t, w.stores.templates.get? k = some t ∧ t.metadata.uid = some u

theorem World.single_knows (w : World) : Numbering.Single w.knows := by
  rintro k u u' ⟨t, ht, hu⟩ ⟨t', ht', hu'⟩
  obtain rfl := Option.some.inj (ht.symm.trans ht')
  exact Option.some.inj (hu.symm.trans hu')

namespace ManagerWorkers
open ModelTemplates.Numbering (numberOf Books Tally AtMost)

structure Fresh (v : Version) : Prop where
  status : v.status = .empty
  labels : v.metadata.labels = .empty
  owners : v.metadata.owners = []
  named : v.metadata.name ≠ ""
  plain : '/' ∉ v.metadata.name.toList

/-- A step of a manager whose clients only create templates without a default and fresh versions, as
long as there are resource versions left. -/
inductive CreateOnlyStep (generate : ServingGenerator) (s : ManagerWorkers) :
    ManagerWorkers → Prop where
  | template (t : Template) (uid : Uid) (now : Timestamp) : t.spec.defaultVersionRef = none →
      CreateOnlyStep generate s
        { s with
          world := s.world.withTemplates (s.world.stores.templates.serve (.create t uid now)) }
  | version (v : Version) (uid : Uid) (now : Timestamp) :
      s.world.stores.versions.HasRoom → Fresh v →
      CreateOnlyStep generate s (s.edit (s.world.stores.versions.serve (.create v uid now)))
  | works {s' : ManagerWorkers} : WorkerStep generate s s' → CreateOnlyStep generate s s'
  | restart (retry : RetryPolicy) (m : Moment) :
      CreateOnlyStep generate s (opening generate retry m s.world.forget)

/-- What comes about from empty stores when clients only create. -/
inductive CreateOnly (generate : ServingGenerator) : ManagerWorkers → Prop where
  | opening {capacity : Nat} {stores : Stores} (retry : RetryPolicy) (m : Moment) :
      Stores.make? capacity = some stores →
      CreateOnly generate (opening generate retry m { World.empty with stores := stores })
  | step {s s' : ManagerWorkers} :
      CreateOnly generate s → CreateOnlyStep generate s s' → CreateOnly generate s'

variable {generate : ServingGenerator} {s s' : ManagerWorkers} {w : World} {k : Key} {t : Template}
  {v : Version}

theorem CreateOnlyStep.step (h : CreateOnlyStep generate s s') : Step generate s s' := by
  cases h with
  | template t uid now _ => exact .template _
  | version v uid now hr _ => exact .version _ hr
  | works h => exact h.step
  | restart retry m => exact .restart retry m

theorem CreateOnly.reachable (h : CreateOnly generate s) : Reachable generate s := by
  induction h with
  | opening retry m hstores => exact .opening retry m hstores
  | step _ hs ih => exact ih.step hs.step

def knowledge (s : ManagerWorkers) : Version.Knowledge := ⟨s.seen, s.world.knows⟩

/-- What is known of the template of a key. It may refer to a version that has a number and had been
created when the versions were last looked at. -/
def course (s : ManagerWorkers) (k : Key) : Template.Knowledge where
  good name := (numberOf s.world.stores.versions k ⟨k.space, name⟩).isSome = true ∧
    ∀ e ∈ s.edits k, e.1.get? ⟨k.space, name⟩ ≠ none
  stored := (s.world.stores.templates.get? k).isSome = true

/-- What a client does to the versions: nothing, or it puts one without a number where there was
none. -/
def VersionsAdded (d d' : VersionStore) : Prop :=
  d' = d ∨ ∃ v : Version, d.get? v.key = none ∧ v.assigned = false ∧ d' = d.put v

/-- What every step keeps as long as clients only create. -/
structure CreateOnlyInvariant (s : ManagerWorkers) (ρ : Key → Version.Role) : Prop where
  proper : ∀ v ∈ s.seen, v.Proper s.world.knows
  books : Books s.world.knows s.world ρ
  versions : s.versions.Obeys (fun _ => Version.rules) ρ fun _ => s.knowledge
  fine : ∀ k t, s.world.stores.templates.get? k = some t → Template.Fine k (s.course k) t
  identified : ∀ k t, s.world.stores.templates.get? k = some t → ∃ u, t.metadata.uid = some u
  intact : s.templates.controller.Intact s.world.stores.templates
  templates : s.templates.Obeys Template.rules (fun _ => ()) s.course
  versionsAdded : ∀ k, ∀ e ∈ s.edits k, VersionsAdded e.1 e.2

variable {ρ : Key → Version.Role}

/-- What is known of a template stays known as long as no number is taken away, and no client did
anything but to what is stored now. -/
theorem course_le
    (hnumber : ∀ j, (numberOf s.world.stores.versions k j).isSome = true →
      (numberOf s'.world.stores.versions k j).isSome = true)
    (hedits : ∀ e ∈ s'.edits k, e ∈ s.edits k ∨ e.1 = s.world.stores.versions)
    (hstored : (s.world.stores.templates.get? k).isSome = true →
      (s'.world.stores.templates.get? k).isSome = true) :
    s.course k ≤ s'.course k := by
  refine ⟨fun name hn => ⟨hnumber _ hn.1, fun e he => ?_⟩, hstored⟩
  rcases hedits e he with hold | hnow
  · exact hn.2 e hold
  · obtain ⟨v, hv, -⟩ := Numbering.numberOf_isSome.mp hn.1
    rw [hnow, hv]
    exact Option.some_ne_none v

section TemplateCreated

variable {o : Template} {uid : Uid}

theorem knows_put_template (hnone : s.world.stores.templates.get? o.key = none) (k : Key) (u : Uid)
    (h : s.world.knows k u) :
    (s.world.withTemplates (s.world.stores.templates.put o)).knows k u := by
  obtain ⟨t, ht, hu⟩ := h
  exact ⟨t, Store.get?_put_of_fresh hnone ht, hu⟩

theorem course_put_template (hnone : s.world.stores.templates.get? o.key = none) (k : Key) :
    s.course k ≤
      course { s with world := s.world.withTemplates (s.world.stores.templates.put o) } k := by
  refine course_le (fun j hj => hj) (fun e he => .inl he) fun hstored => ?_
  obtain ⟨t, ht⟩ := Option.isSome_iff_exists.mp hstored
  exact Option.isSome_iff_exists.mpr ⟨t, Store.get?_put_of_fresh hnone ht⟩

theorem CreateOnlyInvariant.putTemplate (h : s.CreateOnlyInvariant ρ)
    (hnone : s.world.stores.templates.get? o.key = none) (hl : o.deleting = false)
    (hu : o.metadata.uid = some uid) (hd : o.spec.defaultVersionRef = none) :
    CreateOnlyInvariant
      { s with world := s.world.withTemplates (s.world.stores.templates.put o) } ρ where
  proper v hv := (h.proper v hv).mono (knows_put_template hnone)
  books := by
    have hbooks : Books s.world.knows (s.world.withTemplates (s.world.stores.templates.put o)) ρ :=
      h.books.same rfl rfl (fun _ => rfl) fun _ _ hb => hb
    exact hbooks.mono (knows_put_template hnone)
  versions := h.versions.mono fun _ => ⟨fun v hv => hv, knows_put_template hnone⟩
  fine k t ht := by
    rcases Store.get?_put_cases ht with ⟨rfl, rfl⟩ | ⟨-, hold⟩
    · refine ⟨rfl, Option.isSome_iff_exists.mpr ⟨_, ht⟩, hl, fun name hname => ?_⟩
      rw [hd] at hname
      contradiction
    · exact (h.fine k t hold).mono (course_put_template hnone k)
  identified k t ht := by
    rcases Store.get?_put_cases ht with ⟨-, rfl⟩ | ⟨-, hold⟩
    · exact ⟨uid, hu⟩
    · exact h.identified k t hold
  intact := h.intact.put o
  templates := h.templates.mono (course_put_template hnone)
  versionsAdded := h.versionsAdded

end TemplateCreated

theorem CreateOnlyInvariant.template (h : s.CreateOnlyInvariant ρ)
    (hk : s.world.stores.templates.Keyed) (uid : Uid) (now : Timestamp)
    (ht : t.spec.defaultVersionRef = none) :
    CreateOnlyInvariant
      { s with
        world :=
          s.world.withTemplates (s.world.stores.templates.serve (.create t uid now)) } ρ := by
  have hserved := Store.served hk (.create t uid now)
  generalize s.world.stores.templates.serve (.create t uid now) = d at hserved ⊢
  cases hserved with
  | refused => exact h
  | created hnone => exact h.putTemplate hnone rfl rfl ht

section Edit

variable {d : VersionStore}

theorem VersionsAdded.numberOf_eq (h : VersionsAdded s.world.stores.versions d) (k : Key) :
    numberOf d k = numberOf s.world.stores.versions k := by
  rcases h with rfl | ⟨v, hnone, ha, rfl⟩
  · rfl
  · exact Numbering.numberOf_put_fresh hnone ha k

theorem VersionsAdded.atMost {n : Nat} (h : VersionsAdded s.world.stores.versions d)
    (hb : AtMost d k n) :
    AtMost s.world.stores.versions k n := by
  rcases h with rfl | ⟨v, hnone, -, rfl⟩
  · exact hb
  · refine hb.of_put fun c hc => ?_
    rw [hnone] at hc
    contradiction

theorem VersionsAdded.course_le (h : VersionsAdded s.world.stores.versions d) (k : Key) :
    s.course k ≤ (s.edit d).course k := by
  refine ManagerWorkers.course_le (fun j hj => ?_) (fun e he => ?_) fun hstored => hstored
  · change (numberOf d k j).isSome = true
    rwa [h.numberOf_eq]
  · rcases List.mem_cons.mp he with rfl | hold
    · exact .inr rfl
    · exact .inl hold

/-- The versions are as they were, or there is one more, without a number. -/
theorem CreateOnlyInvariant.edit (h : s.CreateOnlyInvariant ρ)
    (hp : ∀ v ∈ d.objects.values, Version.Proper s.world.knows v)
    (hd : VersionsAdded s.world.stores.versions d) : CreateOnlyInvariant (s.edit d) ρ where
  proper := List.forall_mem_append.mpr ⟨hp, h.proper⟩
  books := h.books.same rfl rfl hd.numberOf_eq fun _ _ hb => hd.atMost hb
  versions := h.versions.mono fun _ => ⟨fun _ hv => List.mem_append_right _ hv, fun _ _ hu => hu⟩
  fine k t ht := (h.fine k t ht).mono (hd.course_le k)
  identified := h.identified
  intact := h.intact
  templates := h.templates.mono hd.course_le
  versionsAdded k := List.forall_mem_cons.mpr ⟨hd, h.versionsAdded k⟩

end Edit

theorem CreateOnlyInvariant.version (h : s.CreateOnlyInvariant ρ)
    (hr : s.world.stores.versions.Recorded s.seen) (uid : Uid) (now : Timestamp) (hv : Fresh v) :
    CreateOnlyInvariant (s.edit (s.world.stores.versions.serve (.create v uid now))) ρ := by
  have hstored {j : Key} {x : Version} (hx : s.world.stores.versions.get? j = some x) :
      x.Proper s.world.knows :=
    h.proper x (hr.held hx)
  have hserved := Store.served hr.keyed (.create v uid now)
  generalize s.world.stores.versions.serve (.create v uid now) = d at hserved ⊢
  cases hserved with
  | refused =>
    have hsame : VersionsAdded s.world.stores.versions s.world.stores.versions := .inl rfl
    refine h.edit (fun x hx => ?_) hsame
    obtain ⟨j, hj⟩ := (Table.mem_values_iff _ _).mp hx
    exact hstored hj
  | created hnone =>
    have hunassigned : Version.assigned (s.world.stores.versions.created v uid now) = false := by
      change Conditions.holds v.status.conditions .assigned = false
      rw [hv.status]
      rfl
    have hnew : VersionsAdded s.world.stores.versions
        (s.world.stores.versions.put (s.world.stores.versions.created v uid now)) :=
      .inr ⟨s.world.stores.versions.created v uid now, hnone, hunassigned, rfl⟩
    refine h.edit (fun x hx => ?_) hnew
    obtain ⟨j, hj⟩ := (Table.mem_values_iff _ _).mp hx
    rcases Store.get?_put_cases hj with ⟨-, rfl⟩ | ⟨-, hold⟩
    · refine ⟨rfl, hv.named, hv.plain, fun r hr => ?_, fun ha => ?_⟩
      · have howners : r ∈ v.metadata.owners := hr
        rw [hv.owners] at howners
        contradiction
      · rw [hunassigned] at ha
        contradiction
    · exact hstored hold

variable {asked : Option (Key × Request)}

theorem mem_look_edits {e : VersionStore × VersionStore} (he : e ∈ (s.look asked).edits k) :
    e ∈ s.edits k := by
  unfold look at he
  split at he
  · exact he
  · split at he
    · simp only [Function.update_apply] at he
      split at he
      · contradiction
      · exact he
    · exact he

/-- The look at the versions leaves nothing that was changed since. -/
theorem look_edits {r : Request} (hl : Template.Looks r = true) :
    (s.look (some (k, r))).edits k = [] := by
  simp only [look, if_pos hl, Function.update_self]

/-- Templates after a step of the work on them. Each is fine, and is the one that was there
before. -/
structure TemplatesRevised (s : ManagerWorkers) (d : TemplateStore) : Prop where
  back : ∀ j x, d.get? j = some x → Template.Fine j (s.course j) x ∧
    ∃ o, s.world.stores.templates.get? j = some o ∧ x.metadata.uid = o.metadata.uid
  forth : ∀ j o, s.world.stores.templates.get? j = some o → ∃ x, d.get? j = some x ∧
    x.metadata.uid = o.metadata.uid
  intact : ∀ c : Controller TemplateSpec TemplateStatus, c.Intact s.world.stores.templates →
    c.Intact d

theorem CreateOnlyInvariant.templatesRevised_still (h : s.CreateOnlyInvariant ρ) :
    s.TemplatesRevised s.world.stores.templates :=
  ⟨fun j x hx => ⟨h.fine j x hx, x, hx, rfl⟩, fun _ o ho => ⟨o, ho, rfl⟩, fun _ hc => hc⟩

theorem CreateOnlyInvariant.templatesRevised_put (h : s.CreateOnlyInvariant ρ) {o x : Template}
    (hrev : Template.Revises k (s.course k) s.world.stores.templates o x) :
    s.TemplatesRevised (s.world.stores.templates.put x) := by
  refine ⟨fun j y hy => ?_, fun j y hy => ?_, fun c hc => hc.put x⟩
  · rcases Store.get?_put_cases hy with ⟨rfl, rfl⟩ | ⟨-, hold⟩
    · rw [hrev.fine.key]
      exact ⟨hrev.fine, o, hrev.fine.key ▸ hrev.stored, hrev.uid⟩
    · exact ⟨h.fine j y hold, y, hold, rfl⟩
  · rw [Store.put_get?]
    split
    · next hj =>
      obtain rfl := Option.some.inj (hy.symm.trans (hj ▸ hrev.stored))
      exact ⟨x, rfl, hrev.uid⟩
    · exact ⟨y, hy, rfl⟩

theorem CreateOnlyInvariant.templatesRevised (h : s.CreateOnlyInvariant ρ) (hs : Sound generate s)
    {r : Request} (hmay : Template.May k (s.course k) r) :
    s.TemplatesRevised (World.answer r s.world).2.stores.templates := by
  rcases Template.revises_answer hmay hs.keyed (h.fine k) with hstill | ⟨o, x, hrev, hput⟩
  · exact hstill ▸ h.templatesRevised_still
  · exact hput ▸ h.templatesRevised_put hrev

theorem TemplatesRevised.knows (h : s.TemplatesRevised w.stores.templates) :
    w.knows = s.world.knows := by
  funext j u
  refine propext ⟨?_, ?_⟩
  · rintro ⟨x, hx, hu⟩
    obtain ⟨-, o, ho, hou⟩ := h.back j x hx
    exact ⟨o, ho, hou.symm.trans hu⟩
  · rintro ⟨o, ho, hu⟩
    obtain ⟨x, hx, hxu⟩ := h.forth j o ho
    exact ⟨x, hx, hxu.trans hu⟩

/-- The work on a template is told the truth. A version that carries the label and has a number
names the template. -/
theorem CreateOnlyInvariant.tells (h : s.CreateOnlyInvariant ρ) (hs : Sound generate s)
    {r : Request} {c : Template.Knowledge} (hmay : Template.May k (s.course k) r)
    (hc : s.course k ≤ c) (hgood : Template.Looks r = true → ∀ name,
      (numberOf s.world.stores.versions k ⟨k.space, name⟩).isSome = true → c.good name) :
    Template.Tells k c r (World.answer r s.world).1 := by
  refine Template.tells_answer (hmay.mono hc) hs.keyed (fun x hx => (h.fine k x hx).mono hc)
    fun hl i v hv hspace hlabel ha => hgood hl _ ?_
  have hproper := h.proper v (hs.recorded.held hv)
  have hname : v.spec.templateName = k.name :=
    Option.some.inj ((hproper.linked ha).1.symm.trans hlabel)
  have hkey : Version.templateKey v = k := by rw [Version.templateKey, hspace, hname]
  have hown : v.key = ⟨k.space, v.metadata.name⟩ := by rw [← hspace]; rfl
  exact Numbering.numberOf_isSome.mpr ⟨v, hown ▸ hs.recorded.keyed.get? hv, hkey, ha⟩

section Templates

variable {b : ControllerWorkers TemplateSpec TemplateStatus}

/-- What is known of a template stays known, and a look at the versions is one at the versions as
they are. -/
theorem TemplatesRevised.course_le (h : s.TemplatesRevised w.stores.templates)
    (hv : w.stores.versions = s.world.stores.versions) (k : Key) :
    s.course k ≤ course { s.look asked with templates := b, world := w } k := by
  refine ManagerWorkers.course_le (fun j hj => ?_) (fun e he =>
    .inl (mem_look_edits he)) fun hstored => ?_
  · change (numberOf w.stores.versions k j).isSome = true
    rwa [hv]
  · obtain ⟨o, ho⟩ := Option.isSome_iff_exists.mp hstored
    obtain ⟨x, hx, -⟩ := h.forth k o ho
    exact Option.isSome_iff_exists.mpr ⟨x, hx⟩

theorem TemplatesRevised.tells (hrevised : s.TemplatesRevised w.stores.templates)
    (h : s.CreateOnlyInvariant ρ) (hs : Sound generate s) {r : Request}
    (hv : w.stores.versions = s.world.stores.versions) (hmay : Template.May k (s.course k) r) :
    Template.Tells k (course { s.look (some (k, r)) with templates := b, world := w } k) r
      (World.answer r s.world).1 := by
  refine h.tells hs hmay (hrevised.course_le hv k) fun hl name hn => ⟨?_, fun e he => ?_⟩
  · change (numberOf w.stores.versions k _).isSome = true
    rwa [hv]
  · -- Right after a look there is nothing that was changed since.
    change e ∈ (s.look (some (k, r))).edits k at he
    rw [look_edits hl] at he
    contradiction

theorem CreateOnlyInvariant.on_templates (h : s.CreateOnlyInvariant ρ) (hs : Sound generate s)
    (hstep : ControllerWorkers.Step Template.handlers
      (Manager.templateWiring (World.siteFor generate)) s.templates s.world asked b
      w) : CreateOnlyInvariant { s.look asked with templates := b, world := w } ρ := by
  have hworld := hstep.world (Template.attentive generate)
  have hmay (p : Key × Request) (hp : p ∈ asked) : Template.May p.1 (s.course p.1) p.2 := by
    obtain rfl := Option.mem_def.mp hp
    exact (h.templates.permits hstep).1
  have hsame : w.stores.versions = s.world.stores.versions ∧ w.ledger = s.world.ledger ∧
    w.locked = s.world.locked := by
    cases asked with
    | none => exact hworld ▸ ⟨rfl, rfl, rfl⟩
    | some p => exact hworld ▸ (hmay p rfl).answer s.world
  have hrevised : s.TemplatesRevised w.stores.templates := by
    cases asked with
    | none => exact hworld ▸ h.templatesRevised_still
    | some p => exact hworld ▸ h.templatesRevised hs (hmay p rfl)
  obtain ⟨hversions, hledger, hlocked⟩ := hsame
  have hknows := hrevised.knows
  have htold :
      ∀ p ∈ asked, Template.Tells p.1
        (course { s.look asked with templates := b, world := w } p.1) p.2
      (World.answer p.2 s.world).1 := by
    rintro ⟨j, r⟩ hp
    obtain rfl := Option.mem_def.mp hp
    exact hrevised.tells h hs hversions (hmay (j, r) rfl)
  have hnone (k : Key) : s.templates.controller.tombstones.find? k = none := by
    rw [h.intact.tombstones]
    rfl
  have hintact :=
    ControllerWorkers.intact_step h.intact hstep
      (Template.wiring_serves generate) hs.keyed h.templates
    fun k x hx => hx.key ▸ hx.stored
  constructor
  · simp only [look_seen, hknows]
    exact h.proper
  · have hbooks : Books s.world.knows w ρ := by
      refine h.books.same hledger hlocked (fun k => ?_) fun k n hb => ?_
      · rw [hversions]
      · rwa [hversions] at hb
    exact hknows.symm ▸ hbooks
  · simp only [look_versions, knowledge, look_seen, hknows]
    exact h.versions
  · exact fun j x hx => (hrevised.back j x hx).1.mono (hrevised.course_le hversions j)
  · intro j x hx
    obtain ⟨-, o, ho, hou⟩ := hrevised.back j x hx
    obtain ⟨u, hu⟩ := h.identified j o ho
    exact ⟨u, hou.trans hu⟩
  · exact hrevised.intact _ hintact
  · exact h.templates.step hstep hs.templates Template.obeys_handlers hnone
      (hrevised.course_le hversions) htold
  · exact fun j e he => h.versionsAdded j e (mem_look_edits he)

end Templates

section Versions

variable {b : ControllerWorkers VersionSpec VersionStatus}

/-- What a step of the work on versions leaves of the versions and of the ledger. -/
theorem CreateOnlyInvariant.pass_books (h : s.CreateOnlyInvariant ρ) (hs : Sound generate s)
    (hstep : ControllerWorkers.Step (Version.handlers generate)
      (Manager.versionWiring (World.siteFor generate)) s.versions s.world asked b w) :
    (∀ v ∈ w.stores.versions.objects.values ++ s.seen, Version.Proper s.world.knows v) ∧
      Books s.world.knows w (ControllerWorkers.staged (fun _ => Version.rules) s.world ρ asked) ∧
      ∀ k j, (numberOf s.world.stores.versions k j).isSome = true →
        (numberOf w.stores.versions k j).isSome = true := by
  rw [hstep.world (Version.attentive generate)]
  cases asked with
  | none =>
    refine ⟨List.forall_mem_append.mpr ⟨fun v hv => ?_, h.proper⟩, h.books, fun _ _ hn => hn⟩
    obtain ⟨j, hj⟩ := (Table.mem_values_iff _ _).mp hv
    exact h.proper v (hs.recorded.held hj)
  | some p =>
    obtain ⟨hmay, hfree, -⟩ := h.versions.permits hstep
    refine ⟨?_, ?_, fun k j hn => ?_⟩
    · exact Numbering.proper_answer hmay hs.recorded h.proper
    · exact h.books.answer hs.recorded s.world.single_knows hmay hfree
    · exact Numbering.numberOf_answer hmay hs.recorded hn

/-- The work on versions is shown versions that were stored, and templates that are known. -/
theorem CreateOnlyInvariant.told_version (h : s.CreateOnlyInvariant ρ) (hs : Sound generate s)
    (r : Request) :
    Version.rules.told ⟨(World.answer r s.world).2.stores.versions.objects.values ++ s.seen,
      s.world.knows⟩ r (World.answer r s.world).1 := by
  refine ⟨World.truthful s.world hs.keyed r s.seen, ?_⟩
  cases r with
  | template k =>
    intro t ht
    have hstored : s.world.stores.templates.get? k = some t := Except.ok.inj ht
    obtain ⟨u, hu⟩ := h.identified k t hstored
    exact ⟨u, hu, t, hstored, hu⟩
  | _ => trivial

theorem CreateOnlyInvariant.on_versions (h : s.CreateOnlyInvariant ρ) (hs : Sound generate s)
    (hstep : ControllerWorkers.Step (Version.handlers generate)
      (Manager.versionWiring (World.siteFor generate)) s.versions s.world asked b w) :
        CreateOnlyInvariant (s.pass b w)
          (ControllerWorkers.staged (fun _ => Version.rules) s.world ρ asked) := by
  obtain ⟨hproper, hbooks, hnumber⟩ := h.pass_books hs hstep
  have hworld := hstep.world (Version.attentive generate)
  have htemplates : w.stores.templates = s.world.stores.templates :=
    (hs.conducted.step hs.recorded hs.keyed hstep).templates
  have hknows : (s.pass b w).world.knows = s.world.knows := by
    change w.knows = s.world.knows
    unfold World.knows
    rw [htemplates]
  have hlore : s.knowledge ≤ (s.pass b w).knowledge := by
    refine ⟨fun v hv => List.mem_append_right _ hv, fun k u hu => ?_⟩
    change (s.pass b w).world.knows k u
    rwa [hknows]
  have htold :
      ∀ p ∈ asked, Version.rules.told (s.pass b w).knowledge p.2 (World.answer p.2 s.world).1 := by
    intro p hp
    obtain rfl := Option.mem_def.mp hp
    rw [knowledge, hknows]
    subst hworld
    exact h.told_version hs p.2
  have hcourse (j : Key) : s.course j ≤ (s.pass b w).course j := by
    refine course_le (hnumber j) (fun e he => .inl he) fun hstored => ?_
    change (w.stores.templates.get? j).isSome = true
    rwa [htemplates]
  constructor
  · rw [hknows]
    exact hproper
  · rw [hknows]
    exact hbooks.same rfl rfl (fun _ => rfl) fun _ _ hb => hb
  · exact h.versions.step hstep hs.versions (fun k c => Version.obeys_handlers generate k c)
      (fun _ => trivial)
      (fun _ => hlore) htold
  · exact fun j x hx => (h.fine j x (htemplates ▸ hx)).mono (hcourse j)
  · exact fun j x hx => h.identified j x (htemplates ▸ hx)
  · change (s.templates.controller.onQueue _).Intact w.stores.templates
    rw [htemplates]
    exact h.intact.congr rfl rfl
  · have hrests :
        ({ s.templates with controller := s.templates.controller.onQueue (·.addAll w.enqueued) } :
        ControllerWorkers TemplateSpec TemplateStatus).Obeys Template.rules (fun _ =>
          ()) s.course :=
      ⟨h.templates.works, h.templates.rests⟩
    exact hrests.mono hcourse
  · exact h.versionsAdded

end Versions

structure Seeded (w : World) : Prop where
  proper : ∀ (k : Key) (v : Version), w.stores.versions.get? k = some v → v.Proper w.knows
  tallied : ∀ k, AtMost w.stores.versions k (UInt32.size - 2) →
    ∃ js, Tally (numberOf w.stores.versions k) js
  kept : ∀ k t, w.stores.templates.get? k = some t → t.key = k ∧ t.deleting = false ∧
    (∃ u, t.metadata.uid = some u) ∧ ∀ name, t.spec.defaultVersionRef = some name →
      (numberOf w.stores.versions k ⟨k.space, name⟩).isSome = true
  watch : ∀ e ∈ w.stores.templates.watch.kept, ∃ t, e = .applied t ∧
    (w.stores.templates.get? t.key).isSome = true

theorem seeded_empty {capacity : Nat} {stores : Stores} (h : Stores.make? capacity = some stores) :
    Seeded { World.empty with stores := stores } := by
  obtain ⟨templates, ht, h⟩ := Option.bind_eq_some_iff.mp h
  obtain ⟨versions, hv, h⟩ := Option.bind_eq_some_iff.mp h
  obtain rfl := Option.some.inj h
  obtain ⟨c, hc, rfl⟩ := Option.map_eq_some_iff.mp ht
  obtain ⟨c', hc', rfl⟩ := Option.map_eq_some_iff.mp hv
  have hkept : c.kept = [] := by
    unfold Channel.make? at hc
    split at hc
    · contradiction
    · obtain rfl := Option.some.inj hc
      rfl
  refine ⟨fun k v hk => ?_, fun k _ => ⟨[], Numbering.tally_nil fun j => rfl⟩, fun k t hk => ?_,
    fun e he => ?_⟩
  · contradiction
  · contradiction
  · have hnone : e ∈ c.kept := he
    rw [hkept] at hnone
    contradiction

/-- Wherever a process ends, the stores are as a start needs them. -/
theorem CreateOnlyInvariant.seeded (h : s.CreateOnlyInvariant ρ) (hs : Sound generate s) :
    Seeded s.world.forget where
  proper k v hv := h.proper v (hs.recorded.held hv)
  tallied k hk := by
    obtain ⟨js, htally, -⟩ := h.books.counted k hk
    exact ⟨js, htally⟩
  kept k t ht := by
    have hfine := h.fine k t ht
    exact ⟨hfine.key, hfine.kept, h.identified k t ht, fun name hn => (hfine.reference name hn).1⟩
  watch := h.intact.watch

theorem invariant_opening (h : Seeded w.forget) (hf : w.forget.Founded)
    (generate : ServingGenerator) (retry : RetryPolicy) (m : Moment) :
    CreateOnlyInvariant (opening generate retry m w.forget) fun _ => .outside := by
  obtain ⟨templates, versions, hstart, htemplates, -, -, -, -⟩ := start_eq hf generate retry m
  rw [opening, hstart]
  constructor
  · intro v hv
    obtain ⟨k, hk⟩ := (Table.mem_values_iff _ _).mp hv
    exact h.proper k v hk
  · exact Numbering.books_rebuilt w.single_knows h.proper h.tallied
  · exact ⟨fun _ hj => absurd hj List.not_mem_nil, fun _ _ => rfl⟩
  · intro k t ht
    obtain ⟨hkey, hl, -, hname⟩ := h.kept k t ht
    refine ⟨hkey, Option.isSome_iff_exists.mpr ⟨t, ht⟩, hl, fun name hn =>
      ⟨hname name hn, fun e he => ?_⟩⟩
    contradiction
  · intro k t ht
    exact (h.kept k t ht).2.2.1
  · exact Controller.intact_start (w := w.forget.rebuilt)
      (Template.wiring_serves generate) hf.keyed h.watch htemplates
  · exact ⟨fun _ hj => absurd hj List.not_mem_nil, fun _ _ => rfl⟩
  · intro k e he
    contradiction

theorem CreateOnlyInvariant.step (h : s.CreateOnlyInvariant ρ) (hs : Sound generate s)
    (hg : CreateOnlyStep generate s s') :
    ∃ ρ', s'.CreateOnlyInvariant ρ' := by
  cases hg with
  | template t uid now ht => exact ⟨ρ, h.template hs.keyed uid now ht⟩
  | version v uid now _ hv => exact ⟨ρ, h.version hs.recorded uid now hv⟩
  | works hw =>
    cases hw with
    | onTemplates hstep => exact ⟨ρ, h.on_templates hs hstep⟩
    | onVersions _ hstep => exact ⟨_, h.on_versions hs hstep⟩
  | restart retry m => exact ⟨_, invariant_opening (h.seeded hs) hs.founded generate retry m⟩

theorem CreateOnly.invariant (h : CreateOnly generate s) : ∃ ρ, s.CreateOnlyInvariant ρ := by
  induction h with
  | @opening capacity stores retry m hstores =>
    have hseeded := seeded_empty hstores
    exact ⟨_, invariant_opening (w := { World.empty with stores := stores }) hseeded
      (founded_empty hstores) generate
      retry m⟩
  | step hgrown hg ih =>
    obtain ⟨ρ, h⟩ := ih
    exact h.step hgrown.reachable.sound hg

end ManagerWorkers
end ModelTemplates
