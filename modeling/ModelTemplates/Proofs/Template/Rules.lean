import ModelTemplates.Proofs.Controller.Rules
import ModelTemplates.Proofs.Template.Delivery
import ModelTemplates.Proofs.Template.Selection
/-! The rules that the work on a template keeps to as long as it is not deleted: whatever reference
it writes is the name of a version that was listed with a number. -/
namespace ModelTemplates.Template

structure Knowledge where
  /-- Names of versions that the template may refer to. -/
  good : String → Prop
  stored : Prop

def Knowledge.content (c : Knowledge) : (String → Prop) × Prop := (c.good, c.stored)

instance : Preorder Knowledge := Preorder.lift Knowledge.content

variable {k : Key} {c c' : Knowledge} {ρ : Unit} {r : Request} {t x : Template} {now : Timestamp}

/-- The template of a key, with no reference or a good one. -/
structure Fine (k : Key) (c : Knowledge) (t : Template) : Prop where
  key : t.key = k
  stored : c.stored
  kept : t.deleting = false
  reference : ∀ name, t.spec.defaultVersionRef = some name → c.good name

theorem Fine.mono (h : Fine k c t) (hc : c ≤ c') : Fine k c' t :=
  ⟨h.key, hc.2 h.stored, h.kept, fun name hn => hc.1 name (h.reference name hn)⟩

inductive May (k : Key) (c : Knowledge) : Request → Prop where
  | template : May k c (.template k)
  | version (j : Key) : May k c (.version j)
  | versions (space : Option String) (selector : Selector) : May k c (.versions space selector)
  | latest (j : Key) (owner : Option Uid) : May k c (.latest j owner)
  | publish (e : Event) : May k c (.publish e)
  | update {t : Template} : Fine k c t → May k c (.updateTemplate t)
  | restate {t : Template} : t.key = k → May k c (.updateTemplateStatus t)

theorem May.mono (h : May k c r) (hc : c ≤ c') : May k c' r := by
  cases h with
  | update ht => exact .update (ht.mono hc)
  | restate hk => exact .restate hk
  | _ => constructor

/-- What is answered: templates are fine, and the versions that carry the label may be referred to
as soon as they have a number. -/
def Tells (k : Key) (c : Knowledge) : (r : Request) → r.Answer → Prop
  | .template _, a => ∀ t, a = .ok (some t) → Fine k c t
  | .updateTemplate _, a => ∀ t, a = .ok t → Fine k c t
  | .updateTemplateStatus _, a => ∀ t, a = .ok t → Fine k c t
  | .versions space selector, a =>
    space = some k.space → selector = Table.empty.insert templateLabel k.name →
      ∀ vs : List Version, a = .ok vs → ∀ v ∈ vs, v.assigned = true → c.good v.metadata.name
  | _, _ => True

def rules (k : Key) : Rules Unit Knowledge TemplateSpec TemplateStatus where
  home := ()
  may _ c r := May k c r
  after _ _ _ := ()
  told := Tells k
  fit := Fine k
  digs tombstone := tombstone = none
  may_mono _ _ _ _ hc h := h.mono hc
  fit_mono _ _ _ hc h := h.mono hc

theorem obeys_update (hx : Fine k c x) (e : Event) :
    (Plan.commit (.request (.updateTemplate x)) (.request (.publish e))).Obeys (rules k)
      (rules k).Ends () c := by
  refine .commit (fun _ => .publish _) rfl (Plan.obeys_request (.update hx) fun _ _ _ htold => ?_)
  exact ⟨rfl, htold⟩

theorem obeys_restate (hx : x.key = k) (e : Event) :
    (Plan.commit (.request (.updateTemplateStatus x)) (.request (.publish e))).Obeys (rules k)
      (rules k).Ends () c := by
  refine .commit (fun _ => .publish _) rfl (Plan.obeys_request (.restate hx) fun _ _ _ htold => ?_)
  exact ⟨rfl, htold⟩

theorem obeys_selectDefault (ht : Fine k c t) :
    (t.selectDefault now).Obeys (rules k) (rules k).Ends () c := by
  unfold selectDefault
  refine .bind (Plan.obeys_request (.versions _ _) fun a c' hc htold => ?_)
  cases a with
  | error e => exact (rules k).ends_error _
  | ok vs =>
    have hgood := htold (congrArg (fun k => some k.space) ht.key)
      (congrArg (fun k => Table.empty.insert templateLabel k.name) ht.key) vs rfl
    dsimp only
    split
    · exact (rules k).ends_unchanged
    · next v he =>
      obtain ⟨hv, hm, -⟩ := earliest?_eq_some he
      have hassigned : v.assigned = true := (Bool.and_eq_true_iff.mp hm).2
      have hreferring : Fine k c' (t.withDefaultVersionRef v.metadata.name) := by
        refine ⟨ht.key, hc.2 ht.stored, ht.kept, fun name hn => ?_⟩
        obtain rfl := Option.some.inj hn
        exact hgood v hv hassigned
      exact obeys_update hreferring _

theorem obeys_resolveRef (ht : Fine k c t) (key : Key) :
    (t.resolveRef key now).Obeys (rules k) (rules k).Ends () c := by
  unfold resolveRef
  refine .bind (Plan.obeys_request (.version key) fun a c' _ _ => ?_)
  cases a with
  | error e => exact (rules k).ends_error _
  | ok v =>
    dsimp only
    split
    · unfold settle
      split
      · exact (rules k).ends_unchanged
      · refine obeys_restate ?_ _
        exact ht.key
    · split
      · exact (rules k).ends_unchanged
      · refine obeys_restate ?_ _
        exact ht.key

theorem obeys_resolveDefault (ht : Fine k c t) :
    (t.resolveDefault now).Obeys (rules k) (rules k).Ends () c := by
  unfold resolveDefault
  split
  · exact (rules k).ends_unchanged
  · split
    · exact obeys_selectDefault ht
    · exact obeys_resolveRef ht _

theorem obeys_syncLatest (ht : Fine k c t) :
    (t.syncLatest k now).Obeys (rules k) (rules k).Ends () c := by
  unfold syncLatest
  split
  · exact (rules k).ends_unchanged
  · refine .bind (Plan.obeys_request (.latest _ _) fun n c' _ _ => ?_)
    split
    · exact (rules k).ends_unchanged
    · refine obeys_restate ?_ _
      exact ht.key

theorem obeys_handlers (k : Key) (c : Knowledge) : (handlers.process k).Obeys (rules k) () c := by
  refine Handlers.obeys_process ?_ (fun h hm m t c' ht => ?_) fun t ht => ?_
  · exact Plan.obeys_request .template fun a c' _ htold => ⟨rfl, htold⟩
  · rcases List.mem_cons.mp hm with rfl | hm
    · exact obeys_resolveDefault ht
    · obtain rfl := List.mem_singleton.mp hm
      exact obeys_syncLatest ht
  · contradiction

variable {w : World}

structure Revises (k : Key) (c : Knowledge) (d : TemplateStore) (o x : Template) : Prop where
  stored : d.get? x.key = some o
  uid : x.metadata.uid = o.metadata.uid
  fine : Fine k c x

theorem May.answer (hmay : May k c r) (w : World) :
    (World.answer r w).2.stores.versions = w.stores.versions ∧
      (World.answer r w).2.ledger = w.ledger ∧ (World.answer r w).2.locked = w.locked := by
  cases hmay with
  | update _ =>
    simp only [World.answer, World.settle_snd]
    split
    · exact ⟨rfl, rfl, rfl⟩
    · exact ⟨rfl, rfl, rfl⟩
  | restate _ =>
    simp only [World.answer, World.settle_snd]
    split
    · exact ⟨rfl, rfl, rfl⟩
    · exact ⟨rfl, rfl, rfl⟩
  | _ => exact ⟨rfl, rfl, rfl⟩

theorem revises_updated {d : TemplateStore} {o : Template} (hf : d.fenced t = .ok o)
    (ht : Fine k c t) :
    Revises k c d o (d.updated o t) :=
  ⟨(Store.fenced_eq_ok.mp hf).1, rfl, ht.key, ht.stored, ht.kept, ht.reference⟩

theorem revises_restated {d : TemplateStore} {o : Template} (hd : d.Keyed) (hf : d.fenced t = .ok o)
    (hk : t.key = k) (hfine : ∀ x, d.get? k = some x → Fine k c x) :
    Revises k c d o (d.restated o t) := by
  have hstored := (Store.fenced_eq_ok.mp hf).1
  have ho := hfine o (hk ▸ hstored)
  exact ⟨hd.get? hstored, rfl, ho.key, ho.stored, ho.kept, ho.reference⟩

theorem revises_answer (hmay : May k c r) (hd : w.stores.templates.Keyed)
    (hfine : ∀ x, w.stores.templates.get? k = some x → Fine k c x) :
    (World.answer r w).2.stores.templates = w.stores.templates ∨ ∃ o x,
      Revises k c w.stores.templates o x ∧
      (World.answer r w).2.stores.templates = w.stores.templates.put x := by
  have halters := World.answer_alters w r
  generalize (World.answer r w).2.stores.templates = d' at halters ⊢
  cases halters with
  | same => exact .inl rfl
  | @updated t o hf =>
    cases hmay with
    | update ht => exact .inr ⟨o, _, revises_updated hf ht, rfl⟩
  | @restated t o hf =>
    cases hmay with
    | restate hk => exact .inr ⟨o, _, revises_restated hd hf hk hfine, rfl⟩

/-- What is answered is as the rules say, as long as the versions that are listed are. -/
theorem tells_answer (hmay : May k c r) (hd : w.stores.templates.Keyed)
    (hfine : ∀ x, w.stores.templates.get? k = some x → Fine k c x)
    (hgood : Looks r = true → ∀ (j : Key) (v : Version), w.stores.versions.get? j = some v →
      v.metadata.space = k.space → v.metadata.labels.find? templateLabel = some k.name →
      v.assigned = true → c.good v.metadata.name) : Tells k c r (World.answer r w).1 := by
  cases hmay with
  | template => exact fun t ht => hfine t (Except.ok.inj ht)
  | versions space selector =>
    rintro rfl rfl vs hvs v hv ha
    obtain rfl := Except.ok.inj hvs
    simp only [Store.list, List.mem_filter, Table.mem_values_iff, Bool.and_eq_true,
      decide_eq_true_eq, matches_label] at hv
    obtain ⟨⟨j, hj⟩, hspace, hlabel⟩ := hv
    exact hgood rfl j v hj hspace hlabel ha
  | @update x hx =>
    intro t ht
    cases hu : w.stores.templates.update x with
    | error e => simp [World.answer, World.settle, hu] at ht
    | ok p =>
      obtain ⟨o, d⟩ := p
      obtain ⟨c', hf, rfl, -⟩ := Store.update_eq_ok.mp hu
      simp only [World.answer, World.settle, hu, Except.ok.injEq] at ht
      exact ht ▸ (revises_updated hf hx).fine
  | @restate x hk =>
    intro t ht
    cases hu : w.stores.templates.updateStatus x with
    | error e => simp [World.answer, World.settle, hu] at ht
    | ok p =>
      obtain ⟨o, d⟩ := p
      obtain ⟨c', hf, rfl, -⟩ := Store.updateStatus_eq_ok.mp hu
      simp only [World.answer, World.settle, hu, Except.ok.injEq] at ht
      exact ht ▸ (revises_restated hd hf hk hfine).fine
  | _ => trivial

end ModelTemplates.Template
