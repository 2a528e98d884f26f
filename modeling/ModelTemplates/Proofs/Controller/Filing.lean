import ModelTemplates.Proofs.Controller.Rules
import ModelTemplates.Proofs.Template.Delivery
import ModelTemplates.Proofs.Version.Delivery
/-! What is remembered of an object is remembered under its own key: handlers hand on the object
that they were shown, as they left it, and no other. -/
namespace ModelTemplates

variable {α σ τ : Type} {I : World → Prop} {k : Key}

structure Blank where

instance : Preorder Blank where
  le _ _ := True
  le_refl _ := trivial
  le_trans _ _ _ _ _ := trivial

/-- The rules of work that may ask anything, of a world that stays as `I` says. Only objects of the
key are shown to handlers, and remembered. -/
def Rules.filing (I : World → Prop) (k : Key) : Rules Unit Blank σ τ where
  home := ()
  may _ _ _ := True
  after _ _ _ := ()
  told _ r a := ∃ w, I w ∧ (World.answer r w).1 = a
  fit _ o := o.key = k
  digs _ := True
  may_mono _ _ _ _ _ h := h
  fit_mono _ _ _ _ h := h

def Processing.Files (I : World → Prop) (k : Key) (L : Processing σ τ) : Prop :=
  L.Obeys (.filing I k) () ⟨⟩

namespace Processing

variable {r : Request} {next : r.Answer → Processing σ τ} {a : ControllerAct σ τ}
  {rest : Option (Object σ τ) → Processing σ τ}

theorem Files.ask {w : World} (h : (ask r next).Files I k) (hw : I w) :
    (next (World.answer r w).1).Files I k :=
  h.2 _ ⟨⟩ trivial ⟨w, hw, rfl⟩

theorem Files.own (h : (own a rest).Files I k) (o : Option (Object σ τ)) : (rest o).Files I k :=
  h.2 o fun _ => trivial

end Processing

namespace Plan

theorem obeys_filing {post : α → Unit → Blank → Prop} (p : Plan α) (h : ∀ a, post a () ⟨⟩) :
    p.Obeys (.filing I k : Rules Unit Blank σ τ) post () ⟨⟩ := by
  induction p with
  | done a => exact h a
  | ask r next ih => exact ⟨trivial, fun a _ _ _ => ih a⟩

end Plan

namespace World

variable {w : World} {put : Store σ τ → World} {d : Store σ τ} {x o : Object σ τ}

theorem key_of_settle_update [DecidableEq σ] (h : (w.settle put (d.update x)).1 = .ok o) :
    o.key = x.key := by
  cases hu : d.update x with
  | error e => simp [settle, hu] at h
  | ok p =>
    obtain ⟨q, d'⟩ := p
    obtain ⟨c, -, rfl, -⟩ := Store.update_eq_ok.mp hu
    obtain rfl : d.updated c x = o := by simpa [settle, hu] using h
    rfl

theorem key_of_settle_updateStatus (hd : d.Keyed)
    (h : (w.settle put (d.updateStatus x)).1 = .ok o) :
    o.key = x.key := by
  cases hu : d.updateStatus x with
  | error e => simp [settle, hu] at h
  | ok p =>
    obtain ⟨q, d'⟩ := p
    obtain ⟨c, hf, rfl, -⟩ := Store.updateStatus_eq_ok.mp hu
    obtain rfl : d.restated c x = o := by simpa [settle, hu] using h
    exact hd x.key c (Store.fenced_eq_ok.mp hf).1

end World

namespace Template

variable {t : Template} {now : Timestamp}

def filing (k : Key) : Rules Unit Blank TemplateSpec TemplateStatus :=
  .filing (fun w => w.stores.templates.Keyed) k

theorem filed_update (ht : t.key = k) (e : Event) :
    (Plan.commit (.request (.updateTemplate t)) (.request (.publish e))).Obeys (filing k)
      (filing k).Ends () ⟨⟩ := by
  refine .commit (fun _ => trivial) rfl (Plan.obeys_request trivial fun a _ _ htold =>
    ⟨rfl, fun o ho => ?_⟩)
  obtain ⟨w, -, rfl⟩ := htold
  exact (World.key_of_settle_update ho).trans ht

theorem filed_restate (ht : t.key = k) (e : Event) :
    (Plan.commit (.request (.updateTemplateStatus t)) (.request (.publish e))).Obeys (filing k)
      (filing k).Ends () ⟨⟩ := by
  refine .commit (fun _ => trivial) rfl (Plan.obeys_request trivial fun a _ _ htold =>
    ⟨rfl, fun o ho => ?_⟩)
  obtain ⟨w, hw, rfl⟩ := htold
  exact (World.key_of_settle_updateStatus hw ho).trans ht

theorem filed_selectDefault (ht : t.key = k) :
    (t.selectDefault now).Obeys (filing k) (filing k).Ends () ⟨⟩ := by
  unfold selectDefault
  refine .bind (Plan.obeys_request trivial fun a _ _ _ => ?_)
  cases a with
  | error e => exact (filing k).ends_error _
  | ok vs =>
    dsimp only
    split
    · exact (filing k).ends_unchanged
    · apply filed_update
      exact ht

theorem filed_resolveRef (ht : t.key = k) (key : Key) :
    (t.resolveRef key now).Obeys (filing k) (filing k).Ends () ⟨⟩ := by
  unfold resolveRef
  refine .bind (Plan.obeys_request trivial fun a _ _ _ => ?_)
  cases a with
  | error e => exact (filing k).ends_error _
  | ok v =>
    dsimp only
    split
    · unfold settle
      split
      · exact (filing k).ends_unchanged
      · apply filed_restate
        exact ht
    · split
      · exact (filing k).ends_unchanged
      · apply filed_restate
        exact ht

theorem filed_resolveDefault (ht : t.key = k) :
    (t.resolveDefault now).Obeys (filing k) (filing k).Ends () ⟨⟩ := by
  unfold resolveDefault
  split
  · exact (filing k).ends_unchanged
  · split
    · exact filed_selectDefault ht
    · exact filed_resolveRef ht _

theorem filed_syncLatest (ht : t.key = k) (j : Key) :
    (t.syncLatest j now).Obeys (filing k) (filing k).Ends () ⟨⟩ := by
  unfold syncLatest
  split
  · exact (filing k).ends_unchanged
  · refine .bind (Plan.obeys_request trivial fun n _ _ _ => ?_)
    split
    · exact (filing k).ends_unchanged
    · apply filed_restate
      exact ht

theorem files_handlers (k : Key) :
    (handlers.process k).Files (fun w => w.stores.templates.Keyed) k := by
  refine Handlers.obeys_process ?_ (fun h hm m t _ ht => ?_) fun t _ h _ m _ => ?_
  · refine Plan.obeys_request trivial fun a _ _ htold => ⟨rfl, fun t ht => ?_⟩
    obtain ⟨w, hw, rfl⟩ := htold
    exact hw k t (Except.ok.inj ht)
  · rcases List.mem_cons.mp hm with rfl | hm
    · exact filed_resolveDefault ht
    · obtain rfl := List.mem_singleton.mp hm
      exact filed_syncLatest ht k
  · exact Plan.obeys_filing (h m k t) fun _ => rfl

end Template
end ModelTemplates
