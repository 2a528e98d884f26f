import ModelTemplates.Handler.Template
import ModelTemplates.Proofs.Handler.Steady
import ModelTemplates.Proofs.Template.Selection
/-! What becomes of a stored template when its handlers are called one after the other: it stays the
template that it was, and its status comes to the number that the ledger has for it. -/
namespace ModelTemplates

namespace Template

variable {w w' w'' : World} {t p q x : Template} {now : Timestamp} {e : Event}

/-- The template has come to `p`, which is the same template. Nothing else is written. -/
structure Comes (w w' : World) (t p : Template) : Prop where
  stored : w'.stores.templates.get? t.key = some p
  key : p.key = t.key
  uid : p.metadata.uid = t.metadata.uid
  deleting : p.deleting = t.deleting
  others : ∀ j ≠ t.key, w'.stores.templates.get? j = w.stores.templates.get? j
  versions : w'.stores.versions = w.stores.versions
  ledger : w'.ledger = w.ledger

abbrev ComesBy (w : World) (t : Template) (r : Verdict Template × World) : Prop :=
  Comes w r.2 t (Controller.passedOn t r.1)

theorem Comes.trans (h : Comes w w' t p) (h' : Comes w' w'' p q) : Comes w w'' t q where
  stored := h.key ▸ h'.stored
  key := h'.key.trans h.key
  uid := h'.uid.trans h.uid
  deleting := h'.deleting.trans h.deleting
  others j hj := (h'.others j (h.key ▸ hj)).trans (h.others j hj)
  versions := h'.versions.trans h.versions
  ledger := h'.ledger.trans h.ledger

theorem comesBy_unchanged (ht : w.stores.templates.get? t.key = some t) :
    ComesBy w t (.ok .unchanged, w) :=
  ⟨ht, rfl, rfl, rfl, fun _ _ => rfl, rfl, rfl⟩

theorem comes_put (hk : p.key = t.key) (hu : p.metadata.uid = t.metadata.uid)
    (hd : p.deleting = t.deleting) (hs : w'.stores = ⟨w.stores.templates.put p, w.stores.versions⟩)
    (hl : w'.ledger = w.ledger) : Comes w w' t p := by
  refine ⟨?_, hk, hu, hd, ?_, by rw [hs], hl⟩
  · rw [hs]
    exact (Store.put_get? _ _ _).trans (if_pos hk.symm)
  · intro j hj
    rw [hs]
    exact (Store.put_get? _ _ _).trans (if_neg fun h => hj (h.trans hk))

theorem comesBy_select (ht : w.stores.templates.get? t.key = some t) (reference : String)
    (e : Event) :
    ComesBy w t (w.perform (.commit (.request (.updateTemplate (t.withDefaultVersionRef reference)))
      (.request (.publish e)))) := by
  have hread : w.stores.templates.get? (t.withDefaultVersionRef reference).key = some t := ht
  rw [perform_update, Store.update_eq_of_read hread rfl]
  exact comes_put rfl rfl rfl rfl rfl

theorem comesBy_withStatus (ht : w.stores.templates.get? t.key = some t) (s : TemplateStatus)
    (e : Event) :
    ComesBy w t (w.perform
      (.commit (.request (.updateTemplateStatus (t.withStatus s))) (.request (.publish e)))) := by
  have hread : w.stores.templates.get? (t.withStatus s).key = some t := ht
  rw [perform_updateStatus, Store.updateStatus_eq_of_read hread rfl]
  exact comes_put rfl rfl rfl rfl rfl

def conclude (t : Template) (key : Key) (now : Timestamp) :
    Except Unresolved UInt32 → Plan (Verdict Template)
  | .error why =>
    t.settle .defaultVersionResolved false (why.message key) now
      (.request (.publish (.defaultVersionUnresolved t.key (why.message key) now)))
  | .ok n =>
    if t.hasDefault n then pure (.ok .unchanged)
    else
      .commit (.request (.updateTemplateStatus (t.withDefault n now)))
        (.request (.publish (.defaultVersionResolved t.key n now)))

theorem perform_resolveRef_eq (w : World) (t : Template) (key : Key) (now : Timestamp) :
    w.perform (t.resolveRef key now) =
      w.perform (t.conclude key now (t.resolution (w.stores.versions.get? key))) := by
  unfold World.perform resolveRef
  simp only [bind, Plan.bind, Plan.request, Plan.run, World.answer]
  cases t.resolution (w.stores.versions.get? key) <;> rfl

theorem comesBy_conclude (ht : w.stores.templates.get? t.key = some t) (key : Key) (now : Timestamp)
    (r : Except Unresolved UInt32) : ComesBy w t (w.perform (t.conclude key now r)) := by
  cases r with
  | error why =>
    simp only [conclude, settle]
    split
    · exact comesBy_unchanged ht
    · exact comesBy_withStatus ht _ _
  | ok n =>
    simp only [conclude]
    split
    · exact comesBy_unchanged ht
    · exact comesBy_withStatus ht _ _

theorem comesBy_resolveDefault (ht : w.stores.templates.get? t.key = some t) (now : Timestamp) :
    ComesBy w t (w.perform (t.resolveDefault now)) := by
  unfold resolveDefault
  split
  · exact comesBy_unchanged ht
  · split
    · rw [perform_selectDefault]
      split
      · exact comesBy_unchanged ht
      · exact comesBy_select ht _ _
    · rw [perform_resolveRef_eq]
      exact comesBy_conclude ht _ now _

theorem perform_syncLatest (w : World) (t : Template) (k : Key) (now : Timestamp) :
    w.perform (t.syncLatest k now) =
      if t.deleting then (.ok .unchanged, w)
      else if w.ledger.latest k t.metadata.uid = t.status.latestVersion then (.ok .unchanged, w)
      else w.perform (.commit
        (.request (.updateTemplateStatus (t.withLatest (w.ledger.latest k t.metadata.uid))))
        (.request (.publish (.latestVersionSynced k (w.ledger.latest k t.metadata.uid) now)))) := by
  unfold syncLatest
  split
  · rfl
  · change w.perform (if w.ledger.latest k t.metadata.uid = t.status.latestVersion then
      _ else _) = _
    split <;> rfl

def nextLatest (t : Template) (l : Ledger) : UInt32 :=
  if t.deleting then t.status.latestVersion else l.latest t.key t.metadata.uid

theorem comesBy_syncLatest (ht : w.stores.templates.get? t.key = some t) (now : Timestamp) :
    ComesBy w t (w.perform (t.syncLatest t.key now)) ∧
      (Controller.passedOn t (w.perform (t.syncLatest t.key now)).1).status.latestVersion =
      t.nextLatest w.ledger := by
  rw [perform_syncLatest]
  unfold nextLatest
  split
  · exact ⟨comesBy_unchanged ht, rfl⟩
  · split
    · next hl => exact ⟨comesBy_unchanged ht, hl.symm⟩
    · refine ⟨comesBy_withStatus ht _ _, ?_⟩
      have hread :
          w.stores.templates.get? (t.withLatest (w.ledger.latest t.key t.metadata.uid)).key =
          some t := ht
      rw [perform_updateStatus, Store.updateStatus_eq_of_read hread rfl]
      rfl

end Template
end ModelTemplates
