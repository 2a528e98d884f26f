import ModelTemplates.Proofs.Store.History
import ModelTemplates.World
/-! Which requests a plan can come to, whatever it is answered, and what a request leaves of the
stores. -/
namespace ModelTemplates

namespace Plan

variable {α β : Type} {P Q : Request → Prop}

def Asks (P : Request → Prop) : Plan α → Prop
  | done _ => True
  | ask r next => P r ∧ ∀ a, (next a).Asks P

theorem Asks.mono {p : Plan α} (h : p.Asks P) (hpq : ∀ r, P r → Q r) : p.Asks Q := by
  induction p with
  | done a => trivial
  | ask r next ih => exact ⟨hpq r h.1, fun a => ih a (h.2 a)⟩

theorem asks_pure (a : α) : (pure a : Plan α).Asks P := trivial

theorem asks_request {r : Request} (h : P r) : (request r).Asks P := ⟨h, fun _ => trivial⟩

theorem Asks.bind {p : Plan α} {f : α → Plan β} (h : p.Asks P) (hf : ∀ a, (f a).Asks P) :
    (p >>= f).Asks P := by
  change (p.bind f).Asks P
  induction p with
  | done a => exact hf a
  | ask r next ih => exact ⟨h.1, fun a => ih a (h.2 a)⟩

theorem Asks.commit {write : Plan (Except StoreError α)} {follow : Plan Unit} (hw : write.Asks P)
    (hf : follow.Asks P) : (commit write follow).Asks P := by
  refine hw.bind fun a => ?_
  cases a with
  | error e => exact asks_pure _
  | ok o => exact hf.bind fun _ => asks_pure _

end Plan

/-- What a request leaves of the stored versions. -/
inductive Request.Leaves (d : VersionStore) : Request → VersionStore → Prop where
  | same (r : Request) : Leaves d r d
  | updated {v c : Version} :
      d.fenced v = .ok c → Leaves d (.updateVersion v) (d.put (d.updated c v))
  | restated {v c : Version} :
      d.fenced v = .ok c → Leaves d (.updateVersionStatus v) (d.put (d.restated c v))

theorem World.settle_snd {α β : Type} (w : World) (put : β → World)
    (e : Except StoreError (α × β)) :
    (w.settle put e).2 = match e with | .ok (_, s) => put s | .error _ => w := by
  unfold settle
  split <;> rfl

theorem World.answer_leaves (w : World) (r : Request) :
    r.Leaves w.stores.versions (answer r w).2.stores.versions := by
  cases r with
  | updateVersion v =>
    simp only [answer, settle_snd]
    cases he : w.stores.versions.update v with
    | error e => exact .same _
    | ok p =>
      obtain ⟨o, s⟩ := p
      obtain ⟨c, hf, -, rfl⟩ := Store.update_eq_ok.mp he
      exact .updated hf
  | updateVersionStatus v =>
    simp only [answer, settle_snd]
    cases he : w.stores.versions.updateStatus v with
    | error e => exact .same _
    | ok p =>
      obtain ⟨o, s⟩ := p
      obtain ⟨c, hf, -, rfl⟩ := Store.updateStatus_eq_ok.mp he
      exact .restated hf
  | updateTemplate t =>
    simp only [answer, settle_snd]
    cases w.stores.templates.update t <;> exact .same _
  | updateTemplateStatus t =>
    simp only [answer, settle_snd]
    cases w.stores.templates.updateStatus t <;> exact .same _
  | _ => exact .same _

namespace Request.Leaves

variable {d d' : VersionStore} {r : Request}

theorem keyed (h : r.Leaves d d') (hd : d.Keyed) : d'.Keyed := by
  cases h with
  | same => exact hd
  | updated _ => exact hd.put _
  | restated _ => exact hd.put _

theorem recorded {past : List Version} (h : r.Leaves d d') (hd : d.Recorded past) (hr : d.HasRoom) :
    d'.Recorded (d'.objects.values ++ past) := by
  cases h with
  | same => exact hd.note
  | updated _ => exact hd.note_put hr rfl
  | restated _ => exact hd.note_put hr rfl

theorem identified {issued : List Uid} (h : r.Leaves d d') (hk : d.Keyed)
    (hd : d.Identified issued) :
    d'.Identified issued := by
  cases h with
  | same => exact hd
  | updated hf => exact hd.put_same (Store.fenced_eq_ok.mp hf).1 rfl
  | @restated _ c hf => exact hd.put_same (c := c) (hk.get? (Store.fenced_eq_ok.mp hf).1) rfl

end Request.Leaves

inductive Request.Alters (d : TemplateStore) : Request → TemplateStore → Prop where
  | same (r : Request) : Alters d r d
  | updated {t c : Template} :
      d.fenced t = .ok c → Alters d (.updateTemplate t) (d.put (d.updated c t))
  | restated {t c : Template} :
      d.fenced t = .ok c → Alters d (.updateTemplateStatus t) (d.put (d.restated c t))

theorem World.answer_alters (w : World) (r : Request) :
    r.Alters w.stores.templates (answer r w).2.stores.templates := by
  cases r with
  | updateTemplate t =>
    simp only [answer, settle_snd]
    cases he : w.stores.templates.update t with
    | error e => exact .same _
    | ok p =>
      obtain ⟨o, s⟩ := p
      obtain ⟨c, hf, -, rfl⟩ := Store.update_eq_ok.mp he
      exact .updated hf
  | updateTemplateStatus t =>
    simp only [answer, settle_snd]
    cases he : w.stores.templates.updateStatus t with
    | error e => exact .same _
    | ok p =>
      obtain ⟨o, s⟩ := p
      obtain ⟨c, hf, -, rfl⟩ := Store.updateStatus_eq_ok.mp he
      exact .restated hf
  | updateVersion v =>
    simp only [answer, settle_snd]
    cases w.stores.versions.update v <;> exact .same _
  | updateVersionStatus v =>
    simp only [answer, settle_snd]
    cases w.stores.versions.updateStatus v <;> exact .same _
  | _ => exact .same _

end ModelTemplates
