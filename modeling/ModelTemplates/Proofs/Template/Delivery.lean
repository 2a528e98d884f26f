import Mathlib.Order.Basic
import ModelTemplates.Manager
import ModelTemplates.Proofs.Controller.Workers
import ModelTemplates.Proofs.Ledger.Count
import ModelTemplates.Proofs.Template.Prospect
/-! What a delivery of a template sees to: it looks at the versions, and compares its number with
the ledger's. -/
namespace ModelTemplates

namespace Template

open Processing

def handlers : Handlers TemplateSpec TemplateStatus where
  read k := Plan.request (.template k)
  change :=
    [fun m _ t => Template.resolveDefault t m.time, fun m k t => Template.syncLatest k t m.time]
  remove := [fun m k t => Template.forgetNumbers k t m.time]

theorem handlers_wires {ω : Type} (site : Site ω) :
    handlers.Wires site.answer (Manager.templateWiring site) :=
  ⟨fun _ => rfl, rfl, rfl⟩

theorem wiring_serves (generate : ServingGenerator) :
    (Manager.templateWiring (World.siteFor generate)).Serves fun w => w.stores.templates :=
  ⟨fun _ => rfl, fun _ => rfl⟩

def Looks : Request → Bool
  | .version _ => true
  | .versions .. => true
  | _ => false

def Counts : Request → Bool
  | .latest .. => true
  | .advance .. => true
  | .removeEntry .. => true
  | _ => false

def Synced (t : Template) (l : Ledger) : Prop :=
  l.latest t.key t.metadata.uid = t.status.latestVersion

/-- A delivery finds no number to write exactly when the status has the latest one. -/
theorem syncLatest_unchanged_iff (t : Template) (now : Timestamp) (w : World) :
    w.perform (t.syncLatest t.key now) = (.ok .unchanged, w) ↔
      t.deleting = true ∨ t.Synced w.ledger := by
  unfold syncLatest
  split
  · next hd => exact iff_of_true rfl (.inl hd)
  · next hd =>
    rw [or_iff_right hd]
    change (if w.ledger.latest t.key t.metadata.uid = t.status.latestVersion then
      pure (.ok .unchanged)
      else Plan.commit _ _ : Plan (Verdict Template)).run World.answer w = _ ↔ _
    split
    · next hs => exact iff_of_true rfl hs
    · next hs => exact iff_of_false (commit_ne_unchanged _ _ _ _) hs

/-- For a template it must be known that it is as a look at the versions leaves it, and that it has
the latest number, unless it is being deleted. -/
def concern (t : Template) : Concern (Prop × Prop) TemplateSpec TemplateStatus where
  store w := w.stores.templates
  object := t
  learn r w n := (if Looks r then t.meets (t.prospect w.stores.versions) = true else n.1,
    if Counts r then t.Synced (World.answer r w).2.ledger else n.2)
  enough n := t.deleting = true ∨ n.1 ∧ n.2
  learn_mono r w n n' h := by
    constructor
    · by_cases hl : Looks r = true
      · simp only [if_pos hl]; exact le_refl _
      · simp only [if_neg hl]; exact h.1
    · by_cases hc : Counts r = true
      · simp only [if_pos hc]; exact le_refl _
      · simp only [if_neg hc]; exact h.2
  enough_mono n n' h := fun he => he.imp_right fun ⟨hl, hs⟩ => ⟨h.1 hl, h.2 hs⟩

variable {t t' : Template} {n : Prop × Prop}
  {f : Verdict Template → Processing TemplateSpec TemplateStatus} {now : Timestamp}

theorem attempts_update (h : t'.key = t.key) : Attempts t.concern (.updateTemplate t') id := by
  intro w _ _
  refine attempts_settle (fun _ => rfl) fun o d hu => ?_
  obtain ⟨c, -, -, rfl⟩ := Store.update_eq_ok.mp hu
  exact ⟨w.stores.templates.updated c t', h, rfl⟩

theorem attempts_updateStatus (h : t'.key = t.key) :
    Attempts t.concern (.updateTemplateStatus t') id := by
  intro w hk _
  refine attempts_settle (fun _ => rfl) fun o d hu => ?_
  obtain ⟨c, hf, -, rfl⟩ := Store.updateStatus_eq_ok.mp hu
  exact ⟨w.stores.templates.restated c t', (hk _ _ (Store.fenced_eq_ok.mp hf).1).trans h, rfl⟩

theorem elsewhere_forgetNumbers (k : Key) (u : Template) (now : Timestamp) :
    (u.forgetNumbers k now).Asks (Elsewhere t.concern) := by
  refine .bind (Plan.asks_request fun _ => rfl) fun a => ?_
  split
  · exact .bind (.bind (Plan.asks_request fun _ => rfl) fun _ => Plan.asks_pure _) fun _ =>
      Plan.asks_pure _
  · exact Plan.asks_pure _

theorem heeds_selectDefault (hk : t.defaultVersionKey = none)
    (hu : ∀ n' : Prop × Prop, n'.1 → (f (.ok .unchanged)).Heeds t.concern n')
    (he : ∀ e n', (f (.error e)).Heeds t.concern n') :
    (follow (t.selectDefault now) f).Heeds t.concern n := by
  unfold selectDefault
  rw [follow_bind]
  intro w _ _
  refine .inr ⟨rfl, ?_⟩
  simp only [World.answer, follow]
  split
  · next hn =>
    apply hu _
    simp only [concern, Looks, if_true, prospect, hk, hn]
    rfl
  · refine heeds_commit (r := .updateTemplate _) (g := id) (attempts_update ?_) he
    rfl

theorem heeds_resolveRef {key : Key} (hk : t.defaultVersionKey = some key)
    (hu : ∀ n' : Prop × Prop, n'.1 → (f (.ok .unchanged)).Heeds t.concern n')
    (he : ∀ e n', (f (.error e)).Heeds t.concern n') :
    (follow (t.resolveRef key now) f).Heeds t.concern n := by
  unfold resolveRef
  rw [follow_bind]
  intro w _ _
  refine .inr ⟨rfl, ?_⟩
  simp only [World.answer, follow]
  split
  · next why hr =>
    unfold settle
    split
    · next ha =>
      apply hu _
      simp only [concern, Looks, if_true, prospect, hk, hr, meets]
      exact ha
    · refine heeds_commit (r := .updateTemplateStatus _) (g := id) (attempts_updateStatus ?_) he
      rfl
  · next number hr =>
    split
    · next ha =>
      apply hu _
      simp only [concern, Looks, if_true, prospect, hk, hr, meets]
      exact ha
    · refine heeds_commit (r := .updateTemplateStatus _) (g := id) (attempts_updateStatus ?_) he
      rfl

/-- The first handler looks at the versions. When it finds nothing to do, the template is as the
look leaves it. -/
theorem heeds_resolveDefault
    (hu : ∀ n' : Prop × Prop, (t.deleting = false → n'.1) → (f (.ok .unchanged)).Heeds t.concern n')
    (he : ∀ e n', (f (.error e)).Heeds t.concern n') :
    (follow (t.resolveDefault now) f).Heeds t.concern n := by
  unfold resolveDefault
  split
  · next hd => exact hu n fun h => by simp [hd] at h
  · cases hk : t.defaultVersionKey with
    | none => exact heeds_selectDefault hk (fun n' hn => hu n' fun _ => hn) he
    | some key => exact heeds_resolveRef hk (fun n' hn => hu n' fun _ => hn) he

/-- The second handler reads the ledger. When it finds nothing to do, the template has the latest
number. -/
theorem heeds_syncLatest
    (hu : ∀ n' : Prop × Prop, n'.1 = n.1 → (t.deleting = false → n'.2) →
      (f (.ok .unchanged)).Heeds t.concern n')
    (he : ∀ e n', (f (.error e)).Heeds t.concern n') :
    (follow (t.syncLatest t.key now) f).Heeds t.concern n := by
  unfold syncLatest
  split
  · next hd => exact hu n rfl fun h => by simp [hd] at h
  · intro w _ _
    refine .inr ⟨rfl, ?_⟩
    change (follow (if w.ledger.latest t.key t.metadata.uid = t.status.latestVersion then
      pure (.ok .unchanged)
      else .commit _ _) f).Heeds t.concern _
    split
    · next hs => exact hu _ rfl fun _ => hs
    · refine heeds_commit (r := .updateTemplateStatus _) (g := id) (attempts_updateStatus ?_) he
      rfl

theorem heeds_handlers (t : Template) (n : Prop × Prop) :
    (handlers.process t.key).Heeds t.concern n := by
  refine Handlers.heeds_process (r := .template t.key) rfl rfl (fun w =>
    ⟨rfl, rfl⟩) ?_ (fun ok n => ?_) n
  · intro h hm m u
    obtain rfl := List.mem_singleton.mp hm
    exact elsewhere_forgetNumbers _ _ _
  · have hfinish (changed : Bool) (o : Template) (n' : Prop × Prop)
        (h : ok && changed → t.concern.enough n') :
        (Processing.own (.remember o) fun _ =>
          Handlers.finish (ok && changed)).Heeds t.concern n' :=
      .inr fun _ => Handlers.heeds_finish h
    intro m
    refine heeds_resolveDefault ?_ ?_
    · intro n' hl m'
      refine heeds_syncLatest ?_ ?_
      · intro n'' hs hc
        refine hfinish _ _ _ fun _ => ?_
        cases hd : t.deleting with
        | true => exact .inl hd
        | false => exact .inr ⟨hs ▸ hl hd, hc hd⟩
      · exact fun e n'' => Handlers.heeds_afterError (hfinish _ _ _ fun h => by simp at h)
    · refine fun e n' => Handlers.heeds_afterError fun m' => heeds_syncLatest ?_ ?_
      · exact fun n'' _ _ => hfinish _ _ _ fun h => by simp at h
      · exact fun e n'' => Handlers.heeds_afterError (hfinish _ _ _ fun h => by simp at h)

theorem moves_settle {w : World} {e : Except StoreError (Template × TemplateStore)}
    (h : ∀ o s, e = .ok (o, s) → ∃ p, s = w.stores.templates.put p) :
    w.stores.templates.Moves (w.settle w.withTemplates e).2.stores.templates := by
  rw [World.settle_snd]
  split
  · obtain ⟨p, rfl⟩ := h _ _ rfl
    exact Store.moves_put _ _
  · exact .still

theorem attentive (generate : ServingGenerator) :
    Attentive handlers (Manager.templateWiring (World.siteFor generate)) (fun w =>
      w.stores.templates) concern where
  serves := wiring_serves generate
  moves r w := by
    cases r with
    | updateTemplate t =>
      exact moves_settle fun o s h => let ⟨c, _, _, hs⟩ := Store.update_eq_ok.mp h; ⟨_, hs⟩
    | updateTemplateStatus t =>
      exact moves_settle fun o s h => let ⟨c, _, _, hs⟩ := Store.updateStatus_eq_ok.mp h; ⟨_, hs⟩
    | updateVersion v => rw [World.answer, World.settle_snd]; split <;> exact .still
    | updateVersionStatus v => rw [World.answer, World.settle_snd]; split <;> exact .still
    | _ => exact .still
  object _ := rfl
  within _ := rfl
  heeds := heeds_handlers

/-- What the work on a template asks: it writes no version, and of the ledger it changes its own
entry only. -/
def Tidy (k : Key) : Request → Prop
  | .template _ => True
  | .version _ => True
  | .versions .. => True
  | .updateTemplate _ => True
  | .updateTemplateStatus _ => True
  | .latest .. => True
  | .removeEntry j _ => j = k
  | .publish _ => True
  | _ => False

/-- A tidy request leaves the versions alone, and the numbers of other templates. -/
theorem Tidy.answer {k : Key} {r : Request} (h : Tidy k r) (w : World) :
    (World.answer r w).2.stores.versions = w.stores.versions ∧
      ∀ j owner, j ≠ k ∨ Counts r = false →
      (World.answer r w).2.ledger.latest j owner = w.ledger.latest j owner := by
  cases r with
  | updateTemplate t =>
    simp only [World.answer, World.settle_snd]
    split <;> exact ⟨rfl, fun _ _ _ => rfl⟩
  | updateTemplateStatus t =>
    simp only [World.answer, World.settle_snd]
    split <;> exact ⟨rfl, fun _ _ _ => rfl⟩
  | removeEntry k' owner' =>
    obtain rfl : k' = k := h
    refine ⟨rfl, fun j owner hj => ?_⟩
    rcases hj with hj | hj
    · exact Ledger.latest_congr
        (by rw [World.answer, Ledger.remove_find?, if_neg fun hk => hj hk.1])
    · contradiction
  | updateVersion v => exact absurd h id
  | updateVersionStatus v => exact absurd h id
  | advance => exact absurd h id
  | _ => exact ⟨rfl, fun _ _ _ => rfl⟩

theorem Tidy.free {k : Key} {r : Request} (h : Tidy k r) (w : World) :
    VersionHandlers.Free w r := by
  cases r with
  | lock j => exact h.elim
  | _ => trivial

theorem Tidy.enqueued {k : Key} {r : Request} (h : Tidy k r) (w : World) :
    (World.answer r w).2.enqueued = w.enqueued := by
  cases r with
  | updateTemplate t => simp only [World.answer, World.settle_snd]; split <;> rfl
  | updateTemplateStatus t => simp only [World.answer, World.settle_snd]; split <;> rfl
  | updateVersion v => exact absurd h id
  | updateVersionStatus v => exact absurd h id
  | enqueue => exact absurd h id
  | _ => rfl

theorem tidy_resolveDefault (t : Template) (k : Key) (now : Timestamp) :
    (t.resolveDefault now).Asks (Tidy k) := by
  unfold resolveDefault
  split
  · exact Plan.asks_pure _
  · split
    · refine .bind (Plan.asks_request trivial) fun a => ?_
      split
      · exact Plan.asks_pure _
      · split
        · exact Plan.asks_pure _
        · exact .commit (Plan.asks_request trivial) (Plan.asks_request trivial)
    · refine .bind (Plan.asks_request trivial) fun a => ?_
      split
      · exact Plan.asks_pure _
      · split
        · unfold settle
          split
          · exact Plan.asks_pure _
          · exact .commit (Plan.asks_request trivial) (Plan.asks_request trivial)
        · split
          · exact Plan.asks_pure _
          · exact .commit (Plan.asks_request trivial) (Plan.asks_request trivial)

theorem tidy_syncLatest (t : Template) (k : Key) (now : Timestamp) :
    (t.syncLatest k now).Asks (Tidy k) := by
  unfold syncLatest
  split
  · exact Plan.asks_pure _
  · refine .bind (Plan.asks_request trivial) fun a => ?_
    split
    · exact Plan.asks_pure _
    · exact .commit (Plan.asks_request trivial) (Plan.asks_request trivial)

theorem tidy_forgetNumbers (t : Template) (k : Key) (now : Timestamp) :
    (t.forgetNumbers k now).Asks (Tidy k) := by
  refine .bind (Plan.asks_request rfl) fun a => ?_
  split
  · exact .bind (.bind (Plan.asks_request trivial) fun _ => Plan.asks_pure _) fun _ =>
      Plan.asks_pure _
  · exact Plan.asks_pure _

theorem tidy_handlers (k : Key) : (handlers.process k).Asks (Tidy k) := by
  refine Handlers.asks_process (Plan.asks_request trivial) (fun h hm m t => ?_) fun h hm m t => ?_
  · rcases List.mem_cons.mp hm with rfl | hm
    · exact tidy_resolveDefault t k m.time
    · obtain rfl := List.mem_singleton.mp hm
      exact tidy_syncLatest t k m.time
  · obtain rfl := List.mem_singleton.mp hm
    exact tidy_forgetNumbers t k m.time

end Template
end ModelTemplates
