import ModelTemplates.Handler.Condition
import ModelTemplates.Proofs.Condition.History
import ModelTemplates.Proofs.Store.History
import ModelTemplates.World
/-! Conditions as the record of all that was reported of an object. A report that tells nothing new
changes nothing. To record a condition of a stored object takes one write of its status, and none
when its truth and message are stored. -/
namespace ModelTemplates

namespace Conditions

/-- The condition is there with this truth and message, whatever its reason. -/
def Says (cs : Conditions) (name : Condition.Name) (truth : Bool) (message : String) : Prop :=
  ∃ c, get? cs name = some c ∧ c.truth = .ofBool truth ∧ c.message = message

theorem agrees_iff {cs : Conditions} {name : Condition.Name} {truth : Bool} {message : String} :
    agrees cs name truth message = true ↔ Says cs name truth message := by
  unfold agrees Says
  cases get? cs name <;> simp

/-- What the conditions of an object say after these reports, and what comes of one more report. -/
structure Recorded (rs : List Report) : Prop where
  distinct : (names (after rs)).Nodup
  said : ∀ name, Said name rs (get? (after rs) name)
  /-- If the clock is never set back, the times are those of the latest turn and of the latest
  change. -/
  latest : InOrder rs → ∀ name c, get? (after rs) name = some c →
    (∀ r, Turn Report.truth (about name rs) r → r.moment ≤ c.lastTransition) ∧
      (∀ r, Turn Report.content (about name rs) r → r.moment ≤ c.lastUpdate) ∧
      c.lastTransition ≤ c.lastUpdate
  answer : ∀ r, changes (after rs) r = false ↔ ∃ c, get? (after rs) r.name = some c ∧ Matches c r
  unchanged : ∀ r, record (after rs) r = after rs ↔ changes (after rs) r = false
  others : ∀ r, others r.name (record (after rs) r) = others r.name (after rs)
  order : ∀ r, names (record (after rs) r) =
    if r.name ∈ names (after rs) then names (after rs) else names (after rs) ++ [r.name]

theorem recorded_after (rs : List Report) : Recorded rs where
  distinct := nodup_names_after rs
  said name := said_after name rs
  latest horder name c hc := by
    have hsaid := said_after name rs
    rw [hc] at hsaid
    cases hsaid with
    | tells hname h =>
      obtain ⟨t, ht, htransition⟩ := h.turned
      obtain ⟨u, hu, hupdate⟩ := h.updated
      have hown : InOrder (about name rs) := horder.filter _
      rw [htransition, hupdate]
      have hturn : Turn Report.content (about name rs) t := Turn.of_comp (g := Prod.fst) ht.turn
      exact ⟨fun r => ht.moment_le hown, fun r => hu.moment_le hown, hu.moment_le hown hturn⟩
  answer r := changes_eq_false_iff
  unchanged r := record_eq_self_iff
  others r := others_record (after rs) r
  order r := names_record (after rs) r

end Conditions

namespace Store

variable {σ τ : Type} {s s' : Store σ τ} {o p : Object σ τ}

structure StatusWritten (s : Store σ τ) (p o : Object σ τ) (s' : Store σ τ) : Prop where
  answer : s.updateStatus p = .ok (o, s')
  writes : s'.writes = s.writes + 1
  stored : s'.get? p.key = some o
  status : o.status = p.status

theorem exists_statusWritten (hstored : s.get? o.key = some o) (hread : p.metadata = o.metadata) :
    ∃ q s', s.StatusWritten p q s' := by
  have hkey : p.key = o.key := congrArg Meta.key hread
  have hfenced : s.fenced p = .ok o := fenced_eq_ok.mpr ⟨hkey ▸ hstored, by rw [hread]⟩
  refine ⟨s.restated o p, s.put (s.restated o p), updateStatus_eq_ok.mpr ⟨o, hfenced, rfl, rfl⟩,
    rfl, ?_, rfl⟩
  rw [put_get?, if_pos]
  exact hkey

end Store

variable {w : World} {t : Template} {v : Version}

/-- A write of the status of an object that was read just now goes through, and nothing follows from
it. -/
theorem World.perform_commit_status {σ τ : Type} {s : Store σ τ} {o p : Object σ τ}
    {put : Store σ τ → World} {write : Plan (Except StoreError (Object σ τ))}
    (hstored : s.get? o.key = some o) (hwrite : w.perform write = w.settle put (s.updateStatus p))
    (hread : p.metadata = o.metadata) :
    ∃ q s', s.StatusWritten p q s' ∧
      w.perform (.commit write (pure ())) = (.ok (.updated q), put s') := by
  obtain ⟨q, s', hwritten⟩ := Store.exists_statusWritten hstored hread
  refine ⟨q, s', hwritten, ?_⟩
  rw [hwritten.answer] at hwrite
  unfold World.perform at hwrite ⊢
  rw [Plan.commit, Plan.run_bind, hwrite]
  rfl

theorem Template.perform_settle (hstored : w.stores.templates.get? t.key = some t)
    (name : Condition.Name) (truth : Bool) (message : String) (now : Timestamp) :
    (Conditions.Says t.status.conditions name truth message →
        w.perform (t.settle name truth message now (pure ())) = (.ok .unchanged, w)) ∧
      (¬ Conditions.Says t.status.conditions name truth message → ∃ o s,
        w.stores.templates.StatusWritten
          (t.withCondition name truth (Condition.reasonFor truth) message now) o s ∧
          w.perform (t.settle name truth message now (pure ())) =
          (.ok (.updated o), w.withTemplates s) ∧ o.status.conditions =
            Conditions.record t.status.conditions ⟨name, truth, Condition.reasonFor truth,
              message, now⟩) := by
  simp only [← Conditions.agrees_iff]
  constructor
  · intro hsays
    rw [settle, if_pos hsays]
    rfl
  · intro hnew
    have hwrite : w.perform (.request (.updateTemplateStatus
        (t.withCondition name truth (Condition.reasonFor truth) message now))) =
          w.settle w.withTemplates _ := rfl
    obtain ⟨o, s, hwritten, hperform⟩ := World.perform_commit_status hstored hwrite rfl
    refine ⟨o, s, hwritten, ?_, by rw [hwritten.status]; rfl⟩
    rw [settle, if_neg hnew, hperform]

theorem Version.perform_settle (hstored : w.stores.versions.get? v.key = some v)
    (name : Condition.Name) (truth : Bool) (message : String) (now : Timestamp) :
    (Conditions.Says v.status.conditions name truth message →
        w.perform (v.settle name truth message now (pure ())) = (.ok .unchanged, w)) ∧
      (¬ Conditions.Says v.status.conditions name truth message → ∃ o s,
        w.stores.versions.StatusWritten
          (v.withCondition name truth (Condition.reasonFor truth) message now) o s ∧
          w.perform (v.settle name truth message now (pure ())) =
          (.ok (.updated o), w.withVersions s) ∧ o.status.conditions =
            Conditions.record v.status.conditions ⟨name, truth, Condition.reasonFor truth,
              message, now⟩) := by
  simp only [← Conditions.agrees_iff]
  constructor
  · intro hsays
    rw [settle, if_pos hsays]
    rfl
  · intro hnew
    have hwrite : w.perform (.request (.updateVersionStatus
        (v.withCondition name truth (Condition.reasonFor truth) message now))) =
          w.settle w.withVersions _ := rfl
    obtain ⟨o, s, hwritten, hperform⟩ := World.perform_commit_status hstored hwrite rfl
    refine ⟨o, s, hwritten, ?_, by rw [hwritten.status]; rfl⟩
    rw [settle, if_neg hnew, hperform]

namespace Conditions

/-- The conditions of an object are the record of all that was reported of them. To record one of a
stored object takes one write of its status when the truth or the message is new, and none
otherwise. -/
theorem record_history :
    (∀ rs, Recorded rs) ∧
      (∀ (w : World) (t : Template), w.stores.templates.get? t.key = some t →
        ∀ name truth message now, (Says t.status.conditions name truth message →
            w.perform (t.settle name truth message now (pure ())) = (.ok .unchanged, w)) ∧
          (¬ Says t.status.conditions name truth message → ∃ o s,
            w.stores.templates.StatusWritten
              (t.withCondition name truth (Condition.reasonFor truth) message now) o s ∧
              w.perform (t.settle name truth message now (pure ())) =
              (.ok (.updated o), w.withTemplates s) ∧ o.status.conditions =
                record t.status.conditions ⟨name, truth, Condition.reasonFor truth,
                  message, now⟩)) ∧
      (∀ (w : World) (v : Version), w.stores.versions.get? v.key = some v →
        ∀ name truth message now, (Says v.status.conditions name truth message →
            w.perform (v.settle name truth message now (pure ())) = (.ok .unchanged, w)) ∧
          (¬ Says v.status.conditions name truth message → ∃ o s,
            w.stores.versions.StatusWritten
              (v.withCondition name truth (Condition.reasonFor truth) message now) o s ∧
              w.perform (v.settle name truth message now (pure ())) =
              (.ok (.updated o), w.withVersions s) ∧ o.status.conditions =
                record v.status.conditions ⟨name, truth, Condition.reasonFor truth,
                  message, now⟩)) :=
  ⟨recorded_after, fun _ _ hstored => Template.perform_settle hstored,
    fun _ _ hstored => Version.perform_settle hstored⟩

def instant (second : Fin 60) : Timestamp := ⟨2026, 1, 1, 0, 0, second, 0, by decide +revert⟩

/-- A version is not configured, for one reason and then for another, and is given its number in
between. -/
def unsettled : List Report :=
  [⟨.configured, false, "Error", "down", instant 0⟩, ⟨.assigned, true, "", "", instant 1⟩,
    ⟨.configured, false, "Error", "down", instant 2⟩,
    ⟨.configured, false, "Error", "gone", instant 3⟩]

def llama (cs : Conditions) : Template :=
  ⟨.named "default" "llama", .empty, { TemplateStatus.empty with conditions := cs }⟩

def holding (t : Template) : World := World.empty.withTemplates (World.empty.stores.templates.put t)

theorem get?_holding (t : Template) : (holding t).stores.templates.get? t.key = some t := by
  change (World.empty.stores.templates.put t).get? t.key = some t
  rw [Store.put_get?, if_pos rfl]

/-- The version was never configured, so that the condition did not turn since the first report; its
message changed with the last one. A template's first condition is written, and the same one is not
written again. -/
theorem record_history_unsettled :
    InOrder unsettled ∧
      (∃ c, get? (after unsettled) .configured = some c ∧ c.message = "gone" ∧
        c.lastTransition = instant 0 ∧ c.lastUpdate = instant 3 ∧
        ∀ r, Turn Report.truth (about .configured unsettled) r → r.moment ≤ instant 0) ∧
      (∃ o s, (holding (llama [])).perform
          ((llama []).settle .defaultVersionResolved false "no default version"
            (instant 4) (pure ())) =
          (.ok (.updated o), (holding (llama [])).withTemplates s) ∧ s.writes = 2) ∧
      (holding (llama [first ⟨.defaultVersionResolved, false, "Error", "gone", instant 0⟩])).perform
          ((llama [first ⟨.defaultVersionResolved, false, "Error", "gone", instant 0⟩]).settle
            .defaultVersionResolved false "gone" (instant 4) (pure ())) =
        (.ok .unchanged, holding (llama
          [first ⟨.defaultVersionResolved, false, "Error", "gone", instant 0⟩])) := by
  obtain ⟨hlists, htemplates, -⟩ := record_history
  have horder : InOrder unsettled := by decide
  obtain ⟨hturns, -, -⟩ := (hlists unsettled).latest horder .configured _ rfl
  obtain ⟨-, hwritten⟩ :=
    htemplates (holding (llama [])) (llama []) (get?_holding _) .defaultVersionResolved false
    "no default version" (instant 4)
  obtain ⟨o, s, hwrite, hperform, -⟩ := hwritten (by rintro ⟨c, hc, -⟩; contradiction)
  exact ⟨horder, ⟨_, rfl, rfl, rfl, rfl, hturns⟩, ⟨o, s, hperform, hwrite.writes⟩,
    (htemplates _ _ (get?_holding _) _ _ _ _).1 ⟨_, rfl, rfl, rfl⟩⟩

end Conditions

end ModelTemplates
