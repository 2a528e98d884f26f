import ModelTemplates.Manager
import ModelTemplates.Proofs.Controller.Heed
import ModelTemplates.Proofs.Controller.Pending
import ModelTemplates.Proofs.Version.Linking
/-! What a delivery of a version sees to, and in which order it writes the number, counts it and has
the template looked at again. -/
namespace ModelTemplates

/-- An answer that a world can give: a template has the key that was asked for, and a version that
is shown is one of those that there have been. -/
def Request.Truthful (past : List Version) : (r : Request) → r.Answer → Prop
  | .template k, a => ∀ t : Template, a = .ok (some t) → t.key = k
  | .version _, a => ∀ v, a = .ok (some v) → v ∈ past
  | .updateVersion _, a => ∀ v, a = .ok v → v ∈ past
  | .updateVersionStatus _, a => ∀ v, a = .ok v → v ∈ past
  | _, _ => True

theorem World.truthful (w : World) (hk : w.stores.templates.Keyed) (r : Request)
    (past : List Version) :
    r.Truthful ((answer r w).2.stores.versions.objects.values ++ past) (answer r w).1 := by
  have put (d : VersionStore) (o : Version) : o ∈ (d.put o).objects.values ++ past :=
    List.mem_append_left _ ((Table.mem_values_iff _ _).mpr ⟨o.key,
      (Store.put_get? d o o.key).trans (if_pos rfl)⟩)
  cases r with
  | template k => exact fun t ht => hk k t (Except.ok.inj ht)
  | version k =>
    exact fun v hv => List.mem_append_left _ ((Table.mem_values_iff _ _).mpr ⟨k, Except.ok.inj hv⟩)
  | updateVersion x =>
    intro v hv
    simp only [answer] at hv ⊢
    cases hu : w.stores.versions.update x with
    | error e => simp [hu, settle] at hv
    | ok p =>
      obtain ⟨o, s⟩ := p
      obtain ⟨c, -, rfl, rfl⟩ := Store.update_eq_ok.mp hu
      simp only [hu, settle, Except.ok.injEq] at hv ⊢
      exact hv ▸ put _ _
  | updateVersionStatus x =>
    intro v hv
    simp only [answer] at hv ⊢
    cases hu : w.stores.versions.updateStatus x with
    | error e => simp [hu, settle] at hv
    | ok p =>
      obtain ⟨o, s⟩ := p
      obtain ⟨c, -, rfl, rfl⟩ := Store.updateStatus_eq_ok.mp hu
      simp only [hu, settle, Except.ok.injEq] at hv ⊢
      exact hv ▸ put _ _
  | _ => trivial

namespace Version

open Processing

def handlers (generate : ServingGenerator) : Handlers VersionSpec VersionStatus where
  read k := Plan.request (.version k)
  change := [fun m _ v => Version.number v m.time, fun m _ v => Version.configure generate v m.time]
  remove := []

theorem handlers_wires (generate : ServingGenerator) :
    (handlers generate).Wires World.answer (Manager.versionWiring (World.siteFor generate)) :=
  ⟨fun _ => rfl, rfl, rfl⟩

theorem wiring_serves (generate : ServingGenerator) :
    (Manager.versionWiring (World.siteFor generate)).Serves fun w => w.stores.versions :=
  ⟨fun _ => rfl, fun _ => rfl⟩

/-- A version that no handler has anything to do on. -/
structure Quiet (generate : ServingGenerator) (v : Version) : Prop where
  number : ∀ now, v.number now = .done (.ok .unchanged)
  configure : ∀ now, v.configure generate now = .done (.ok .unchanged)

/-- For a version there must be nothing to do on it. No request is needed to find that out. -/
def concern (generate : ServingGenerator) (v : Version) :
    Concern Prop VersionSpec VersionStatus where
  store w := w.stores.versions
  object := v
  learn _ _ n := n
  enough _ := v.Quiet generate
  learn_mono _ _ _ _ h := h
  enough_mono _ _ _ := le_refl _

variable {generate : ServingGenerator} {v x : Version} {n : Prop}
  {f : Verdict Version → Processing VersionSpec VersionStatus}
  {now : Timestamp}

theorem attempts_update (h : x.key = v.key) :
    Attempts (v.concern generate) (.updateVersion x) id := by
  intro w _ _
  refine attempts_settle (fun _ => rfl) fun o d hu => ?_
  obtain ⟨c, -, -, rfl⟩ := Store.update_eq_ok.mp hu
  exact ⟨w.stores.versions.updated c x, h, rfl⟩

theorem attempts_updateStatus (h : x.key = v.key) :
    Attempts (v.concern generate) (.updateVersionStatus x) id := by
  intro w hk _
  refine attempts_settle (fun _ => rfl) fun o d hu => ?_
  obtain ⟨c, hf, -, rfl⟩ := Store.updateStatus_eq_ok.mp hu
  exact ⟨w.stores.versions.restated c x, (hk _ _ (Store.fenced_eq_ok.mp hf).1).trans h, rfl⟩

theorem heeds_link {t : Template} (he : ∀ e n', (f (.error e)).Heeds (v.concern generate) n') :
    (follow (v.link t now) f).Heeds (v.concern generate) n := by
  unfold link
  split
  · exact he _ _
  · refine heeds_commit (r := .updateVersion _) (g := id) (attempts_update ?_) he
    exact linked_key _ _ _

theorem heeds_record {t : Template} {number : UInt32}
    (he : ∀ e n', (f (.error e)).Heeds (v.concern generate) n') :
    (follow (v.record t number now) f).Heeds (v.concern generate) n := by
  intro w hk hg
  have hwrite : Attempts (v.concern generate) (.updateVersionStatus (v.numbered number now)) id :=
    attempts_updateStatus rfl
  refine (hwrite w hk hg).imp_right fun ⟨hs, e, ha⟩ => ⟨hs, ?_⟩
  rw [show (World.answer (.updateVersionStatus (v.numbered number now)) w).1 = .error e from ha]
  exact heeds_ask (r := .unlock t.key) (fun _ => rfl) fun _ _ => he _ _

theorem heeds_assign {t : Template} (he : ∀ e n', (f (.error e)).Heeds (v.concern generate) n') :
    (follow (v.assign t now) f).Heeds (v.concern generate) n := by
  refine heeds_ask (r := .lock t.key) (fun _ => rfl) fun _ _ => ?_
  refine heeds_ask (r := .latest t.key t.metadata.uid) (fun _ => rfl) fun latest n' => ?_
  change (follow (v.recordAfter t latest now) f).Heeds (v.concern generate) n'
  unfold recordAfter
  cases Counter.next? latest with
  | none => exact heeds_ask (r := .unlock t.key) (fun _ => rfl) fun _ _ => he _ _
  | some number => exact heeds_record he

theorem heeds_number
    (hu : ∀ n', (∀ now, v.number now = .done (.ok .unchanged)) →
      (f (.ok .unchanged)).Heeds (v.concern generate) n')
    (he : ∀ e n', (f (.error e)).Heeds (v.concern generate) n') :
    (follow (v.number now) f).Heeds (v.concern generate) n := by
  unfold number
  split
  · next hg => exact hu n fun now => if_pos hg
  · refine heeds_ask (r := .template v.templateKey) (fun _ => rfl) fun a n' => ?_
    rcases a with e | _ | t
    · exact he _ _
    · exact he _ _
    · change (follow (if v.linkedTo t then v.assign t now else v.link t now) f).Heeds
        (v.concern generate) _
      split
      · exact heeds_assign he
      · exact heeds_link he

theorem heeds_configure
    (hu : ∀ n', (∀ now, v.configure generate now = .done (.ok .unchanged)) →
      (f (.ok .unchanged)).Heeds (v.concern generate) n')
    (he : ∀ e n', (f (.error e)).Heeds (v.concern generate) n') :
    (follow (v.configure generate now) f).Heeds (v.concern generate) n := by
  unfold configure
  split
  · next hg => exact hu n fun now => if_pos hg
  · next hg =>
    split
    · refine heeds_commit (r := .updateVersionStatus _) (g := id) (attempts_updateStatus ?_) he
      rfl
    · next e hgen =>
      unfold settle
      split
      · next ha =>
        refine hu n fun now => ?_
        simp only [configure, if_neg hg, hgen, settle, if_pos ha]
        rfl
      · refine heeds_commit (r := .updateVersionStatus _) (g := id) (attempts_updateStatus ?_) he
        rfl

theorem heeds_handlers (generate : ServingGenerator) (v : Version) (n : Prop) :
    ((handlers generate).process v.key).Heeds (v.concern generate) n := by
  refine Handlers.heeds_process (r := .version v.key) rfl rfl (fun w => ⟨rfl, rfl⟩) (fun h hm =>
    ?_) (fun ok n => ?_) n
  · contradiction
  · have hfinish (changed : Bool) (o : Version) (n' : Prop) (h : ok && changed → v.Quiet generate) :
        (Processing.own (.remember o) fun _ => Handlers.finish (ok && changed)).Heeds
          (v.concern generate) n' :=
      .inr fun _ => Handlers.heeds_finish h
    intro m
    refine heeds_number ?_ ?_
    · intro n' hn m'
      refine heeds_configure ?_ ?_
      · exact fun n'' hc => hfinish _ _ _ fun _ => ⟨hn, hc⟩
      · exact fun e n'' => Handlers.heeds_afterError (hfinish _ _ _ fun h => by simp at h)
    · refine fun e n' => Handlers.heeds_afterError fun m' => heeds_configure ?_ ?_
      · exact fun n'' _ => hfinish _ _ _ fun h => by simp at h
      · exact fun e n'' => Handlers.heeds_afterError (hfinish _ _ _ fun h => by simp at h)

end Version
end ModelTemplates
