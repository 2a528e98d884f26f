import ModelTemplates.Handler.Version
import ModelTemplates.Proofs.Controller.Deliveries
import ModelTemplates.Proofs.Controller.Processing
import ModelTemplates.Proofs.Handler.Numbering
/-! What becomes of a stored version when its handlers are called one after the other. Numbering
goes by the version, its template and the ledger; the configuration that is written beside it shows
only in what `bare` takes away. -/
namespace ModelTemplates

namespace Conditions

variable {cs : Conditions} {name dropped : Condition.Name} {f : Condition → Condition}

def without (cs : Conditions) (dropped : Condition.Name) : Conditions :=
  cs.filter fun c => c.name ≠ dropped

theorem without_cons (c : Condition) (cs : Conditions) (dropped : Condition.Name) :
    without (c :: cs) dropped = if c.name = dropped then without cs dropped
      else c :: without cs dropped := by
  unfold without
  by_cases hc : c.name = dropped <;> simp [hc]

theorem get?_without (h : name ≠ dropped) (cs : Conditions) :
    get? (without cs dropped) name = get? cs name := by
  unfold get? without
  rw [List.find?_filter]
  congr 1
  funext c
  by_cases hc : c.name = name
  · simp [hc, h]
  · simp [hc]

theorem without_modify (h : name ≠ dropped) (hf : ∀ c, (f c).name = c.name) (cs : Conditions) :
    without (modify cs name f) dropped = modify (without cs dropped) name f := by
  induction cs with
  | nil => rfl
  | cons c cs ih =>
    by_cases hc : c.name = name
    · simp [modify, without_cons, hf, hc, h]
    · by_cases hd : c.name = dropped
      · simp [modify, without_cons, hd, h.symm, ih]
      · simp [modify, without_cons, hc, hd, ih]

theorem without_modify_self (hf : ∀ c, (f c).name = c.name) (cs : Conditions) :
    without (modify cs dropped f) dropped = without cs dropped := by
  induction cs with
  | nil => rfl
  | cons c cs ih =>
    by_cases hd : c.name = dropped
    · simp [modify, without_cons, hf, hd]
    · simp [modify, without_cons, hd, ih]

/-- A condition that is kept is recorded among those that are kept as it is among all. -/
theorem without_set (h : name ≠ dropped) (cs : Conditions) (truth : Bool) (reason message : String)
    (now : Timestamp) : without (set cs name truth reason message now) dropped =
      set (without cs dropped) name truth reason message now := by
  have hrecorded :
      recorded (without cs dropped) name truth reason message =
      recorded cs name truth reason message := by
    simp only [recorded, get?_without h]
  unfold set
  rw [get?_without h, hrecorded]
  cases get? cs name with
  | none => simp [h, without]
  | some c =>
    simp only
    split
    · rfl
    · exact without_modify h (fun _ => by rfl) cs

theorem without_set_self (cs : Conditions) (dropped : Condition.Name) (truth : Bool)
    (reason message : String) (now : Timestamp) :
    without (set cs dropped truth reason message now) dropped = without cs dropped := by
  unfold set
  cases get? cs dropped with
  | none => simp [without]
  | some c =>
    simp only
    split
    · rfl
    · exact without_modify_self (fun _ => by rfl) cs

end Conditions

namespace Store

variable {σ τ : Type} {s : Store σ τ} {o c : Object σ τ}

theorem update_eq_of_read [DecidableEq σ] (hc : s.get? o.key = some c)
    (hr : o.metadata.resourceVersion = c.metadata.resourceVersion) :
    s.update o = .ok (s.updated c o, s.put (s.updated c o)) :=
  update_eq_ok.mpr ⟨c, fenced_eq_ok.mpr ⟨hc, hr⟩, rfl, rfl⟩

theorem updateStatus_eq_of_read (hc : s.get? o.key = some c)
    (hr : o.metadata.resourceVersion = c.metadata.resourceVersion) :
    s.updateStatus o = .ok (s.restated c o, s.put (s.restated c o)) :=
  updateStatus_eq_ok.mpr ⟨c, fenced_eq_ok.mpr ⟨hc, hr⟩, rfl, rfl⟩

end Store

namespace Version

variable {v v' p : Version} {t : Template} {l : Ledger} {w w' : World} {k : Key}
  {now : Timestamp} {m : Moment} {generate : ServingGenerator} {n : UInt32} {owner : OwnerReference}

/-- A version without its configuration: the condition, the configuration itself, and the resource
version of whichever write came last. -/
def bare (v : Version) : Version where
  metadata := { v.metadata with resourceVersion := 0 }
  spec := v.spec
  status :=
    { v.status with
      conditions := Conditions.without v.status.conditions .configured
      generatedModelConfig := none }

@[simp] theorem bare_assigned (v : Version) : v.bare.assigned = v.assigned := by
  have hapart : Condition.Name.assigned ≠ .configured := by decide
  simp only [assigned, Conditions.holds, bare, Conditions.get?_without hapart]

@[simp] theorem bare_deleting (v : Version) : v.bare.deleting = v.deleting := rfl

@[simp] theorem bare_templateKey (v : Version) : v.bare.templateKey = v.templateKey := rfl

@[simp] theorem bare_ownedBy (v : Version) (t : Template) : v.bare.ownedBy t = v.ownedBy t := rfl

@[simp] theorem bare_linkedTo (v : Version) (t : Template) : v.bare.linkedTo t = v.linkedTo t := rfl

@[simp] theorem bare_assignedNumber (v : Version) : v.bare.assignedNumber = v.assignedNumber := by
  simp only [assignedNumber, bare_assigned]
  rfl

theorem bare_numbered (v : Version) (n : UInt32) (now : Timestamp) :
    (v.numbered n now).bare = v.bare.numbered n now := by
  have hapart : Condition.Name.assigned ≠ .configured := by decide
  simp only [bare, numbered, withCondition, Object.withStatus, Conditions.without_set hapart]

theorem bare_linked (v : Version) (t : Template) (owner : OwnerReference) :
    (v.linked t owner).bare = v.bare.linked t owner := by
  unfold linked
  exact apply_ite bare _ _ _

/-- What numbering makes of a version and of the ledger, beside the template that the version
names. -/
def course (v : Version) (template : Option Template) (l : Ledger) (now : Timestamp) :
    Version × Ledger :=
  if v.deleting || v.assigned then (v, l)
  else match template with
  | none => (v, l)
  | some t =>
    if v.linkedTo t then match l.next? t.key t.metadata.uid with
    | none => (v, l)
    | some n => (v.numbered n now, l.advance t.key t.metadata.uid)
    else match t.ownerReference with
    | none => (v, l)
    | some owner => (v.linked t owner, l)

theorem course_bare (v : Version) (template : Option Template) (l : Ledger) (now : Timestamp) :
    v.bare.course template l now = ((v.course template l now).1.bare,
      (v.course template l now).2) := by
  unfold course
  rw [bare_deleting, bare_assigned]
  by_cases hdone : (v.deleting || v.assigned) = true
  · simp only [if_pos hdone]
  · simp only [if_neg hdone]
    cases template with
    | none => rfl
    | some t =>
      simp only
      rw [bare_linkedTo]
      by_cases hlinked : v.linkedTo t = true
      · simp only [if_pos hlinked]
        cases l.next? t.key t.metadata.uid with
        | none => rfl
        | some n => simp only [bare_numbered]
      · simp only [if_neg hlinked]
        cases t.ownerReference with
        | none => rfl
        | some owner => simp only [bare_linked]

theorem course_congr (h : v.bare = v'.bare) (template : Option Template) (l : Ledger)
    (now : Timestamp) :
    (v.course template l now).1.bare = (v'.course template l now).1.bare ∧
      (v.course template l now).2 = (v'.course template l now).2 := by
  have hcourse := course_bare v template l now
  rw [h, course_bare] at hcourse
  exact ⟨(congrArg Prod.fst hcourse).symm, (congrArg Prod.snd hcourse).symm⟩

/-- The version of a key has come to `q`, which but for its configuration is what was to become of
it, and the ledger with it. Nothing else is written. -/
structure Comes (w w' : World) (k : Key) (next : Version × Ledger) (q : Version) : Prop where
  stored : w'.stores.versions.get? k = some q
  key : q.key = k
  bare : q.bare = next.1.bare
  others : ∀ j ≠ k, w'.stores.versions.get? j = w.stores.versions.get? j
  templates : w'.stores.templates = w.stores.templates
  ledger : w'.ledger = next.2

abbrev ComesBy (w : World) (v : Version) (next : Version × Ledger) (r : Verdict Version × World) :
    Prop :=
  Comes w r.2 v.key next (Controller.passedOn v r.1)

theorem Comes.trans {w'' : World} {next : Version × Ledger} {q q' : Version}
    (h : Comes w w' k next q) (h' : Comes w' w'' k (q, w'.ledger) q') : Comes w w'' k next q' where
  stored := h'.stored
  key := h'.key
  bare := h'.bare.trans h.bare
  others j hj := (h'.others j hj).trans (h.others j hj)
  templates := h'.templates.trans h.templates
  ledger := h'.ledger.trans h.ledger

theorem comesBy_same (hv : w.stores.versions.get? v.key = some v) {r : Verdict Version}
    (hr : Controller.passedOn v r = v) : ComesBy w v (v, w.ledger) (r, w) := by
  unfold ComesBy
  rw [hr]
  exact ⟨hv, rfl, rfl, fun _ _ => rfl, rfl, rfl⟩

theorem comes_put {q x : Version} (hk : q.key = v.key) (hq : q.bare = x.bare)
    (hd : w'.stores = ⟨w.stores.templates, w.stores.versions.put q⟩) (hl : w'.ledger = l) :
    Comes w w' v.key (x, l) q := by
  refine ⟨?_, hk, hq, ?_, by rw [hd], hl⟩
  · rw [hd]
    exact (Store.put_get? _ _ _).trans (if_pos hk.symm)
  · intro j hj
    rw [hd]
    exact (Store.put_get? _ _ _).trans (if_neg fun h => hj (h.trans hk))

theorem comesBy_assign (hv : w.stores.versions.get? v.key = some v) (t : Template)
    (now : Timestamp) :
    ComesBy w v (match w.ledger.next? t.key t.metadata.uid with
      | none => (v, w.ledger)
      | some n => (v.numbered n now, w.ledger.advance t.key t.metadata.uid))
          (w.perform (v.assign t now)) := by
  rw [perform_assign]
  cases w.ledger.next? t.key t.metadata.uid with
  | none => exact ⟨hv, rfl, rfl, fun _ _ => rfl, rfl, rfl⟩
  | some n =>
    have hread : w.stores.versions.get? (v.numbered n now).key = some v := hv
    simp only [perform_record, Store.updateStatus_eq_of_read hread rfl]
    exact comes_put rfl rfl rfl rfl

theorem bare_updated (s : VersionStore) (v : Version) (t : Template) (owner : OwnerReference) :
    bare (s.updated v (v.linked t owner)) = (v.linked t owner).bare := by
  rw [linked_eq]
  simp [bare, Store.updated]

theorem comesBy_link (hv : w.stores.versions.get? v.key = some v)
    (ho : t.ownerReference = some owner) (now : Timestamp) :
    ComesBy w v (v.linked t owner, w.ledger) (w.perform (v.link t now)) := by
  have hread : w.stores.versions.get? (v.linked t owner).key = some v := by rw [linked_key, hv]
  rw [perform_link, ho]
  simp only [Store.update_eq_of_read hread (linked_resourceVersion v t owner)]
  exact comes_put (linked_key v t owner) (bare_updated _ v t owner) rfl rfl

theorem comesBy_number (hv : w.stores.versions.get? v.key = some v) (now : Timestamp) :
    ComesBy w v (v.course (w.stores.templates.get? v.templateKey) w.ledger now)
      (w.perform (v.number now)) := by
  rw [perform_number]
  unfold course
  split
  · exact comesBy_same hv rfl
  · cases w.stores.templates.get? v.templateKey with
    | none => exact comesBy_same hv rfl
    | some t =>
      simp only
      split
      · exact comesBy_assign hv t now
      · cases ho : Template.ownerReference t with
        | none =>
          rw [perform_link, ho]
          exact comesBy_same hv rfl
        | some owner => exact comesBy_link hv ho now

theorem perform_updateStatus (w : World) (x : Version) (e : Event) :
    w.perform (.commit (.request (.updateVersionStatus x)) (.request (.publish e))) =
      match w.stores.versions.updateStatus x with
      | .error e => (.error (.ofStore e), w)
      | .ok (stored, s) =>
        (.ok (.updated stored), { w.withVersions s with bus := w.bus.send e }) := by
  unfold World.perform
  simp only [Plan.commit, bind, Plan.bind, Plan.request, Plan.run, World.answer]
  cases w.stores.versions.updateStatus x <;> rfl

theorem comesBy_withStatus {s : VersionStatus} (hv : w.stores.versions.get? v.key = some v)
    (hs : bare (v.withStatus s) = v.bare) (e : Event) :
    ComesBy w v (v, w.ledger)
      (w.perform (.commit (.request (.updateVersionStatus (v.withStatus s)))
        (.request (.publish e)))) := by
  have hread : w.stores.versions.get? (v.withStatus s).key = some v := hv
  rw [perform_updateStatus, Store.updateStatus_eq_of_read hread rfl]
  exact comes_put rfl hs rfl rfl

/-- A configuration, or the reason why there is none, is seen nowhere else. -/
theorem comesBy_configure (hv : w.stores.versions.get? v.key = some v) (generate : ServingGenerator)
    (now : Timestamp) : ComesBy w v (v, w.ledger) (w.perform (v.configure generate now)) := by
  unfold configure
  split
  · exact comesBy_same hv rfl
  · cases generate v with
    | ok config =>
      refine comesBy_withStatus hv ?_ _
      simp only [bare, Object.withStatus, Conditions.without_set_self]
    | error e =>
      simp only [settle]
      split
      · exact comesBy_same hv rfl
      · refine comesBy_withStatus hv ?_ _
        simp only [bare, Object.withStatus, Conditions.without_set_self]

end Version
end ModelTemplates
