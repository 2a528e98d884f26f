import ModelTemplates.Proofs.Controller.Rules
import ModelTemplates.Proofs.Version.Delivery
/-! The rules that the work on versions keeps to. A number is stored under the lock of its template
and right after the ledger was read, and it is counted before the lock is given back. -/
namespace ModelTemplates

def Request.Introduces (owner : Key → Uid → Prop) : (r : Request) → r.Answer → Prop
  | .template k, a => ∀ t : Template, a = .ok (some t) → ∃ u, t.metadata.uid = some u ∧ owner k u
  | _, _ => True

namespace Version

inductive Role where
  | outside
  /-- With the lock of a template. -/
  | holding (k : Key)
  /-- With the lock, and the ledger read. -/
  | informed (k : Key) (n : UInt32)
  /-- With the lock, and a number stored that the ledger does not have. -/
  | ahead (k : Key)
deriving DecidableEq

def Role.lock : Role → Option Key
  | outside => none
  | holding k => some k
  | informed k _ => some k
  | ahead k => some k

structure Knowledge where
  seen : List Version
  owner : Key → Uid → Prop

def Knowledge.content (c : Knowledge) : (Version → Prop) × (Key → Uid → Prop) :=
  (fun v => v ∈ c.seen, c.owner)

instance : Preorder Knowledge := Preorder.lift Knowledge.content

variable {c c' : Knowledge} {ρ : Role} {r : Request} {v x : Version} {t : Template}
  {now : Timestamp}

theorem Knowledge.seen_le (h : c ≤ c') (hv : v ∈ c.seen) : v ∈ c'.seen := h.1 v hv

theorem Knowledge.owner_le (h : c ≤ c') {k : Key} {u : Uid} (hu : c.owner k u) :
    c'.owner k u := h.2 k u hu

/-- What may be asked. Whatever is written is written over a version that was seen. -/
inductive May (c : Knowledge) : Role → Request → Prop where
  | template (k : Key) : May c .outside (.template k)
  | version (k : Key) : May c .outside (.version k)
  | enqueue (k : Key) : May c .outside (.enqueue k)
  | publish (e : Event) : May c .outside (.publish e)
  | link {p : Version} {t : Template} {owner : OwnerReference} : p ∈ c.seen → p.assigned = false →
      t.key = p.templateKey → t.ownerReference = some owner → c.owner p.templateKey owner.uid →
      May c .outside (.updateVersion (p.linked t owner))
  | configure {p x : Version} :
      p ∈ c.seen → x.metadata.resourceVersion = p.metadata.resourceVersion →
      x.assigned = p.assigned → x.status.version = p.status.version →
      May c .outside (.updateVersionStatus x)
  | lock (k : Key) : May c .outside (.lock k)
  | read {k : Key} {u : Uid} : c.owner k u → May c (.holding k) (.latest k (some u))
  | number {p : Version} {n m : UInt32} {now : Timestamp} : p ∈ c.seen → p.assigned = false →
      p.metadata.labels.find? templateLabel = some p.spec.templateName → p.metadata.owners ≠ [] →
      Counter.next? n = some m →
      May c (.informed p.templateKey n) (.updateVersionStatus (p.numbered m now))
  | abandon (k : Key) (n : UInt32) : May c (.informed k n) (.unlock k)
  | count {k : Key} {u : Uid} : c.owner k u → May c (.ahead k) (.advance k (some u))
  | unlock (k : Key) : May c (.holding k) (.unlock k)

theorem May.mono (h : May c ρ r) (hc : c ≤ c') : May c' ρ r := by
  cases h with
  | link hp ha hk ho hu => exact .link (Knowledge.seen_le hc hp) ha hk ho (Knowledge.owner_le hc hu)
  | configure hp hr ha hn => exact .configure (Knowledge.seen_le hc hp) hr ha hn
  | read hu => exact .read (Knowledge.owner_le hc hu)
  | number hp ha hl ho hn => exact .number (Knowledge.seen_le hc hp) ha hl ho hn
  | count hu => exact .count (Knowledge.owner_le hc hu)
  | _ => constructor

def Role.after : Role → (r : Request) → r.Answer → Role
  | outside, .lock k, _ => holding k
  | holding k, .latest .., n => informed k n
  | informed k _, .updateVersionStatus _, .ok _ => ahead k
  | informed k _, .updateVersionStatus _, .error _ => holding k
  | ahead k, .advance .., _ => holding k
  | holding _, .unlock _, _ => outside
  | informed _ _, .unlock _, _ => outside
  | ρ, _, _ => ρ

def rules : Rules Role Knowledge VersionSpec VersionStatus where
  home := .outside
  may ρ c r := May c ρ r
  after := Role.after
  told c r a := r.Truthful c.seen a ∧ r.Introduces c.owner a
  fit c v := v ∈ c.seen
  digs _ := True
  may_mono _ _ _ _ hc h := h.mono hc
  fit_mono _ _ _ hc h := Knowledge.seen_le hc h

theorem obeys_link (hv : v ∈ c.seen) (ha : v.assigned = false) (hk : t.key = v.templateKey)
    (ht : ∃ u, t.metadata.uid = some u ∧ c.owner v.templateKey u) :
    (v.link t now).Obeys rules rules.Ends .outside c := by
  unfold link
  cases ho : t.ownerReference with
  | none => exact rules.ends_error _
  | some owner =>
    obtain ⟨u, hu, hknown⟩ := ht
    have howner : c.owner v.templateKey owner.uid := by
      rwa [Option.some.inj ((ownerReference_eq_some ho).1.symm.trans hu)]
    refine .commit (fun _ => .publish _) rfl
      (Plan.obeys_request (.link hv ha hk ho howner) fun _ _ _ htold => ?_)
    exact ⟨rfl, htold.1⟩

theorem obeys_record {latest n : UInt32} {u : Uid} (hv : v ∈ c.seen) (ha : v.assigned = false)
    (hk : t.key = v.templateKey) (hu : t.metadata.uid = some u) (hknown : c.owner v.templateKey u)
    (hl : v.linkedTo t = true) (hn : Counter.next? latest = some n) :
    (v.record t n now).Obeys rules rules.Ends (.informed v.templateKey latest) c := by
  rw [linkedTo, Bool.and_eq_true, decide_eq_true_eq] at hl
  have hlabel : v.metadata.labels.find? templateLabel = some v.spec.templateName := by
    rw [hl.1]
    exact congrArg (fun k => some k.name) hk
  have howners : v.metadata.owners ≠ [] := by
    obtain ⟨o, ho, -⟩ := (ownedBy_iff hu).mp hl.2
    exact List.ne_nil_of_mem ho
  unfold record
  rw [hk, hu]
  refine .bind (Plan.obeys_request (.number hv ha hlabel howners hn) fun a c₁ h₁ htold => ?_)
  cases a with
  | error e => exact .bind (Plan.obeys_request (.unlock _) fun _ c₂ _ _ => rules.ends_error _)
  | ok o =>
    -- The number is stored. It is counted before the lock is given back.
    have ho : o ∈ c₁.seen := htold.1 o rfl
    refine .bind (Plan.obeys_request (.count (Knowledge.owner_le h₁ hknown)) fun _ c₂ h₂ _ => ?_)
    refine .bind (Plan.obeys_request (.unlock _) fun _ c₃ h₃ _ => ?_)
    refine .bind (Plan.obeys_request (.enqueue _) fun _ c₄ h₄ _ => ?_)
    refine .bind (Plan.obeys_request (.publish _) fun _ c₅ h₅ _ => ?_)
    exact rules.ends_updated
      (Knowledge.seen_le h₅ (Knowledge.seen_le h₄ (Knowledge.seen_le h₃ (Knowledge.seen_le h₂ ho))))

theorem obeys_assign (hv : v ∈ c.seen) (ha : v.assigned = false) (hk : t.key = v.templateKey)
    (ht : ∃ u, t.metadata.uid = some u ∧ c.owner v.templateKey u) (hl : v.linkedTo t = true) :
    (v.assign t now).Obeys rules rules.Ends .outside c := by
  obtain ⟨u, hu, hknown⟩ := ht
  unfold assign
  rw [hk, hu]
  refine .bind (Plan.obeys_request (.lock _) fun _ c₁ h₁ _ => ?_)
  refine .bind (Plan.obeys_request (.read (Knowledge.owner_le h₁ hknown)) fun latest c₂ h₂ _ => ?_)
  unfold recordAfter
  rw [hk]
  cases hn : Counter.next? latest with
  | none => exact .bind (Plan.obeys_request (.abandon _ _) fun _ c₃ _ _ => rules.ends_error _)
  | some n =>
    have hv₂ := Knowledge.seen_le h₂ (Knowledge.seen_le h₁ hv)
    exact obeys_record hv₂ ha hk hu (Knowledge.owner_le h₂ (Knowledge.owner_le h₁ hknown)) hl hn

theorem obeys_number (hv : v ∈ c.seen) : (v.number now).Obeys rules rules.Ends .outside c := by
  unfold number
  split
  · exact rules.ends_unchanged
  · next hg =>
    rw [Bool.or_eq_true, not_or, Bool.not_eq_true, Bool.not_eq_true] at hg
    refine .bind (Plan.obeys_request (.template v.templateKey) fun a c' hc htold => ?_)
    rcases a with e | _ | t
    · exact rules.ends_error _
    · exact rules.ends_error _
    · have hk : t.key = v.templateKey := htold.1 t rfl
      have ht := htold.2 t rfl
      change (if v.linkedTo t then v.assign t now
        else v.link t now).Obeys rules rules.Ends .outside c'
      split
      · next hl => exact obeys_assign (Knowledge.seen_le hc hv) hg.2 hk ht hl
      · exact obeys_link (Knowledge.seen_le hc hv) hg.2 hk ht

theorem obeys_restate (hv : v ∈ c.seen)
    (hr : x.metadata.resourceVersion = v.metadata.resourceVersion) (ha : x.assigned = v.assigned)
    (hn : x.status.version = v.status.version) (e : Event) :
    (Plan.commit (.request (.updateVersionStatus x)) (.request (.publish e))).Obeys rules rules.Ends
      .outside c := by
  refine .commit (fun _ => .publish _) rfl
    (Plan.obeys_request (.configure hv hr ha hn) fun _ _ _ htold => ?_)
  exact ⟨rfl, htold.1⟩

theorem obeys_configure (hv : v ∈ c.seen) (generate : ServingGenerator) :
    (v.configure generate now).Obeys rules rules.Ends .outside c := by
  unfold configure
  split
  · exact rules.ends_unchanged
  · split
    · refine obeys_restate hv ?_ ?_ ?_ _
      · rfl
      · exact assigned_set_configured v true "" "" _
      · rfl
    · unfold settle
      split
      · exact rules.ends_unchanged
      · refine obeys_restate hv ?_ ?_ ?_ _
        · rfl
        · exact assigned_set_configured v false _ _ _
        · rfl

theorem obeys_handlers (generate : ServingGenerator) (k : Key) (c : Knowledge) :
    ((handlers generate).process k).Obeys rules .outside c := by
  refine Handlers.obeys_process ?_ (fun h hm m v c' hv => ?_) fun _ _ _ hm =>
    absurd hm List.not_mem_nil
  · refine Plan.obeys_request (.version k) fun a c' _ htold => ⟨rfl, fun v hv => ?_⟩
    exact htold.1 v hv
  · rcases List.mem_cons.mp hm with rfl | hm
    · exact obeys_number hv
    · obtain rfl := List.mem_singleton.mp hm
      exact obeys_configure hv generate

end Version
end ModelTemplates
