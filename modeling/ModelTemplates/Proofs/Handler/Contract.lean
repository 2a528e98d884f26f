import ModelTemplates.Handler.Version
import ModelTemplates.Proofs.Handler.Numbering
import ModelTemplates.Proofs.Store.Fence
import ModelTemplates.Proofs.Template.Selection
/-! What every handler promises of one call: a write, an event and at most one number together, or
nothing at all. -/
namespace ModelTemplates

def Stores.writes (s : Stores) : Nat := s.templates.writes + s.versions.writes

/-- One of the two stores. -/
structure Side (σ τ : Type) where
  kind : Kind
  store : Stores → Store σ τ
  set : Stores → Store σ τ → Stores
  store_set : ∀ s d, store (set s d) = d
  writes_set : ∀ s d, (set s d).writes + (store s).writes = s.writes + d.writes

def Side.templates : Side TemplateSpec TemplateStatus where
  kind := .template
  store s := s.templates
  set s d := { s with templates := d }
  store_set _ _ := rfl
  writes_set s d := by
    simp only [Stores.writes]
    omega

def Side.versions : Side VersionSpec VersionStatus where
  kind := .version
  store s := s.versions
  set s d := { s with versions := d }
  store_set _ _ := rfl
  writes_set s d := by
    simp only [Stores.writes]
    omega

variable {σ τ : Type} [DecidableEq σ] {side : Side σ τ} {w w' : World}
  {o p : Object σ τ} {e : Event} {now : Timestamp}

namespace World

/-- Nobody can tell the worlds apart by what is stored, counted or told. -/
structure Untouched (w w' : World) : Prop where
  stores : w'.stores = w.stores
  ledger : w'.ledger = w.ledger
  bus : w'.bus = w.bus

theorem Untouched.refl (w : World) : w.Untouched w := ⟨rfl, rfl, rfl⟩

/-- A number is given out: it is the next one of its template, it is counted there and nowhere else,
and the version has it. -/
structure Numbers (w w' : World) (version template : Key) (n : UInt32) : Prop where
  advanced : ∃ t, w.stores.templates.get? template = some t ∧
    n.toNat = (w.ledger.latest template t.metadata.uid).toNat + 1 ∧
    w'.ledger.latest template t.metadata.uid = n
  others : ∀ k ≠ template, w'.ledger.entries.find? k = w.ledger.entries.find? k
  stored : ∃ v : Version, w'.stores.versions.get? version = some v ∧ v.assignedNumber = some n

/-- The ledger moves on by the number that an event tells of, and stays for every other event. -/
def Accounts (w w' : World) : Event → Prop
  | .versionAssigned version template n _ => w.Numbers w' version template n
  | _ => w'.ledger = w.ledger

end World

namespace Side

/-- One write of the object that was given went through, and left `p` in its place; the other store
is as it was, and one event tells of the write. -/
structure Wrote (side : Side σ τ) (w w' : World) (o p : Object σ τ) : Prop where
  key : p.key = o.key
  through : ∃ op : Store.Operation σ τ, op.target = some o.key ∧
    (side.store w.stores).apply op = (.ok [p], side.store w'.stores)
  stores : w'.stores = side.set w.stores ((side.store w.stores).put p)
  stored : (side.store w'.stores).get? o.key = some p
  writes : w'.stores.writes = w.stores.writes + 1
  told : ∃ e : Event, e.kind = side.kind ∧ e.subject = o.key ∧ w'.bus = w.bus.send e ∧
    w.Accounts w' e

/-- What a handler that was given `o` may answer, and what it must have done then. It does not
panic. -/
inductive Kept (side : Side σ τ) (w : World) (o : Object σ τ) :
    Verdict (Object σ τ) × World → Prop where
  | unchanged {w' : World} (h : w.Untouched w') : Kept side w o (.ok .unchanged, w')
  | failed {e : ReconcileError} {w' : World} (he : e ≠ .overflow) (h : w.Untouched w') :
      Kept side w o (.error e, w')
  | updated {p : Object σ τ} {w' : World} (h : side.Wrote w w' o p) :
      Kept side w o (.ok (.updated p), w')

theorem Kept.wrote {r : Verdict (Object σ τ) × World} (h : side.Kept w o r)
    (hr : r.1 = .ok (.updated p)) :
    side.Wrote w r.2 o p := by
  cases h with
  | unchanged => simp at hr
  | failed => contradiction
  | updated h =>
    obtain rfl : _ = p := by simpa using hr
    exact h

/-- What a handler did to the store of its object is at most one operation, which wrote the object
exactly when the answer says so. -/
theorem Kept.operations {r : Verdict (Object σ τ) × World} (h : side.Kept w o r) :
    ∃ ops, side.store r.2.stores = (side.store w.stores).after ops ∧
      (∀ p, r.1 = .ok (.updated p) → p.key = o.key) ∧
      ((∃ p, r.1 = .ok (.updated p)) ↔ (side.store w.stores).WritesIn ops o.key) := by
  cases h with
  | unchanged h => exact ⟨[], congrArg side.store h.stores, by simp, by simp [Store.WritesIn]⟩
  | failed he h => exact ⟨[], congrArg side.store h.stores, by simp, by simp [Store.WritesIn]⟩
  | updated h =>
    obtain ⟨op, ht, hop⟩ := h.through
    have hwrites : (side.store w.stores).Writes op o.key := ⟨ht, by rw [hop]; rfl⟩
    refine ⟨[op], ?_, fun p hp => ?_, iff_of_true ⟨_, rfl⟩ (.inl hwrites)⟩
    · rw [Store.after_cons, hop, Store.after_nil]
    · obtain rfl : _ = p := by simpa using hp
      exact h.key

theorem wrote (op : Store.Operation σ τ) (ht : op.target = some o.key) (hk : p.key = o.key)
    (ho : (side.store w.stores).apply op = (.ok [p], (side.store w.stores).put p))
    (hs : w'.stores = side.set w.stores ((side.store w.stores).put p)) (he : e.kind = side.kind)
    (hsubject : e.subject = o.key) (hb : w'.bus = w.bus.send e) (ha : w.Accounts w' e) :
    side.Wrote w w' o p := by
  have hstore : side.store w'.stores = (side.store w.stores).put p := by rw [hs, side.store_set]
  constructor
  · exact hk
  · exact ⟨op, ht, hstore ▸ ho⟩
  · exact hs
  · rw [hstore, Store.put_get?, if_pos hk.symm]
  · have hw := side.writes_set w.stores ((side.store w.stores).put p)
    have hput : ((side.store w.stores).put p).writes = (side.store w.stores).writes + 1 := rfl
    rw [hs]
    omega
  · exact ⟨e, he, hsubject, hb, ha⟩

variable {x : Object σ τ} {d : Store σ τ}

theorem wrote_update (hu : (side.store w.stores).update x = .ok (p, d)) (hk : x.key = o.key)
    (hs : w'.stores = side.set w.stores d) (he : e.kind = side.kind) (hsubject : e.subject = o.key)
    (hb : w'.bus = w.bus.send e) (ha : w.Accounts w' e) : side.Wrote w w' o p := by
  have hop : (side.store w.stores).apply (.update x) = (.ok [p], d) := by
    simp only [Store.apply, hu, Store.commit]
  obtain ⟨c, -, rfl, rfl⟩ := Store.update_eq_ok.mp hu
  exact wrote (.update x) (congrArg some hk) hk hop hs he hsubject hb ha

theorem wrote_updateStatus (hd : (side.store w.stores).Keyed)
    (hu : (side.store w.stores).updateStatus x = .ok (p, d)) (hk : x.key = o.key)
    (hs : w'.stores = side.set w.stores d) (he : e.kind = side.kind) (hsubject : e.subject = o.key)
    (hb : w'.bus = w.bus.send e) (ha : w.Accounts w' e) : side.Wrote w w' o p := by
  have hop : (side.store w.stores).apply (.updateStatus x) = (.ok [p], d) := by
    simp only [Store.apply, hu, Store.commit]
  obtain ⟨c, hf, rfl, rfl⟩ := Store.updateStatus_eq_ok.mp hu
  have hc : c.key = x.key := hd _ _ (Store.fenced_eq_ok.mp hf).1
  exact wrote (.updateStatus x) (congrArg some hk) (hc.trans hk) hop hs he hsubject hb ha

end Side

namespace Template

variable {t t' : Template}

theorem kept_update (hk : t'.key = t.key) (he : e.kind = .template) (hs : e.subject = t.key)
    (ha : ∀ w', w'.ledger = w.ledger → w.Accounts w' e) :
    Side.templates.Kept w t
      (w.perform (.commit (.request (.updateTemplate t')) (.request (.publish e)))) := by
  rw [perform_update]
  cases hu : w.stores.templates.update t' with
  | error e => exact .failed (ReconcileError.ofStore_ne_overflow e) (.refl w)
  | ok r =>
    exact .updated (Side.wrote_update hu hk rfl he hs rfl (ha _ rfl))

theorem kept_updateStatus (hd : w.stores.templates.Keyed) (hk : t'.key = t.key)
    (he : e.kind = .template) (hs : e.subject = t.key)
    (ha : ∀ w', w'.ledger = w.ledger → w.Accounts w' e) :
    Side.templates.Kept w t
      (w.perform (.commit (.request (.updateTemplateStatus t')) (.request (.publish e)))) := by
  rw [perform_updateStatus]
  cases hu : w.stores.templates.updateStatus t' with
  | error e => exact .failed (ReconcileError.ofStore_ne_overflow e) (.refl w)
  | ok r =>
    exact .updated (Side.wrote_updateStatus hd hu hk rfl he hs rfl (ha _ rfl))

theorem kept_settle (hd : w.stores.templates.Keyed) {name : Condition.Name} {truth : Bool}
    {message : String} (he : e.kind = .template) (hs : e.subject = t.key)
    (ha : ∀ w', w'.ledger = w.ledger → w.Accounts w' e) :
    Side.templates.Kept w t
      (w.perform (t.settle name truth message now (.request (.publish e)))) := by
  unfold settle
  split
  · exact .unchanged (.refl w)
  · exact kept_updateStatus hd rfl he hs ha

theorem kept_resolveRef (hd : w.stores.templates.Keyed) (key : Key) :
    Side.templates.Kept w t (w.perform (t.resolveRef key now)) := by
  unfold World.perform resolveRef
  simp only [bind, Plan.bind, Plan.request, Plan.run, World.answer]
  cases t.resolution (w.stores.versions.get? key) with
  | error why => exact kept_settle hd rfl rfl fun _ h => h
  | ok n =>
    simp only
    split
    · exact .unchanged (.refl w)
    · exact kept_updateStatus hd rfl rfl rfl fun _ h => h

theorem kept_resolveDefault (hd : w.stores.templates.Keyed) :
    Side.templates.Kept w t (w.perform (t.resolveDefault now)) := by
  unfold resolveDefault
  split
  · exact .unchanged (.refl w)
  · split
    · rw [perform_selectDefault]
      split
      · exact .unchanged (.refl w)
      · exact kept_update rfl rfl rfl fun _ h => h
    · exact kept_resolveRef hd _

theorem kept_syncLatest (hd : w.stores.templates.Keyed) :
    Side.templates.Kept w t (w.perform (t.syncLatest t.key now)) := by
  unfold syncLatest
  split
  · exact .unchanged (.refl w)
  · change Side.templates.Kept w t
      (w.perform (if w.ledger.latest t.key t.metadata.uid = t.status.latestVersion
      then pure (.ok .unchanged) else .commit _ _))
    split
    · exact .unchanged (.refl w)
    · exact kept_updateStatus hd rfl rfl rfl fun _ h => h

end Template

namespace Version

variable {v x : Version} {t : Template}

theorem kept_updateStatus (hd : w.stores.versions.Keyed) (hk : x.key = v.key)
    (he : e.kind = .version) (hs : e.subject = v.key)
    (ha : ∀ w', w'.ledger = w.ledger → w.Accounts w' e) :
    Side.versions.Kept w v
      (w.perform (.commit (.request (.updateVersionStatus x)) (.request (.publish e)))) := by
  unfold World.perform
  simp only [Plan.commit, bind, Plan.bind, Plan.request, Plan.run, World.answer]
  cases hu : w.stores.versions.updateStatus x with
  | error e => exact .failed (ReconcileError.ofStore_ne_overflow e) (.refl w)
  | ok r =>
    exact .updated (Side.wrote_updateStatus hd hu hk rfl he hs rfl (ha _ rfl))

theorem kept_configure (hd : w.stores.versions.Keyed) (generate : ServingGenerator) :
    Side.versions.Kept w v (w.perform (v.configure generate now)) := by
  unfold configure
  split
  · exact .unchanged (.refl w)
  · split
    · exact kept_updateStatus hd rfl rfl rfl fun _ h => h
    · unfold settle
      split
      · exact .unchanged (.refl w)
      · exact kept_updateStatus hd rfl rfl rfl fun _ h => h

theorem kept_link : Side.versions.Kept w v (w.perform (v.link t now)) := by
  rw [perform_link]
  cases t.ownerReference with
  | none => exact .failed (by simp) (.refl w)
  | some owner =>
    simp only
    cases hu : w.stores.versions.update (v.linked t owner) with
    | error e => exact .failed (ReconcileError.ofStore_ne_overflow e) (.refl w)
    | ok r =>
      have hk : (v.linked t owner).key = v.key := linked_key v t owner
      exact .updated
        (Side.wrote_update (e := .versionLinked v.key t.key now) hu hk rfl rfl rfl rfl rfl)

/-- The number that is stored is the one that is counted and told. -/
theorem kept_assign (hd : w.stores.versions.Keyed) (hl : w.ledger.Unspent)
    (ht : w.stores.templates.get? t.key = some t) :
    Side.versions.Kept w v (w.perform (v.assign t now)) := by
  have hnext := hl.next? t.key t.metadata.uid
  rw [perform_assign, hnext]
  simp only [perform_record]
  generalize w.ledger.latest t.key t.metadata.uid + 1 = n at hnext
  cases hu : w.stores.versions.updateStatus (v.numbered n now) with
  | error e => exact .failed (ReconcileError.ofStore_ne_overflow e) ⟨rfl, rfl, rfl⟩
  | ok r =>
    obtain ⟨p, d⟩ := r
    have hstored : d.get? v.key = some p ∧ Version.assignedNumber p = some n := by
      obtain ⟨c, hf, rfl, rfl⟩ := Store.updateStatus_eq_ok.mp hu
      have hc : c.key = v.key := hd _ _ (Store.fenced_eq_ok.mp hf).1
      exact ⟨(Store.put_get? _ _ _).trans (if_pos hc.symm), if_pos (numbered_assigned v _ now)⟩
    refine .updated (Side.wrote_updateStatus
      (e := .versionAssigned v.key t.key n now) hd hu rfl rfl rfl rfl rfl ?_)
    constructor
    · exact ⟨t, ht, Counter.next?_eq_some.mp hnext, Ledger.latest_advance hnext⟩
    · intro k hne
      exact (Ledger.advance_find? _ _ _ _).trans (if_neg hne)
    · exact ⟨p, hstored⟩

theorem kept_number (ht : w.stores.templates.Keyed) (hd : w.stores.versions.Keyed)
    (hl : w.ledger.Unspent) :
    Side.versions.Kept w v (w.perform (v.number now)) := by
  rw [perform_number]
  split
  · exact .unchanged (.refl w)
  · split
    · exact .failed (by simp) (.refl w)
    · next t hk =>
      split
      · exact kept_assign hd hl (ht.get? hk)
      · exact kept_link

end Version

/-- An entry of the ledger went away and one event tells of it, or neither. -/
structure Template.Forgotten (w w' : World) (k : Key) (now : Timestamp) : Prop where
  stores : w'.stores = w.stores
  others : ∀ j ≠ k, w'.ledger.entries.find? j = w.ledger.entries.find? j
  told : (∃ e, w.ledger.entries.find? k = some e ∧ w'.ledger.entries.find? k = none ∧
      w'.bus = w.bus.send (.ledgerEntryRemoved k now)) ∨
    w'.ledger = w.ledger ∧ w'.bus = w.bus

theorem Template.forgotten (w : World) (k : Key) (t : Template) (now : Timestamp) :
    (w.perform (t.forgetNumbers k now)).1 = .ok () ∧
      Template.Forgotten w (w.perform (t.forgetNumbers k now)).2 k now := by
  have hothers {j : Key} (hne : j ≠ k) :
      (w.ledger.remove k t.metadata.uid).entries.find? j = w.ledger.entries.find? j := by
    rw [Ledger.remove_find?, if_neg fun h => hne h.1]
  rw [perform_forgetNumbers]
  cases he : w.ledger.entry? k t.metadata.uid with
  | none =>
    have hsame : w.ledger.remove k t.metadata.uid = w.ledger := by simp only [Ledger.remove, he]
    rw [if_neg (by simp [Ledger.removes, he])]
    exact ⟨rfl, rfl, fun j => hothers, .inr ⟨hsame, rfl⟩⟩
  | some e =>
    have hr : w.ledger.removes k t.metadata.uid = true := by simp [Ledger.removes, he]
    rw [if_pos hr]
    refine ⟨rfl, rfl, fun j => hothers, .inl ⟨e, (Ledger.entry?_eq_some.mp he).1, ?_, rfl⟩⟩
    exact (Ledger.remove_find? _ _ _ _).trans (if_pos ⟨rfl, hr⟩)

/-- Whatever is stored, counted and handed to them, handlers write once, count at most the number
that they tell of and tell of it once, or leave everything as it was; and a cleanup tells exactly of
the entry that it removes. -/
theorem handlers_all_or_nothing (ht : w.stores.templates.Keyed) (hv : w.stores.versions.Keyed)
    (hl : w.ledger.Unspent) (now : Timestamp) :
    (∀ v : Version, Side.versions.Kept w v (w.perform (v.number now))) ∧
    (∀ (generate : ServingGenerator) (v : Version),
      Side.versions.Kept w v (w.perform (v.configure generate now))) ∧
    (∀ t : Template, Side.templates.Kept w t (w.perform (t.resolveDefault now))) ∧
    (∀ t : Template, Side.templates.Kept w t (w.perform (t.syncLatest t.key now))) ∧
    ∀ (k : Key) (t : Template), (w.perform (t.forgetNumbers k now)).1 = .ok () ∧
      Template.Forgotten w (w.perform (t.forgetNumbers k now)).2 k now :=
  ⟨fun _ => Version.kept_number ht hv hl, fun generate _ => Version.kept_configure hv generate,
    fun _ => Template.kept_resolveDefault ht, fun _ => Template.kept_syncLatest ht,
    fun k t => Template.forgotten w k t now⟩

namespace HandlerContract

def template : Template := ⟨{ Meta.named "models" "llama" with uid := some ⟨1⟩ }, .empty, .empty⟩

def waiting : Version where
  metadata :=
    { Meta.named "models" "a" with
      uid := some ⟨2⟩
      resourceVersion := 1
      labels := Table.empty.insert templateLabel "llama"
      owners := [⟨apiVersion, Kind.template.text, "llama", ⟨1⟩⟩] }
  spec := { VersionSpec.empty with templateName := "llama" }
  status := .empty

def prepared : World :=
  { World.empty with
    stores := ⟨World.empty.stores.templates.put template, World.empty.stores.versions.put waiting⟩ }

theorem handlers_all_or_nothing_waiting :
    ∃ p : Version, (prepared.perform (waiting.number default)).1 = .ok (.updated p) ∧
      Side.versions.Wrote prepared (prepared.perform (waiting.number default)).2 waiting p := by
  have ht : prepared.stores.templates.Keyed := (Store.recorded_empty .template).keyed.put template
  have hv : prepared.stores.versions.Keyed := (Store.recorded_empty .version).keyed.put waiting
  have hl : prepared.ledger.Unspent := fun _ h => absurd h List.not_mem_nil
  have hkept := (handlers_all_or_nothing ht hv hl default).1 waiting
  exact ⟨_, rfl, hkept.wrote rfl⟩

end HandlerContract

end ModelTemplates
