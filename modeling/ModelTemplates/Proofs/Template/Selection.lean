import Mathlib.Data.List.TakeDrop
import Mathlib.Data.List.TakeWhile
import ModelTemplates.Proofs.Template.Prospect
/-! Which version a template without a default takes, and when the reference that it writes leads
back to it. -/
namespace ModelTemplates

namespace Timestamp

variable {s t : Timestamp}

theorem rank_injective (h : s.rank = t.rank) : s = t := by
  have hdays (year : Int) (month : Nat) : Calendar.daysIn year month ≤ 31 := by
    unfold Calendar.daysIn
    split
    · split <;> decide
    · split <;> decide
  obtain ⟨year, month, day, hour, minute, second, nano, hs⟩ := s
  obtain ⟨year', month', day', hour', minute', second', nano', ht⟩ := t
  obtain ⟨-, ⟨_, _⟩, ⟨_, _⟩, _, _, _, _⟩ := id hs
  obtain ⟨-, ⟨_, _⟩, ⟨_, _⟩, _, _, _, _⟩ := id ht
  have := hdays year month
  have := hdays year' month'
  simp only [rank] at h
  -- Every field is a digit of the rank, the smallest unit last.
  have hnano : nano = nano' := by omega
  have hsecond : second = second' := by omega
  have hminute : minute = minute' := by omega
  have hhour : hour = hour' := by omega
  have hday : day = day' := by omega
  have hmonth : month = month' := by omega
  have hyear : year = year' := by omega
  subst hnano hsecond hminute hhour hday hmonth hyear
  rfl

theorem lt_trichotomy (s t : Timestamp) : s < t ∨ s = t ∨ t < s := by
  rcases Int.lt_trichotomy s.rank t.rank with h | h | h
  · exact .inl h
  · exact .inr (.inl (rank_injective h))
  · exact .inr (.inr h)

theorem lt_asymm (h : s < t) : ¬ t < s := fun h' => Int.lt_irrefl _ (Int.lt_trans h h')

end Timestamp

namespace Template

variable {t t' : Template} {a b c v x : Version} {d : VersionStore} {vs : List Version} {w : World}

theorem precedes_total (a b : Version) : (precedes a b || precedes b a) = true := by
  rw [Bool.or_eq_true]
  have hname : a.metadata.name ≤ b.metadata.name ∨ b.metadata.name ≤ a.metadata.name :=
    String.le_total _ _
  unfold precedes
  cases a.metadata.creationTimestamp with
  | none =>
    cases b.metadata.creationTimestamp with
    | none => simpa using hname
    | some _ => exact .inl rfl
  | some s =>
    cases b.metadata.creationTimestamp with
    | none => exact .inr rfl
    | some t =>
      simp only [decide_eq_true_eq]
      rcases Timestamp.lt_trichotomy s t with h | rfl | h
      · exact .inl (.inl h)
      · exact hname.imp (fun hn => .inr ⟨rfl, hn⟩) fun hn => .inr ⟨rfl, hn⟩
      · exact .inr (.inl h)

theorem precedes_trans (hab : precedes a b = true) (hbc : precedes b c = true) :
    precedes a c = true := by
  unfold precedes at *
  cases ha : a.metadata.creationTimestamp with
  | none =>
    cases hc : c.metadata.creationTimestamp with
    | none =>
      cases hb : b.metadata.creationTimestamp with
      | none =>
        simp only [ha, hb, hc, decide_eq_true_eq] at hab hbc ⊢
        exact String.le_trans hab hbc
      | some _ => simp [hb, hc] at hbc
    | some _ => rfl
  | some s =>
    cases hb : b.metadata.creationTimestamp with
    | none => simp [ha, hb] at hab
    | some t =>
      cases hc : c.metadata.creationTimestamp with
      | none => simp [hb, hc] at hbc
      | some u =>
        simp only [ha, hb, hc, decide_eq_true_eq] at hab hbc ⊢
        rcases hab with hst | ⟨rfl, hn⟩
        · rcases hbc with htu | ⟨rfl, -⟩
          · exact .inl (Int.lt_trans hst htu)
          · exact .inl hst
        · rcases hbc with htu | ⟨rfl, hn'⟩
          · exact .inl htu
          · exact .inr ⟨rfl, String.le_trans hn hn'⟩

theorem precedes_antisymm (hab : precedes a b = true) (hba : precedes b a = true) :
    a.metadata.name = b.metadata.name := by
  unfold precedes at hab hba
  cases ha : a.metadata.creationTimestamp with
  | none =>
    cases hb : b.metadata.creationTimestamp with
    | none =>
      simp only [ha, hb, decide_eq_true_eq] at hab hba
      exact String.le_antisymm hab hba
    | some _ => simp [ha, hb] at hba
  | some s =>
    cases hb : b.metadata.creationTimestamp with
    | none => simp [ha, hb] at hab
    | some t =>
      simp only [ha, hb, decide_eq_true_eq] at hab hba
      rcases hab with hst | ⟨rfl, hn⟩
      · rcases hba with hts | ⟨rfl, -⟩
        · exact absurd hts (Timestamp.lt_asymm hst)
        · exact absurd hst (Timestamp.lt_asymm hst)
      · rcases hba with hts | ⟨-, hn'⟩
        · exact absurd hts (Timestamp.lt_asymm hts)
        · exact String.le_antisymm hn hn'

theorem earliest?_eq_some (h : t.earliest? vs = some v) :
    v ∈ vs ∧ t.isMember v = true ∧ ∀ x ∈ vs, t.isMember x = true → precedes v x = true := by
  unfold earliest? at h
  obtain ⟨rest, hsorted⟩ := List.head?_eq_some_iff.mp h
  have hmem (x : Version) : x ∈ v :: rest ↔ x ∈ vs ∧ t.isMember x = true := by
    rw [← hsorted, List.mem_mergeSort, List.mem_filter]
  have hpairwise : (v :: rest).Pairwise fun a b => precedes a b = true := by
    rw [← hsorted]
    exact @List.pairwise_mergeSort _ precedes (fun _ _ _ => precedes_trans) precedes_total _
  obtain ⟨hv, hm⟩ := (hmem v).mp List.mem_cons_self
  refine ⟨hv, hm, fun x hx hxm => ?_⟩
  rcases List.mem_cons.mp ((hmem x).mpr ⟨hx, hxm⟩) with rfl | hrest
  · have := precedes_total x x
    rwa [Bool.or_self] at this
  · exact List.rel_of_pairwise_cons hpairwise hrest

def labelled (t : Template) (d : VersionStore) : List Version :=
  d.list (some t.metadata.space) (Table.empty.insert templateLabel t.metadata.name)

theorem mem_labelled :
    v ∈ t.labelled d ↔ (∃ k, d.get? k = some v) ∧ v.metadata.space = t.metadata.space ∧
    v.metadata.labels.find? templateLabel = some t.metadata.name := by
  unfold labelled Store.list
  simp only [List.mem_filter, Table.mem_values_iff, Bool.and_eq_true, decide_eq_true_eq,
    matches_label]
  rfl

/-- The first of the stored versions that could be selected. -/
structure Earliest (t : Template) (d : VersionStore) (v : Version) : Prop where
  stored : d.get? v.key = some v
  lists : t.Lists v
  least : ∀ k x, d.get? k = some x → t.Lists x → precedes v x = true

theorem Earliest.unique (h : t.Earliest d v) (h' : t.Earliest d x) : v = x := by
  have hname : v.metadata.name = x.metadata.name :=
    precedes_antisymm (h.least _ _ h'.stored h'.lists) (h'.least _ _ h.stored h.lists)
  have hspace : v.metadata.space = x.metadata.space := h.lists.space.trans h'.lists.space.symm
  have hkey : v.key = x.key := by simp only [Object.key, Meta.key, hname, hspace]
  have hstored : d.get? v.key = some x := hkey ▸ h'.stored
  exact Option.some.inj (h.stored.symm.trans hstored)

theorem earliest?_labelled (hd : d.Keyed) :
    t.earliest? (t.labelled d) = some v ↔ t.Earliest d v := by
  have hearliest {v : Version} (h : t.earliest? (t.labelled d) = some v) : t.Earliest d v := by
    obtain ⟨hv, hm, hleast⟩ := earliest?_eq_some h
    obtain ⟨⟨k, hk⟩, hs, hl⟩ := mem_labelled.mp hv
    exact ⟨hd.get? hk, ⟨hs, hl, hm⟩, fun j x hj hx =>
      hleast x (mem_labelled.mpr ⟨⟨j, hj⟩, hx.space, hx.label⟩) hx.member⟩
  constructor
  · exact hearliest
  · intro h
    have hne : t.earliest? (t.labelled d) ≠ none := earliest?_ne_none.mpr
      ⟨v, mem_labelled.mpr ⟨⟨v.key, h.stored⟩, h.lists.space, h.lists.label⟩, h.lists.member⟩
    obtain ⟨x, hx⟩ := Option.ne_none_iff_exists'.mp hne
    rw [hx, (hearliest hx).unique h]

theorem exists_earliest {k : Key} (hd : d.Keyed) (hk : d.get? k = some x) (hx : t.Lists x) :
    ∃ v, t.Earliest d v := by
  have hne : t.earliest? (t.labelled d) ≠ none :=
    earliest?_ne_none.mpr ⟨x, mem_labelled.mpr ⟨⟨k, hk⟩, hx.space, hx.label⟩, hx.member⟩
  obtain ⟨v, hv⟩ := Option.ne_none_iff_exists'.mp hne
  exact ⟨v, (earliest?_labelled hd).mp hv⟩

theorem earliest_of_all_eq (hd : d.Keyed) (hall : d.all = [v]) (hl : t.Lists v) :
    t.Earliest d v := by
  obtain ⟨k, hk⟩ : ∃ k, d.get? k = some v := by
    rw [← Store.mem_all_iff, hall]
    exact List.mem_cons_self
  obtain ⟨x, hx⟩ := exists_earliest hd hk hl
  have hmem : x ∈ d.all := Store.mem_all_iff.mpr ⟨_, hx.stored⟩
  rw [hall, List.mem_singleton] at hmem
  exact hmem ▸ hx

theorem Key.ofReference_eq_iff (reference space : String) :
    Key.ofReference reference space = ⟨space, reference⟩ ↔ '/' ∉ reference.toList := by
  unfold Key.ofReference
  rw [List.span_eq_takeWhile_dropWhile]
  cases hrest : reference.toList.dropWhile fun x => decide (x ≠ '/') with
  | nil =>
    refine iff_of_true rfl fun hmem => ?_
    have := List.dropWhile_eq_nil_iff.mp hrest '/' hmem
    simp at this
  | cons slash after =>
    have hsplit : reference.toList = reference.toList.takeWhile (fun x => decide (x ≠ '/')) ++
      slash :: after := by
      rw [← hrest, List.takeWhile_append_dropWhile]
    have hslash : slash = '/' := by
      have hhead := List.head?_dropWhile_not (fun x => decide (x ≠ '/')) reference.toList
      rw [hrest] at hhead
      simpa using hhead
    refine iff_of_false (fun he => ?_) fun hn => hn ?_
    · -- What follows the slash is shorter than the whole.
      have hafter : String.ofList after = reference := (Key.mk.inj he).2
      have hlength : after.length = reference.toList.length := by
        rw [← hafter, String.toList_ofList]
      rw [hsplit, List.length_append, List.length_cons] at hlength
      omega
    · rw [hsplit, ← hslash]
      exact List.mem_append_right _ List.mem_cons_self

theorem defaultVersionKey_eq_some {reference : String}
    (h : t.spec.defaultVersionRef = some reference) (hne : reference ≠ "") :
    t.defaultVersionKey = some (Key.ofReference reference t.metadata.space) := by
  simp only [defaultVersionKey, h, hne, if_false]

/-- The template can refer to the version by its name, and the version names the template. -/
structure Referable (t : Template) (v : Version) : Prop where
  named : v.metadata.name ≠ ""
  plain : '/' ∉ v.metadata.name.toList
  template : v.templateKey = t.key

instance (t : Template) (v : Version) : Decidable (t.Referable v) :=
  decidable_of_iff (v.metadata.name ≠ "" ∧ '/' ∉ v.metadata.name.toList ∧ v.templateKey = t.key)
    ⟨fun ⟨h, h', h''⟩ => ⟨h, h', h''⟩, fun h => ⟨h.named, h.plain, h.template⟩⟩

/-- The name of a version leads to it from a template of its namespace exactly when it is a plain
one. -/
theorem defaultVersionKey_eq_key_iff (h : t.spec.defaultVersionRef = some v.metadata.name)
    (hs : v.metadata.space = t.metadata.space) :
    t.defaultVersionKey = some v.key ↔ v.metadata.name ≠ "" ∧ '/' ∉ v.metadata.name.toList := by
  by_cases hne : v.metadata.name = ""
  · simp [defaultVersionKey, h, hne]
  · have hkey : v.key = ⟨t.metadata.space, v.metadata.name⟩ := by rw [← hs]; rfl
    rw [defaultVersionKey_eq_some h hne, Option.some.injEq, hkey, Key.ofReference_eq_iff]
    exact (and_iff_right hne).symm

/-- The version is the template's default, and the status says so. -/
structure DefaultsTo (t : Template) (v : Version) : Prop where
  key : t.defaultVersionKey = some v.key
  number : t.status.defaultVersion = v.status.version
  observed : t.status.observedGeneration = t.metadata.generation
  resolved : t.resolved = true

theorem resolution_of_lists (h : t.Lists v) (hk : v.templateKey = t.key) :
    t.resolution (some v) = .ok v.status.version := by
  have hm : v.ownedBy t = true ∧ v.assigned = true := Bool.and_eq_true_iff.mp h.member
  exact resolution_eq_ok.mpr ⟨v, rfl, hk, hm.2, rfl, hm.1⟩

/-- A look that agrees with the status finds the default that it names. -/
theorem defaultsTo_iff (hv : d.get? v.key = some v) (hl : t.Lists v)
    (hk : t.defaultVersionKey = some v.key) (hm : t.meets (t.prospect d) = true) :
    t.DefaultsTo v ↔ v.templateKey = t.key := by
  simp only [prospect, hk, hv] at hm
  constructor
  · intro h
    refine Decidable.byContradiction fun hne => ?_
    have hfalse : t.resolution (some v) = .error (.elsewhere v.templateKey) := by
      simp [resolution, hne]
    rw [hfalse] at hm
    have := (Conditions.holds_of_agrees hm).symm.trans h.resolved
    contradiction
  · intro hkey
    rw [resolution_of_lists hl hkey] at hm
    simp only [meets, hasDefault, decide_eq_true_eq] at hm
    exact ⟨hk, hm.1, hm.2.1, Conditions.holds_of_agrees hm.2.2⟩

theorem perform_update (w : World) (t : Template) (e : Event) :
    w.perform (.commit (.request (.updateTemplate t)) (.request (.publish e))) =
      match w.stores.templates.update t with
      | .error e => (.error (.ofStore e), w)
      | .ok (stored, s) =>
        (.ok (.updated stored), { w.withTemplates s with bus := w.bus.send e }) := by
  unfold World.perform
  simp only [Plan.commit, bind, Plan.bind, Plan.request, Plan.run, World.answer]
  cases w.stores.templates.update t <;> rfl

theorem perform_updateStatus (w : World) (t : Template) (e : Event) :
    w.perform (.commit (.request (.updateTemplateStatus t)) (.request (.publish e))) =
      match w.stores.templates.updateStatus t with
      | .error e => (.error (.ofStore e), w)
      | .ok (stored, s) =>
        (.ok (.updated stored), { w.withTemplates s with bus := w.bus.send e }) := by
  unfold World.perform
  simp only [Plan.commit, bind, Plan.bind, Plan.request, Plan.run, World.answer]
  cases w.stores.templates.updateStatus t <;> rfl

theorem perform_selectDefault (w : World) (t : Template) (now : Timestamp) :
    w.perform (t.selectDefault now) =
      match t.earliest? (t.labelled w.stores.versions) with
      | none => (.ok .unchanged, w)
      | some v =>
        w.perform (.commit (.request (.updateTemplate (t.withDefaultVersionRef v.metadata.name)))
          (.request (.publish (.defaultVersionSelected t.key v.metadata.name now)))) := by
  change World.perform w (match t.earliest? (t.labelled w.stores.versions) with
    | none => pure (.ok .unchanged)
    | some v => .commit _ _) = _
  cases t.earliest? (t.labelled w.stores.versions) <;> rfl

def looked (t : Template) (key : Key) (now : Timestamp) : Except Unresolved UInt32 → Template
  | .ok n => t.withDefault n now
  | .error why =>
    t.withCondition .defaultVersionResolved false (Condition.reasonFor false) (why.message key) now

def announcement (t : Template) (key : Key) (now : Timestamp) : Except Unresolved UInt32 → Event
  | .ok n => .defaultVersionResolved t.key n now
  | .error why => .defaultVersionUnresolved t.key (why.message key) now

theorem perform_resolveRef {key : Key} (hk : t.defaultVersionKey = some key)
    (hm : ¬ t.meets (t.prospect w.stores.versions) = true) (now : Timestamp) :
    w.perform (t.resolveRef key now) =
      w.perform (.commit
        (.request
          (.updateTemplateStatus (t.looked key now (t.resolution (w.stores.versions.get? key)))))
        (.request
          (.publish (t.announcement key now (t.resolution (w.stores.versions.get? key)))))) := by
  unfold World.perform resolveRef
  simp only [bind, Plan.bind, Plan.request, Plan.run, World.answer]
  simp only [prospect, hk] at hm
  cases hr : t.resolution (w.stores.versions.get? key) with
  | error why =>
    simp only [hr, meets] at hm
    simp only [settle, if_neg hm]
    rfl
  | ok n =>
    simp only [hr, meets] at hm
    simp only [if_neg hm]
    rfl

theorem looked_meets {key : Key} {s : TemplateStore} {now : Timestamp}
    (hk : t.defaultVersionKey = some key)
    (hp : t' = s.restated t (t.looked key now (t.resolution (d.get? key)))) :
    t'.meets (t'.prospect d) = true := by
  have hkey : t'.defaultVersionKey = some key := hp ▸ hk
  have hresolution : t'.resolution (d.get? key) = t.resolution (d.get? key) := hp ▸ rfl
  simp only [prospect, hkey, hresolution]
  cases hr : t.resolution (d.get? key) with
  | error why =>
    rw [hr] at hp
    subst hp
    exact Conditions.agrees_set _ _ _ _ _ _
  | ok n =>
    rw [hr] at hp
    subst hp
    simp only [meets, hasDefault, decide_eq_true_eq]
    exact ⟨rfl, rfl, Conditions.agrees_set _ _ _ _ _ _⟩

theorem lists_congr (hk : t'.key = t.key) (hu : t'.metadata.uid = t.metadata.uid) :
    t'.Lists v ↔ t.Lists v := by
  obtain ⟨hs, hn⟩ := Key.mk.inj hk
  have hm : t'.isMember v = t.isMember v := by simp only [isMember, Version.ownedBy, hu]
  constructor
  · rintro ⟨h, h', h''⟩
    exact ⟨h.trans hs, h'.trans (congrArg some hn), hm ▸ h''⟩
  · rintro ⟨h, h', h''⟩
    exact ⟨h.trans hs.symm, h'.trans (congrArg some hn.symm), hm.symm ▸ h''⟩

theorem Earliest.congr (h : t.Earliest d v) (hk : t'.key = t.key)
    (hu : t'.metadata.uid = t.metadata.uid) :
    t'.Earliest d v :=
  ⟨h.stored, (lists_congr hk hu).mpr h.lists, fun k x hx hl =>
    h.least k x hx ((lists_congr hk hu).mp hl)⟩

def redelivered (k : Key) (now : Timestamp) (w : World) : World :=
  match w.stores.templates.get? k with
  | none => w
  | some t => (w.perform (Template.resolveDefault t now)).2

/-- The world after deliveries of what is stored under the key each time, with nobody else at
work. -/
def redeliveries (k : Key) (now : Nat → Timestamp) (w : World) : Nat → World
  | 0 => w
  | n + 1 => redelivered k (now n) (redeliveries k now w n)

/-- After so many deliveries the next one finds nothing to do, and the version is the default. -/
def SettlesOn (w : World) (k : Key) (now : Nat → Timestamp) (v : Version) (n : Nat) : Prop :=
  ∃ t : Template, (redeliveries k now w n).stores.templates.get? k = some t ∧
    (redeliveries k now w n).perform (t.resolveDefault (now n)) =
    (.ok .unchanged, redeliveries k now w n) ∧ t.DefaultsTo v

/-- Where the deliveries of a template have come that takes `v` for its default: it is the one that
was there but for its reference and its status. -/
structure Underway (d : VersionStore) (t : Template) (v : Version) (w : World) (t' : Template) :
    Prop where
  versions : w.stores.versions = d
  stored : w.stores.templates.get? t.key = some t'
  key : t'.key = t.key
  uid : t'.metadata.uid = t.metadata.uid
  deleting : t'.deleting = false
  reference : t'.defaultVersionKey = none ∨ t'.spec.defaultVersionRef = some v.metadata.name

namespace Underway

theorem select (now : Timestamp) (h : Underway d t v w t') (hd : d.Keyed) (hv : t.Earliest d v)
    (hk : t'.defaultVersionKey = none) :
    ∃ t'', Underway d t v (redelivered t.key now w) t'' ∧
      t''.spec.defaultVersionRef = some v.metadata.name := by
  have hearliest : t'.earliest? (t'.labelled w.stores.versions) = some v := by
    rw [h.versions]
    exact (earliest?_labelled hd).mpr (hv.congr h.key h.uid)
  have hstored : w.stores.templates.get? (t'.withDefaultVersionRef v.metadata.name).key = some t' :=
    (congrArg _ h.key).trans h.stored
  have hupdate := Store.update_eq_ok.mpr ⟨t', Store.fenced_eq_ok.mpr ⟨hstored, rfl⟩, rfl, rfl⟩
  have hkey : (w.stores.templates.updated t' (t'.withDefaultVersionRef v.metadata.name)).key =
    t.key := h.key
  refine ⟨w.stores.templates.updated t' (t'.withDefaultVersionRef v.metadata.name), ?_, rfl⟩
  unfold redelivered
  simp only [h.stored, resolveDefault, h.deleting, hk, perform_selectDefault, hearliest,
    perform_update, hupdate, Bool.false_eq_true, if_false]
  refine ⟨h.versions, ?_, hkey, h.uid, h.deleting, .inr rfl⟩
  exact (Store.put_get? _ _ _).trans (if_pos hkey.symm)

/-- With a default, a delivery leaves the template as it would find it. -/
theorem look (now : Timestamp) {key : Key} (h : Underway d t v w t')
    (hk : t'.defaultVersionKey = some key) :
    ∃ t'', Underway d t v (redelivered t.key now w) t'' ∧ t''.spec = t'.spec ∧
      t''.meets (t''.prospect d) = true := by
  unfold redelivered
  simp only [h.stored]
  by_cases hm : t'.meets (t'.prospect w.stores.versions) = true
  · rw [(resolveDefault_unchanged_iff t' now w).mpr (.inr hm)]
    exact ⟨t', h, rfl, h.versions ▸ hm⟩
  · generalize hlook : t'.looked key now (t'.resolution (w.stores.versions.get? key)) = l
    have hmeta : l.metadata = t'.metadata := by
      subst hlook
      cases t'.resolution (w.stores.versions.get? key) <;> rfl
    have hstored : w.stores.templates.get? l.key = some t' := by
      rw [Object.key, hmeta]
      exact (congrArg _ h.key).trans h.stored
    have hfenced : w.stores.templates.fenced l = .ok t' :=
      Store.fenced_eq_ok.mpr ⟨hstored, by rw [hmeta]⟩
    have hupdate := Store.updateStatus_eq_ok.mpr ⟨t', hfenced, rfl, rfl⟩
    have hkey : (w.stores.templates.restated t' l).key = t.key := h.key
    refine ⟨w.stores.templates.restated t' l, ?_, rfl,
      looked_meets hk (by rw [← h.versions, hlook])⟩
    simp only [resolveDefault, h.deleting, hk, perform_resolveRef hk hm, hlook,
      perform_updateStatus, hupdate, Bool.false_eq_true, if_false]
    refine ⟨h.versions, ?_, hkey, h.uid, h.deleting, h.reference⟩
    exact (Store.put_get? _ _ _).trans (if_pos hkey.symm)

theorem redelivered (h : Underway d t v w t') (hd : d.Keyed) (hv : t.Earliest d v)
    (now : Timestamp) :
    ∃ t'', Underway d t v (redelivered t.key now w) t'' := by
  cases hk : t'.defaultVersionKey with
  | none =>
    obtain ⟨t'', h', -⟩ := h.select now hd hv hk
    exact ⟨t'', h'⟩
  | some key =>
    obtain ⟨t'', h', -⟩ := h.look now hk
    exact ⟨t'', h'⟩

theorem redeliveries (h : Underway d t v w t') (hd : d.Keyed) (hv : t.Earliest d v)
    (now : Nat → Timestamp) (n : Nat) : ∃ t'', Underway d t v (redeliveries t.key now w n) t'' := by
  induction n with
  | zero => exact ⟨t', h⟩
  | succ n ih =>
    obtain ⟨t'', h'⟩ := ih
    exact h'.redelivered hd hv (now n)

theorem referable (h : Underway d t v w t') (hv : t.Earliest d v)
    (hm : t'.meets (t'.prospect d) = true) (hdef : t'.DefaultsTo v) : t.Referable v := by
  have hlists : t'.Lists v := (lists_congr h.key h.uid).mpr hv.lists
  have href : t'.spec.defaultVersionRef = some v.metadata.name := by
    rcases h.reference with hnone | href
    · have := hnone.symm.trans hdef.key
      contradiction
    · exact href
  obtain ⟨hnamed, hplain⟩ := (defaultVersionKey_eq_key_iff href hlists.space).mp hdef.key
  exact ⟨hnamed, hplain, ((defaultsTo_iff hv.stored hlists hdef.key hm).mp hdef).trans h.key⟩

/-- A template that refers to the version has come to its default when a look finds nothing to
do. -/
theorem defaultsTo (h : Underway d t v w t') (hv : t.Earliest d v) (hr : t.Referable v)
    (hm : t'.meets (t'.prospect d) = true)
    (href : t'.spec.defaultVersionRef = some v.metadata.name) :
    t'.DefaultsTo v := by
  have hlists : t'.Lists v := (lists_congr h.key h.uid).mpr hv.lists
  have hkey : t'.defaultVersionKey = some v.key :=
    (defaultVersionKey_eq_key_iff href hlists.space).mpr ⟨hr.named, hr.plain⟩
  exact (defaultsTo_iff hv.stored hlists hkey hm).mpr (hr.template.trans h.key.symm)

end Underway

variable {now : Nat → Timestamp}

theorem underway_start (hd : w.stores.versions = d) (ht : w.stores.templates.get? t.key = some t)
    (hl : t.deleting = false) (hk : t.defaultVersionKey = none) : Underway d t v w t :=
  ⟨hd, ht, rfl, rfl, hl, .inl hk⟩

/-- The first delivery refers to the version, the second resolves it, and the third finds nothing to
do. -/
theorem settlesOn_third (h : Underway d t v w t) (hd : d.Keyed) (hv : t.Earliest d v)
    (hk : t.defaultVersionKey = none) (hr : t.Referable v) : SettlesOn w t.key now v 2 := by
  obtain ⟨t₁, h₁, href⟩ := h.select (now 0) hd hv hk
  have hkey : t₁.defaultVersionKey = some v.key :=
    (defaultVersionKey_eq_key_iff href (hv.lists.space.trans (Key.mk.inj h₁.key).1.symm)).mpr
      ⟨hr.named, hr.plain⟩
  obtain ⟨t₂, h₂, hspec, hm⟩ := h₁.look (now 1) hkey
  have href₂ : t₂.spec.defaultVersionRef = some v.metadata.name := by rw [hspec, href]
  refine ⟨t₂, h₂.stored, ?_, h₂.defaultsTo hv hr hm href₂⟩
  exact (resolveDefault_unchanged_iff t₂ (now 2) _).mpr (.inr (h₂.versions.symm ▸ hm))

/-- Deliveries never come to a version that the template cannot refer to. -/
theorem referable_of_settlesOn {n : Nat} (h : Underway d t v w t) (hd : d.Keyed)
    (hv : t.Earliest d v) (hs : SettlesOn w t.key now v n) : t.Referable v := by
  obtain ⟨t', ht', hunchanged, hdef⟩ := hs
  obtain ⟨t'', h'⟩ := h.redeliveries hd hv now n
  obtain rfl : t'' = t' := Option.some.inj (h'.stored.symm.trans ht')
  rcases (resolveDefault_unchanged_iff t'' (now n) _).mp hunchanged with hdeleting | hm
  · exact absurd hdeleting (by simp [h'.deleting])
  · exact h'.referable hv (h'.versions ▸ hm) hdef

end Template
end ModelTemplates
