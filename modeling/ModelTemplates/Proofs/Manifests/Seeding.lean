import ModelTemplates.Manifests
import ModelTemplates.Proofs.Store.Creation
/-! Manifests are created object by object, templates first. Either the key of every object is free
and each of them comes to be stored once, or creation ends at the first whose key is taken. -/
namespace ModelTemplates

namespace Stores

def metadata? (s : Stores) : Kind → Key → Option Meta
  | .template, k => (s.templates.get? k).map Object.metadata
  | .version, k => (s.versions.get? k).map Object.metadata

/-- The identifiers that are drawn next differ from one another and from all that are in use. -/
structure Unused (s : Stores) (fresh : Nat → Uid × Timestamp) (count : Nat) : Prop where
  apart : ∀ i < count, ∀ j < count, (fresh i).1 = (fresh j).1 → i = j
  unseen : ∀ i < count, ∀ kind k x, s.metadata? kind k = some x → x.uid ≠ some (fresh i).1

/-- Whatever is new in the stores that come after has an identifier of its own. -/
def Distinguishes (s t : Stores) : Prop :=
  ∀ kind k x, s.metadata? kind k = none → t.metadata? kind k = some x →
    ∀ kind' k' y, t.metadata? kind' k' = some y → y.uid = x.uid → kind' = kind ∧ k' = k

end Stores

namespace Manifests

variable {m : Manifests} {s : Stores} {fresh : Nat → Uid × Timestamp} {n : Nat}

section SeedAll

variable {σ τ : Type} {a b : Store σ τ} {o : Object σ τ} {os before : List (Object σ τ)}

def clash (a : Store σ τ) (o : Object σ τ) : SeedError :=
  ⟨a.kind, o.key, .alreadyExists a.kind o.key⟩

theorem seedAll_cons_of_free (ho : a.get? o.key = none) :
    seedAll fresh n (o :: os) a =
      seedAll fresh (n + 1) os (a.put (a.created o (fresh n).1 (fresh n).2)) := by
  rw [seedAll, Store.create_eq_ok.mpr ⟨ho, rfl, rfl⟩]

theorem seedAll_cons_of_taken (ho : a.get? o.key ≠ none) :
    seedAll fresh n (o :: os) a = (a, some (clash a o)) := by
  rw [seedAll, Store.create_eq_error.mpr ⟨ho, rfl⟩]
  rfl

theorem seedAll_append {rest : List (Object σ τ)} (h : seedAll fresh n os a = (b, none)) :
    seedAll fresh n (os ++ rest) a = seedAll fresh (n + os.length) rest b := by
  induction os generalizing n a with
  | nil =>
    obtain rfl : a = b := congrArg Prod.fst h
    rfl
  | cons o os ih =>
    by_cases ho : a.get? o.key = none
    · rw [seedAll_cons_of_free ho] at h
      rw [List.cons_append, seedAll_cons_of_free ho, ih h, List.length_cons, Nat.add_right_comm,
        Nat.add_assoc]
    · rw [seedAll_cons_of_taken ho] at h
      cases h

theorem seedAll_of_free (fresh : Nat → Uid × Timestamp) (n : Nat) (h : a.Free os) :
    ∃ b, seedAll fresh n os a = (b, none) ∧ a.Gains (fun i => fresh (n + i)) os b := by
  induction os generalizing n a with
  | nil => exact ⟨a, rfl, .nil a _⟩
  | cons o os ih =>
    have hkey : (a.created o (fresh n).1 (fresh n).2).key = o.key := rfl
    obtain ⟨ho, hrest⟩ := (Store.free_cons hkey).mp h
    obtain ⟨b, hb, hgains⟩ := ih (n + 1) hrest
    refine ⟨b, (seedAll_cons_of_free ho).trans hb, .cons ho ?_⟩
    simpa only [Nat.add_zero, Nat.add_assoc, Nat.add_comm 1] using hgains

theorem seedAll_of_firstClash (fresh : Nat → Uid × Timestamp) (n : Nat)
    (h : a.FirstClash os before o) :
    ∃ b, seedAll fresh n os a = (b, some (clash a o)) ∧
      a.Gains (fun i => fresh (n + i)) before b := by
  obtain ⟨rest, rfl⟩ := h.place
  obtain ⟨b, hb, hgains⟩ := seedAll_of_free fresh n h.free
  -- Whoever took the key, it is taken once those before are there.
  have htaken : b.get? o.key ≠ none := hgains.taken h.taken
  have hclash : clash b o = clash a o := by rw [clash, hgains.kind_eq, clash]
  refine ⟨b, ?_, hgains⟩
  rw [List.append_assoc, List.singleton_append, seedAll_append hb,
    seedAll_cons_of_taken htaken, hclash]

/-- The first of the objects is stored afterwards, whether it was created or clashed. -/
theorem seedAll_head_taken (fresh : Nat → Uid × Timestamp) (n : Nat) (o : Object σ τ)
    (os : List (Object σ τ)) (a : Store σ τ) :
    (seedAll fresh n (o :: os) a).1.get? o.key ≠ none := by
  rcases a.free_or_firstClash (o :: os) with hfree | ⟨before, c, hclash⟩
  · obtain ⟨b, hb, hgains⟩ := seedAll_of_free fresh n hfree
    rw [hb]
    exact hgains.taken (.inr List.mem_cons_self)
  · obtain ⟨b, hb, hgains⟩ := seedAll_of_firstClash fresh n hclash
    rw [hb]
    apply hgains.taken
    cases before with
    | nil =>
      obtain ⟨rfl, -⟩ := List.cons_prefix_cons.mp hclash.place
      exact hclash.taken
    | cons d before =>
      obtain ⟨rfl, -⟩ := List.cons_prefix_cons.mp hclash.place
      exact .inr List.mem_cons_self

end SeedAll

def ahead (m : Manifests) : Kind → Nat
  | .template => 0
  | .version => m.templates.length

def draws (m : Manifests) (fresh : Nat → Uid × Timestamp) (kind : Kind) (i : Nat) :
    Uid × Timestamp :=
  fresh (m.ahead kind + i)

/-- How creation ends: with every object stored, or at the first one whose key is taken, with those
before it stored. -/
inductive Seeded (m : Manifests) (fresh : Nat → Uid × Timestamp) (s : Stores) :
    Stores × Option SeedError → Prop where
  | complete {t : Stores} (ht : s.templates.Free m.templates) (hv : s.versions.Free m.versions)
      (gt : s.templates.Gains (m.draws fresh .template) m.templates t.templates)
      (gv : s.versions.Gains (m.draws fresh .version) m.versions t.versions) :
      Seeded m fresh s (t, none)
  | template {before : List Template} {o : Template} {templates : TemplateStore}
      (ht : s.templates.FirstClash m.templates before o)
      (gt : s.templates.Gains (m.draws fresh .template) before templates) :
      Seeded m fresh s (⟨templates, s.versions⟩, some (clash s.templates o))
  | version {before : List Version} {o : Version} {t : Stores} (ht : s.templates.Free m.templates)
      (hv : s.versions.FirstClash m.versions before o)
      (gt : s.templates.Gains (m.draws fresh .template) m.templates t.templates)
      (gv : s.versions.Gains (m.draws fresh .version) before t.versions) :
      Seeded m fresh s (t, some (clash s.versions o))

theorem seed_of_none {templates : TemplateStore}
    (h : seedAll fresh 0 m.templates s.templates = (templates, none)) :
    m.seed fresh s = (⟨templates, (seedAll fresh m.templates.length m.versions s.versions).1⟩,
      (seedAll fresh m.templates.length m.versions s.versions).2) := by
  rw [seed, h]

theorem seed_of_some {templates : TemplateStore} {e : SeedError}
    (h : seedAll fresh 0 m.templates s.templates = (templates, some e)) :
    m.seed fresh s = (⟨templates, s.versions⟩, some e) := by
  rw [seed, h]

theorem seeded (m : Manifests) (fresh : Nat → Uid × Timestamp) (s : Stores) :
    m.Seeded fresh s (m.seed fresh s) := by
  rcases s.templates.free_or_firstClash m.templates with ht | ⟨before, o, ht⟩
  · obtain ⟨templates, hend, gt⟩ := seedAll_of_free fresh 0 ht
    rw [seed_of_none hend]
    rcases s.versions.free_or_firstClash m.versions with hv | ⟨before, o, hv⟩
    · obtain ⟨versions, hend, gv⟩ := seedAll_of_free fresh m.templates.length hv
      rw [hend]
      exact .complete ht hv gt gv
    · obtain ⟨versions, hend, gv⟩ := seedAll_of_firstClash fresh m.templates.length hv
      rw [hend]
      exact .version ht hv gt gv
  · obtain ⟨templates, hend, gt⟩ := seedAll_of_firstClash fresh 0 ht
    rw [seed_of_some hend]
    exact .template ht gt

def places (m : Manifests) : List (Kind × Key) :=
  m.templates.map (fun t => (.template, t.key)) ++ m.versions.map (fun v => (.version, v.key))

theorem length_places (m : Manifests) : m.places.length = m.size := by simp [places, size]

theorem places_template {i : Nat} {t : Template} (h : m.templates[i]? = some t) :
    m.places[m.ahead .template + i]? = some (.template, t.key) := by
  have hlt : i < m.templates.length := (List.getElem?_eq_some_iff.mp h).1
  rw [ahead, Nat.zero_add, places, List.getElem?_append_left (by rwa [List.length_map]),
    List.getElem?_map, h, Option.map_some]

theorem places_version {i : Nat} {v : Version} (h : m.versions[i]? = some v) :
    m.places[m.ahead .version + i]? = some (.version, v.key) := by
  rw [ahead, places, List.getElem?_append_right (by simp), List.length_map, Nat.add_sub_cancel_left,
    List.getElem?_map, h, Option.map_some]

namespace Seeded

variable {r : Stores × Option SeedError} {kind : Kind} {k : Key} {x : Meta}

theorem succeeds_iff (h : m.Seeded fresh s r) :
    r.2 = none ↔ s.templates.Free m.templates ∧ s.versions.Free m.versions := by
  cases h with
  | complete ht hv => exact iff_of_true rfl ⟨ht, hv⟩
  | template ht => exact iff_of_false (Option.some_ne_none _) fun hfree => ht.not_free hfree.1
  | version _ hv => exact iff_of_false (Option.some_ne_none _) fun hfree => hv.not_free hfree.2

theorem gains (h : m.Seeded fresh s r) :
    (∃ ts, ts <+: m.templates ∧ s.templates.Gains (m.draws fresh .template) ts r.1.templates) ∧
      ∃ vs, vs <+: m.versions ∧ s.versions.Gains (m.draws fresh .version) vs r.1.versions := by
  cases h with
  | complete _ _ gt gv => exact ⟨⟨_, List.prefix_rfl, gt⟩, _, List.prefix_rfl, gv⟩
  | template ht gt =>
    exact ⟨⟨_, (List.prefix_append _ _).trans ht.place, gt⟩, [], List.nil_prefix, .nil _ _⟩
  | version _ hv gt gv =>
    exact ⟨⟨_, List.prefix_rfl, gt⟩, _, (List.prefix_append _ _).trans hv.place, gv⟩

theorem kept (h : m.Seeded fresh s r) (hk : s.metadata? kind k = some x) :
    r.1.metadata? kind k = some x := by
  obtain ⟨⟨ts, -, gt⟩, vs, -, gv⟩ := h.gains
  cases kind with
  | template =>
    obtain ⟨o, ho, rfl⟩ := Option.map_eq_some_iff.mp hk
    simp [Stores.metadata?, gt.kept k o ho]
  | version =>
    obtain ⟨o, ho, rfl⟩ := Option.map_eq_some_iff.mp hk
    simp [Stores.metadata?, gv.kept k o ho]

/-- Whatever is new has the identifier that was drawn for its place. -/
theorem drawn (h : m.Seeded fresh s r) (hold : s.metadata? kind k = none)
    (hnew : r.1.metadata? kind k = some x) :
    ∃ i, m.places[i]? = some (kind, k) ∧ x.uid = some (fresh i).1 := by
  obtain ⟨⟨ts, hts, gt⟩, vs, hvs, gv⟩ := h.gains
  cases kind with
  | template =>
    obtain ⟨p, hp, rfl⟩ := Option.map_eq_some_iff.mp hnew
    obtain ⟨i, hi, rfl, huid⟩ := gt.drawn (Option.map_eq_none_iff.mp hold) hp
    exact ⟨_, places_template (List.prefix_iff_getElem?.mp hts i hi), huid⟩
  | version =>
    obtain ⟨p, hp, rfl⟩ := Option.map_eq_some_iff.mp hnew
    obtain ⟨i, hi, rfl, huid⟩ := gv.drawn (Option.map_eq_none_iff.mp hold) hp
    exact ⟨_, places_version (List.prefix_iff_getElem?.mp hvs i hi), huid⟩

/-- Two objects with one identifier, of which one is new, have the same place. -/
theorem distinguishes (h : m.Seeded fresh s r) (hunused : s.Unused fresh m.size) :
    s.Distinguishes r.1 := by
  intro kind k x hold hnew kind' k' y hy he
  obtain ⟨i, hi, hx⟩ := h.drawn hold hnew
  have hbound {j : Nat} {e : Kind × Key} (hj : m.places[j]? = some e) : j < m.size := by
    rw [← length_places]
    exact (List.getElem?_eq_some_iff.mp hj).1
  cases hold' : s.metadata? kind' k' with
  | some z =>
    obtain rfl : z = y := Option.some.inj ((h.kept hold').symm.trans hy)
    exact absurd (he.trans hx) (hunused.unseen i (hbound hi) kind' k' z hold')
  | none =>
    obtain ⟨j, hj, hy'⟩ := h.drawn hold' hy
    have hdraws : (fresh j).1 = (fresh i).1 := Option.some.inj (hy'.symm.trans (he.trans hx))
    obtain rfl := hunused.apart j (hbound hj) i (hbound hi) hdraws
    exact Prod.ext_iff.mp (Option.some.inj (hj.symm.trans hi))

end Seeded

theorem templates_seed (m : Manifests) (fresh : Nat → Uid × Timestamp) (s : Stores) :
    (m.seed fresh s).1.templates = (seedAll fresh 0 m.templates s.templates).1 := by
  rcases h : seedAll fresh 0 m.templates s.templates with ⟨templates, _ | e⟩
  · rw [seed_of_none h]
  · rw [seed_of_some h]

/-- The first object is stored by then, and clashes with what is stored of it. -/
theorem seed_again (hm : m.isEmpty = false) (fresh again : Nat → Uid × Timestamp) (s : Stores) :
    ∃ e, m.seed again (m.seed fresh s).1 = ((m.seed fresh s).1, some e) := by
  cases htemplates : m.templates with
  | cons o os =>
    have htaken : (m.seed fresh s).1.templates.get? o.key ≠ none := by
      rw [templates_seed, htemplates]
      exact seedAll_head_taken fresh 0 o os s.templates
    refine ⟨clash (m.seed fresh s).1.templates o, seed_of_some ?_⟩
    rw [htemplates]
    exact seedAll_cons_of_taken htaken
  | nil =>
    have hnone (fresh : Nat → Uid × Timestamp) (t : Stores) :
        seedAll fresh 0 m.templates t.templates = (t.templates, none) := by rw [htemplates, seedAll]
    cases hversions : m.versions with
    | nil => simp [isEmpty, size, htemplates, hversions] at hm
    | cons o os =>
      have htaken : (m.seed fresh s).1.versions.get? o.key ≠ none := by
        rw [seed_of_none (hnone fresh s), hversions]
        exact seedAll_head_taken fresh _ o os s.versions
      refine ⟨clash (m.seed fresh s).1.versions o, ?_⟩
      rw [seed_of_none (hnone again _), hversions, seedAll_cons_of_taken htaken]

/-- Creation succeeds exactly when the keys of each kind differ and none of them is taken. Every
object is then stored as it was asked for; otherwise creation ends at the first whose key is taken,
with those before it stored. What was stored is as it was, and whatever is new has an identifier of
its own. Manifests that are not empty cannot be created twice: the second time nothing at all is
changed. -/
theorem seeds_up_to_first_clash (m : Manifests) (fresh : Nat → Uid × Timestamp) (s : Stores) :
    ((m.seed fresh s).2 = none ↔ s.templates.Free m.templates ∧ s.versions.Free m.versions) ∧
      m.Seeded fresh s (m.seed fresh s) ∧
      (s.Unused fresh m.size → s.Distinguishes (m.seed fresh s).1) ∧
      (m.isEmpty = false →
        ∀ again, ∃ e, m.seed again (m.seed fresh s).1 = ((m.seed fresh s).1, some e)) := by
  have h := m.seeded fresh s
  refine ⟨h.succeeds_iff, h, h.distinguishes, ?_⟩
  intro hm again
  exact seed_again hm fresh again s

def resident : Template := ⟨{ Meta.named "models" "a" with uid := some ⟨9⟩ }, .empty, .empty⟩

def furnished : Stores := ⟨(Store.empty .template).put resident, .empty .version⟩

def newcomer : Template := ⟨.named "models" "b", .empty, .empty⟩

def edition (name : String) : Version := ⟨.named "models" name, .empty, .empty⟩

def repeated : Manifests := ⟨[newcomer], [edition "v1", edition "v2", edition "v1", edition "v3"]⟩

def counted (n : Nat) : Uid × Timestamp := (⟨BitVec.ofNat 128 n⟩, default)

theorem unused_counted : furnished.Unused counted repeated.size := by
  constructor
  · decide
  · intro i hi kind k x hx
    cases kind with
    | template =>
      obtain ⟨o, ho, rfl⟩ := Option.map_eq_some_iff.mp hx
      rcases Store.get?_put_cases ho with ⟨-, rfl⟩ | ⟨-, ho⟩
      · revert i
        decide
      · contradiction
    | version => contradiction

/-- The template and the two versions in front of the clash are there. -/
theorem seeds_up_to_first_clash_repeated :
    furnished.Unused counted repeated.size ∧ repeated.isEmpty = false ∧
      ∃ t, repeated.seed counted furnished = (t, some (clash furnished.versions (edition "v1"))) ∧
        furnished.templates.Gains (repeated.draws counted .template) [newcomer] t.templates ∧
        furnished.versions.Gains (repeated.draws counted .version) [edition "v1",
          edition "v2"] t.versions ∧
        furnished.Distinguishes t ∧ ∃ e, repeated.seed counted t = (t, some e) := by
  have hfree : furnished.templates.Free repeated.templates := by
    constructor <;> decide
  have hclash :
      furnished.versions.FirstClash repeated.versions [edition "v1",
        edition "v2"] (edition "v1") := by
    constructor
    · exact ⟨[edition "v3"], rfl⟩
    · constructor <;> decide
    · decide
  obtain ⟨-, hseeded, hdistinguishes, hagain⟩ := seeds_up_to_first_clash repeated counted furnished
  have hown := hdistinguishes unused_counted
  have hrepeat := hagain rfl counted
  refine ⟨unused_counted, rfl, ?_⟩
  generalize repeated.seed counted furnished = r at hseeded hown hrepeat ⊢
  cases hseeded with
  | complete _ hv => exact absurd hv hclash.not_free
  | template ht => exact absurd hfree ht.not_free
  | version _ hv gt gv =>
    obtain ⟨rfl, rfl⟩ := hv.unique hclash
    exact ⟨_, rfl, gt, gv, hown, hrepeat⟩

end Manifests
end ModelTemplates
