import ModelTemplates.Proofs.Manager.CreateOnly
import ModelTemplates.Proofs.Manager.Idle
/-! When clients only create, the numbers of every template come out as one to the number of its
versions. -/
namespace ModelTemplates

theorem Version.Quiet.assigned {generate : ServingGenerator} {v : Version} (h : v.Quiet generate)
    (hl : v.deleting = false) : v.assigned = true := by
  refine Bool.eq_true_of_not_eq_false fun ha => ?_
  have hdone := h.number default
  unfold Version.number at hdone
  rw [if_neg (by simp [hl, ha])] at hdone
  contradiction

namespace ManagerWorkers
open ModelTemplates.Numbering (numberOf naming)

variable {generate : ServingGenerator} {s : ManagerWorkers} {k : Key} {t : Template} {v : Version}
  {ρ : Key → Version.Role} {name : String}

/-- A reference leads to a version of the template that has a number. -/
theorem CreateOnlyInvariant.referred (h : s.CreateOnlyInvariant ρ) (hs : Sound generate s)
    (ht : s.world.stores.templates.get? t.key = some t)
    (hname : t.spec.defaultVersionRef = some name) :
    ∃ v : Version, s.world.stores.versions.get? v.key = some v ∧ v.key = ⟨t.metadata.space, name⟩ ∧
      v.templateKey = t.key ∧ v.assigned = true ∧ t.defaultVersionKey = some v.key := by
  obtain ⟨hnumber, -⟩ := (h.fine t.key t ht).reference name hname
  obtain ⟨v, hv, hk, ha⟩ := Numbering.numberOf_isSome.mp hnumber
  have hkey : v.key = ⟨t.metadata.space, name⟩ := hs.recorded.keyed _ _ hv
  have hproper := h.proper v (hs.recorded.held hv)
  obtain ⟨hspace, hown⟩ := Key.mk.inj hkey
  refine ⟨v, hs.recorded.keyed.get? hv, hkey, hk, ha, ?_⟩
  exact (Template.defaultVersionKey_eq_key_iff (by rw [hname, hown]) hspace).mpr ⟨hproper.named,
    hproper.plain⟩

/-- What clients create makes no difference to the default of a template. -/
theorem CreateOnlyInvariant.clean (h : s.CreateOnlyInvariant ρ) (hs : Sound generate s)
    (ht : s.world.stores.templates.get? t.key = some t) : s.Clean t := by
  intro e he
  rcases h.versionsAdded t.key e he with hsame | ⟨v, hnone, ha, hput⟩
  · rw [hsame]
  rw [hput]
  refine (Template.prospect_put_fresh hnone ha fun key hk hkey => ?_).symm
  cases hname : t.spec.defaultVersionRef with
  | none => simp [Template.defaultVersionKey, hname] at hk
  | some name =>
    -- What the template refers to was there already.
    obtain ⟨x, -, hx, -, -, hdefault⟩ := h.referred hs ht hname
    have hpresent := ((h.fine t.key t ht).reference name hname).2 e he
    have hnew : v.key = ⟨t.metadata.space, name⟩ := by
      rw [← hkey, ← hx]
      exact Option.some.inj (hk.symm.trans hdefault)
    rw [hnew] at hnone
    exact hpresent hnone

/-- With no work left, every version that names a template is linked to it and has a number. -/
theorem CreateOnlyInvariant.linked (h : s.CreateOnlyInvariant ρ) (hs : Sound generate s)
    (hc : Calm generate s) (ht : s.world.stores.templates.get? t.key = some t)
    (hv : v ∈ naming s.world.stores.versions t.key) :
    v.linkedTo t = true ∧ v.assigned = true := by
  obtain ⟨⟨j, hj⟩, hk⟩ := Numbering.mem_naming.mp hv
  have hproper := h.proper v (hs.recorded.held hj)
  obtain ⟨u, hu⟩ := h.identified t.key t ht
  have ha : v.assigned = true := (hc.quiet j v hj).assigned hproper.kept
  exact ⟨hproper.linkedTo ha hk hu fun u' hu' =>
    s.world.single_knows t.key u' u hu' ⟨t, ht, hu⟩, ha⟩

/-- With no work left, the numbers are one to the number of versions, and the ledger has counted
them all. -/
theorem CreateOnlyInvariant.numbered (h : s.CreateOnlyInvariant ρ) (hs : Sound generate s)
    (hc : Calm generate s) (ht : s.world.stores.templates.get? t.key = some t)
    (hn : (naming s.world.stores.versions t.key).length + 1 < UInt32.size) :
    ((naming s.world.stores.versions t.key).map fun v => v.status.version.toNat).Perm
        (List.range' 1 (naming s.world.stores.versions t.key).length) ∧
      (s.world.ledger.latest t.key t.metadata.uid).toNat =
        (naming s.world.stores.versions t.key).length := by
  have hmost : Numbering.AtMost s.world.stores.versions t.key (UInt32.size - 2) := by
    intro js hjs hnames
    have := Numbering.atMost_length hs.recorded.keyed t.key js hjs hnames
    omega
  obtain ⟨js, htally, hlength⟩ := h.books.counted t.key hmost
  have hlead : Numbering.lead ρ t.key = 0 := by
    refine Numbering.lead_eq_zero fun i hi => ?_
    have hrest : ρ i = .outside := h.versions.rests i (by rw [hc.versions]; exact List.not_mem_nil)
    rw [hrest] at hi
    contradiction
  obtain ⟨u, hu⟩ := h.identified t.key t ht
  have hlatest : s.world.ledger.latest t.key t.metadata.uid = s.world.ledger.latest t.key none := by
    rw [hu]
    exact Numbering.latest_of_owned s.world.single_knows h.books.owned ⟨t, ht, hu⟩
  obtain ⟨hperm, hcount⟩ := htally.naming hs.recorded.keyed fun v hv => (h.linked hs hc ht hv).2
  refine ⟨hperm, ?_⟩
  rw [hlatest, hcount, hlength, hlead, Nat.add_zero]

/-- With no work left, a template of which there is a version has one of them as its default. -/
theorem CreateOnlyInvariant.defaulted (h : s.CreateOnlyInvariant ρ) (hs : Sound generate s)
    (hc : Calm generate s) (ht : s.world.stores.templates.get? t.key = some t)
    (hm : t.meets (t.prospect s.world.stores.versions) = true)
    (hne : naming s.world.stores.versions t.key ≠ []) :
    ∃ v ∈ naming s.world.stores.versions t.key,
      t.spec.defaultVersionRef = some v.metadata.name ∧ t.DefaultsTo v := by
  have hlists {v : Version} (hv : v ∈ naming s.world.stores.versions t.key) : t.Lists v := by
    obtain ⟨hl, ha⟩ := h.linked hs hc ht hv
    rw [Version.linkedTo, Bool.and_eq_true, decide_eq_true_eq] at hl
    exact ⟨congrArg Key.space (Numbering.mem_naming.mp hv).2, hl.1,
      Bool.and_eq_true_iff.mpr ⟨hl.2, ha⟩⟩
  cases hname : t.spec.defaultVersionRef with
  | none =>
    obtain ⟨v, hv⟩ := List.exists_mem_of_ne_nil _ hne
    obtain ⟨⟨j, hj⟩, -⟩ := Numbering.mem_naming.mp hv
    have hnone : t.defaultVersionKey = none := by simp [Template.defaultVersionKey, hname]
    have hselection := (Template.prospect_eq_selection hnone).mpr ⟨j, v, hj, hlists hv⟩
    rw [hselection] at hm
    contradiction
  | some name =>
    obtain ⟨v, hv, hkey, hk, -, hdefault⟩ := h.referred hs ht hname
    have hmem : v ∈ naming s.world.stores.versions t.key :=
      Numbering.mem_naming.mpr ⟨⟨v.key, hv⟩, hk⟩
    refine ⟨v, hmem, ?_, (Template.defaultsTo_iff hv (hlists hmem) hdefault hm).mpr hk⟩
    exact congrArg some (Key.mk.inj hkey).2.symm

/-- From empty stores and with clients that only create, whenever both controllers are idle and have
read all that they were told, the versions that name a template are linked to it and have the
numbers from one to their number, each once. The ledger and the status of the template have the last
of them, and one of the versions is the default. -/
theorem numbers_converge (h : CreateOnly generate s) (hidle : s.manager.isIdle = true)
    (ht : Controller.waiting
      (Manager.templateWiring (World.siteFor generate)) s.templates.controller s.world = 0)
    (hv : Controller.waiting
      (Manager.versionWiring (World.siteFor generate)) s.versions.controller s.world = 0)
    (hk : s.world.stores.templates.get? k = some t)
    (hn : (naming s.world.stores.versions k).length + 1 < UInt32.size) :
    (∀ v ∈ naming s.world.stores.versions k, Version.linkedTo v t = true ∧
      Version.assigned v = true) ∧
        ((naming s.world.stores.versions k).map fun v => v.status.version.toNat).Perm
        (List.range' 1 (naming s.world.stores.versions k).length) ∧
      s.world.ledger.latest t.key t.metadata.uid = t.status.latestVersion ∧
      t.status.latestVersion.toNat = (naming s.world.stores.versions k).length ∧
      (naming s.world.stores.versions k ≠ [] → ∃ v ∈ naming s.world.stores.versions k,
        t.spec.defaultVersionRef = some v.metadata.name ∧ t.DefaultsTo v) := by
  have hs := h.reachable.sound
  have hc := hs.calm hidle ht hv
  obtain ⟨ρ, hinvariant⟩ := h.invariant
  have hfine := hinvariant.fine k t hk
  obtain rfl := hfine.key
  have hsettled := (hc.settled t.key t hk).resolve_left (by simp [hfine.kept])
  obtain ⟨⟨d, -, hmeets, hclean⟩, hsynced⟩ := hsettled
  -- Nothing was created since the last look that would make a difference.
  rw [← hclean (hinvariant.clean hs hk)] at hmeets
  obtain ⟨hperm, hlatest⟩ := hinvariant.numbered hs hc hk hn
  refine ⟨fun v hv => hinvariant.linked hs hc hk hv, hperm, hsynced, ?_,
    hinvariant.defaulted hs hc hk hmeets⟩
  rw [← hsynced]
  exact hlatest

inductive Creates : Manager.Move → Prop where
  | template {t : Template} (uid : Uid) (now : Timestamp) : t.spec.defaultVersionRef = none →
      Creates (.template (.create t uid now))
  | version {v : Version} (uid : Uid) (now : Timestamp) :
      Fresh v → Creates (.version (.create v uid now))
  | feed (kind : Kind) : Creates (.feed kind)
  | work (kind : Kind) : Creates (.work kind)

variable {m : Moment} {n n' : Manager World}

theorem CreateOnly.workers {s' : ManagerWorkers} (h : CreateOnly generate s)
    (hr : WorkerRun generate s s') : CreateOnly generate s' := by
  induction hr with
  | refl => exact h
  | tail _ hw ih => exact ih.step (.works hw)

theorem Unmanned.creates (h : s.Unmanned n) (hg : CreateOnly generate s) {mv : Manager.Move}
    (hp : Creates mv) (hn : n.move? generate m mv = some n') :
    ∃ s', CreateOnly generate s' ∧ s'.Unmanned n' := by
  cases hp with
  | template uid now ht =>
    obtain rfl := Option.some.inj hn
    exact ⟨_, hg.step (.template _ uid now ht), h.templates,
      h.versions, by rw [h.world], h.enqueued⟩
  | version uid now hv =>
    simp only [Manager.move?] at hn
    split at hn
    · next hroom =>
      obtain rfl := Option.some.inj hn
      refine ⟨_, hg.step (.version _ uid now (h.world.symm ▸ hroom) hv), h.templates, h.versions,
        ?_, h.enqueued⟩
      simp only [edit, h.world]
    · contradiction
  | feed kind =>
    obtain ⟨s', hworkers, hu⟩ := h.feed hn
    exact ⟨s', hg.workers hworkers, hu⟩
  | work kind =>
    obtain ⟨s', hworkers, hu⟩ := h.work hn
    exact ⟨s', hg.workers hworkers, hu⟩

/-- What a manager does one key at a time while clients create is a run of it with all its
workers. -/
theorem Unmanned.createsOnly (h : s.Unmanned n) (hg : CreateOnly generate s)
    {moves : List Manager.Move} (hp : ∀ mv ∈ moves, Creates mv) :
    ∃ s', CreateOnly generate s' ∧ s'.Unmanned (n.moved generate m moves) := by
  induction moves generalizing s n with
  | nil => exact ⟨s, hg, h⟩
  | cons mv moves ih =>
    rw [List.forall_mem_cons] at hp
    rw [Manager.moved, List.foldl_cons]
    cases hn : n.move? generate m mv with
    | none => exact ih h hg hp.2
    | some n' =>
      obtain ⟨s₁, hg₁, h₁⟩ := h.creates hg hp.1 hn
      exact ih h₁ hg₁ hp.2

theorem creates_rounds (n : Nat) : ∀ mv ∈ rounds n, Creates mv := by
  intro mv hmv
  obtain ⟨round, hround, hmem⟩ := List.mem_flatten.mp hmv
  rw [(List.mem_replicate.mp hround).2] at hmem
  simp only [List.mem_cons, List.not_mem_nil, or_false] at hmem
  rcases hmem with rfl | rfl | rfl | rfl <;> constructor

def second : Version :=
  ⟨.named "default" "v2", { VersionSpec.empty with templateName := "llama" }, .empty⟩

/-- Both versions are there before the template, and all that there is to do has been done. -/
def bothNumbered : Manager World :=
  born.manager.moved written default
    (.version (.create second ⟨2⟩ default) :: .version (.create first ⟨1⟩ default) ::
      .template (.create llama ⟨0⟩ default) :: rounds 8)

theorem createOnly_bothNumbered : ∃ s, CreateOnly written s ∧ s.Unmanned bothNumbered := by
  have hborn : CreateOnly written born :=
    have h : Stores.make? Store.defaultWatchCapacity = some Stores.empty := rfl
    .opening default default h
  have hsecond : Fresh second := ⟨rfl, rfl, rfl, by decide, by decide⟩
  have hfirst : Fresh first := ⟨rfl, rfl, rfl, by decide, by decide⟩
  refine born_unmanned.createsOnly hborn ?_
  simp only [List.forall_mem_cons]
  exact ⟨.version _ _ hsecond, .version _ _ hfirst, .template _ _ rfl, creates_rounds 8⟩

theorem numbers_converge_twice :
    ∃ (s : ManagerWorkers) (t : Template), CreateOnly written s ∧ s.manager = bothNumbered ∧
      s.world.stores.templates.get? llama.key = some t ∧
      ((naming s.world.stores.versions llama.key).map fun v => v.status.version.toNat).Perm [1, 2] ∧
      s.world.ledger.latest t.key t.metadata.uid = 2 ∧ t.status.latestVersion = 2 ∧
      ∃ v ∈ naming s.world.stores.versions llama.key, t.DefaultsTo v := by
  obtain ⟨s, hgrown, hu⟩ := createOnly_bothNumbered
  have ht : s.world.stores.templates.get? llama.key = some (llamaIn bothNumbered) := by
    rw [hu.world]; decide +kernel
  have hlength : (naming s.world.stores.versions llama.key).length = 2 := by
    rw [hu.world]; decide +kernel
  obtain ⟨-, hperm, hsynced, hlatest, hdefault⟩ :=
    numbers_converge hgrown (by rw [hu.manager]; decide +kernel)
    (by rw [hu.templates, hu.world]; decide +kernel)
      (by rw [hu.versions, hu.world]; decide +kernel) ht
    (by rw [hlength]; decide)
  rw [hlength] at hperm hlatest
  have htwo : (llamaIn bothNumbered).status.latestVersion = 2 := UInt32.toNat_inj.mp hlatest
  have hne : naming s.world.stores.versions llama.key ≠ [] := List.ne_nil_of_length_pos (by omega)
  obtain ⟨v, hv, -, hv'⟩ := hdefault hne
  exact ⟨s, _, hgrown, hu.manager, ht, hperm, hsynced.trans htwo, htwo, v, hv, hv'⟩

end ManagerWorkers
end ModelTemplates
