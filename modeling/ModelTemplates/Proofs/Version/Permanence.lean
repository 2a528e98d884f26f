import Mathlib.Logic.Relation
import ModelTemplates.Handler.Version
import ModelTemplates.Proofs.Plan.Handlers
import ModelTemplates.Proofs.Plan.Requests
import ModelTemplates.Proofs.Store.Client
import ModelTemplates.Proofs.Version.Linking
/-! Handlers write a whole status over that of the version they were given. The fence lets them do
so only when that version is the stored one, so that a number and a configuration stay what they
are. -/
namespace ModelTemplates

/-- The number and the configuration of a status are those of another, as far as that one has
them. -/
structure VersionStatus.Keeps (old new : VersionStatus) : Prop where
  assigned : Conditions.holds old.conditions .assigned = true →
    Conditions.holds new.conditions .assigned = true ∧ new.version = old.version
  configured : Conditions.holds old.conditions .configured = true →
    Conditions.holds new.conditions .configured = true ∧
    new.generatedModelConfig = old.generatedModelConfig

theorem VersionStatus.Keeps.refl (s : VersionStatus) : s.Keeps s :=
  ⟨fun h => ⟨h, rfl⟩, fun h => ⟨h, rfl⟩⟩

theorem VersionStatus.Keeps.trans {a b c : VersionStatus} (h : a.Keeps b) (h' : b.Keeps c) :
    a.Keeps c where
  assigned ha :=
    ⟨(h'.assigned (h.assigned ha).1).1, (h'.assigned (h.assigned ha).1).2.trans (h.assigned ha).2⟩
  configured ha :=
    ⟨(h'.configured (h.configured ha).1).1,
      (h'.configured (h.configured ha).1).2.trans (h.configured ha).2⟩

namespace Version

def Careful (past : List Version) : Request → Prop
  | .updateVersionStatus v => ∃ p ∈ past, v.metadata.resourceVersion = p.metadata.resourceVersion ∧
      p.status.Keeps v.status
  | _ => True

variable {past more : List Version} {v : Version} {t : Template} {now : Timestamp}

theorem Careful.mono (hm : past ⊆ more) (r : Request) (h : Careful past r) : Careful more r := by
  cases r with
  | updateVersionStatus v => obtain ⟨p, hp, h⟩ := h; exact ⟨p, hm hp, h⟩
  | _ => trivial

theorem numbered_keeps (h : v.assigned = false) (n : UInt32) (now : Timestamp) :
    v.status.Keeps (v.numbered n now).status :=
  ⟨fun ha => Bool.noConfusion (ha.symm.trans h),
    fun hc => ⟨(v.numbered_configured n now).trans hc, rfl⟩⟩

theorem configured_keeps {s : VersionStatus} {truth : Bool} {reason message : String}
    (h : v.configured = false) (hn : s.version = v.status.version)
    (hc : s.conditions = Conditions.set v.status.conditions .configured truth reason message now) :
    v.status.Keeps s :=
  ⟨fun ha => ⟨hc ▸ (v.assigned_set_configured truth reason message now).trans ha, hn⟩,
    fun ha => Bool.noConfusion (ha.symm.trans h)⟩

theorem asks_record (hv : v ∈ past) (h : v.assigned = false) (t : Template) (n : UInt32)
    (now : Timestamp) :
    (v.record t n now).Asks (Careful past) := by
  refine .bind (Plan.asks_request ⟨v, hv, rfl, numbered_keeps h n now⟩) fun a => ?_
  cases a with
  | error e => exact .bind (Plan.asks_request trivial) fun _ => Plan.asks_pure _
  | ok stored =>
    exact .bind (Plan.asks_request trivial) fun _ => .bind (Plan.asks_request trivial) fun _ =>
      .bind (Plan.asks_request trivial) fun _ => .bind (Plan.asks_request trivial) fun _ =>
        Plan.asks_pure _

theorem asks_assign (hv : v ∈ past) (h : v.assigned = false) :
    (v.assign t now).Asks (Careful past) := by
  refine .bind (Plan.asks_request trivial) fun _ =>
    .bind (Plan.asks_request trivial) fun latest => ?_
  unfold recordAfter
  split
  · exact .bind (Plan.asks_request trivial) fun _ => Plan.asks_pure _
  · exact asks_record hv h t _ now

theorem asks_link (past : List Version) (v : Version) (t : Template) (now : Timestamp) :
    (v.link t now).Asks (Careful past) := by
  unfold link
  split
  · exact Plan.asks_pure _
  · exact .commit (Plan.asks_request trivial) (Plan.asks_request trivial)

theorem asks_number (hv : v ∈ past) (now : Timestamp) : (v.number now).Asks (Careful past) := by
  unfold number
  split
  · exact Plan.asks_pure _
  · next hg =>
    have ha : v.assigned = false := by simp_all
    refine .bind (Plan.asks_request trivial) fun a => ?_
    split
    · exact Plan.asks_pure _
    · exact Plan.asks_pure _
    · split
      · exact asks_assign hv ha
      · exact asks_link past v _ now

theorem asks_configure (hv : v ∈ past) (generate : ServingGenerator) (now : Timestamp) :
    (v.configure generate now).Asks (Careful past) := by
  unfold configure
  split
  · exact Plan.asks_pure _
  · next hg =>
    have hc : v.configured = false := by simp_all
    split
    · exact .commit (Plan.asks_request ⟨v, hv, rfl, configured_keeps hc rfl rfl⟩)
        (Plan.asks_request trivial)
    · unfold settle
      split
      · exact Plan.asks_pure _
      · exact .commit (Plan.asks_request ⟨v, hv, rfl, configured_keeps hc rfl rfl⟩)
          (Plan.asks_request trivial)

/-- Handlers at work while clients write versions. -/
structure Writers where
  handlers : VersionHandlers
  /-- The identifiers of all versions there have been. -/
  issued : List Uid

namespace Writers

def initial : Writers := ⟨⟨.empty, [], []⟩, []⟩

def versions (s : Writers) : VersionStore := s.handlers.world.stores.versions

inductive Step (s : Writers) : Writers → Prop where
  | client (c : Store.Call VersionSpec VersionStatus) :
      s.versions.HasRoom → (∀ uid ∈ c.drawn, uid ∉ s.issued) →
      Step s ⟨s.handlers.note (s.handlers.world.withVersions (s.versions.serve c)),
        c.drawn ++ s.issued⟩
  | number (v : Version) (now : Timestamp) :
      v ∈ s.handlers.seen → Step s { s with handlers := s.handlers.join (v.number now) }
  | configure (generate : ServingGenerator) (v : Version) (now : Timestamp) : v ∈ s.handlers.seen →
      Step s { s with handlers := s.handlers.join (v.configure generate now) }
  | turn {c : VersionHandlers} :
      s.versions.HasRoom → s.handlers.Turn c → Step s { s with handlers := c }
  | elsewhere {w : World} :
      w.stores.versions = s.versions → Step s { s with handlers := { s.handlers with world := w } }

abbrev Run : Writers → Writers → Prop := Relation.ReflTransGen Step

variable {s s' : Writers}

structure Sound (s : Writers) : Prop where
  recorded : s.versions.Recorded s.handlers.seen
  identified : s.versions.Identified s.issued
  careful : ∀ p ∈ s.handlers.plans, p.Asks (Careful s.handlers.seen)

theorem sound_initial : Sound initial where
  recorded := Store.recorded_empty _
  identified := ⟨fun h => (by cases h), fun h => (by cases h)⟩
  careful _ h := absurd h List.not_mem_nil

theorem Sound.careful_note (h : Sound s) (w : World) :
    ∀ p ∈ s.handlers.plans, p.Asks
      (Careful (w.stores.versions.objects.values ++ s.handlers.seen)) :=
  fun p hp => (h.careful p hp).mono (Careful.mono (List.subset_append_right _ _))

theorem Sound.turn (h : Sound s) (hr : s.versions.HasRoom) {c : VersionHandlers}
    (ht : s.handlers.Turn c) :
    Sound { s with handlers := c } := by
  cases ht with
  | @request before after r next hp _ =>
    have hl := World.answer_leaves s.handlers.world r
    have hhandlers := h.careful_note (World.answer r s.handlers.world).2
    rw [hp, List.forall_mem_append, List.forall_mem_cons] at hhandlers
    refine ⟨hl.recorded h.recorded hr, hl.identified h.recorded.keyed h.identified, ?_⟩
    exact List.forall_mem_append.mpr ⟨hhandlers.1,
      List.forall_mem_cons.mpr ⟨hhandlers.2.1.2 _, hhandlers.2.2⟩⟩
  | leave hp =>
    have hhandlers := h.careful
    rw [hp, List.forall_mem_append, List.forall_mem_cons] at hhandlers
    exact ⟨h.recorded, h.identified, List.forall_mem_append.mpr ⟨hhandlers.1, hhandlers.2.2⟩⟩

theorem Sound.step (h : Sound s) (hs : Step s s') : Sound s' := by
  cases hs with
  | client c hr hd =>
    have hserved := Store.served h.recorded.keyed c
    exact ⟨hserved.recorded h.recorded hr, hserved.identified h.identified hd, h.careful_note _⟩
  | number v now hv =>
    exact ⟨h.recorded, h.identified, List.forall_mem_cons.mpr ⟨asks_number hv now, h.careful⟩⟩
  | configure generate v now hv =>
    exact ⟨h.recorded, h.identified,
      List.forall_mem_cons.mpr ⟨asks_configure hv generate now, h.careful⟩⟩
  | turn hr ht => exact h.turn hr ht
  | elsewhere hw =>
    exact ⟨by unfold versions; rw [hw]; exact h.recorded,
      by unfold versions; rw [hw]; exact h.identified, h.careful⟩

theorem Sound.run (h : Sound s) (hr : Run s s') : Sound s' := by
  induction hr with
  | refl => exact h
  | tail _ hs ih => exact ih.step hs

def Stays (d : VersionStore) (k : Key) (q : Version) : Prop :=
  ∃ p, d.get? k = some p ∧ q.metadata.uid = p.metadata.uid ∧ p.status.Keeps q.status

/-- A request that is made with care writes over the version that it is based on. -/
theorem Sound.leaves_stays (h : Sound s) {r : Request} (hr : Careful s.handlers.seen r)
    {d : VersionStore} (hl : r.Leaves s.versions d) {k : Key} {q : Version}
    (hq : d.get? k = some q) : Stays s.versions k q := by
  cases hl with
  | same => exact ⟨q, hq, rfl, .refl _⟩
  | @updated v c hf =>
    rw [Store.put_get?] at hq
    split at hq
    · next e =>
      obtain rfl := Option.some.inj hq
      exact ⟨c, e ▸ (Store.fenced_eq_ok.mp hf).1, rfl, .refl _⟩
    · exact ⟨q, hq, rfl, .refl _⟩
  | @restated v c hf =>
    obtain ⟨p, hp, hv, hkeeps⟩ := hr
    obtain rfl := h.recorded.fenced hp hv hf
    rw [Store.put_get?] at hq
    split at hq
    · next e =>
      obtain rfl := Option.some.inj hq
      exact ⟨c, e ▸ h.recorded.keyed.get? (Store.fenced_eq_ok.mp hf).1, rfl, hkeeps⟩
    · exact ⟨q, hq, rfl, .refl _⟩

theorem Sound.stays_or_new (h : Sound s) (hs : Step s s') {k : Key} {q : Version}
    (hq : s'.versions.get? k = some q) :
    Stays s.versions k q ∨ ∃ uid, uid ∉ s.issued ∧ q.metadata.uid = some uid := by
  have same (hq : s.versions.get? k = some q) : Stays s.versions k q := ⟨q, hq, rfl, .refl _⟩
  cases hs with
  | client c _ hd =>
    rcases (Store.served h.recorded.keyed c).same_or_drawn hq with ⟨p, hp, hu, hst⟩ | ⟨uid, hm, hu⟩
    · exact .inl ⟨p, hp, hu, hst ▸ .refl _⟩
    · exact .inr ⟨uid, hd uid hm, hu⟩
  | number v now hv => exact .inl (same hq)
  | configure generate v now hv => exact .inl (same hq)
  | turn _ ht =>
    cases ht with
    | @request before after r next hp _ =>
      have hr : Careful s.handlers.seen r := (h.careful (.ask r next) (by simp [hp])).1
      exact .inl (h.leaves_stays hr (World.answer_leaves s.handlers.world r) hq)
    | leave _ => exact .inl (same hq)
  | elsewhere hw => exact .inl (same (by rw [← hw]; exact hq))

theorem Step.issued (hs : Step s s') : s.issued ⊆ s'.issued := by
  cases hs with
  | client c _ _ => exact List.subset_append_right _ _
  | _ => exact fun _ h => h

theorem issued_subset (hr : Run s s') : s.issued ⊆ s'.issued := by
  induction hr with
  | refl => exact fun _ h => h
  | tail _ hs ih => exact fun _ h => hs.issued (ih h)

/-- In all runs, a version has its number and its configuration for as long as it is there. -/
theorem number_and_config_permanent (h₀ : Run initial s) (hr : Run s s') {j k : Key} {p q : Version}
    (hp : s.versions.get? j = some p) (hq : s'.versions.get? k = some q)
    (hu : q.metadata.uid = p.metadata.uid) : p.status.Keeps q.status := by
  have h : Sound s := sound_initial.run h₀
  obtain ⟨uid, hissued, hpu⟩ := h.identified.drawn hp
  induction hr generalizing k q with
  | refl =>
    obtain rfl := h.identified.own hq hp hu
    obtain rfl := Option.some.inj (hq.symm.trans hp)
    exact .refl _
  | tail ht hs ih =>
    rcases (h.run ht).stays_or_new hs hq with ⟨q', hq', hu', hkeeps⟩ | ⟨u, hnew, hqu⟩
    · exact (ih hq' (hu'.symm.trans hu)).trans hkeeps
    · have : uid = u := Option.some.inj (hpu.symm.trans (hu.symm.trans hqu))
      exact absurd (issued_subset ht hissued) (this ▸ hnew)

def fifth : Version :=
  ⟨.named "models" "a", .empty, ⟨5, Conditions.set [] .assigned true "" "" default, none⟩⟩

def drafted : Writers :=
  ⟨initial.handlers.note (initial.handlers.world.withVersions
    (initial.versions.serve (.create fifth ⟨1⟩ default))), [⟨1⟩]⟩

def draft : Version := (drafted.versions.get? fifth.key).getD default

def delivered : Writers :=
  { drafted with
    handlers := drafted.handlers.join (draft.configure (fun _ => .ok "config") default) }

theorem number_and_config_permanent_delivered :
    ∃ (s : Writers) (q : Version), Run drafted s ∧ s.versions.get? fifth.key = some q ∧
      draft.assigned = true ∧ q.configured = true ∧ draft.status.Keeps q.status := by
  have h₀ : Run initial drafted :=
    .single (.client (.create fifth ⟨1⟩ default) (by decide) (by decide))
  have h₁ : Run drafted delivered := .single (.configure _ _ _ (by decide))
  have h₂ := h₁.tail
    (.turn (by decide) (@VersionHandlers.Turn.request delivered.handlers [] [] _ _ rfl trivial))
  exact ⟨_, _, h₂, rfl, by decide, by decide,
    number_and_config_permanent h₀ h₂ (j := fifth.key) (k := fifth.key) rfl rfl rfl⟩

end Writers
end Version
end ModelTemplates
