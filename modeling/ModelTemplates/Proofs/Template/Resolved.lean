import Mathlib.Logic.Relation
import ModelTemplates.Handler.Template
import ModelTemplates.Proofs.Plan.Handlers
import ModelTemplates.Proofs.Plan.Requests
import ModelTemplates.Proofs.Store.Client
import ModelTemplates.Proofs.Template.Prospect
/-! What stands behind a template that says its default is resolved. Handlers say so of templates
that refer to a version; only a client can take the reference away and leave the condition. -/
namespace ModelTemplates

theorem Request.Alters.recorded {d d' : TemplateStore} {r : Request} {past : List Template}
    (h : r.Alters d d') (hd : d.Recorded past) (hr : d.HasRoom) :
    d'.Recorded (d'.objects.values ++ past) := by
  cases h with
  | same => exact hd.note
  | updated _ => exact hd.note_put hr rfl
  | restated _ => exact hd.note_put hr rfl

namespace Template

variable {past more : List Template} {t : Template} {now : Timestamp}

/-- A reference is written only where there is none. A status is written over the template that it
was worked out for, and says of one without a reference only what that one says. -/
def Careful (past : List Template) : Request → Prop
  | .updateTemplate t => ∃ p ∈ past, t.metadata.resourceVersion = p.metadata.resourceVersion ∧
      p.defaultVersionKey = none
  | .updateTemplateStatus t => ∃ p ∈ past, t.metadata.resourceVersion = p.metadata.resourceVersion ∧
      (t.resolved = true → p.defaultVersionKey = none → p.resolved = true)
  | _ => True

theorem Careful.mono (hm : past ⊆ more) (r : Request) (h : Careful past r) : Careful more r := by
  cases r with
  | updateTemplate t => obtain ⟨p, hp, h⟩ := h; exact ⟨p, hm hp, h⟩
  | updateTemplateStatus t => obtain ⟨p, hp, h⟩ := h; exact ⟨p, hm hp, h⟩
  | _ => trivial

theorem careful_selectDefault (ht : t ∈ past) (hk : t.defaultVersionKey = none) (now : Timestamp) :
    (t.selectDefault now).Asks (Careful past) := by
  refine .bind (Plan.asks_request trivial) fun a => ?_
  split
  · exact Plan.asks_pure _
  · split
    · exact Plan.asks_pure _
    · exact .commit (Plan.asks_request ⟨t, ht, rfl, hk⟩) (Plan.asks_request trivial)

theorem careful_resolveRef {key : Key} (ht : t ∈ past) (hk : t.defaultVersionKey = some key)
    (now : Timestamp) :
    (t.resolveRef key now).Asks (Careful past) := by
  have hcareful (u : Template) (hu : u.metadata = t.metadata) :
      Careful past (.updateTemplateStatus u) := by
    refine ⟨t, ht, by rw [hu], fun _ hnone => ?_⟩
    rw [hk] at hnone
    contradiction
  refine .bind (Plan.asks_request trivial) fun a => ?_
  split
  · exact Plan.asks_pure _
  · split
    · unfold settle
      split
      · exact Plan.asks_pure _
      · exact .commit (Plan.asks_request (hcareful _ rfl)) (Plan.asks_request trivial)
    · split
      · exact Plan.asks_pure _
      · exact .commit (Plan.asks_request (hcareful _ rfl)) (Plan.asks_request trivial)

theorem careful_resolveDefault (ht : t ∈ past) (now : Timestamp) :
    (t.resolveDefault now).Asks (Careful past) := by
  unfold resolveDefault
  split
  · exact Plan.asks_pure _
  · cases hk : t.defaultVersionKey with
    | none => exact careful_selectDefault ht hk now
    | some key => exact careful_resolveRef ht hk now

/-- The number that is written beside the conditions does not touch them. -/
theorem careful_syncLatest (ht : t ∈ past) (k : Key) (now : Timestamp) :
    (t.syncLatest k now).Asks (Careful past) := by
  unfold syncLatest
  split
  · exact Plan.asks_pure _
  · refine .bind (Plan.asks_request trivial) fun n => ?_
    split
    · exact Plan.asks_pure _
    · exact .commit (Plan.asks_request ⟨t, ht, rfl, fun hr _ => hr⟩) (Plan.asks_request trivial)

/-- Handlers of templates at work while clients write templates. -/
structure Writers where
  world : World
  /-- What the handlers still have to do. -/
  plans : List (Plan (Verdict Template))
  /-- Every state that a template was stored in. -/
  seen : List Template
  /-- The templates that a client took the reference from. -/
  cleared : List (Option Uid)

def clearing (d : TemplateStore) : Store.Call TemplateSpec TemplateStatus → List (Option Uid)
  | .update t =>
    match d.fenced t with
    | .ok c =>
      if Template.defaultVersionKey c ≠ none ∧ Template.defaultVersionKey t = none then
        [c.metadata.uid] else []
    | .error _ => []
  | _ => []

namespace Writers

def initial : Writers := ⟨.empty, [], [], []⟩

def templates (s : Writers) : TemplateStore := s.world.stores.templates

def note (s : Writers) (w : World) : Writers :=
  { s with world := w, seen := w.stores.templates.objects.values ++ s.seen }

def join (s : Writers) (p : Plan (Verdict Template)) : Writers := { s with plans := p :: s.plans }

/-- One step of anyone, as long as there are resource versions left. Clients bring templates without
a status. What goes on elsewhere leaves the templates alone. -/
inductive Step (s : Writers) : Writers → Prop where
  | client (c : Store.Call TemplateSpec TemplateStatus) : s.templates.HasRoom →
      (∀ t uid now, c = .create t uid now → t.status = .empty) →
      Step s { s.note (s.world.withTemplates (s.templates.serve c)) with
        cleared := clearing s.templates c ++ s.cleared }
  | resolve (t : Template) (now : Timestamp) : t ∈ s.seen → Step s (s.join (t.resolveDefault now))
  | sync (t : Template) (now : Timestamp) : t ∈ s.seen → Step s (s.join (t.syncLatest t.key now))
  | request {before after : List (Plan (Verdict Template))} {r : Request}
      {next : r.Answer → Plan (Verdict Template)} :
      s.templates.HasRoom → s.plans = before ++ .ask r next :: after →
      VersionHandlers.Free s.world r →
      Step s { s.note (World.answer r s.world).2 with
        plans := before ++ next (World.answer r s.world).1 :: after }
  | leave {before after : List (Plan (Verdict Template))} {a : Verdict Template} :
      s.plans = before ++ .done a :: after → Step s { s with plans := before ++ after }
  | elsewhere {w : World} :
      w.stores.templates = s.templates → w.stores.versions.Keyed → Step s { s with world := w }

abbrev Run : Writers → Writers → Prop := Relation.ReflTransGen Step

variable {s s' : Writers} {c : Store.Call TemplateSpec TemplateStatus} {k : Key} {d : TemplateStore}
  {t : Template}

/-- A stored template that says that its default is resolved has a reference, or had one that a
client took away. -/
def Marked (cleared : List (Option Uid)) (d : TemplateStore) : Prop :=
  ∀ k t, d.get? k = some t → Template.resolved t = true → Template.defaultVersionKey t = none →
    t.metadata.uid ∈ cleared

theorem Marked.mono {cleared more : List (Option Uid)} (h : Marked cleared d)
    (hm : cleared ⊆ more) : Marked more d :=
  fun k t ht hr hk => hm (h k t ht hr hk)

theorem Marked.put {cleared : List (Option Uid)} (h : Marked cleared d)
    (ht : t.resolved = true → t.defaultVersionKey = none → t.metadata.uid ∈ cleared) :
    Marked cleared (d.put t) := by
  intro k u hu hr hk
  rcases Store.get?_put_cases hu with ⟨-, rfl⟩ | ⟨-, hold⟩
  · exact ht hr hk
  · exact h k u hold hr hk

theorem Marked.without {cleared : List (Option Uid)} (h : Marked cleared d) (t : Template)
    (now : Timestamp) :
    Marked cleared (d.without t now) := by
  intro k u hu hr hk
  rw [Store.without_get?] at hu
  split at hu
  · contradiction
  · exact h k u hu hr hk

/-- What every step keeps: whoever is at work writes with care. -/
structure Sound (s : Writers) : Prop where
  versions : s.world.stores.versions.Keyed
  recorded : s.templates.Recorded s.seen
  careful : ∀ p ∈ s.plans, p.Asks (Careful s.seen)
  marked : Marked s.cleared s.templates

theorem sound_initial : Sound initial where
  versions := (Store.recorded_empty _).keyed
  recorded := Store.recorded_empty _
  careful _ h := absurd h List.not_mem_nil
  marked _ _ h := by cases h

theorem Sound.careful_note (h : Sound s) (w : World) :
    ∀ p ∈ s.plans, p.Asks (Careful (w.stores.templates.objects.values ++ s.seen)) :=
  fun p hp => (h.careful p hp).mono (Careful.mono (List.subset_append_right _ _))

/-- What a client leaves has a reference where it has the condition, unless the client has just
taken it away. -/
theorem Sound.marked_client (h : Sound s)
    (hc : ∀ t uid now, c = .create t uid now → t.status = .empty) :
    Marked (clearing s.templates c ++ s.cleared) (s.templates.serve c) := by
  have hold : Marked (clearing s.templates c ++ s.cleared) s.templates :=
    h.marked.mono (List.subset_append_right _ _)
  have hserved := Store.served h.recorded.keyed c
  generalize s.templates.serve c = d at hserved
  cases hserved with
  | refused => exact hold
  | @created t uid now _ =>
    refine hold.put fun hr => ?_
    have hstatus : t.status = .empty := hc t uid now rfl
    have : Conditions.holds t.status.conditions .defaultVersionResolved = true := hr
    rw [hstatus] at this
    contradiction
  | @updated t p hf =>
    refine hold.put fun hr hk => ?_
    have hkey : Template.defaultVersionKey t = none := hk
    have hresolved : Template.resolved p = true := hr
    have huid : p.metadata.uid ∈ clearing s.templates (.update t) ++ s.cleared := by
      by_cases hp : Template.defaultVersionKey p = none
      · exact List.mem_append_right _ (h.marked _ _ (Store.fenced_eq_ok.mp hf).1 hresolved hp)
      · refine List.mem_append_left _ ?_
        simp [clearing, hf, hp, hkey]
    exact huid
  | deleted _ => exact hold.without _ _

/-- A request that is made with care leaves no condition where it finds no reference. -/
theorem Sound.marked_request (h : Sound s) {r : Request} (hr : Careful s.seen r)
    (ha : r.Alters s.templates d) :
    Marked s.cleared d := by
  cases ha with
  | same => exact h.marked
  | @updated t c hf =>
    obtain ⟨p, hp, hv, hnone⟩ := hr
    obtain rfl := h.recorded.fenced hp hv hf
    refine h.marked.put fun hresolved _ => ?_
    have hmarked : c.metadata.uid ∈ s.cleared :=
      h.marked _ c (Store.fenced_eq_ok.mp hf).1 hresolved hnone
    exact hmarked
  | @restated t c hf =>
    obtain ⟨p, hp, hv, hkeeps⟩ := hr
    obtain rfl := h.recorded.fenced hp hv hf
    refine h.marked.put fun hresolved hnone => ?_
    have hc : Template.resolved c = true := hkeeps hresolved hnone
    have hmarked : c.metadata.uid ∈ s.cleared := h.marked _ c (Store.fenced_eq_ok.mp hf).1 hc hnone
    exact hmarked

theorem Sound.step (h : Sound s) (hs : Step s s') : Sound s' := by
  cases hs with
  | client c hroom hc =>
    have hserved := Store.served h.recorded.keyed c
    exact ⟨h.versions, hserved.recorded h.recorded hroom, h.careful_note _, h.marked_client hc⟩
  | resolve t now ht =>
    exact ⟨h.versions, h.recorded,
      List.forall_mem_cons.mpr ⟨careful_resolveDefault ht now, h.careful⟩, h.marked⟩
  | sync t now ht =>
    exact ⟨h.versions, h.recorded,
      List.forall_mem_cons.mpr ⟨careful_syncLatest ht _ now, h.careful⟩, h.marked⟩
  | @request before after r next hroom hp _ =>
    have ha := World.answer_alters s.world r
    have hcareful := h.careful
    rw [hp, List.forall_mem_append, List.forall_mem_cons] at hcareful
    have hnoted := h.careful_note (World.answer r s.world).2
    rw [hp, List.forall_mem_append, List.forall_mem_cons] at hnoted
    have hl := World.answer_leaves s.world r
    refine ⟨hl.keyed h.versions, ha.recorded h.recorded hroom, ?_,
      h.marked_request hcareful.2.1.1 ha⟩
    exact List.forall_mem_append.mpr ⟨hnoted.1,
      List.forall_mem_cons.mpr ⟨hnoted.2.1.2 _, hnoted.2.2⟩⟩
  | leave hp =>
    have hcareful := h.careful
    rw [hp, List.forall_mem_append, List.forall_mem_cons] at hcareful
    exact ⟨h.versions, h.recorded, List.forall_mem_append.mpr ⟨hcareful.1, hcareful.2.2⟩, h.marked⟩
  | @elsewhere w hw hd =>
    have hrecorded : w.stores.templates.Recorded s.seen := by rw [hw]; exact h.recorded
    have hmarked : Marked s.cleared w.stores.templates := by rw [hw]; exact h.marked
    exact ⟨hd, hrecorded, h.careful, hmarked⟩

theorem Sound.run (h : Sound s) (hr : Run s s') : Sound s' := by
  induction hr with
  | refl => exact h
  | tail _ hs ih => exact ih.step hs

/-- A numbered version of the template that its default and the number of it lead to. -/
structure Backs (d : VersionStore) (t : Template) (v : Version) : Prop where
  key : t.defaultVersionKey = some v.key
  stored : d.get? v.key = some v
  named : v.templateKey = t.key
  owned : v.ownedBy t = true
  assigned : v.assigned = true
  number : v.status.version = t.status.defaultVersion

/-- A default that is looked at and found resolved is that of a version that is there. -/
theorem exists_backs {d : VersionStore} (hd : d.Keyed) {key : Key}
    (hk : t.defaultVersionKey = some key) (hm : t.meets (t.prospect d) = true)
    (hr : t.resolved = true) : ∃ v, Backs d t v := by
  simp only [prospect, hk] at hm
  cases hres : t.resolution (d.get? key) with
  | error why =>
    rw [hres] at hm
    have := (Conditions.holds_of_agrees hm).symm.trans hr
    contradiction
  | ok n =>
    rw [hres] at hm
    simp only [meets, hasDefault, decide_eq_true_eq] at hm
    obtain ⟨v, hv, hn, ha, hnumber, ho⟩ := resolution_eq_ok.mp hres
    obtain rfl := hd _ _ hv
    exact ⟨v, hk, hv, hn, ho, ha, hnumber.trans hm.1.symm⟩

/-- In all runs, when a delivery finds nothing to do on a template whose default is said to be
resolved, a version stands behind it exactly if the template refers to one. Where it does not, a
client took the reference away. -/
theorem resolved_default_real_iff (hrun : Run initial s) (ht : s.templates.get? k = some t)
    (hl : t.deleting = false)
    (hu : s.world.perform (t.resolveDefault now) = (.ok .unchanged, s.world))
    (hr : t.resolved = true) :
    ((∃ v, Backs s.world.stores.versions t v) ↔ t.defaultVersionKey ≠ none) ∧
      (t.defaultVersionKey = none → t.metadata.uid ∈ s.cleared) := by
  have h : Sound s := sound_initial.run hrun
  have hm : t.meets (t.prospect s.world.stores.versions) = true :=
    ((resolveDefault_unchanged_iff t now s.world).mp hu).resolve_left (by simp [hl])
  refine ⟨⟨?_, ?_⟩, h.marked k t ht hr⟩
  · rintro ⟨v, hv⟩
    simp [hv.key]
  · intro hne
    obtain ⟨key, hkey⟩ := Option.ne_none_iff_exists'.mp hne
    exact exists_backs h.versions hkey hm hr

def goOn (s : Writers) : Writers :=
  match s.plans with
  | [] => s
  | .done _ :: after => { s with plans := after }
  | .ask r next :: after =>
    if s.templates.HasRoom ∧ VersionHandlers.Free s.world r then
      { s.note (World.answer r s.world).2 with plans := next (World.answer r s.world).1 :: after }
    else s

theorem run_goOn (s : Writers) : Run s s.goOn := by
  unfold goOn
  split
  · exact .refl
  · next a after hp => exact .single (@Step.leave s [] _ _ hp)
  · next r next after hp =>
    split
    · next hfree => exact .single (@Step.request s [] _ _ _ hfree.1 hp hfree.2)
    · exact .refl

def carriedOut (s : Writers) : Nat → Writers
  | 0 => s
  | n + 1 => (s.carriedOut n).goOn

theorem run_carriedOut (s : Writers) (n : Nat) : Run s (s.carriedOut n) := by
  induction n with
  | zero => exact .refl
  | succ n ih => exact ih.trans (run_goOn _)

def llama : Template := ⟨.named "default" "llama", .empty, .empty⟩

def first : Version :=
  ⟨.named "default" "v1", { VersionSpec.empty with templateName := "llama" }, .empty⟩

def founded : Writers :=
  { initial.note
    (initial.world.withTemplates (initial.templates.serve (.create llama ⟨0⟩ default))) with
    cleared := clearing initial.templates (.create llama ⟨0⟩ default) ++ initial.cleared }

def linkedOrNumbered (w : World) : World :=
  (w.perform (Version.number ((w.stores.versions.get? first.key).getD default) default)).2

def numbered : VersionStore :=
  (linkedOrNumbered (linkedOrNumbered (founded.world.withVersions
    (founded.world.stores.versions.serve (.create first ⟨1⟩ default))))).stores.versions

def among (s : Writers) (d : VersionStore) : Writers := { s with world := s.world.withVersions d }

def stored (s : Writers) : Template := (s.templates.get? llama.key).getD default

def delivered (s : Writers) : Writers := (s.join (s.stored.resolveDefault default)).carriedOut 4

theorem run_delivered (hs : s.stored ∈ s.seen) : Run s s.delivered :=
  (Relation.ReflTransGen.single (Step.resolve _ default hs)).trans (run_carriedOut _ _)

def settled : Writers := (founded.among numbered).delivered.delivered

theorem run_settled : Run initial settled := by
  have hfounded : Run initial founded :=
    .single (.client _ (by decide) fun _ _ _ hc => by cases hc; rfl)
  have hkeyed : numbered.Keyed := Store.keyed_iff.mpr (by decide +kernel)
  have hamong : Run initial (founded.among numbered) := hfounded.tail (.elsewhere rfl hkeyed)
  have hdelivered : Run initial (founded.among numbered).delivered :=
    hamong.trans (run_delivered (by decide +kernel))
  exact hdelivered.trans (run_delivered (by decide +kernel))

theorem resolved_default_real_iff_settled :
    settled.stored.resolved = true ∧ ∃ v, Backs settled.world.stores.versions settled.stored v := by
  have hr : settled.stored.resolved = true := by decide +kernel
  have hm : settled.stored.meets (settled.stored.prospect settled.world.stores.versions) =
    true := by decide +kernel
  have hu := (resolveDefault_unchanged_iff settled.stored default settled.world).mpr (.inr hm)
  have hreal :=
    resolved_default_real_iff (k := llama.key) run_settled (by decide +kernel)
      (by decide +kernel) hu hr
  exact ⟨hr, hreal.1.mpr (by decide +kernel)⟩

def withoutReference : Template := { settled.stored with spec := .empty }

def abandoned : Writers :=
  let s := settled.among (settled.world.stores.versions.serve (.delete first.key default))
  { s.note (s.world.withTemplates (s.templates.serve (.update withoutReference))) with
    cleared := clearing s.templates (.update withoutReference) ++ s.cleared }

theorem run_abandoned : Run initial abandoned := by
  have hkeyed : (settled.world.stores.versions.serve (.delete first.key default)).Keyed :=
    Store.keyed_iff.mpr (by decide +kernel)
  have hgone :
      Run initial
        (settled.among (settled.world.stores.versions.serve (.delete first.key default))) :=
    run_settled.tail (.elsewhere rfl hkeyed)
  exact hgone.tail
    (.client (.update withoutReference) (by decide +kernel) fun _ _ _ hc => by cases hc)

/-- Nothing takes the condition back once the reference is gone. -/
theorem abandoned_default_unreal :
    Run initial abandoned ∧ abandoned.templates.get? llama.key = some abandoned.stored ∧
      abandoned.stored.deleting = false ∧
      abandoned.world.perform (abandoned.stored.resolveDefault default) =
      (.ok .unchanged, abandoned.world) ∧ abandoned.stored.resolved = true ∧
      ∀ v, ¬ Backs abandoned.world.stores.versions abandoned.stored v := by
  have hm :
      abandoned.stored.meets (abandoned.stored.prospect abandoned.world.stores.versions) =
      true := by
    decide +kernel
  have hnone : abandoned.stored.defaultVersionKey = none := by decide +kernel
  refine ⟨run_abandoned, by decide +kernel, by decide +kernel, ?_, by decide +kernel,
    fun v hv => ?_⟩
  · exact (resolveDefault_unchanged_iff _ _ _).mpr (.inr hm)
  · have := hnone.symm.trans hv.key
    contradiction

end Writers
end Template
end ModelTemplates
