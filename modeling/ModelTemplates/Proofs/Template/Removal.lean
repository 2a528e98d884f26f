import ModelTemplates.Proofs.Controller.Deletions
import ModelTemplates.Proofs.Template.Delivery
/-! Removals are handled unless they are passed over: what is left of deleted objects when a
controller has nothing more to do. -/
namespace ModelTemplates

/-- A handler of removals that does not succeed unless it asks the ledger to remove the object's
entry. -/
def Handlers.Cleanses {σ τ : Type} (d : Handlers σ τ) : Prop :=
  ∃ h ∈ d.remove, ∀ m k t, (h m k t).Needs (· = .removeEntry k t.metadata.uid)

namespace ControllerDeletions

section Removal

variable {σ τ : Type} [DecidableEq σ] [DecidableEq τ] {handlers : Handlers σ τ}
  {wiring : Controller.Wiring World σ τ} {store : World → Store σ τ} {s : ControllerDeletions σ τ}
  {o : Object σ τ}

/-- When a controller is idle and has read its watch, every handler of removals has succeeded with
the last state of every object that was deleted and is not passed over: what the handlers need has
been asked for it, and the ledger has nothing of it that did not come after its entry was removed.
One that is passed over had a tombstone, which was replaced by the next deletion under its key or
taken away by a worker. -/
theorem removal_handled_unless_passed (ht : Tracks wiring store)
    (h : Reachable handlers wiring store s) (hidle : s.workers.controller.isIdle = true)
    (hread : Controller.waiting wiring s.workers.controller s.world = 0) (ho : o ∈ s.deleted) :
    (o ∉ s.passed →
      o ∈ s.served ∧
        (∀ f ∈ handlers.remove, ∀ P, (∀ m, (f m o.key o).Needs P) → ∃ r, P r ∧ (o, r) ∈ s.asked) ∧
        (handlers.Cleanses → s.world.owes o = true → o ∈ s.late)) ∧
    (o ∈ s.passed →
      ∃ s₀ s₁, Reachable handlers wiring store s₀ ∧ Step handlers wiring store s₀ s₁ ∧
        Relation.ReflTransGen (Step handlers wiring store) s₁ s ∧
        s₀.workers.controller.tombstones.find? o.key = some o ∧
        ((∃ p, p ≠ o ∧ s₁.workers.controller.tombstones.find? o.key = some p) ∨
          ∃ a next, (o.key, .own a next) ∈ s₀.workers.jobs ∧
          (a = .discard ∨ ∃ uid, a = .clear uid))) := by
  have hsound := h.sound ht
  refine ⟨fun hp => ?_, h.passes ht⟩
  have hserved : o ∈ s.served := (hsound.served_or_passed ht hidle hread ho).resolve_right hp
  have hneeds (f) (hf : f ∈ handlers.remove) (P : Request →
    Prop) (hP : ∀ m, (f m o.key o).Needs P) : s.Asked P o :=
    (hsound.attested o P ⟨f, hf, hP⟩).1 hserved
  refine ⟨hserved, hneeds, fun ⟨f, hf, hcleanses⟩ howes => hsound.removed o ?_ howes⟩
  obtain ⟨r, rfl, hasked⟩ := hneeds f hf _ fun m => hcleanses m o.key o
  exact mem_cleansed.mpr hasked

end Removal

theorem template_tracks (generate : ServingGenerator) :
    Tracks (Manager.templateWiring (World.siteFor generate)) fun w => w.stores.templates where
  serves := Template.wiring_serves generate
  puts r w := by
    have h := World.answer_alters w r
    change (World.answer r w).2.stores.templates = _ ∨
      ∃ o, (World.answer r w).2.stores.templates = _
    generalize (World.answer r w).2.stores.templates = d at h ⊢
    cases h with
    | same => exact .inl rfl
    | updated _ => exact .inr ⟨_, rfl⟩
    | restated _ => exact .inr ⟨_, rfl⟩

theorem template_cleanses : Template.handlers.Cleanses :=
  ⟨_, List.mem_singleton.mpr rfl, fun _ _ _ => .inl rfl⟩

inductive Move where
  | client (c : Store.Call TemplateSpec TemplateStatus)
  /-- A version of a template gets a number. -/
  | advance (k : Key) (uid : Uid)
  | feed
  | work

variable {s : ControllerDeletions TemplateSpec TemplateStatus} {k : Key}
  {L : Processing TemplateSpec TemplateStatus}

def templates (w : World) : TemplateStore := w.stores.templates

def wiring : Controller.Wiring World TemplateSpec TemplateStatus :=
  Manager.templateWiring (World.siteFor fun _ => .ok "config")

def carry (k : Key) :
    Processing TemplateSpec TemplateStatus → ControllerDeletions TemplateSpec TemplateStatus →
    ControllerDeletions TemplateSpec TemplateStatus
  | .ended, s => s
  | .ask r next, s =>
    carry k (next (World.answer r s.world).1) ((s.note k (.ask r next)).go
      ⟨s.workers.controller, [(k, next (World.answer r s.world).1)]⟩ (World.answer r s.world).2)
  | .clock next, s =>
    carry k (next default) ((s.note k (.clock next)).go ⟨s.workers.controller,
      [(k, next default)]⟩ s.world)
  | .own a next, s =>
    carry k (next (a.act k s.workers.controller).1) ((s.note k (.own a next)).go
      ⟨(a.act k s.workers.controller).2, [(k, next (a.act k s.workers.controller).1)]⟩ s.world)

/-- What is left by a move. The worker begins when it has nothing to do and ends what it begins,
unless it breaks off. -/
def moved (s : ControllerDeletions TemplateSpec TemplateStatus) :
    Move → ControllerDeletions TemplateSpec TemplateStatus
  | .client c =>
    { s with deleted := (templates s.world).buries c ++ s.deleted }.go s.workers
      (s.world.withTemplates ((templates s.world).serve c))
  | .advance k uid => s.go s.workers { s.world with ledger := s.world.ledger.advance k (some uid) }
  | .feed =>
    match Controller.feedOne? wiring default s.workers.controller s.world with
    | none => s
    | some (c, w) =>
      if (wiring.watch s.world).oldest ≤ s.workers.controller.position then
        s.go { s.workers with controller := c } w else s
  | .work =>
    match s.workers.jobs, s.workers.controller.queue.queue.take? with
    | [], some (k, q) =>
      let s :=
        carry k (Template.handlers.process k) ({ s with found := Function.update s.found k none }.go
        ⟨s.workers.controller.onQueue fun _ => q, [(k, Template.handlers.process k)]⟩ s.world)
      if k ∈ s.workers.controller.abandoned then s
        else s.go ⟨s.workers.controller.onQueue (·.done k), []⟩ s.world
    | _, _ => s

theorem run_carry (hL : L.Asks (Template.Tidy k)) (hj : s.workers.jobs = [(k, L)]) :
    Relation.ReflTransGen (Step Template.handlers wiring templates) s (carry k L s) ∧
      (carry k L s).workers.jobs = [(k, .ended)] := by
  have hturn {r : Option Request} {L L' : Processing TemplateSpec TemplateStatus} {c w}
      {s : ControllerDeletions TemplateSpec TemplateStatus} (hj : s.workers.jobs = [(k, L)])
      (ht : L.Turn k s.workers.controller s.world r L' c w) :
      Step Template.handlers wiring templates s ((s.note k L).go ⟨c, [(k, L')]⟩ w) :=
    @Step.turn _ _ _ _ _ _ _ _ [] [] k L L' r c w hj ht
  induction L generalizing s with
  | ended => exact ⟨.refl, hj⟩
  | ask r next ih =>
    obtain ⟨hrun, hended⟩ := ih (World.answer r s.world).1 (hL.2 _)
      (s := (s.note k (.ask r next)).go ⟨s.workers.controller,
        [(k, next (World.answer r s.world).1)]⟩
        (World.answer r s.world).2) rfl
    exact ⟨hrun.head (hturn hj (.ask (hL.1.free _))), hended⟩
  | clock next ih =>
    obtain ⟨hrun, hended⟩ := ih default (hL default)
      (s := (s.note k (.clock next)).go ⟨s.workers.controller, [(k, next default)]⟩ s.world) rfl
    exact ⟨hrun.head (hturn hj (.clock default)), hended⟩
  | own a next ih =>
    obtain ⟨hrun, hended⟩ := ih (a.act k s.workers.controller).1 (hL _)
      (s := (s.note k (.own a next)).go
        ⟨(a.act k s.workers.controller).2,
          [(k, next (a.act k s.workers.controller).1)]⟩ s.world) rfl
    exact ⟨hrun.head (hturn hj .own), hended⟩

theorem run_moved (s : ControllerDeletions TemplateSpec TemplateStatus) (a : Move) :
    Relation.ReflTransGen (Step Template.handlers wiring templates) s (s.moved a) := by
  cases a with
  | client c => exact .single (.client c rfl)
  | advance k uid => exact .single (.elsewhere (.inl rfl))
  | feed =>
    simp only [moved]
    split
    · exact .refl
    · next hfeed =>
      split
      · next hl => exact .single (.feed hfeed hl)
      · exact .refl
  | work =>
    simp only [moved]
    split
    · next k q hj htake =>
      have hbegin :
          Step Template.handlers wiring templates s
            ({ s with found := Function.update s.found k none }.go
          ⟨s.workers.controller.onQueue fun _ => q,
            [(k, Template.handlers.process k)]⟩ s.world) := by
        have hstep : Step Template.handlers wiring templates s _ := .take htake
        rwa [hj] at hstep
      obtain ⟨hrun, hended⟩ := run_carry (Template.tidy_handlers k)
        (s := { s with found := Function.update s.found k none }.go
          ⟨s.workers.controller.onQueue fun _ => q, [(k, Template.handlers.process k)]⟩ s.world) rfl
      split
      · exact hrun.head hbegin
      · next hleft =>
          exact (hrun.head hbegin).tail (@Step.done _ _ _ _ _ _ _ _ [] [] _ hended hleft)
    · exact .refl

theorem run_moves (s : ControllerDeletions TemplateSpec TemplateStatus) (as : List Move) :
    Relation.ReflTransGen (Step Template.handlers wiring templates) s (as.foldl moved s) := by
  induction as generalizing s with
  | nil => exact .refl
  | cons a as ih => exact (run_moved s a).trans (ih _)

def begun : ControllerDeletions TemplateSpec TemplateStatus :=
  ⟨⟨(Controller.start wiring default (.empty default) World.empty).2.1, []⟩, World.empty,
    fun _ => none, [], [], [], [], []⟩

theorem opening_begun : Opening wiring templates begun := by
  have hkeyed : (templates World.empty).Keyed :=
    Store.keyed_iff.mpr fun _ he => absurd he List.not_mem_nil
  have hstart : Controller.start wiring default (.empty default) World.empty =
      (none, (Controller.start wiring default (.empty default) World.empty).2.1, World.empty) := rfl
  exact .start hkeyed (Nat.le_refl _) hstart

theorem reachable_begun (as : List Move) :
    Reachable Template.handlers wiring templates (as.foldl moved begun) :=
  ⟨begun, opening_begun, run_moves begun as⟩

def llama : Template := ⟨.named "default" "llama", .empty, .empty⟩

def deletedOnce : ControllerDeletions TemplateSpec TemplateStatus :=
  [.client (.create llama ⟨0⟩ default), .advance llama.key ⟨0⟩, .client (.delete llama.key default),
    .feed, .feed, .work].foldl moved begun

/-- Its number is gone when the controller has nothing more to do. -/
theorem removal_handled_unless_passed_once :
    ∃ o ∈ deletedOnce.deleted, o.metadata.uid = some ⟨0⟩ ∧ o ∈ deletedOnce.served ∧
      deletedOnce.world.owes o = false := by
  have hdeleted : ∃ o ∈ deletedOnce.deleted, o.metadata.uid = some ⟨0⟩ ∧ o ∉ deletedOnce.passed ∧
      o ∉ deletedOnce.late := by decide +kernel
  obtain ⟨o, ho, huid, hpassed, hlate⟩ := hdeleted
  obtain ⟨hserved, -, howes⟩ :=
    (removal_handled_unless_passed (template_tracks _) (reachable_begun _)
    (s := deletedOnce) (by decide +kernel) (by decide +kernel) ho).1 hpassed
  exact ⟨o, ho, huid, hserved, eq_false_of_ne_true fun h => hlate (howes template_cleanses h)⟩

/-- The template is made anew and deleted again before anything is done about the first deletion. -/
def deletedTwice : ControllerDeletions TemplateSpec TemplateStatus :=
  [.client (.create llama ⟨0⟩ default), .advance llama.key ⟨0⟩, .client (.delete llama.key default),
    .client (.create llama ⟨1⟩ default), .client (.delete llama.key default), .feed, .feed,
    .feed, .feed, .work].foldl moved begun

/-- Nothing is ever done about the first deletion, and its number stays in the ledger. -/
theorem first_of_two_removals_missed :
    ∃ s, Reachable Template.handlers wiring templates s ∧ s.workers.controller.isIdle = true ∧
      Controller.waiting wiring s.workers.controller s.world = 0 ∧ Template.handlers.Cleanses ∧
      ∃ o ∈ s.deleted, o.metadata.uid = some ⟨0⟩ ∧ o ∉ s.served ∧ s.world.owes o = true ∧
      s.late = [] :=
  ⟨deletedTwice,
    reachable_begun _, by decide +kernel, by decide +kernel, template_cleanses, by decide +kernel⟩

end ControllerDeletions
end ModelTemplates
