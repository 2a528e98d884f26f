import ModelTemplates.Manager
import ModelTemplates.Proofs.Handler.Contract
import ModelTemplates.Proofs.Plan.Failures
import ModelTemplates.Proofs.Plan.Requests
import ModelTemplates.Proofs.Version.Course
/-! Handlers with nobody else at work. Whatever fails for them, a handler that is shown the object
as it is stored meets no conflict, and what it passes on is the object as it is stored then. -/
namespace ModelTemplates

theorem ReconcileError.isConflict_ofStore (e : StoreError) :
    (ofStore e).isConflict = e.isConflict := by
  cases e <;> rfl

theorem ReconcileError.brokeOff_ofStore {α : Type} (e : StoreError) :
    Controller.brokeOff (.error (ofStore e) : Verdict α) = false :=
  decide_eq_false (ofStore_ne_overflow e)

section Completion

variable {ω : Type} (answer : (r : Request) → ω → r.Answer × ω) (w : ω) (t : Template)

/-- A write and what follows from it come to their end, whatever is answered. -/
theorem Plan.brokeOff_commit {α : Type} (write : Plan (Except StoreError α)) (follow : Plan Unit) :
    Controller.brokeOff ((commit write follow).run answer w).1 = false := by
  simp only [commit, run_bind]
  rcases write.run answer w with ⟨e | o, w'⟩
  · exact ReconcileError.brokeOff_ofStore e
  · simp [Controller.brokeOff]

theorem Template.brokeOff_selectDefault (now : Timestamp) :
    Controller.brokeOff ((t.selectDefault now).run answer w).1 = false := by
  simp only [selectDefault, Plan.run_bind]
  split
  · next e _ => exact ReconcileError.brokeOff_ofStore e
  · split
    · rfl
    · exact Plan.brokeOff_commit _ _ _ _

theorem Template.brokeOff_resolveRef (key : Key) (now : Timestamp) :
    Controller.brokeOff ((t.resolveRef key now).run answer w).1 = false := by
  simp only [resolveRef, settle, Plan.run_bind]
  split
  · next e _ => exact ReconcileError.brokeOff_ofStore e
  · split <;> split
    · rfl
    · exact Plan.brokeOff_commit _ _ _ _
    · rfl
    · exact Plan.brokeOff_commit _ _ _ _

theorem Template.brokeOff_resolveDefault (now : Timestamp) :
    Controller.brokeOff ((t.resolveDefault now).run answer w).1 = false := by
  unfold resolveDefault
  split
  · rfl
  · split
    · exact brokeOff_selectDefault _ _ _ _
    · exact brokeOff_resolveRef _ _ _ _ _

end Completion

variable {α σ τ : Type} {side : Side σ τ} {s : FaultyWorld} {k : Key} {o p : Object σ τ}
  {r : Request}

def Verdict.Unrivalled (v : Verdict (Object σ τ)) : Prop := ∀ e, v = .error e → e.isConflict = false

namespace Side

/-- The object is stored under the key, in stores where failures are no conflicts. -/
structure Holds (side : Side σ τ) (k : Key) (o : Object σ τ) (s : FaultyWorld) : Prop where
  calm : s.Calm
  key : o.key = k
  stored : (side.store s.world.stores).get? k = some o

/-- Shown the object as it is stored, the plan meets no conflict and passes on the object as it is
stored then. -/
def Steady (side : Side σ τ) (k : Key) (o : Object σ τ) (p : Plan (Verdict (Object σ τ))) : Prop :=
  ∀ s, side.Holds k o s →
    (s.perform p).1.Unrivalled ∧
    side.Holds k (Controller.passedOn o (s.perform p).1) (s.perform p).2

def Files (side : Side σ τ) (k : Key) (o : Object σ τ)
    (write : Plan (Except StoreError (Object σ τ))) : Prop :=
  ∀ s, side.Holds k o s →
    (∃ p, (s.perform write).1 = .ok p ∧ side.Holds k p (s.perform write).2) ∨
      ∃ e, (s.perform write).1 = .error e ∧ e.isConflict = false ∧
      side.Holds k o (s.perform write).2

structure Concludes (a : α) (p : Plan α) : Prop where
  asks : p.Asks fun r => r.writes = false
  result : ∀ s : FaultyWorld, (s.perform p).1 = a

theorem Holds.answer (h : side.Holds k o s) (hr : r.writes = false) :
    side.Holds k o (FaultyWorld.answer r s).2 where
  calm := h.calm.answer r
  key := h.key
  stored := by rw [FaultyWorld.answer_stores hr]; exact h.stored

theorem Holds.perform (h : side.Holds k o s) {p : Plan α} (hp : p.Asks fun r => r.writes = false) :
    side.Holds k o (s.perform p).2 := by
  induction p generalizing s with
  | done a => exact h
  | ask r next ih => exact ih _ (h.answer hp.1) (hp.2 _)

theorem Steady.ask {next : r.Answer → Plan (Verdict (Object σ τ))} (hr : r.writes = false)
    (h : ∀ a, (∀ e, r.unread? a = some e → e.isConflict = false) → side.Steady k o (next a)) :
    side.Steady k o (.ask r next) := by
  intro s hs
  exact h _ (fun e => hs.calm.unread hr) _ (hs.answer hr)

theorem Files.bind {write : Plan (Except StoreError (Object σ τ))}
    {f : Except StoreError (Object σ τ) → Plan (Verdict (Object σ τ))} (h : side.Files k o write)
    (hok : ∀ p, Concludes (.ok (.updated p)) (f (.ok p)))
    (herror : ∀ e, Concludes (.error (.ofStore e)) (f (.error e))) :
    side.Steady k o (write >>= f) := by
  intro s hs
  have hrun : s.perform (write >>= f) = (s.perform write).2.perform (f (s.perform write).1) :=
    Plan.run_bind _ _ _ _
  rw [hrun]
  rcases h s hs with ⟨p, hp, hholds⟩ | ⟨e, he, hconflict, hholds⟩
  · rw [hp, (hok p).result]
    exact ⟨nofun, hholds.perform (hok p).asks⟩
  · rw [he, (herror e).result]
    refine ⟨?_, hholds.perform (herror e).asks⟩
    intro e' h
    obtain rfl : ReconcileError.ofStore e = e' := by simpa using h
    rw [ReconcileError.isConflict_ofStore]
    exact hconflict

theorem Files.commit {write : Plan (Except StoreError (Object σ τ))} {follow : Plan Unit}
    (h : side.Files k o write) (hf : follow.Asks fun r => r.writes = false) :
    side.Steady k o (.commit write follow) := by
  apply h.bind
  · intro p
    refine ⟨hf.bind fun _ => Plan.asks_pure _, fun s => ?_⟩
    exact congrArg Prod.fst (Plan.run_bind _ _ _ _)
  · exact fun e => ⟨Plan.asks_pure _, fun s => rfl⟩

theorem Holds.read (h : side.Holds k o s) (hp : p.key = o.key) :
    (side.store s.world.stores).get? p.key = some o := by
  rw [hp, h.key]
  exact h.stored

end Side

open Side

variable {t : Template} {v : Version} {now : Timestamp}

namespace Template

end Template

namespace Version

end Version
end ModelTemplates
