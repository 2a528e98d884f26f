import Mathlib.Order.Lattice
import ModelTemplates.Proofs.Controller.Processing
import ModelTemplates.Proofs.Plan.Requests
/-! Work that sees to an object: as long as nobody writes the object, it does not end before enough
is known of it, unless the key is to come back or the worker breaks off. -/
namespace ModelTemplates

/-- What the work on a stored object has to find out. -/
structure Concern (κ σ τ : Type) [Preorder κ] where
  store : World → Store σ τ
  object : Object σ τ
  /-- What is known after a request, of what was known before it. -/
  learn : Request → World → κ → κ
  enough : κ → Prop
  learn_mono : ∀ r w, Monotone (learn r w)
  enough_mono : Monotone enough

variable {α κ σ τ : Type} [Preorder κ]

/-- The work has failed: the key is to come back, or the worker breaks off. -/
def ControllerAct.Fails : ControllerAct σ τ → Prop
  | retry _ => True
  | abandon => True
  | _ => False

namespace Processing

/-- Whatever is answered and read, the work comes to an end with enough known, to a write of the
object, or to a failure. -/
def Heeds (x : Concern κ σ τ) : Processing σ τ → κ → Prop
  | ended, n => x.enough n
  | ask r next, n =>
    ∀ w : World, (x.store w).Keyed → (x.store w).get? x.object.key = some x.object →
    (∃ o, o.key = x.object.key ∧ x.store (World.answer r w).2 = (x.store w).put o) ∨
      (x.store (World.answer r w).2 = x.store w ∧
        (next (World.answer r w).1).Heeds x (x.learn r w n))
  | clock next, n => ∀ m, (next m).Heeds x n
  | own a next, n => a.Fails ∨ ∀ o, (next o).Heeds x n

variable {x : Concern κ σ τ} {L : Processing σ τ} {n n' : κ} {k : Key}

theorem Heeds.mono (h : L.Heeds x n) (hn : n ≤ n') : L.Heeds x n' := by
  induction L generalizing n n' with
  | ended => exact x.enough_mono hn h
  | ask r next ih =>
    exact fun w hk hg => (h w hk hg).imp_right fun h' => ⟨h'.1, ih _ h'.2 (x.learn_mono r w hn)⟩
  | clock next ih => exact fun m => ih m (h m) hn
  | own a next ih => exact h.imp_right fun h' o => ih o (h' o) hn

def Elsewhere (x : Concern κ σ τ) (r : Request) : Prop :=
  ∀ w, x.store (World.answer r w).2 = x.store w

theorem heeds_ask {r : Request} {next : r.Answer → Processing σ τ} (hr : Elsewhere x r)
    (h : ∀ a n', (next a).Heeds x n') : (ask r next).Heeds x n :=
  fun w _ _ => .inr ⟨hr w, h _ _⟩

/-- A plan that does not touch the objects, and then work that sees to the object whatever is
known. -/
theorem heeds_follow {p : Plan α} {f : α → Processing σ τ} (hp : p.Asks (Elsewhere x))
    (h : ∀ a n', (f a).Heeds x n') : ∀ n, (follow p f).Heeds x n := by
  induction p with
  | done a => exact h a
  | ask r next ih => exact fun n => heeds_ask hp.1 fun a => ih a (hp.2 a)

theorem follow_bind {β : Type} (p : Plan α) (g : α → Plan β) (f : β → Processing σ τ) :
    follow (p >>= g) f = follow p fun a => follow (g a) f := by
  change follow (p.bind g) f = _
  induction p with
  | done a => rfl
  | ask r next ih => exact congrArg (ask r) (funext ih)

def Attempts (x : Concern κ σ τ) {β : Type} (r : Request) (g : r.Answer → Except StoreError β) :
    Prop :=
  ∀ w : World, (x.store w).Keyed → (x.store w).get? x.object.key = some x.object →
    (∃ o, o.key = x.object.key ∧ x.store (World.answer r w).2 = (x.store w).put o) ∨
      (x.store (World.answer r w).2 = x.store w ∧ ∃ e, g (World.answer r w).1 = .error e)

/-- A write to the store puts the object there, or fails and puts nothing. -/
theorem attempts_settle {w : World} {put : Store σ τ → World} (hput : ∀ d, x.store (put d) = d)
    {e : Except StoreError (Object σ τ × Store σ τ)}
    (he : ∀ o d, e = .ok (o, d) → ∃ p : Object σ τ, p.key = x.object.key ∧ d = (x.store w).put p) :
    (∃ o, o.key = x.object.key ∧ x.store (w.settle put e).2 = (x.store w).put o) ∨
      (x.store (w.settle put e).2 = x.store w ∧ ∃ err, (w.settle put e).1 = .error err) := by
  cases e with
  | error err => exact .inr ⟨rfl, err, rfl⟩
  | ok r =>
    obtain ⟨p, hp, hd⟩ := he r.1 r.2 rfl
    exact .inl ⟨p, hp, (hput r.2).trans hd⟩

theorem heeds_commit {β : Type} {r : Request} {g : r.Answer → Except StoreError β} {p : Plan Unit}
    {f : Verdict β → Processing σ τ} (hr : Attempts x r g)
    (he : ∀ e n', (f (.error e)).Heeds x n') :
    (follow (.commit (.ask r fun a => .done (g a)) p) f).Heeds x n := by
  unfold Plan.commit
  rw [follow_bind]
  intro w hk hg
  refine (hr w hk hg).imp_right fun ⟨hs, e, ha⟩ => ⟨hs, ?_⟩
  change (follow (Plan.commit (.done (g (World.answer r w).1)) p) f).Heeds x _
  rw [ha]
  exact he _ _

end Processing

namespace Handlers

open Processing

variable {x : Concern κ σ τ} {n : κ} {d : Handlers σ τ} {k : Key} {o : Object σ τ}

theorem heeds_afterError {e : ReconcileError} {L : Processing σ τ} (h : L.Heeds x n) :
    (afterError e L).Heeds x n := by
  unfold afterError
  split
  · exact .inl trivial
  · exact h

theorem heeds_finish {ok : Bool} (h : ok = true → x.enough n) :
    (finish ok : Processing σ τ).Heeds x n := by
  cases ok with
  | false => exact fun m => .inl trivial
  | true => exact .inr fun _ => h rfl

/-- Handlers of removals that do not touch the objects leave the rest to see to the object. -/
theorem heeds_removeEach {t : Object σ τ} {f : Bool → Processing σ τ}
    {hs : List (Moment → Key → Object σ τ → Plan (Except ReconcileError Unit))}
    (hh : ∀ h ∈ hs, ∀ m, (h m k t).Asks (Elsewhere x)) (hf : ∀ ok n, (f ok).Heeds x n)
    (ok : Bool) (n : κ) :
    (removeEach k t f hs ok).Heeds x n := by
  induction hs generalizing ok n with
  | nil => exact hf ok n
  | cons h hs ih =>
    rw [List.forall_mem_cons] at hh
    intro m
    refine heeds_follow (hh.1 m) (fun a n' => ?_) n
    cases a with
    | error e => exact heeds_afterError (ih hh.2 _ _)
    | ok => exact ih hh.2 _ _

theorem heeds_settleTombstone {live : Option (Object σ τ)} {f : Bool → Processing σ τ}
    (hh : ∀ h ∈ d.remove, ∀ m t, (h m k t).Asks (Elsewhere x)) (hf : ∀ ok n, (f ok).Heeds x n)
    (tombstone : Option (Object σ τ)) (n : κ) :
    (d.settleTombstone k live f tombstone).Heeds x n := by
  cases tombstone with
  | none => exact hf true n
  | some t =>
    by_cases hg : Controller.isGone t live = true
    · simp only [settleTombstone, if_pos hg]
      refine heeds_removeEach (fun h hm m => hh h hm m t) (fun ok n => ?_) true n
      cases ok with
      | false => exact hf false n
      | true => exact .inr fun _ => hf true n
    · simp only [settleTombstone, if_neg hg]
      exact .inr fun _ => hf true n

/-- The work on a key sees to the object that it reads, if the handlers of changes do. -/
theorem heeds_process {r : Request}
    {next : r.Answer → Plan (Except StoreError (Option (Object σ τ)))} (hd : d.read k = .ask r next)
    (hx : x.object.key = k) (hr : ∀ w, (World.answer r w).2 = w ∧
      next (World.answer r w).1 = .done (.ok ((x.store w).get? k)))
    (hh : ∀ h ∈ d.remove, ∀ m t, (h m k t).Asks (Elsewhere x))
    (hc : ∀ ok n, (d.attend k (some x.object) ok).Heeds x n) (n : κ) : (d.process k).Heeds x n := by
  unfold process
  rw [hd]
  intro w hk hg
  obtain ⟨hw, hn⟩ := hr w
  rw [hx] at hg
  refine .inr ⟨by rw [hw], ?_⟩
  change (follow (next (World.answer r w).1) _).Heeds x _
  rw [hn, hg]
  exact .inr fun t => heeds_settleTombstone hh hc t _

end Handlers
end ModelTemplates
