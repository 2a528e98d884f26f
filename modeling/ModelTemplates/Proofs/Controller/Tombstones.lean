import ModelTemplates.Proofs.Controller.Processing
/-! How the work on a key deals with a tombstone: it does not end with the tombstone standing unless
the key comes back or the worker breaks off, and clears it only when every handler of removals has
done what it cannot succeed without. -/
namespace ModelTemplates

variable {α σ τ : Type}

def Plan.Needs (P : Request → Prop) : Plan (Except ReconcileError α) → Prop
  | done (.ok _) => False
  | done (.error _) => True
  | ask r next => P r ∨ ∀ a, (next a).Needs P

namespace Processing

/-- The work deals with the tombstone `o` as long as it stands: it comes to take it away, or fails.
What was dug up last is `f`. -/
def Tends (o : Object σ τ) : Processing σ τ → Option (Object σ τ) → Prop
  | ended, _ => False
  | ask _ next, f => ∀ a, (next a).Tends o f
  | clock next, f => ∀ m, (next m).Tends o f
  | own .lookUp next, _ => (next (some o)).Tends o (some o)
  | own (.clear _) _, f => f = some o
  | own .discard _, _ => True
  | own (.retry _) _, _ => True
  | own .abandon _, _ => True
  | own _ next, f => (next none).Tends o f

/-- The tombstone `o` is cleared only after a request of the kind `P` with it in hand. Whether there
was one is `n`. -/
def Attests (k : Key) (P : Request → Prop) (o : Object σ τ) :
    Processing σ τ → Option (Object σ τ) → Prop → Prop
  | ended, _, _ => True
  | ask r next, f, n => ∀ a, (next a).Attests k P o f (n ∨ P r ∧ f = some o)
  | clock next, f, n => ∀ m, (next m).Attests k P o f n
  | own .lookUp next, _, n => ∀ t, (∀ u ∈ t, Object.key u = k) → (next t).Attests k P o t n
  | own (.clear _) next, f, n => (f = some o → n) ∧ (next none).Attests k P o f n
  | own _ next, f, n => (next none).Attests k P o f n

variable {o t : Object σ τ} {f : Option (Object σ τ)} {L : Processing σ τ} {k : Key}
  {P : Request → Prop} {n n' : Prop}

theorem tends_follow {p : Plan α} {g : α → Processing σ τ} (h : ∀ a, (g a).Tends o f) :
    (follow p g).Tends o f := by
  induction p with
  | done a => exact h a
  | ask r next ih => exact fun a => ih a

theorem Attests.mono (h : L.Attests k P o f n) (hn : n → n') : L.Attests k P o f n' := by
  induction L generalizing f n n' with
  | ended => trivial
  | ask r next ih => exact fun a => ih _ (h a) (Or.imp_left hn)
  | clock next ih => exact fun m => ih m (h m) hn
  | own a next ih =>
    cases a with
    | lookUp => exact fun t ht => ih t (h t ht) hn
    | clear uid => exact ⟨fun hf => hn (h.1 hf), ih none h.2 hn⟩
    | _ => exact ih none h hn

/-- Behind a plan that succeeds there are the requests that it needs. -/
theorem attests_follow {p : Plan (Except ReconcileError α)}
    {g : Except ReconcileError α → Processing σ τ}
    (h : ∀ a n', (n → n') → (a.isOk = true → f = some o → p.Needs P → n') →
      (g a).Attests k P o f n') :
    (follow p g).Attests k P o f n := by
  induction p generalizing n with
  | done a =>
    refine h a n id fun hok _ hp => ?_
    cases a with
    | ok a => exact hp.elim
    | error e => contradiction
  | ask r next ih =>
    refine fun a => ih a fun b n' hn hb => h b n' (hn ∘ .inl) fun hok hf hp => ?_
    rcases hp with hp | hp
    · exact hn (.inr ⟨hp, hf⟩)
    · exact hb hok hf (hp a)

theorem attests_follow_any {p : Plan α} {g : α → Processing σ τ}
    (h : ∀ a n', (g a).Attests k P o f n') :
    (follow p g).Attests k P o f n := by
  induction p generalizing n with
  | done a => exact h a n
  | ask r next ih => exact fun a => ih a

end Processing

namespace Handlers

open Processing

variable {d : Handlers σ τ} {o t : Object σ τ} {f : Option (Object σ τ)} {k : Key}
  {P : Request → Prop} {n : Prop}

theorem tends_finish_false : (finish false : Processing σ τ).Tends o f := fun _ => trivial

theorem tends_afterError {e : ReconcileError} {L : Processing σ τ} (h : L.Tends o f) :
    (afterError e L).Tends o f := by
  unfold afterError
  split
  · trivial
  · exact h

theorem tends_attend (live : Option (Object σ τ)) : (d.attend k live false).Tends o f := by
  cases live with
  | none => exact tends_finish_false
  | some p =>
    unfold attend
    generalize true = ok
    induction d.change generalizing ok p with
    | nil => exact tends_finish_false
    | cons h hs ih =>
      intro m
      refine tends_follow fun a => ?_
      rcases a with e | _ | q
      · exact tends_afterError (ih _ _)
      · exact ih _ _
      · exact ih _ _

theorem tends_removeEach {g : Bool → Processing σ τ} (hg : ∀ ok, (g ok).Tends o f)
    (hs : List (Moment → Key → Object σ τ → Plan (Except ReconcileError Unit))) (ok : Bool) :
    (removeEach k t g hs ok).Tends o f := by
  induction hs generalizing ok with
  | nil => exact hg ok
  | cons h hs ih =>
    intro m
    refine tends_follow fun a => ?_
    cases a with
    | error e => exact tends_afterError (ih _)
    | ok => exact ih _

theorem tends_process (d : Handlers σ τ) (k : Key) (o : Object σ τ) (f : Option (Object σ τ)) :
    (d.process k).Tends o f := by
  refine tends_follow fun a => ?_
  cases a with
  | error e => exact tends_finish_false
  | ok live =>
    change (settleTombstone d k live (d.attend k live) (some o)).Tends o (some o)
    by_cases hg : Controller.isGone o live = true
    · simp only [settleTombstone, if_pos hg]
      refine tends_removeEach (fun ok => ?_) d.remove true
      cases ok with
      | false => exact tends_attend live
      | true => exact rfl
    · simp only [settleTombstone, if_neg hg]
      trivial

theorem attests_finish (ok : Bool) : (finish ok : Processing σ τ).Attests k P o f n := by
  cases ok with
  | false => exact fun _ => trivial
  | true => trivial

theorem attests_afterError {e : ReconcileError} {L : Processing σ τ} (h : L.Attests k P o f n) :
    (afterError e L).Attests k P o f n := by
  unfold afterError
  split
  · trivial
  · exact h

theorem attests_attend (live : Option (Object σ τ)) (removed : Bool) :
    (d.attend k live removed).Attests k P o f n := by
  cases live with
  | none => exact attests_finish removed
  | some p =>
    unfold attend
    generalize true = ok
    induction d.change generalizing ok p n with
    | nil => exact attests_finish _
    | cons h hs ih =>
      intro m
      refine attests_follow_any fun a n' => ?_
      rcases a with e | _ | q
      · exact attests_afterError (ih _ _)
      · exact ih _ _
      · exact ih _ _

/-- Every handler has succeeded when all have, and with it the requests that it needs are made. -/
theorem attests_removeEach {g : Bool → Processing σ τ}
    (hg : ∀ ok n, (t = o → ok = true → n) → (g ok).Attests k P o (some t) n)
    (hs : List (Moment → Key → Object σ τ → Plan (Except ReconcileError Unit))) (ok : Bool)
    (h : t = o → ok = true → n ∨ ∃ h ∈ hs, ∀ m, (h m k t).Needs P) :
    (removeEach k t g hs ok).Attests k P o (some t) n := by
  induction hs generalizing ok n with
  | nil =>
    exact hg ok n fun ht hok => (h ht hok).resolve_right fun ⟨_, hm, _⟩ => List.not_mem_nil hm
  | cons h' hs ih =>
    intro m
    refine attests_follow fun a n' hn hneeds => ?_
    cases a with
    | error e => exact attests_afterError (ih false fun _ hok => by contradiction)
    | ok _ =>
      refine ih ok fun ht hok => ?_
      rcases h ht hok with hdone | ⟨h'', hm, hP⟩
      · exact .inl (hn hdone)
      · rcases List.mem_cons.mp hm with rfl | hm
        · exact .inl (hneeds rfl (congrArg some ht) (hP m))
        · exact .inr ⟨h'', hm, hP⟩

/-- The work on a key clears a tombstone only after what its handlers need. -/
theorem attests_process (h : ∃ h ∈ d.remove, ∀ m, (h m o.key o).Needs P) :
    (d.process k).Attests k P o f n := by
  refine attests_follow_any fun a n' => ?_
  cases a with
  | error e => exact attests_finish false
  | ok live =>
    intro found hkey
    cases found with
    | none => exact attests_attend live true
    | some t =>
      by_cases hg : Controller.isGone t live = true
      · simp only [settleTombstone, if_pos hg]
        refine attests_removeEach (fun ok n hn => ?_) d.remove true fun ht _ => .inr ?_
        · cases ok with
          | false => exact attests_attend live false
          | true => exact ⟨fun ht => hn (Option.some.inj ht) rfl, attests_attend live true⟩
        · obtain rfl : t = o := ht
          have hk : t.key = k := hkey t rfl
          rwa [hk] at h
      · simp only [settleTombstone, if_neg hg]
        exact attests_attend live true

end Handlers

end ModelTemplates
