import Mathlib.Logic.Function.Basic
import Mathlib.Order.Basic
import ModelTemplates.Proofs.Controller.Workers
/-! Work that keeps to rules. What it may ask depends on how far it has come and on what is known by
then, and what is known only grows while others are at work. -/
namespace ModelTemplates

structure Rules (ϱ κ σ τ : Type) [Preorder κ] where
  /-- Where work begins and ends. -/
  home : ϱ
  may : ϱ → κ → Request → Prop
  /-- The stage that an answer leads to. -/
  after : ϱ → (r : Request) → r.Answer → ϱ
  /-- What is known makes the answer possible. -/
  told : κ → (r : Request) → r.Answer → Prop
  /-- An object that handlers may be shown, and that may be remembered. -/
  fit : κ → Object σ τ → Prop
  /-- A tombstone that may be found. -/
  digs : Option (Object σ τ) → Prop
  may_mono : ∀ ρ r, Monotone fun c => may ρ c r
  fit_mono : ∀ o, Monotone fun c => fit c o

variable {α β ϱ κ σ τ : Type} [Preorder κ] {R : Rules ϱ κ σ τ} {ρ : ϱ} {c c' : κ} {o : Object σ τ}

namespace Rules

/-- Where a handler may end: where it began, and what it leaves may be shown. -/
def Ends (R : Rules ϱ κ σ τ) (a : Verdict (Object σ τ)) (ρ : ϱ) (c : κ) : Prop :=
  ρ = R.home ∧ ∀ p, a = .ok (.updated p) → R.fit c p

theorem ends_unchanged : R.Ends (.ok .unchanged) R.home c := by
  refine ⟨rfl, fun p hp => ?_⟩
  have hne : Outcome.unchanged = .updated p := Except.ok.inj hp
  contradiction

theorem ends_error (e : ReconcileError) : R.Ends (.error e) R.home c := by
  refine ⟨rfl, fun p hp => ?_⟩
  contradiction

theorem ends_updated (ho : R.fit c o) : R.Ends (.ok (.updated o)) R.home c := by
  refine ⟨rfl, fun p hp => ?_⟩
  obtain rfl := Outcome.updated.inj (Except.ok.inj hp)
  exact ho

end Rules

namespace Plan

def Obeys (R : Rules ϱ κ σ τ) (post : α → ϱ → κ → Prop) : Plan α → ϱ → κ → Prop
  | done a, ρ, c => post a ρ c
  | ask r next, ρ, c =>
    R.may ρ c r ∧ ∀ a c', c ≤ c' → R.told c' r a → (next a).Obeys R post (R.after ρ r a) c'

variable {p : Plan α} {f : α → Plan β} {post post' : α → ϱ → κ → Prop}

/-- What is known at the end is no less than what was known at the beginning. -/
theorem Obeys.imp (h : p.Obeys R post ρ c) (hp : ∀ a ρ' c', c ≤ c' → post a ρ' c' → post' a ρ' c') :
    p.Obeys R post' ρ c := by
  induction p generalizing ρ c with
  | done a => exact hp a ρ c (le_refl c) h
  | ask r next ih =>
    refine ⟨h.1, fun a c' hc ha => ih a (h.2 a c' hc ha) fun b ρ' c'' hc' hb => ?_⟩
    exact hp b ρ' c'' (le_trans hc hc') hb

theorem Obeys.bind {post : β → ϱ → κ → Prop}
    (h : p.Obeys R (fun a ρ' c' => (f a).Obeys R post ρ' c') ρ c) :
    (p >>= f).Obeys R post ρ c := by
  change (p.bind f).Obeys R post ρ c
  induction p generalizing ρ c with
  | done a => exact h
  | ask r next ih => exact ⟨h.1, fun a c' hc ha => ih a (h.2 a c' hc ha)⟩

theorem obeys_request {r : Request} {post : r.Answer → ϱ → κ → Prop} (hr : R.may ρ c r)
    (h : ∀ a c', c ≤ c' → R.told c' r a → post a (R.after ρ r a) c') :
    (request r).Obeys R post ρ c :=
  ⟨hr, h⟩

theorem Obeys.commit {write : Plan (Except StoreError (Object σ τ))} {e : Event}
    (hmay : ∀ c, R.may R.home c (.publish e)) (hafter : R.after R.home (.publish e) () = R.home)
    (h : write.Obeys R (fun a ρ' c' => ρ' = R.home ∧ ∀ o, a = .ok o → R.fit c' o) ρ c) :
    (commit write (request (.publish e))).Obeys R R.Ends ρ c := by
  refine (h.imp fun a ρ' c' _ ha => ?_).bind
  obtain ⟨rfl, hfit⟩ := ha
  cases a with
  | error e => exact R.ends_error _
  | ok o =>
    refine .bind (obeys_request (hmay c') fun _ c'' hc _ => ?_)
    rw [hafter]
    exact R.ends_updated (R.fit_mono o hc (hfit o rfl))

end Plan

namespace Processing

def Obeys (R : Rules ϱ κ σ τ) : Processing σ τ → ϱ → κ → Prop
  | ended, ρ, _ => ρ = R.home
  | ask r next, ρ, c =>
    R.may ρ c r ∧ ∀ a c', c ≤ c' → R.told c' r a → (next a).Obeys R (R.after ρ r a) c'
  | clock next, ρ, c => ∀ m, (next m).Obeys R ρ c
  | own a next, ρ, c =>
    (∀ o, a = .remember o → R.fit c o) ∧ ∀ o, (a = .lookUp → R.digs o) → (next o).Obeys R ρ c

variable {L : Processing σ τ} {p : Plan α} {f : α → Processing σ τ}

theorem Obeys.mono (h : L.Obeys R ρ c) (hc : c ≤ c') : L.Obeys R ρ c' := by
  induction L generalizing ρ c c' with
  | ended => exact h
  | ask r next ih =>
    exact ⟨R.may_mono ρ r hc h.1, fun a c'' hc' ha => h.2 a c'' (le_trans hc hc') ha⟩
  | clock next ih => exact fun m => ih m (h m) hc
  | own a next ih =>
    exact ⟨fun o ho => R.fit_mono o hc (h.1 o ho), fun o ho => ih o (h.2 o ho) hc⟩

theorem obeys_follow (h : p.Obeys R (fun a ρ' c' => (f a).Obeys R ρ' c') ρ c) :
    (follow p f).Obeys R ρ c := by
  induction p generalizing ρ c with
  | done a => exact h
  | ask r next ih => exact ⟨h.1, fun a c' hc ha => ih a (h.2 a c' hc ha)⟩

/-- What the work does to the controller itself, apart from digging and remembering, is free. -/
theorem obeys_own {a : ControllerAct σ τ} {next : Option (Object σ τ) → Processing σ τ}
    (hr : ∀ o, a ≠ .remember o) (h : ∀ o, (next o).Obeys R ρ c) : (own a next).Obeys R ρ c :=
  ⟨fun o ho => absurd ho (hr o), fun o _ => h o⟩

end Processing

namespace Handlers

open Processing

variable {d : Handlers σ τ} {k : Key}

/-- A handler keeps to the rules on every object that it may be shown. -/
def Fits (R : Rules ϱ κ σ τ) (k : Key)
    (h : Moment → Key → Object σ τ → Plan (Verdict (Object σ τ))) : Prop :=
  ∀ m o c, R.fit c o → (h m k o).Obeys R R.Ends R.home c

theorem obeys_finish (ok : Bool) : (finish ok : Processing σ τ).Obeys R R.home c := by
  cases ok with
  | false => exact fun m => obeys_own (fun _ ho => by contradiction) fun _ => rfl
  | true => exact obeys_own (fun _ ho => by contradiction) fun _ => rfl

theorem obeys_afterError {e : ReconcileError} {L : Processing σ τ} (h : L.Obeys R R.home c) :
    (afterError e L).Obeys R R.home c := by
  unfold afterError
  split
  · exact obeys_own (fun _ ho => by contradiction) fun _ => rfl
  · exact h

theorem obeys_attend (hchange : ∀ h ∈ d.change, Fits R k h) (live : Option (Object σ τ))
    (hlive : ∀ o ∈ live, R.fit c o) (removed : Bool) :
    (d.attend k live removed).Obeys R R.home c := by
  cases live with
  | none => exact obeys_own (fun _ ho => by contradiction) fun _ => obeys_finish removed
  | some o =>
    unfold attend
    have ho : R.fit c o := hlive o rfl
    clear hlive
    generalize d.change = hs at hchange
    generalize true = ok
    induction hs generalizing ok o c with
    | nil =>
      refine ⟨fun p hp => ?_, fun _ _ => obeys_finish _⟩
      obtain rfl := ControllerAct.remember.inj hp
      exact ho
    | cons h hs ih =>
      rw [List.forall_mem_cons] at hchange
      intro m
      refine obeys_follow ((hchange.1 m o c ho).imp fun a ρ' c' hc ha => ?_)
      obtain ⟨rfl, hupdated⟩ := ha
      have hold : R.fit c' o := R.fit_mono o hc ho
      rcases a with e | _ | p
      · exact obeys_afterError (ih o hold hchange.2 false)
      · exact ih o hold hchange.2 ok
      · exact ih p (hupdated p rfl) hchange.2 ok

theorem obeys_removeEach {t : Object σ τ} {f : Bool → Processing σ τ}
    {hs : List (Moment → Key → Object σ τ → Plan (Except ReconcileError Unit))}
    (hh : ∀ h ∈ hs, ∀ m c, (h m k t).Obeys R (fun _ ρ _ => ρ = R.home) R.home c)
    (hf : ∀ ok, (f ok).Obeys R R.home c) (ok : Bool) :
      (removeEach k t f hs ok).Obeys R R.home c := by
  induction hs generalizing ok c with
  | nil => exact hf ok
  | cons h hs ih =>
    rw [List.forall_mem_cons] at hh
    intro m
    refine obeys_follow ((hh.1 m c).imp fun a ρ' c' hc ha => ?_)
    obtain rfl := ha
    have hlater (ok : Bool) : (removeEach k t f hs ok).Obeys R R.home c' :=
      ih hh.2 (fun ok => (hf ok).mono hc) ok
    cases a with
    | error e => exact obeys_afterError (hlater false)
    | ok _ => exact hlater ok

/-- The work on a key keeps to the rules if reading and all handlers do, those of removals on every
tombstone that may be found. -/
theorem obeys_process
    (hread : (d.read k).Obeys R (fun a ρ c' => ρ = R.home ∧ ∀ o, a = .ok (some o) →
      R.fit c' o) R.home c)
    (hchange : ∀ h ∈ d.change, Fits R k h)
    (hremove : ∀ t, R.digs (some t) →
      ∀ h ∈ d.remove, ∀ m c, (h m k t).Obeys R (fun _ ρ _ => ρ = R.home) R.home c) :
    (d.process k).Obeys R R.home c := by
  refine obeys_follow (hread.imp fun a ρ' c' hc ha => ?_)
  obtain ⟨rfl, hfit⟩ := ha
  cases a with
  | error e => exact obeys_finish false
  | ok live =>
    have hattend (removed : Bool) : (d.attend k live removed).Obeys R R.home c' :=
      obeys_attend hchange live (fun o ho => hfit o (congrArg Except.ok ho)) removed
    refine ⟨fun _ ho => by contradiction, fun tombstone hdigs => ?_⟩
    cases tombstone with
    | none => exact hattend true
    | some t =>
      simp only [settleTombstone]
      split
      · refine obeys_removeEach (hremove t (hdigs rfl)) (fun ok => ?_) true
        cases ok with
        | false => exact hattend false
        | true => exact obeys_own (fun _ ho => by contradiction) fun _ => hattend true
      · exact obeys_own (fun _ ho => by contradiction) fun _ => hattend true

end Handlers

namespace ControllerWorkers

variable {R : Key → Rules ϱ κ σ τ} {handlers : Handlers σ τ} {wiring : Controller.Wiring World σ τ}
  {b b' : ControllerWorkers σ τ} {w w' : World} {ρ : Key → ϱ} {c c' : Key → κ} {k : Key}
  {r : Request} {asked : Option (Key × Request)}

/-- Every worker keeps to the rules from the stage of its key on, and nobody works on a key that is
not at the beginning. -/
structure Obeys (R : Key → Rules ϱ κ σ τ) (b : ControllerWorkers σ τ) (ρ : Key → ϱ) (c : Key → κ) :
    Prop where
  works : ∀ job ∈ b.jobs, job.2.Obeys (R job.1) (ρ job.1) (c job.1)
  rests : ∀ k, k ∉ b.busy → ρ k = (R k).home

def staged (R : Key → Rules ϱ κ σ τ) (w : World) (ρ : Key → ϱ) : Option (Key × Request) → Key → ϱ
  | none => ρ
  | some (k, r) => Function.update ρ k ((R k).after (ρ k) r (World.answer r w).1)

theorem Obeys.mono (h : b.Obeys R ρ c) (hc : ∀ k, c k ≤ c' k) : b.Obeys R ρ c' :=
  ⟨fun job hj => (h.works job hj).mono (hc job.1), h.rests⟩

theorem Obeys.permits (h : b.Obeys R ρ c) (hs : Step handlers wiring b w (some (k, r)) b' w') :
    (R k).may (ρ k) (c k) r ∧ VersionHandlers.Free w r ∧ k ∈ b.busy := by
  generalize he : some (k, r) = asked at hs
  cases hs with
  | @turn before after j L L' q d w' hj ht =>
    cases ht with
    | @ask q next hfree =>
      obtain ⟨rfl, rfl⟩ := Prod.mk.inj (Option.some.inj he)
      have hmem : (k, Processing.ask r next) ∈ b.jobs :=
        hj ▸ List.mem_append_right _ List.mem_cons_self
      exact ⟨(h.works _ hmem).1, hfree, List.mem_map.mpr ⟨_, hmem, rfl⟩⟩
    | clock m => contradiction
    | own => contradiction
  | _ => contradiction

theorem Obeys.take {L : Processing σ τ} {d : Controller σ τ} (h : b.Obeys R ρ c) (hk : k ∉ b.busy)
    (hL : L.Obeys (R k) (R k).home (c k)) :
    (⟨d, (k, L) :: b.jobs⟩ : ControllerWorkers σ τ).Obeys R ρ c := by
  constructor
  · rw [List.forall_mem_cons]
    refine ⟨?_, h.works⟩
    change L.Obeys (R k) (ρ k) (c k)
    rwa [h.rests k hk]
  · intro j hj
    exact h.rests j fun hb => hj (List.mem_cons_of_mem _ hb)

variable {before after : List (Key × Processing σ τ)} {L L' : Processing σ τ} {d : Controller σ τ}

/-- A worker that has taken a step keeps to the rules, and so do all others. -/
theorem Obeys.turn (h : b.Obeys R ρ c) (hapart : b.busy.Nodup)
    (hj : b.jobs = before ++ (k, L) :: after) {ρ' : ϱ} (hL : L'.Obeys (R k) ρ' (c k)) :
    (⟨d, before ++ (k, L') :: after⟩ : ControllerWorkers σ τ).Obeys R
      (Function.update ρ k ρ') c := by
  constructor
  · rintro ⟨j, M⟩ hM
    have hapart' : ((before ++ (k, L') :: after).map Prod.fst).Nodup := by
      simpa only [busy, hj, List.map_append, List.map_cons] using hapart
    rcases mem_jobs hapart' hM with ⟨rfl, rfl⟩ | ⟨hne, hM⟩
    · change M.Obeys (R j) (Function.update ρ j ρ' j) (c j)
      rwa [Function.update_self]
    · change M.Obeys (R j) (Function.update ρ k ρ' j) (c j)
      rw [Function.update_of_ne hne]
      refine h.works (j, M) ?_
      rw [hj, List.mem_append, List.mem_cons]
      exact (List.mem_append.mp hM).imp_right .inr
  · intro j hb
    have hbusy : j ∉ b.busy := by
      simpa only [busy, hj, List.map_append, List.map_cons] using hb
    have hne : j ≠ k := by
      rintro rfl
      exact hb (List.mem_map.mpr ⟨_, List.mem_append_right _ List.mem_cons_self, rfl⟩)
    rw [Function.update_of_ne hne]
    exact h.rests j hbusy

theorem Obeys.done (h : b.Obeys R ρ c) (hj : b.jobs = before ++ (k, .ended) :: after) :
    (⟨d, before ++ after⟩ : ControllerWorkers σ τ).Obeys R ρ c := by
  have hhome : ρ k = (R k).home :=
    h.works (k, .ended) (hj ▸ List.mem_append_right _ List.mem_cons_self)
  have hworks := h.works
  rw [hj, List.forall_mem_append, List.forall_mem_cons] at hworks
  constructor
  · exact List.forall_mem_append.mpr ⟨hworks.1, hworks.2.2⟩
  · intro j hb
    by_cases e : j = k
    · rw [e]
      exact hhome
    · refine h.rests j fun hm => hb ?_
      simp only [busy, hj, List.map_append, List.map_cons, List.mem_append, List.mem_cons] at hm ⊢
      exact hm.imp_right fun hm => hm.resolve_left e

/-- The rules are kept step by step, by work that begins and by work that goes on. -/
theorem Obeys.step {d : Store σ τ} (h : b.Obeys R ρ c) (hs : Step handlers wiring b w asked b' w')
    (hf : b.controller.Follows d b.busy)
    (hprocess : ∀ k c, (handlers.process k).Obeys (R k) (R k).home c)
    (hdigs : ∀ k, (R k).digs (b.controller.tombstones.find? k)) (hc : ∀ k, c k ≤ c' k)
    (htold : ∀ p ∈ asked, (R p.1).told (c' p.1) p.2 (World.answer p.2 w).1) :
    b'.Obeys R (staged R w ρ asked) c' := by
  have hmono := h.mono hc
  cases hs with
  | feed _ => exact ⟨hmono.works, hmono.rests⟩
  | fire m => exact ⟨hmono.works, hmono.rests⟩
  | enqueue k => exact ⟨hmono.works, hmono.rests⟩
  | @take k q ht =>
    have hfree : k ∉ b.busy := (List.nodup_cons.mp (hf.take ht).1.queue.queue.apart).1
    exact hmono.take hfree (hprocess k (c' k))
  | @turn before after k L L' r d w' hj ht =>
    have hapart : b.busy.Nodup := hf.queue.queue.apart
    have hL : L.Obeys (R k) (ρ k) (c k) :=
      h.works (k, L) (hj ▸ List.mem_append_right _ List.mem_cons_self)
    have hstay (d : Controller σ τ) (hL' : L'.Obeys (R k) (ρ k) (c' k)) :
        (⟨d, before ++ (k, L') :: after⟩ : ControllerWorkers σ τ).Obeys R ρ c' := by
      have := hmono.turn (d := d) hapart hj hL'
      rwa [Function.update_eq_self] at this
    cases ht with
    | @ask r next hfree => exact hmono.turn hapart hj (hL.2 _ (c' k) (hc k) (htold (k, r) rfl))
    | @clock next m => exact hstay _ ((hL m).mono (hc k))
    | @own a next =>
      refine hstay _ ((hL.2 _ fun ha => ?_).mono (hc k))
      rw [ha]
      exact hdigs k
  | done hj _ => exact hmono.done hj

end ControllerWorkers
end ModelTemplates
