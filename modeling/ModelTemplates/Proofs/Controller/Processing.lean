import ModelTemplates.Manager
import ModelTemplates.Proofs.Plan.Requests
/-! The work on one key, step by step: requests to the world, looks at the clock, and what is read
and written of the controller itself. Others may act between any two steps; with nobody else at
work, it is what a controller does in one go. -/
namespace ModelTemplates

def World.siteFor (generate : ServingGenerator) : Site World :=
  { World.site with generate := generate }

/-- What the work on a key does to the controller itself. -/
inductive ControllerAct (σ τ : Type) where
  /-- Look for a tombstone. -/
  | lookUp
  /-- Remove the tombstone, unless it is by now that of another object. -/
  | clear (uid : Option Uid)
  /-- Remove the tombstone. -/
  | discard
  | remember (o : Object σ τ)
  | lose
  | forget
  | retry (m : Moment)
  /-- The worker breaks off. -/
  | abandon

inductive Processing (σ τ : Type) where
  | ended
  | ask (r : Request) (next : r.Answer → Processing σ τ)
  | clock (next : Moment → Processing σ τ)
  | own (a : ControllerAct σ τ) (next : Option (Object σ τ) → Processing σ τ)

variable {α ω σ τ : Type}

namespace ControllerAct

def act (k : Key) (c : Controller σ τ) : ControllerAct σ τ → Option (Object σ τ) × Controller σ τ
  | lookUp => (c.tombstones.find? k, c)
  | clear uid =>
    (none, if (c.tombstones.find? k).any fun t => t.metadata.uid = uid then
        { c with tombstones := c.tombstones.erase k }
      else c)
  | discard => (none, { c with tombstones := c.tombstones.erase k })
  | remember o => (none, { c with known := c.known.insert k o })
  | lose => (none, { c with known := c.known.erase k })
  | forget => (none, c.onQueue (·.forget k))
  | retry m => (none, c.retry m k)
  | abandon => (none, c.abandon k)

end ControllerAct

namespace Processing

def Asks (P : Request → Prop) : Processing σ τ → Prop
  | ended => True
  | ask r next => P r ∧ ∀ a, (next a).Asks P
  | clock next => ∀ m, (next m).Asks P
  | own _ next => ∀ o, (next o).Asks P

def follow (p : Plan α) (f : α → Processing σ τ) : Processing σ τ :=
  match p with
  | .done a => f a
  | .ask r next => .ask r fun a => follow (next a) f

def run (answer : (r : Request) → ω → r.Answer × ω) (m : Moment) (k : Key) :
    Processing σ τ → Controller σ τ → ω → Controller σ τ × ω
  | ended, c, w => (c, w)
  | ask r next, c, w => run answer m k (next (answer r w).1) c (answer r w).2
  | clock next, c, w => run answer m k (next m) c w
  | own a next, c, w => run answer m k (next (a.act k c).1) (a.act k c).2 w

theorem run_follow (answer : (r : Request) → ω → r.Answer × ω) (m : Moment) (k : Key) (p : Plan α)
    (f : α → Processing σ τ) (c : Controller σ τ) (w : ω) :
    (follow p f).run answer m k c w =
      (f (p.run answer w).1).run answer m k c (p.run answer w).2 := by
  induction p generalizing w with
  | done a => rfl
  | ask r next ih => exact ih _ _

theorem asks_follow {P : Request → Prop} {p : Plan α} {f : α → Processing σ τ} (hp : p.Asks P)
    (hf : ∀ a, (f a).Asks P) :
    (follow p f).Asks P := by
  induction p with
  | done a => exact hf a
  | ask r next ih => exact ⟨hp.1, fun a => ih a (hp.2 a)⟩

/-- What the requests of a kind keep is kept by work that asks nothing else. -/
theorem Asks.run {P : Request → Prop} {I : ω → Prop} {answer : (r : Request) → ω → r.Answer × ω}
    {L : Processing σ τ} (hL : L.Asks P) (hI : ∀ r w, P r → I w → I (answer r w).2) (m : Moment)
    (k : Key) {c : Controller σ τ} {w : ω} (h : I w) : I (L.run answer m k c w).2 := by
  induction L generalizing c w with
  | ended => exact h
  | ask r next ih => exact ih _ (hL.2 _) (hI r w hL.1 h)
  | clock next ih => exact ih m (hL m) h
  | own a next ih => exact ih _ (hL _) h

end Processing

/-- What a controller calls for the objects of its kind. -/
structure Handlers (σ τ : Type) where
  read : Key → Plan (Except StoreError (Option (Object σ τ)))
  change : List (Moment → Key → Object σ τ → Plan (Verdict (Object σ τ)))
  remove : List (Moment → Key → Object σ τ → Plan (Except ReconcileError Unit))

namespace Handlers

open Processing

def finish (ok : Bool) : Processing σ τ :=
  if ok then .own .forget fun _ => .ended else .clock fun m => .own (.retry m) fun _ => .ended

def afterError (e : ReconcileError) (L : Processing σ τ) : Processing σ τ :=
  if e = .overflow then .own .abandon fun _ => .ended else L

def changeEach (k : Key) (f : Bool → Object σ τ → Processing σ τ) :
    List (Moment → Key → Object σ τ → Plan (Verdict (Object σ τ))) → Bool → Object σ τ →
      Processing σ τ
  | [], ok, o => f ok o
  | h :: hs, ok, o => .clock fun m => follow (h m k o) fun
    | .ok .unchanged => changeEach k f hs ok o
    | .ok (.updated o) => changeEach k f hs ok o
    | .error e => afterError e (changeEach k f hs false o)

def attend (d : Handlers σ τ) (k : Key) (live : Option (Object σ τ)) (ok : Bool) : Processing σ τ :=
  match live with
  | none => .own .lose fun _ => finish ok
  | some o =>
    changeEach k (fun changed o => .own (.remember o) fun _ =>
      finish (ok && changed)) d.change true o

def removeEach (k : Key) (t : Object σ τ) (f : Bool → Processing σ τ) :
    List (Moment → Key → Object σ τ → Plan (Except ReconcileError Unit)) → Bool → Processing σ τ
  | [], ok => f ok
  | h :: hs, ok => .clock fun m => follow (h m k t) fun
    | .ok _ => removeEach k t f hs ok
    | .error e => afterError e (removeEach k t f hs false)

def settleTombstone (d : Handlers σ τ) (k : Key) (live : Option (Object σ τ))
    (f : Bool → Processing σ τ) :
    Option (Object σ τ) → Processing σ τ
  | none => f true
  | some t =>
    if Controller.isGone t live then
      removeEach k t (fun ok => if ok then .own (.clear t.metadata.uid) fun _ => f true
        else f false) d.remove true
    else .own .discard fun _ => f true

def process (d : Handlers σ τ) (k : Key) : Processing σ τ :=
  follow (d.read k) fun
    | .error _ => finish false
    | .ok live => .own .lookUp (settleTombstone d k live (attend d k live))

section Asks

variable {P : Request → Prop} {d : Handlers σ τ} {k : Key}

theorem asks_finish (ok : Bool) : (finish ok : Processing σ τ).Asks P := by
  cases ok with
  | false => exact fun _ _ => trivial
  | true => exact fun _ => trivial

theorem asks_afterError {e : ReconcileError} {L : Processing σ τ} (h : L.Asks P) :
    (afterError e L).Asks P := by
  unfold afterError
  split
  · exact fun _ => trivial
  · exact h

theorem asks_changeEach {f : Bool → Object σ τ → Processing σ τ}
    {hs : List (Moment → Key → Object σ τ → Plan (Verdict (Object σ τ)))}
    (hh : ∀ h ∈ hs, ∀ m o, (h m k o).Asks P) (hf : ∀ ok o, (f ok o).Asks P) (ok : Bool)
    (o : Object σ τ) : (changeEach k f hs ok o).Asks P := by
  induction hs generalizing ok o with
  | nil => exact hf ok o
  | cons h hs ih =>
    rw [List.forall_mem_cons] at hh
    intro m
    refine asks_follow (hh.1 m o) fun a => ?_
    rcases a with e | _ | p
    · exact asks_afterError (ih hh.2 _ _)
    · exact ih hh.2 _ _
    · exact ih hh.2 _ _

theorem asks_removeEach {t : Object σ τ} {f : Bool → Processing σ τ}
    {hs : List (Moment → Key → Object σ τ → Plan (Except ReconcileError Unit))}
    (hh : ∀ h ∈ hs, ∀ m, (h m k t).Asks P) (hf : ∀ ok, (f ok).Asks P) (ok : Bool) :
    (removeEach k t f hs ok).Asks P := by
  induction hs generalizing ok with
  | nil => exact hf ok
  | cons h hs ih =>
    rw [List.forall_mem_cons] at hh
    intro m
    refine asks_follow (hh.1 m) fun a => ?_
    cases a with
    | error e => exact asks_afterError (ih hh.2 _)
    | ok => exact ih hh.2 _

/-- The work on a key asks only what reading and the handlers ask. -/
theorem asks_process (hread : (d.read k).Asks P) (hchange : ∀ h ∈ d.change, ∀ m o, (h m k o).Asks P)
    (hremove : ∀ h ∈ d.remove, ∀ m t, (h m k t).Asks P) : (d.process k).Asks P := by
  have hattend (live : Option (Object σ τ)) (ok : Bool) : (d.attend k live ok).Asks P := by
    cases live with
    | none => exact fun _ => asks_finish ok
    | some o =>
      refine asks_changeEach hchange ?_ true o
      exact fun _ _ _ => asks_finish _
  refine asks_follow hread fun a => ?_
  cases a with
  | error e => exact asks_finish false
  | ok live =>
    intro tombstone
    cases tombstone with
    | none => exact hattend live true
    | some t =>
      by_cases hg : Controller.isGone t live = true
      · simp only [settleTombstone, if_pos hg]
        refine asks_removeEach (fun h hm m => hremove h hm m t) (fun ok => ?_) true
        cases ok with
        | false => exact hattend live false
        | true => exact fun _ => hattend live true
      · simp only [settleTombstone, if_neg hg]
        exact fun _ => hattend live true

end Asks

structure Wires (d : Handlers σ τ) (answer : (r : Request) → ω → r.Answer × ω)
    (wiring : Controller.Wiring ω σ τ) :
    Prop where
  read : ∀ k, wiring.read k = (d.read k).run answer
  change : wiring.change = d.change.map fun h m k o => (h m k o).run answer
  remove : wiring.remove = d.remove.map fun h m k o => (h m k o).run answer

variable {d : Handlers σ τ} {answer : (r : Request) → ω → r.Answer × ω}
  {wiring : Controller.Wiring ω σ τ}

theorem run_finish (ok : Bool) (m : Moment) (k : Key) (c : Controller σ τ) (w : ω) :
    (finish ok).run answer m k c w = (c.conclude ok m k, w) := by
  cases ok <;> rfl

theorem run_changeEach (f : Bool → Object σ τ → Processing σ τ) (m : Moment) (k : Key)
    (hs : List (Moment → Key → Object σ τ → Plan (Verdict (Object σ τ)))) (ok : Bool)
    (o : Object σ τ) (c : Controller σ τ) (w : ω) :
    (changeEach k f hs ok o).run answer m k c w =
      let p := Controller.changeAll m k (hs.map fun h m k o => (h m k o).run answer) ok o w
      p.1.elim (c.abandon k, p.2) fun r => (f r.1 r.2).run answer m k c p.2 := by
  induction hs generalizing ok o w with
  | nil => rfl
  | cons h hs ih =>
    simp only [changeEach, Processing.run, run_follow, List.map_cons, Controller.changeAll]
    rcases (h m k o).run answer w with ⟨(e | _ | p), w'⟩
    · dsimp only [afterError]
      split
      · rfl
      · exact ih _ _ _
    · exact ih _ _ _
    · exact ih _ _ _

theorem run_removeEach (t : Object σ τ) (f : Bool → Processing σ τ) (m : Moment) (k : Key)
    (hs : List (Moment → Key → Object σ τ → Plan (Except ReconcileError Unit))) (ok : Bool)
    (c : Controller σ τ) (w : ω) :
    (removeEach k t f hs ok).run answer m k c w =
      let p := Controller.removeAll m k t (hs.map fun h m k o => (h m k o).run answer) ok w
      p.1.elim (c.abandon k, p.2) fun r => (f r).run answer m k c p.2 := by
  induction hs generalizing ok w with
  | nil => rfl
  | cons h hs ih =>
    simp only [removeEach, Processing.run, run_follow, List.map_cons, Controller.removeAll]
    rcases (h m k t).run answer w with ⟨(e | _), w'⟩
    · dsimp only [afterError]
      split
      · rfl
      · exact ih _ _
    · exact ih _ _

theorem run_attend (hw : d.Wires answer wiring) (m : Moment) (k : Key)
    (live : Option (Object σ τ)) (ok : Bool) (c : Controller σ τ) (w : ω) :
    (d.attend k live ok).run answer m k c w =
      let p := Controller.settleLive wiring m k live c w
      (p.1.elim (p.2.1.abandon k) fun changed => p.2.1.conclude (ok && changed) m k, p.2.2) := by
  cases live with
  | none =>
    simp only [attend, Processing.run, run_finish, Controller.settleLive, Option.elim_some,
      Bool.and_true]
    rfl
  | some o =>
    simp only [attend, run_changeEach, Processing.run, run_finish, Controller.settleLive, hw.change]
    generalize Controller.changeAll m k _ true o w = p
    obtain ⟨_ | ⟨changed, o⟩, w⟩ := p <;> rfl

theorem run_settleTombstone (hw : d.Wires answer wiring) (m : Moment) (k : Key)
    (live : Option (Object σ τ)) (f : Bool → Processing σ τ) (c : Controller σ τ) (w : ω) :
    (settleTombstone d k live f (c.tombstones.find? k)).run answer m k c w =
      let p := Controller.settleTombstone wiring m k live c w
      p.1.elim (p.2.1.abandon k, p.2.2) fun removed => (f removed).run answer m k p.2.1 p.2.2 := by
  unfold Controller.settleTombstone
  generalize ht : c.tombstones.find? k = tombstone
  cases tombstone with
  | none => rfl
  | some t =>
    simp only [settleTombstone]
    split
    · simp only [run_removeEach, hw.remove]
      generalize Controller.removeAll m k t _ true w = p
      obtain ⟨_ | _ | _, w⟩ := p
      · rfl
      · rfl
      · simp only [if_true, Processing.run, ControllerAct.act, ht, Option.any_some, decide_true,
          Option.elim_some]
    · rfl

/-- With nobody else there, the steps of the work on a key are those of the controller. -/
theorem run_process (hw : d.Wires answer wiring) (m : Moment) (k : Key)
    (c : Controller σ τ) (w : ω) :
    (d.process k).run answer m k c w = Controller.process wiring m k c w := by
  simp only [process, run_follow, Controller.process, hw.read]
  rcases (d.read k).run answer w with ⟨e | live, w⟩
  · exact run_finish _ _ _ _ _
  · simp only [Processing.run, ControllerAct.act, run_settleTombstone hw, run_attend hw]
    rcases Controller.settleTombstone wiring m k live c w with ⟨_ | removed, c, w⟩
    · rfl
    · simp only [Option.elim_some]
      rcases Controller.settleLive wiring m k live c w with ⟨_ | changed, c, w⟩ <;> rfl

theorem run_workOne? (hw : d.Wires answer wiring) (m : Moment) (c : Controller σ τ) (w : ω) :
    Controller.workOne? wiring m c w = c.queue.queue.take?.map fun p =>
      let r := (d.process p.1).run answer m p.1 (c.onQueue fun _ => p.2) w
      (r.1.finish p.1, r.2) := by
  unfold Controller.workOne?
  cases c.queue.queue.take? with
  | none => rfl
  | some p => simp only [Option.map_some, run_process hw]; rfl

end Handlers
end ModelTemplates
