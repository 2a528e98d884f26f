import ModelTemplates.Proofs.Controller.Filing
import ModelTemplates.Proofs.Controller.Rest
import ModelTemplates.Proofs.Template.Removal
/-! What becomes of deletions that the watch does not tell of, because their events are dropped. A
new list makes up for them as far as it can. -/
namespace ModelTemplates

variable {σ τ : Type}

inductive Cause (σ τ : Type) where
  /-- An event of the watch, at its place. -/
  | told (place : Nat) (e : WatchEvent σ τ)
  /-- A new list. -/
  | listed (os : List (Object σ τ))
  /-- A step of the work on a key. -/
  | worked (k : Key) (a : ControllerAct σ τ)

/-- The object is put out by another one of its key, or by word that there is none. -/
inductive Displaces (o : Object σ τ) : Cause σ τ → Prop where
  | applied {place : Nat} {p : Object σ τ} (hk : p.key = o.key)
      (hu : p.metadata.uid ≠ o.metadata.uid) :
      Displaces o (.told place (.applied p))
  | deleted {place : Nat} {p : Object σ τ} (hk : p.key = o.key) :
      Displaces o (.told place (.deleted p))
  | listed {os : List (Object σ τ)} {p : Object σ τ} (hp : p ∈ os) (hk : p.key = o.key)
      (hu : p.metadata.uid ≠ o.metadata.uid) : Displaces o (.listed os)
  /-- The list put up a tombstone of the object itself. -/
  | vacant {os : List (Object σ τ)} (hos : ∀ p ∈ os, p.key ≠ o.key) : Displaces o (.listed os)
  | remembered {p : Object σ τ} (hk : p.key = o.key) (hu : p.metadata.uid ≠ o.metadata.uid) :
      Displaces o (.worked o.key (.remember p))
  /-- A worker has found nothing under the key, and no tombstone is put up. -/
  | lost : Displaces o (.worked o.key .lose)

namespace Displaces

variable {c : Controller σ τ} {o : Object σ τ} {k : Key}

open Controller

theorem of_observe {p place : Nat} {e : WatchEvent σ τ} (hbefore : c.knows o = true)
    (hafter : ({ c with position := p }.observe e).knows o = false) :
    Displaces o (.told place e) := by
  cases e with
  | applied q =>
    have hfind : ({ c with position := p }.observe (.applied q)).known.find? o.key =
        if o.key = q.key then some q else c.known.find? o.key := Table.find?_insert _ _ _ _
    by_cases hk : o.key = q.key
    · refine .applied hk.symm fun hu => ?_
      rw [if_pos hk] at hfind
      simp [knows, hfind, hu] at hafter
    · rw [knows_congr (hfind.trans (if_neg hk)), hbefore] at hafter
      contradiction
  | deleted q =>
    have hfind : ({ c with position := p }.observe (.deleted q)).known.find? o.key =
        if o.key = q.key then none else c.known.find? o.key := Table.find?_erase _ _ _
    by_cases hk : o.key = q.key
    · exact .deleted hk.symm
    · rw [knows_congr (hfind.trans (if_neg hk)), hbefore] at hafter
      contradiction

theorem of_reconcileWith {now : Timestamp} {os : List (Object σ τ)}
    (hafter : (c.reconcileWith now os).knows o = false) : Displaces o (.listed os) := by
  cases hl : os.reverse.find? fun l => l.key = o.key with
  | some l =>
    have hkey : l.key = o.key := by simpa using List.find?_some hl
    refine .listed (List.mem_reverse.mp (List.mem_of_find?_eq_some hl)) hkey fun hu => ?_
    simp [knows, known_reconcileWith, hl, hu] at hafter
  | none =>
    refine .vacant fun p hp => ?_
    simpa using List.find?_eq_none.mp hl p (List.mem_reverse.mpr hp)

theorem of_act {a : ControllerAct σ τ} (ha : ∀ p, a = .remember p → p.key = k)
    (hbefore : c.knows o = true) (hafter : (a.act k c).2.knows o = false) :
    Displaces o (.worked k a) := by
  cases a with
  | remember p =>
    have hfind : ((ControllerAct.remember p).act k c).2.known.find? o.key = if o.key = k then some p
      else c.known.find? o.key :=
      Table.find?_insert _ _ _ _
    by_cases hk : o.key = k
    · subst hk
      refine .remembered (ha p rfl) fun hu => ?_
      rw [if_pos rfl] at hfind
      simp [knows, hfind, hu] at hafter
    · rw [knows_congr (hfind.trans (if_neg hk)), hbefore] at hafter
      contradiction
  | lose =>
    have hfind : (ControllerAct.lose.act k c).2.known.find? o.key = if o.key = k then none
      else c.known.find? o.key :=
      Table.find?_erase _ _ _
    by_cases hk : o.key = k
    · subst hk
      exact .lost
    · rw [knows_congr (hfind.trans (if_neg hk)), hbefore] at hafter
      contradiction
  | clear uid =>
    have hsame : ((ControllerAct.clear uid).act k c).2.known = c.known := by
      simp only [ControllerAct.act]
      split <;> rfl
    rw [knows_congr (congrArg (Table.find? · o.key) hsame), hbefore] at hafter
    contradiction
  | retry m =>
    have hsame : ((ControllerAct.retry m).act k c).2.known = c.known := c.retry_known m k
    rw [knows_congr (congrArg (Table.find? · o.key) hsame), hbefore] at hafter
    contradiction
  | _ => exact absurd (hbefore.symm.trans hafter) (by decide)

end Displaces

/-- A controller with its workers, and what has happened to objects that it knew when they were
deleted. -/
structure ControllerRelists (σ τ : Type) where
  workers : ControllerWorkers σ τ
  world : World
  feed : Feed σ τ
  /-- The objects that were known when they were deleted, each with the place in the watch of the
  event that tells of it. -/
  knownDeleted : List (Nat × Object σ τ)
  /-- Those of them whose event was dropped since the last list was queued. -/
  dropped : List (Nat × Object σ τ)
  /-- Those of them that were put out of what is known, and by what. -/
  displaced : List ((Nat × Object σ τ) × Cause σ τ)

namespace ControllerRelists

open Controller ControllerDeletions

section Runs

variable {handlers : Handlers σ τ} {wiring : Wiring World σ τ} {store : World → Store σ τ}
  {s s' : ControllerRelists σ τ} {w : World} {k : Key} {before after : List (Key × Processing σ τ)}

def opening (wiring : Wiring World σ τ) (retry : RetryPolicy) (w : World) : ControllerRelists σ τ :=
  ⟨⟨{ Controller.empty retry with position := (wiring.watch w).subscribe }, []⟩, w,
    .missed, [], [], []⟩

/-- What a request takes away and is known, with the place of the event that will tell of it. -/
def leavingKnown [DecidableEq σ] (s : ControllerRelists σ τ) (d : Store σ τ) (r : Store.Call σ τ) :
    List (Nat × Object σ τ) :=
  ((d.leaving r).filter s.workers.controller.knows).map (d.watch.sent, ·)

def go (s : ControllerRelists σ τ) (b : ControllerWorkers σ τ) (cause : Cause σ τ) :
    ControllerRelists σ τ :=
  { s with
    workers := b
    displaced :=
      (s.knownDeleted.filter fun p => s.workers.controller.knows p.2 &&
        !b.controller.knows p.2).map (·, cause) ++
      s.displaced }

def follow (wiring : Wiring World σ τ) (now : Timestamp) (s : ControllerRelists σ τ) :
    ControllerRelists σ τ :=
  match s.feed with
  | .following =>
    match (wiring.watch s.world).receive s.workers.controller.position with
    | (.item e, p) =>
      s.go { s.workers with controller := { s.workers.controller with position := p }.observe e }
        (.told s.workers.controller.position e)
    | (.lagged _, p) =>
      { s with
        workers := { s.workers with controller := { s.workers.controller with position := p } }
        feed := .missed
        dropped := s.knownDeleted.filter fun q => s.workers.controller.position ≤ q.1 ∧ q.1 < p }
    | _ => s
  | .missed =>
    match wiring.list s.world with
    | (.ok os, w) => { s with world := w, feed := .listed os }
    | _ => s
  | .listed os =>
    { s.go { s.workers with controller := s.workers.controller.reconcileWith now os }
      (.listed os) with
      feed := .following
      dropped := [] }

/-- A client's request, a write that others make to the store or elsewhere, or a step of the
controller or of one of its workers. Others may come in between any two steps, also while the
controller lists its objects. -/
inductive Step [DecidableEq σ] (handlers : Handlers σ τ) (wiring : Wiring World σ τ)
    (store : World → Store σ τ) (s : ControllerRelists σ τ) : ControllerRelists σ τ → Prop where
  | client (r : Store.Call σ τ) {w : World} (hw : store w = (store s.world).serve r) :
      Step handlers wiring store s
        { s with world := w, knownDeleted := s.leavingKnown (store s.world) r ++ s.knownDeleted }
  | elsewhere {w : World} (hw : store w = store s.world ∨ ∃ o, store w = (store s.world).put o) :
      Step handlers wiring store s { s with world := w }
  | follow (now : Timestamp) : Step handlers wiring store s (s.follow wiring now)
  | fire (m : Moment) :
      Step handlers wiring store s { s with workers.controller := s.workers.controller.fire m }
  | enqueue (k : Key) :
      Step handlers wiring store s { s with workers.controller := s.workers.controller.enqueue k }
  | take {k : Key} {q : WorkQueue} (ht : s.workers.controller.queue.queue.take? = some (k, q)) :
      Step handlers wiring store s
        { s with
          workers :=
            ⟨s.workers.controller.onQueue fun _ => q, (k, handlers.process k) :: s.workers.jobs⟩ }
  | ask {before after : List (Key × Processing σ τ)} {k : Key} {r : Request}
      {next : r.Answer → Processing σ τ}
      (hj : s.workers.jobs = before ++ (k, .ask r next) :: after)
      (hfree : VersionHandlers.Free s.world r) :
      Step handlers wiring store s
        { s with
          workers := ⟨s.workers.controller, before ++ (k, next (World.answer r s.world).1) :: after⟩
          world := (World.answer r s.world).2 }
  | clock {before after : List (Key × Processing σ τ)} {k : Key}
      {next : Moment → Processing σ τ} (m : Moment)
      (hj : s.workers.jobs = before ++ (k, .clock next) :: after) :
      Step handlers wiring store s
        { s with workers := ⟨s.workers.controller, before ++ (k, next m) :: after⟩ }
  | own {before after : List (Key × Processing σ τ)} {k : Key} {a : ControllerAct σ τ}
      {next : Option (Object σ τ) → Processing σ τ}
      (hj : s.workers.jobs = before ++ (k, .own a next) :: after) :
      Step handlers wiring store s
        (s.go ⟨(a.act k s.workers.controller).2,
          before ++ (k, next (a.act k s.workers.controller).1) :: after⟩
          (.worked k a))
  /-- A key stays with a worker that broke off. -/
  | done {before after : List (Key × Processing σ τ)} {k : Key}
      (hj : s.workers.jobs = before ++ (k, .ended) :: after)
      (hleft : k ∉ s.workers.controller.abandoned) :
      Step handlers wiring store s
        { s with workers := ⟨s.workers.controller.onQueue (·.done k), before ++ after⟩ }

def Reachable [DecidableEq σ] (handlers : Handlers σ τ) (wiring : Wiring World σ τ)
    (store : World → Store σ τ) (s : ControllerRelists σ τ) : Prop :=
  ∃ retry w, (store w).Keyed ∧ (store w).watch.kept.length ≤ (store w).watch.sent ∧
    Relation.ReflTransGen (Step handlers wiring store) (opening wiring retry w) s

/-- Every object that was known when it was deleted is still known, or has been put out by something
that is on record. -/
structure Sound (store : World → Store σ τ) (s : ControllerRelists σ τ) : Prop where
  keyed : (store s.world).Keyed
  follows : s.workers.controller.Follows (store s.world) s.workers.busy
  filed : s.workers.controller.Filed
  works : ∀ job ∈ s.workers.jobs, job.2.Files (fun w => (store w).Keyed) job.1
  traced : ∀ p ∈ s.knownDeleted, s.workers.controller.knows p.2 = true ∨
    ∃ cause, (p, cause) ∈ s.displaced
  caused : ∀ p cause, (p, cause) ∈ s.displaced → Displaces p.2 cause
  read : ∀ p place e, (p, .told place e) ∈ s.displaced → place < s.workers.controller.position
  whole : s.feed = .following → s.dropped = []
  early : ∀ p ∈ s.dropped, p ∈ s.knownDeleted ∧
    ∀ place e, (p, .told place e) ∈ s.displaced → place < p.1

theorem Sound.still (h : s.Sound store) {b : ControllerWorkers σ τ} (hkeyed : (store w).Keyed)
    (hfollows : b.controller.Follows (store w) b.busy)
    (hknown : b.controller.known = s.workers.controller.known)
    (hposition : b.controller.position = s.workers.controller.position)
    (hworks : ∀ job ∈ b.jobs, job.2.Files (fun w => (store w).Keyed) job.1) :
    ({ s with workers := b, world := w } : ControllerRelists σ τ).Sound store := by
  have hknows (o : Object σ τ) : b.controller.knows o = s.workers.controller.knows o :=
    knows_congr (congrArg (Table.find? · o.key) hknown)
  refine
    { h with
      keyed := hkeyed
      follows := hfollows
      works := hworks
      filed := ?_
      traced := ?_
      read := ?_ }
  · intro k o ho
    exact h.filed k o (hknown ▸ ho)
  · intro p hp
    exact (h.traced p hp).imp_left (hknows p.2).trans
  · intro p place e hp
    exact Nat.lt_of_lt_of_eq (h.read p place e hp) hposition.symm

theorem Sound.go (h : s.Sound store) {b : ControllerWorkers σ τ} {cause : Cause σ τ}
    (hfollows : b.controller.Follows (store s.world) b.busy) (hfiled : b.controller.Filed)
    (hworks : ∀ job ∈ b.jobs, job.2.Files (fun w => (store w).Keyed) job.1)
    (hposition : s.workers.controller.position ≤ b.controller.position)
    (hcause : ∀ o, s.workers.controller.knows o = true → b.controller.knows o = false →
      Displaces o cause)
    (htold : ∀ place e, cause = .told place e → place < b.controller.position ∧ s.dropped = []) :
    (s.go b cause).Sound store := by
  have hnew : ∀ p reason, (p, reason) ∈ (s.go b cause).displaced → (p, reason) ∈ s.displaced ∨
      reason = cause ∧ s.workers.controller.knows p.2 = true ∧ b.controller.knows p.2 = false := by
    intro p reason hp
    rcases List.mem_append.mp hp with hp | hp
    · obtain ⟨q, hq, he⟩ := List.mem_map.mp hp
      obtain ⟨rfl, rfl⟩ := Prod.mk.inj he
      obtain ⟨-, hq⟩ := List.mem_filter.mp hq
      simp only [Bool.and_eq_true, Bool.not_eq_true'] at hq
      exact .inr ⟨rfl, hq⟩
    · exact .inl hp
  refine { h with
    follows := hfollows
    filed := hfiled
    works := hworks
    traced := ?_
    caused := ?_
    read := ?_
    early := ?_ }
  · intro p hp
    rcases h.traced p hp with hk | ⟨reason, hr⟩
    · cases hb : b.controller.knows p.2 with
      | true => exact .inl hb
      | false =>
        refine .inr ⟨cause,
          List.mem_append_left _ (List.mem_map_of_mem (List.mem_filter.mpr ⟨hp, ?_⟩))⟩
        rw [hk, hb]
        rfl
    · exact .inr ⟨reason, List.mem_append_right _ hr⟩
  · intro p reason hp
    rcases hnew p reason hp with hp | ⟨rfl, hbefore, hafter⟩
    · exact h.caused p reason hp
    · exact hcause p.2 hbefore hafter
  · intro p place e hp
    rcases hnew p _ hp with hp | ⟨he, -⟩
    · exact Nat.lt_of_lt_of_le (h.read p place e hp) hposition
    · exact (htold place e he.symm).1
  · intro p hp
    obtain ⟨hknown, hearly⟩ := h.early p hp
    refine ⟨hknown, fun place e he => ?_⟩
    rcases hnew p _ he with he | ⟨hcause, -⟩
    · exact hearly place e he
    · change p ∈ s.dropped at hp
      rw [(htold place e hcause.symm).2] at hp
      exact absurd hp List.not_mem_nil

theorem Sound.forall_jobs (h : s.Sound store) {L L' : Processing σ τ}
    (hj : s.workers.jobs = before ++ (k, L) :: after)
    (hL : L.Files (fun w => (store w).Keyed) k → L'.Files (fun w => (store w).Keyed) k) :
    ∀ job ∈ before ++ (k, L') :: after, job.2.Files (fun w => (store w).Keyed) job.1 := by
  have hworks := h.works
  rw [hj, List.forall_mem_append, List.forall_mem_cons] at hworks
  rw [List.forall_mem_append, List.forall_mem_cons]
  exact ⟨hworks.1, hL hworks.2.1, hworks.2.2⟩

theorem Sound.event (h : s.Sound store) (hs : wiring.Serves store) {e : WatchEvent σ τ} {p : Nat}
    (hf : s.feed = .following)
    (hr : (wiring.watch s.world).receive s.workers.controller.position = (.item e, p)) :
    (s.go { s.workers with controller := { s.workers.controller with position := p }.observe e }
      (.told s.workers.controller.position e)).Sound store := by
  rw [hs.watch] at hr
  have hnext : p = s.workers.controller.position + 1 := Channel.receive_item_next hr
  obtain ⟨hfollows, -⟩ := h.follows.observe hr
  obtain ⟨-, hposition, -⟩ := observe_eq { s.workers.controller with position := p } e
  refine h.go hfollows ?_ h.works ?_ ?_ ?_
  · exact Filed.observe (c := { s.workers.controller with position := p }) h.filed e
  · rw [hposition, hnext]
    exact Nat.le_succ _
  · exact fun o hbefore hafter => .of_observe hbefore hafter
  · intro place e' he
    obtain ⟨rfl, rfl⟩ := Cause.told.inj he
    rw [hposition, hnext]
    exact ⟨Nat.lt_succ_self _, h.whole hf⟩

theorem Sound.lag (h : s.Sound store) (hs : wiring.Serves store) {missed p : Nat}
    (hr : (wiring.watch s.world).receive s.workers.controller.position = (.lagged missed, p)) :
    ({ s with
      workers := { s.workers with controller := { s.workers.controller with position := p } }
      feed := .missed
      dropped := s.knownDeleted.filter fun q => s.workers.controller.position ≤ q.1 ∧
        q.1 < p } : ControllerRelists σ τ).Sound store := by
  rw [hs.watch] at hr
  have hnext : s.workers.controller.position ≤ p := Nat.le_of_lt (Channel.receive_lagged_lt hr)
  refine { h with follows := ?_, read := ?_, whole := fun h => by contradiction, early := ?_ }
  · exact ⟨h.follows.queue, Channel.receive_lagged hr h.follows.watch, h.follows.abandoned⟩
  · intro q place e hq
    exact Nat.lt_of_lt_of_le (h.read q place e hq) hnext
  · intro q hq
    obtain ⟨hknown, hq⟩ := List.mem_filter.mp hq
    obtain ⟨hplace, -⟩ := of_decide_eq_true hq
    exact ⟨hknown, fun place e he => Nat.lt_of_lt_of_le (h.read q place e he) hplace⟩

theorem Sound.queue (h : s.Sound store) (now : Timestamp) (os : List (Object σ τ)) :
    ({ s.go { s.workers with controller := s.workers.controller.reconcileWith now os }
      (.listed os) with
      feed := .following
      dropped := [] } : ControllerRelists σ τ).Sound store := by
  have hgo :
      (s.go { s.workers with controller := s.workers.controller.reconcileWith now os }
        (.listed os)).Sound store := by
    refine h.go (h.follows.reconcileWith now os).1 (h.filed.reconcileWith now os) h.works ?_ ?_ ?_
    · exact Nat.le_of_eq (reconcileWith_position s.workers.controller now os).symm
    · exact fun o _ hafter => .of_reconcileWith hafter
    · exact fun _ _ h => by contradiction
  exact { hgo with whole := fun _ => rfl, early := fun _ h => absurd h List.not_mem_nil }

theorem Sound.follow (h : s.Sound store) (hs : wiring.Serves store) (now : Timestamp) :
    (s.follow wiring now).Sound store := by
  unfold ControllerRelists.follow
  split
  · next hf =>
    split
    · next e p hr => exact h.event hs hf hr
    · next missed p hr => exact h.lag hs hr
    · exact h
  · rw [hs.list]
    exact { h with whole := fun h => by contradiction }
  · next os hf => exact h.queue now os

theorem sound_opening (hs : wiring.Serves store) (retry : RetryPolicy) (hk : (store w).Keyed)
    (hkept : (store w).watch.kept.length ≤ (store w).watch.sent) :
    (opening wiring retry w).Sound store := by
  constructor
  · exact hk
  · refine ⟨TimedQueue.orderly_empty retry, ?_, fun _ h => absurd h List.not_mem_nil⟩
    change (store w).watch.Followed (wiring.watch w).subscribe
    rw [hs.watch]
    exact Channel.followed_subscribe hkept
  · intro k o ho
    contradiction
  · exact fun _ h => absurd h List.not_mem_nil
  · exact fun _ h => absurd h List.not_mem_nil
  · exact fun _ _ h => absurd h List.not_mem_nil
  · exact fun _ _ _ h => absurd h List.not_mem_nil
  · exact fun _ => rfl
  · exact fun _ h => absurd h List.not_mem_nil

variable [DecidableEq σ]

theorem Sound.client (h : s.Sound store) {r : Store.Call σ τ}
    (hw : store w = (store s.world).serve r) :
    ({ s with world := w, knownDeleted := s.leavingKnown (store s.world) r ++ s.knownDeleted } :
      ControllerRelists σ τ).Sound store := by
  have hm : (store s.world).Moves (store w) := by
    rw [hw]
    exact (Store.served h.keyed r).moves
  refine {
    h with keyed := hm.keyed h.keyed, follows := h.follows.moves hm, traced := ?_, early := ?_ }
  · intro p hp
    rcases List.mem_append.mp hp with hp | hp
    · obtain ⟨o, ho, rfl⟩ := List.mem_map.mp hp
      exact .inl (List.mem_filter.mp ho).2
    · exact h.traced p hp
  · intro p hp
    obtain ⟨hknown, hearly⟩ := h.early p hp
    exact ⟨List.mem_append_right _ hknown, hearly⟩

theorem Sound.step (h : s.Sound store) (ht : Tracks wiring store)
    (hd : ∀ k, (handlers.process k).Files (fun w => (store w).Keyed) k)
    (hs : Step handlers wiring store s s') :
    s'.Sound store := by
  cases hs with
  | client r hw => exact h.client hw
  | @elsewhere w hw =>
    have hm : (store s.world).Moves (store w) := by
      rcases hw with he | ⟨o, he⟩
      · rw [he]
        exact .still
      · rw [he]
        exact Store.moves_put _ o
    exact h.still (hm.keyed h.keyed) (h.follows.moves hm) rfl rfl h.works
  | follow now => exact h.follow ht.serves now
  | fire m => exact h.still h.keyed (h.follows.fire m) rfl rfl h.works
  | enqueue k => exact h.still h.keyed (h.follows.addAll [k]) rfl rfl h.works
  | @take k q htake =>
    exact h.still h.keyed (h.follows.take htake).1 rfl rfl
      (List.forall_mem_cons.mpr ⟨hd k, h.works⟩)
  | @ask before after k r next hj hfree =>
    have hm := ht.moves r s.world
    refine h.still (hm.keyed h.keyed) ?_ rfl rfl (h.forall_jobs hj fun hL => hL.ask h.keyed)
    rw [ControllerWorkers.busy_turn hj]
    exact h.follows.moves hm
  | @clock before after k next m hj =>
    refine h.still h.keyed ?_ rfl rfl (h.forall_jobs hj fun hL => hL m)
    rw [ControllerWorkers.busy_turn hj]
    exact h.follows
  | @own before after k a next hj =>
    have hL := h.works (k, .own a next) (hj ▸ List.mem_append_right _ List.mem_cons_self)
    refine h.go ?_ (h.filed.act hL.1) (h.forall_jobs hj fun hL => hL.own _) ?_ ?_
      fun _ _ h => nomatch h
    · rw [ControllerWorkers.busy_turn hj]
      exact (h.follows.act (ControllerWorkers.mem_busy hj) a).1
    · rw [act_position]
    · exact fun o hbefore hafter => .of_act hL.1 hbefore hafter
  | @done before after k hj hleft =>
    have hfollows := h.follows
    have hworks := h.works
    rw [ControllerWorkers.busy, hj, List.map_append, List.map_cons] at hfollows
    rw [hj, List.forall_mem_append, List.forall_mem_cons] at hworks
    refine h.still h.keyed ?_ rfl rfl (List.forall_mem_append.mpr ⟨hworks.1, hworks.2.2⟩)
    have hdone := hfollows.done hleft
    rwa [← List.map_append] at hdone

theorem Reachable.sound (h : Reachable handlers wiring store s) (ht : Tracks wiring store)
    (hd : ∀ k, (handlers.process k).Files (fun w => (store w).Keyed) k) : s.Sound store := by
  obtain ⟨retry, w, hk, hkept, hrun⟩ := h
  induction hrun with
  | refl => exact sound_opening ht.serves retry hk hkept
  | tail _ hs ih => exact ih.step ht hd hs

/-- Whatever is listed is followed as the events would be that the watch has dropped: each missing
object is deleted, and each listed one is there. Of the objects that were known when they were
deleted, and whose event was dropped, just those are missing that are still known while nothing is
listed under their key. What is missing has a tombstone then, and its key is queued. What is not
known any more was put out before its event could come. -/
theorem dropped_missing_iff (ht : Tracks wiring store)
    (hd : ∀ k, (handlers.process k).Files (fun w => (store w).Keyed) k)
    (h : Reachable handlers wiring store s) (now : Timestamp) (os : List (Object σ τ)) {place : Nat}
      {o : Object σ τ} (ho : (place, o) ∈ s.dropped) :
    s.workers.controller.reconcileWith now os =
        ((s.workers.controller.missing now os).map WatchEvent.deleted ++
          os.map WatchEvent.applied).foldl observe
          s.workers.controller ∧
      ((∃ t ∈ s.workers.controller.missing now os, t.key = o.key ∧
        t.metadata.uid = o.metadata.uid) ↔ s.workers.controller.knows o = true ∧
          ∀ l ∈ os, l.key ≠ o.key) ∧
      (∀ t ∈ s.workers.controller.missing now os,
        (s.workers.controller.reconcileWith now os).tombstones.find? t.key = some t ∧
          (s.workers.controller.reconcileWith now os).known.find? t.key = none ∧
          t.key ∈ (s.workers.controller.reconcileWith now os).queue.queue.dirty) ∧
      (s.workers.controller.knows o = true ∨ ∃ cause, ((place, o), cause) ∈ s.displaced ∧
        Displaces o cause ∧ ∀ p e, cause = .told p e → p < place) := by
  have hsound := h.sound ht hd
  obtain ⟨hknown, hearly⟩ := hsound.early _ ho
  refine ⟨reconcileWith_observe _ now os, exists_mem_missing_iff hsound.filed,
    fun t ht => reconcileWith_missing hsound.filed hsound.follows ht, ?_⟩
  rcases hsound.traced _ hknown with hknown | ⟨cause, hcause⟩
  · exact .inl hknown
  · refine .inr ⟨cause, hcause, hsound.caused _ _ hcause, ?_⟩
    rintro p e rfl
    exact hearly p e hcause

end Runs

def serve (s : ControllerRelists TemplateSpec TemplateStatus)
    (r : Store.Call TemplateSpec TemplateStatus) :
    ControllerRelists TemplateSpec TemplateStatus :=
  { s with
    world := s.world.withTemplates ((templates s.world).serve r)
    knownDeleted := s.leavingKnown (templates s.world) r ++ s.knownDeleted }

def forgetful : World :=
  World.empty.withTemplates ((Store.make? .template 1).getD (.empty .template))

/-- A template is known and deleted, and another one is made before the controller is told of
that. -/
def overrun (other : Template) : ControllerRelists TemplateSpec TemplateStatus :=
  let follow := follow wiring default
  let known :=
    follow ((follow (follow (opening wiring default forgetful))).serve (.create llama ⟨0⟩ default))
  follow (follow ((known.serve (.delete llama.key default)).serve (.create other ⟨1⟩ default)))

theorem reachable_overrun (other : Template) :
    Reachable Template.handlers wiring templates (overrun other) := by
  have hfollow (s : ControllerRelists TemplateSpec TemplateStatus) :
      Step Template.handlers wiring templates s (s.follow wiring default) := .follow default
  have hserve (s : ControllerRelists TemplateSpec TemplateStatus)
    (r : Store.Call TemplateSpec TemplateStatus) :
      Step Template.handlers wiring templates s (s.serve r) := .client r rfl
  refine ⟨default, forgetful, fun _ _ h => by contradiction, Nat.le_refl _, ?_⟩
  have hlisted :=
    (Relation.ReflTransGen.single (hfollow (opening wiring default forgetful))).tail (hfollow _)
  have hknown := (hlisted.tail (hserve _ (.create llama ⟨0⟩ default))).tail (hfollow _)
  have hgone :=
    (hknown.tail (hserve _ (.delete llama.key default))).tail (hserve _ (.create other ⟨1⟩ default))
  exact (hgone.tail (hfollow _)).tail (hfollow _)

def mistral : Template := ⟨.named "default" "mistral", .empty, .empty⟩

/-- When the other template has a key of its own, the deleted one has a tombstone after the new
list. -/
theorem dropped_missing_iff_vacant :
    ∃ s os, ∃ o : Template, Reachable Template.handlers wiring templates s ∧ s.feed = .listed os ∧
      (1, o) ∈ s.dropped ∧ o.metadata.uid = some ⟨0⟩ ∧
      ∃ t, (s.workers.controller.reconcileWith default os).tombstones.find? o.key = some t ∧
        t.metadata.uid = some ⟨0⟩ ∧
        o.key ∈ (s.workers.controller.reconcileWith default os).queue.queue.dirty := by
  have hdropped : ∃ os, ∃ o : Template, (overrun mistral).feed = .listed os ∧
    (1, o) ∈ (overrun mistral).dropped ∧
      o.metadata.uid = some ⟨0⟩ ∧ (overrun mistral).workers.controller.knows o = true ∧
      ∀ l ∈ os, l.key ≠ o.key :=
    ⟨_, _, rfl, List.mem_cons_self, rfl, by decide +kernel, by decide +kernel⟩
  obtain ⟨os, o, hf, ho, huid, hknown, hvacant⟩ := hdropped
  obtain ⟨-, hmissing, hburied, -⟩ :=
    dropped_missing_iff (template_tracks _) Template.files_handlers
    (reachable_overrun mistral) default os ho
  obtain ⟨t, ht, hkey, huid'⟩ := hmissing.mpr ⟨hknown, hvacant⟩
  obtain ⟨htomb, -, hdirty⟩ := hburied t ht
  rw [hkey] at htomb hdirty
  exact ⟨_, os, o, reachable_overrun mistral, hf, ho, huid, t, htomb, huid'.trans huid, hdirty⟩

/-- When it has the key of the deleted one, the deletion is forgotten. -/
theorem recreated_not_buried :
    ∃ s os, ∃ o : Template, Reachable Template.handlers wiring templates s ∧ s.feed = .listed os ∧
      (1, o) ∈ s.dropped ∧ o.metadata.uid = some ⟨0⟩ ∧ s.workers.controller.knows o = true ∧
      s.displaced = [] ∧ (∀ l ∈ os, l.metadata.uid ≠ o.metadata.uid) ∧
      ∀ now, (s.workers.controller.reconcileWith now os).tombstones.find? o.key = none :=
  ⟨overrun llama, _, _, reachable_overrun llama, rfl, List.mem_cons_self,
    rfl, by decide +kernel, rfl, by decide +kernel, fun now => rfl⟩

end ControllerRelists
end ModelTemplates
