import Mathlib.Logic.Function.Basic
import Mathlib.Logic.Relation
import ModelTemplates.Proofs.Controller.Workers
import ModelTemplates.Proofs.Controller.Tombstones
import ModelTemplates.Proofs.Controller.Listing
import ModelTemplates.Proofs.Ledger.Count
/-! What becomes of the objects that are deleted while a controller follows its store. The watch
tells of a deletion, and a tombstone is put up. It is taken away when every handler of removals has
succeeded with it, or else before that: by the next deletion under the key, or by a worker that has
seen its object alive. -/
namespace ModelTemplates

variable {σ τ : Type}

def Store.buries (d : Store σ τ) : Store.Call σ τ → List (Object σ τ)
  | .create .. => []
  | .update _ => []
  | .delete k now => (d.get? k).toList.map (buried · now)

/-- The ledger has a number for the very object. -/
def World.owes (w : World) (o : Object σ τ) : Bool :=
  (w.ledger.entries.find? o.key).any fun e => e.owner.isSome && e.owner = o.metadata.uid

/-- What the ledger keeps when it is asked to remove what it has of an object is not the
object's. -/
theorem World.not_owes_removeEntry (w : World) (o : Object σ τ) :
    (answer (.removeEntry o.key o.metadata.uid) w).2.owes o = false := by
  unfold owes
  change ((w.ledger.remove o.key o.metadata.uid).entries.find? o.key).any _ = false
  rw [Ledger.remove_find?]
  split
  · rfl
  · next hkept =>
    cases he : w.ledger.entries.find? o.key with
    | none => rfl
    | some e =>
      have hother : e.countsFor o.metadata.uid = false := by
        by_contra hc
        refine hkept ⟨rfl, ?_⟩
        rw [Ledger.removes, Ledger.entry?_eq_some.mpr ⟨he, eq_true_of_ne_false hc⟩]
        rfl
      have howner : e.owner ≠ o.metadata.uid :=
        fun h => by simp [Ledger.Entry.countsFor, h] at hother
      simp [howner]

/-- A controller with its workers, and what has happened to deleted objects. -/
structure ControllerDeletions (σ τ : Type) where
  workers : ControllerWorkers σ τ
  world : World
  /-- The tombstone that the worker on a key has found. -/
  found : Key → Option (Object σ τ)
  /-- The last states of the objects that were deleted. -/
  deleted : List (Object σ τ)
  /-- Those that a worker has cleared, every handler of removals having succeeded with them. -/
  served : List (Object σ τ)
  /-- Those whose tombstone went before they were served. -/
  passed : List (Object σ τ)
  /-- What workers asked with a tombstone in hand. -/
  asked : List (Object σ τ × Request)
  /-- Those that the ledger came to have a number for after its entry for them was removed. -/
  late : List (Object σ τ)

namespace ControllerDeletions

variable {handlers : Handlers σ τ} {wiring : Controller.Wiring World σ τ}
  {store : World → Store σ τ} {s s' : ControllerDeletions σ τ} {o t : Object σ τ} {k : Key}
  {L L' : Processing σ τ} {b : ControllerWorkers σ τ} {c : Controller σ τ}
  {w w' : World} {P : Request → Prop} {r : Option Request}
  {before after : List (Key × Processing σ τ)}

def cleansed (s : ControllerDeletions σ τ) : List (Object σ τ) :=
  s.asked.filterMap fun
    | (o, .removeEntry k owner) => if k = o.key ∧ owner = o.metadata.uid then some o else none
    | _ => none

theorem mem_cleansed : o ∈ s.cleansed ↔ (o, .removeEntry o.key o.metadata.uid) ∈ s.asked := by
  unfold cleansed
  rw [List.mem_filterMap]
  constructor
  · rintro ⟨⟨p, r⟩, hm, he⟩
    cases r with
    | removeEntry k owner =>
      obtain ⟨⟨rfl, rfl⟩, rfl⟩ : (k = p.key ∧ owner = p.metadata.uid) ∧ p = o := by simpa using he
      exact hm
    | _ => contradiction
  · exact fun hm => ⟨_, hm, if_pos ⟨rfl, rfl⟩⟩

def note (s : ControllerDeletions σ τ) (k : Key) : Processing σ τ → ControllerDeletions σ τ
  | .own .lookUp _ =>
    { s with found := Function.update s.found k (s.workers.controller.tombstones.find? k) }
  | .own (.clear _) _ => { s with served := (s.found k).toList ++ s.served }
  | .ask r _ => { s with asked := (s.found k).toList.map (·, r) ++ s.asked }
  | _ => s

/-- Among what was asked for the object there is a request of the kind `P`. -/
def Asked (s : ControllerDeletions σ τ) (P : Request → Prop) (o : Object σ τ) : Prop :=
  ∃ r, P r ∧ (o, r) ∈ s.asked

/-- The key of a tombstone comes up, or the work on it deals with the tombstone. -/
def Tended (store : World → Store σ τ) (s : ControllerDeletions σ τ) (o : Object σ τ) : Prop :=
  s.workers.controller.Pending (store s.world) o.key ∨ ∃ L, (o.key, L) ∈ s.workers.jobs ∧
    L.Tends o (s.found o.key)

/-- A controller of the objects of one store, from which no request deletes. -/
structure Tracks (wiring : Controller.Wiring World σ τ) (store : World → Store σ τ) : Prop where
  serves : wiring.Serves store
  puts : ∀ r w, store (World.answer r w).2 = store w ∨
    ∃ o, store (World.answer r w).2 = (store w).put o

theorem Tracks.moves (h : Tracks wiring store) (r : Request) (w : World) :
    (store w).Moves (store (World.answer r w).2) := by
  rcases h.puts r w with he | ⟨o, he⟩
  · rw [he]
    exact .still
  · rw [he]
    exact Store.moves_put _ o

section Note

theorem note_workers (s : ControllerDeletions σ τ) (k : Key) (L : Processing σ τ) :
    (s.note k L).workers = s.workers := by
  unfold note
  split <;> rfl

theorem note_world (s : ControllerDeletions σ τ) (k : Key) (L : Processing σ τ) :
    (s.note k L).world = s.world := by
  unfold note
  split <;> rfl

theorem note_deleted (s : ControllerDeletions σ τ) (k : Key) (L : Processing σ τ) :
    (s.note k L).deleted = s.deleted := by
  unfold note
  split <;> rfl

theorem note_passed (s : ControllerDeletions σ τ) (k : Key) (L : Processing σ τ) :
    (s.note k L).passed = s.passed := by
  unfold note
  split <;> rfl

theorem note_late (s : ControllerDeletions σ τ) (k : Key) (L : Processing σ τ) :
    (s.note k L).late = s.late := by
  unfold note
  split <;> rfl

theorem note_served (s : ControllerDeletions σ τ) (k : Key) (L : Processing σ τ) :
    s.served ⊆ (s.note k L).served := by
  unfold note
  split
  case h_2 => exact List.subset_append_right _ _
  all_goals exact List.Subset.refl _

theorem note_asked (s : ControllerDeletions σ τ) (k : Key) (L : Processing σ τ) :
    s.asked ⊆ (s.note k L).asked := by
  unfold note
  split
  case h_3 => exact List.subset_append_right _ _
  all_goals exact List.Subset.refl _

theorem note_found_of_ne (L : Processing σ τ) {j : Key} (h : j ≠ k) :
    (s.note k L).found j = s.found j := by
  unfold note
  split
  case h_1 => exact Function.update_of_ne h _ _
  all_goals rfl

end Note

theorem asked_mono (h : s.asked ⊆ s'.asked) (ha : s.Asked P o) : s'.Asked P o := by
  obtain ⟨r, hr, hm⟩ := ha
  exact ⟨r, hr, h hm⟩

theorem act_position (k : Key) (c : Controller σ τ) (a : ControllerAct σ τ) :
    (a.act k c).2.position = c.position := by
  cases a with
  | clear uid => simp only [ControllerAct.act]; split <;> rfl
  | retry m => exact c.retry_position m k
  | _ => rfl

/-- A worker takes away the tombstone of its own key, and no other. -/
theorem act_tombstones (k j : Key) (c : Controller σ τ) (a : ControllerAct σ τ) :
    (a.act k c).2.tombstones.find? j = c.tombstones.find? j ∨
      j = k ∧ (a.act k c).2.tombstones.find? j = none ∧ (a = .discard ∨ ∃ uid, a = .clear uid) := by
  have herase : (c.tombstones.erase k).find? j = c.tombstones.find? j ∨
      j = k ∧ (c.tombstones.erase k).find? j = none := by
    rw [Table.find?_erase]
    split
    · next hj => exact .inr ⟨hj, rfl⟩
    · exact .inl rfl
  cases a with
  | clear uid =>
    simp only [ControllerAct.act]
    split
    · exact herase.imp_right fun h => ⟨h.1, h.2, .inr ⟨uid, rfl⟩⟩
    · exact .inl rfl
  | discard => exact herase.imp_right fun h => ⟨h.1, h.2, .inl rfl⟩
  | retry m => exact .inl (congrArg (Table.find? · j) (c.retry_tombstones m k))
  | _ => exact .inl rfl

theorem turn_tombstones (ht : L.Turn k s.workers.controller s.world r L' c w) (j : Key) :
    c.tombstones.find? j = s.workers.controller.tombstones.find? j ∨ j = k ∧
      c.tombstones.find? j = none := by
  cases ht with
  | ask _ => exact .inl rfl
  | clock m => exact .inl rfl
  | own => exact (act_tombstones k j _ _).imp_right fun h => ⟨h.1, h.2.1⟩

theorem turn_unread (ht : L.Turn k s.workers.controller s.world r L' c w)
    (htracks : Tracks wiring store)
    (hf : s.workers.controller.Follows (store s.world) s.workers.busy)
    (hu : (store s.world).watch.Unread s.workers.controller.position (· = .deleted o)) :
    (store w).watch.Unread c.position (· = .deleted o) := by
  cases ht with
  | @ask r next _ => exact (htracks.moves r s.world).unread hf.watch hu
  | clock m => exact hu
  | @own a next =>
    rw [act_position]
    exact hu

/-- The worker on the key of a tombstone goes on to deal with it, or has failed, or has cleared
it. -/
theorem turn_tends (ht : L.Turn o.key s.workers.controller s.world r L' c w)
    (hf : s.workers.controller.Follows (store s.world) s.workers.busy) (hb : o.key ∈ s.workers.busy)
    (hstands : s.workers.controller.tombstones.find? o.key = some o)
    (hstill : c.tombstones.find? o.key = some o) (htends : L.Tends o (s.found o.key)) :
    c.Pending (store w) o.key ∨ o ∈ (s.note o.key L).served ∨
      L'.Tends o ((s.note o.key L).found o.key) := by
  cases ht with
  | ask _ => exact .inr (.inr (htends _))
  | clock m => exact .inr (.inr (htends m))
  | @own a next =>
    cases a with
    | lookUp =>
      right
      right
      change (next (s.workers.controller.tombstones.find? o.key)).Tends o
        (Function.update s.found o.key _ o.key)
      rw [Function.update_self, hstands]
      exact htends
    | clear uid =>
      right
      left
      change o ∈ (s.found o.key).toList ++ s.served
      rw [show s.found o.key = some o from htends]
      exact List.mem_append_left _ List.mem_cons_self
    | discard =>
      simp only [ControllerAct.act, Table.find?_erase, if_true] at hstill
      contradiction
    | retry m => exact .inl (hf.retry hb m).2.1
    | abandon => exact .inl (Controller.pending_abandon _ _ _)
    | _ => exact .inr (.inr htends)

/-- What the work on a key attests to, it does so after a step, with what that step asks. -/
theorem turn_attests (ht : L.Turn k s.workers.controller s.world r L' c w)
    (hn : ∀ k t, s.workers.controller.tombstones.find? k = some t → t.key = k)
    (h : L.Attests k P o (s.found k) (s.Asked P o)) (hserved : o ∈ s.served → s.Asked P o) :
    (o ∈ (s.note k L).served → (s.note k L).Asked P o) ∧
      L'.Attests k P o ((s.note k L).found k) ((s.note k L).Asked P o) := by
  cases ht with
  | @ask r next _ =>
    refine ⟨fun ho => asked_mono (note_asked s k _) (hserved ho), (h _).mono fun hnow => ?_⟩
    rcases hnow with ha | ⟨hr, hfound⟩
    · exact asked_mono (note_asked s k _) ha
    · refine ⟨r, hr, List.mem_append_left _ ?_⟩
      rw [hfound]
      exact List.mem_cons_self
  | clock m => exact ⟨hserved, h m⟩
  | @own a next =>
    cases a with
    | lookUp =>
      refine ⟨hserved, ?_⟩
      change (next _).Attests k P o (Function.update s.found k _ k) (s.Asked P o)
      rw [Function.update_self]
      exact h _ fun t ht => hn k t ht
    | clear uid =>
      refine ⟨fun ho => ?_, h.2⟩
      rcases List.mem_append.mp ho with hnew | hold
      · exact h.1 (Option.mem_toList.mp hnew)
      · exact hserved hold
    | _ => exact ⟨hserved, h⟩

/-- What the ledger has just been asked to remove, it does not have. -/
theorem turn_removed (ht : L.Turn k s.workers.controller s.world r L' c w)
    (ho : o ∈ (s.note k L).cleansed) (howes : w.owes o = true) : o ∈ s.cleansed := by
  cases ht with
  | @ask r next _ =>
    rw [mem_cleansed] at ho ⊢
    rcases List.mem_append.mp ho with hnew | hold
    · obtain ⟨t, -, he⟩ := List.mem_map.mp hnew
      obtain ⟨rfl, rfl⟩ := Prod.mk.inj he
      rw [World.not_owes_removeEntry] at howes
      contradiction
    · exact hold
  | clock m => exact ho
  | @own a next => cases a <;> exact ho

/-- Where an object that was deleted has got to: its tombstone is gone, or the watch has yet to tell
of it, or the tombstone stands and is tended. -/
def Settling (store : World → Store σ τ) (s : ControllerDeletions σ τ) (o : Object σ τ) : Prop :=
  o ∈ s.passed ∨ o ∈ s.served ∨
    (store s.world).watch.Unread s.workers.controller.position (· = .deleted o) ∨
    s.workers.controller.tombstones.find? o.key = some o ∧ s.Tended store o

structure Sound (handlers : Handlers σ τ) (store : World → Store σ τ)
    (s : ControllerDeletions σ τ) : Prop where
  keyed : (store s.world).Keyed
  follows : s.workers.controller.Follows (store s.world) s.workers.busy
  named : ∀ k t, s.workers.controller.tombstones.find? k = some t → t.key = k
  settling : ∀ o ∈ s.deleted, s.Settling store o
  removed : ∀ o ∈ s.cleansed, s.world.owes o = true → o ∈ s.late
  attested : ∀ o P, (∃ h ∈ handlers.remove, ∀ m, (h m o.key o).Needs P) →
    (o ∈ s.served → s.Asked P o) ∧
    ∀ job ∈ s.workers.jobs, job.2.Attests job.1 P o (s.found job.1) (s.Asked P o)

/-- A controller that has just started to follow its store. -/
inductive Opening (wiring : Controller.Wiring World σ τ) (store : World → Store σ τ) :
    ControllerDeletions σ τ → Prop where
  | start {m : Moment} {retry : RetryPolicy} {c : Controller σ τ} {w w' : World} : (store w).Keyed →
      (store w).watch.kept.length ≤ (store w).watch.sent →
      Controller.start wiring m (.empty retry) w = (none, c, w') →
      Opening wiring store ⟨⟨c, []⟩, w', fun _ => none, [], [], [], [], []⟩

theorem start_tombstones (hs : wiring.Serves store) {m : Moment} {retry : RetryPolicy}
    {e : Option StoreError} (h : Controller.start wiring m (.empty retry) w = (e, c, w')) :
    c.tombstones = .empty := by
  rw [Controller.start, Controller.relist, hs.list] at h
  obtain ⟨-, rfl⟩ : none = e ∧ _ = c := by
    simpa using (Prod.mk.inj h).imp id fun h => (Prod.mk.inj h).1
  exact Controller.tombstones_foldl_meet _ _

theorem Opening.sound (h : Opening wiring store s) (ht : Tracks wiring store) :
    s.Sound handlers store := by
  cases h with
  | @start m retry c w w' hk hkept hstart =>
    obtain ⟨c', hstart', hf, -⟩ :=
      Controller.follows_start (m := m) (c := .empty retry) ht.serves hk hkept
      (TimedQueue.orderly_empty retry) rfl
    have hempty := start_tombstones ht.serves hstart
    obtain ⟨rfl, rfl⟩ : c' = c ∧ w = w' := by simpa using hstart'.symm.trans hstart
    refine ⟨hk, hf, fun k t hkt => ?_, fun o ho => absurd ho List.not_mem_nil, fun o ho =>
      absurd ho List.not_mem_nil, fun o P _ =>
        ⟨fun ho => absurd ho List.not_mem_nil, fun job hjob => absurd hjob List.not_mem_nil⟩⟩
    rw [hempty] at hkt
    contradiction

/-- When a controller is idle and has read its watch, no deleted object waits to be served. -/
theorem Sound.served_or_passed (h : s.Sound handlers store) (ht : Tracks wiring store)
    (hidle : s.workers.controller.isIdle = true)
    (hread : Controller.waiting wiring s.workers.controller s.world = 0) (ho : o ∈ s.deleted) :
    o ∈ s.served ∨ o ∈ s.passed := by
  obtain ⟨hbusy, hnone⟩ := h.follows.idle ht.serves hidle hread
  rw [Controller.waiting, ht.serves.watch] at hread
  rcases h.settling o ho with hp | hs | hunread | ⟨-, hpending | ⟨L, hL, -⟩⟩
  · exact .inr hp
  · exact .inl hs
  · exact absurd hunread (Channel.not_unread_of_drained hread h.follows.watch)
  · exact absurd hpending (hnone o.key)
  · have hmem : o.key ∈ s.workers.busy := List.mem_map.mpr ⟨_, hL, rfl⟩
    rw [hbusy] at hmem
    exact absurd hmem List.not_mem_nil

variable [DecidableEq σ] [DecidableEq τ]

def fallen (s : ControllerDeletions σ τ) (c : Controller σ τ) : List (Object σ τ) :=
  s.workers.controller.tombstones.values.filter fun t => c.tombstones.find? t.key ≠ some t

def go (s : ControllerDeletions σ τ) (b : ControllerWorkers σ τ) (w : World) :
    ControllerDeletions σ τ :=
  { s with
    workers := b
    world := w
    passed := (s.fallen b.controller).filter (· ∉ s.served) ++ s.passed
    late := (s.cleansed.filter fun o => !s.world.owes o && w.owes o) ++ s.late }

/-- A client's request, a write that others make to the store or elsewhere, or a step of the
controller or of one of its workers. The watch does not lag. -/
inductive Step (handlers : Handlers σ τ) (wiring : Controller.Wiring World σ τ)
    (store : World → Store σ τ) (s : ControllerDeletions σ τ) : ControllerDeletions σ τ → Prop where
  | client (c : Store.Call σ τ) {w : World} : store w = (store s.world).serve c →
      Step handlers wiring store s
        ({ s with deleted := (store s.world).buries c ++ s.deleted }.go s.workers w)
  | elsewhere {w : World} : (store w = store s.world ∨ ∃ o, store w = (store s.world).put o) →
      Step handlers wiring store s (s.go s.workers w)
  | feed {m : Moment} {c : Controller σ τ} {w : World} :
      Controller.feedOne? wiring m s.workers.controller s.world = some (c, w) →
      (wiring.watch s.world).oldest ≤ s.workers.controller.position →
      Step handlers wiring store s (s.go { s.workers with controller := c } w)
  | fire (m : Moment) :
      Step handlers wiring store s
        (s.go { s.workers with controller := s.workers.controller.fire m } s.world)
  | enqueue (k : Key) :
      Step handlers wiring store s
        (s.go { s.workers with controller := s.workers.controller.enqueue k } s.world)
  | take {k : Key} {q : WorkQueue} : s.workers.controller.queue.queue.take? = some (k, q) →
      Step handlers wiring store s ({ s with found := Function.update s.found k none }.go
        ⟨s.workers.controller.onQueue fun _ => q,
          (k, handlers.process k) :: s.workers.jobs⟩ s.world)
  | turn {before after : List (Key × Processing σ τ)} {k : Key} {L L' : Processing σ τ}
      {r : Option Request}
      {c : Controller σ τ} {w : World} : s.workers.jobs = before ++ (k, L) :: after →
      L.Turn k s.workers.controller s.world r L' c w →
      Step handlers wiring store s ((s.note k L).go ⟨c, before ++ (k, L') :: after⟩ w)
  /-- A key stays with a worker that broke off. -/
  | done {before after : List (Key × Processing σ τ)} {k : Key} :
      s.workers.jobs = before ++ (k, .ended) :: after → k ∉ s.workers.controller.abandoned →
      Step handlers wiring store s (s.go ⟨s.workers.controller.onQueue (·.done k),
        before ++ after⟩ s.world)

def Reachable (handlers : Handlers σ τ) (wiring : Controller.Wiring World σ τ)
    (store : World → Store σ τ) (s : ControllerDeletions σ τ) : Prop :=
  ∃ s₀, Opening wiring store s₀ ∧ Relation.ReflTransGen (Step handlers wiring store) s₀ s

theorem stands_or_gone (b : ControllerWorkers σ τ) (w : World)
    (ho : s.workers.controller.tombstones.find? o.key = some o) :
    b.controller.tombstones.find? o.key = some o ∨ o ∈ s.served ∨ o ∈ (s.go b w).passed := by
  by_cases hb : b.controller.tombstones.find? o.key = some o
  · exact .inl hb
  · by_cases hs : o ∈ s.served
    · exact .inr (.inl hs)
    · have hfallen : o ∈ s.fallen b.controller :=
        List.mem_filter.mpr ⟨(Table.mem_values_iff _ _).mpr ⟨_, ho⟩, decide_eq_true hb⟩
      exact .inr (.inr (List.mem_append_left _ (List.mem_filter.mpr ⟨hfallen, decide_eq_true hs⟩)))

/-- A step leaves an object on its way if it leaves unread what was so, and the tombstone tended if
it stands. -/
theorem Settling.go (h : s.Settling store o)
    (hu : (store s.world).watch.Unread s.workers.controller.position (· = .deleted o) →
      (s.go b w).Settling store o)
    (ht : s.Tended store o → (s.go b w).Tended store o) : (s.go b w).Settling store o := by
  rcases h with hp | hs | hunread | ⟨hstands, htended⟩
  · exact .inl (List.mem_append_right _ hp)
  · exact .inr (.inl hs)
  · exact hu hunread
  · rcases stands_or_gone b w hstands with hb | hs | hp
    · exact .inr (.inr (.inr ⟨hb, ht htended⟩))
    · exact .inr (.inl hs)
    · exact .inl hp

/-- What a step has to show. An entry that the object did not have before comes late. -/
theorem sound_go (hk : (store w).Keyed) (hf : b.controller.Follows (store w) b.busy)
    (hn : ∀ k t, b.controller.tombstones.find? k = some t → t.key = k)
    (hsettling : ∀ o ∈ s.deleted, (s.go b w).Settling store o)
    (hremoved : ∀ o ∈ s.cleansed, s.world.owes o = true → w.owes o = true → o ∈ s.late)
    (hattested : ∀ o P, (∃ h ∈ handlers.remove, ∀ m, (h m o.key o).Needs P) →
      (o ∈ s.served → s.Asked P o) ∧
      ∀ job ∈ b.jobs, job.2.Attests job.1 P o (s.found job.1) (s.Asked P o)) :
    (s.go b w).Sound handlers store := by
  refine ⟨hk, hf, hn, hsettling, fun o ho howes => ?_, hattested⟩
  by_cases hbefore : s.world.owes o = true
  · exact List.mem_append_right _ (hremoved o ho hbefore howes)
  · refine List.mem_append_left _ (List.mem_filter.mpr ⟨ho, ?_⟩)
    rw [eq_false_of_ne_true hbefore]
    exact howes

theorem Settling.outside (h : s.Settling store o)
    (hf : s.workers.controller.Follows (store s.world) s.workers.busy)
    (hm : (store s.world).Moves (store w)) : (s.go s.workers w).Settling store o :=
  h.go (fun hu => .inr (.inr (.inl (hm.unread hf.watch hu)))) fun ht => ht.imp_left fun hp =>
    hp.moves hf hm

theorem settling_buries (hk : (store s.world).Keyed)
    (hf : s.workers.controller.Follows (store s.world) s.workers.busy) {c : Store.Call σ τ}
    (hw : store w = (store s.world).serve c) (ho : o ∈ (store s.world).buries c) :
    (s.go s.workers w).Settling store o := by
  cases c with
  | create => exact absurd ho List.not_mem_nil
  | update => exact absurd ho List.not_mem_nil
  | delete k now =>
    obtain ⟨p, hp, rfl⟩ := List.mem_map.mp ho
    have hserved : (store s.world).serve (.delete k now) = (store s.world).without p now := by
      simp only [Store.serve, (Store.delete_eq_ok hk).mpr ⟨p, Option.mem_toList.mp hp, rfl⟩]
    right
    right
    left
    change (store w).watch.Unread _ _
    rw [hw, hserved]
    exact Channel.unread_send hf.watch rfl

theorem Sound.client (h : s.Sound handlers store) {c : Store.Call σ τ}
    (hw : store w = (store s.world).serve c) :
    ({ s with deleted := (store s.world).buries c ++ s.deleted }.go s.workers w).Sound
      handlers store := by
  have hm : (store s.world).Moves (store w) := by
    rw [hw]
    exact (Store.served h.keyed c).moves
  refine sound_go (hm.keyed h.keyed) (h.follows.moves hm) h.named (fun o ho => ?_) (fun o ho hb _ =>
    h.removed o ho hb) h.attested
  rcases List.mem_append.mp ho with hnew | hold
  · exact settling_buries h.keyed h.follows hw hnew
  · exact (h.settling o hold).outside h.follows hm

theorem Sound.elsewhere (h : s.Sound handlers store) (hm : (store s.world).Moves (store w)) :
    (s.go s.workers w).Sound handlers store :=
  sound_go (hm.keyed h.keyed) (h.follows.moves hm) h.named (fun o ho =>
    (h.settling o ho).outside h.follows hm)
    (fun o ho hb _ => h.removed o ho hb) h.attested

/-- The next event of the watch puts up the tombstone that it tells of. -/
theorem Settling.observe (h : s.Settling store o)
    (hf : s.workers.controller.Follows (store s.world) s.workers.busy) {e : WatchEvent σ τ}
    {p : Nat} (hr : (store s.world).watch.receive s.workers.controller.position = (.item e, p)) :
    (s.go { s.workers with controller := { s.workers.controller with position := p }.observe e }
      s.world).Settling store o := by
  obtain ⟨-, hcoming, hpending, hunread⟩ := hf.observe hr
  refine h.go (fun hu => ?_) fun ht => ht.imp_left fun hp => hpending _ hp
  rcases hunread hu with rfl | hu
  · refine .inr (.inr (.inr ⟨?_, .inl (.inl (.inl hcoming))⟩))
    exact (Table.find?_insert _ _ _ _).trans (if_pos rfl)
  · exact .inr (.inr (.inl hu))

theorem Sound.observe (h : s.Sound handlers store) {e : WatchEvent σ τ} {p : Nat}
    (hr : (store s.world).watch.receive s.workers.controller.position = (.item e, p)) :
    (s.go { s.workers with controller := { s.workers.controller with position := p }.observe e }
      s.world).Sound handlers store := by
  refine sound_go h.keyed (h.follows.observe hr).1 ?_ (fun o ho =>
    (h.settling o ho).observe h.follows hr)
    (fun o ho hb _ => h.removed o ho hb) h.attested
  intro k t ht
  cases e with
  | applied o => exact h.named k t ht
  | deleted o =>
    change (s.workers.controller.tombstones.insert o.key o).find? k = some t at ht
    rw [Table.find?_insert] at ht
    split at ht
    · next hk =>
      obtain rfl := Option.some.inj ht
      exact hk.symm
    · exact h.named k t ht

/-- What is done to the queue alone leaves every key pending that was so. -/
theorem Sound.queue (h : s.Sound handlers store) {c : Controller σ τ}
    (hf : c.Follows (store s.world) s.workers.busy)
    (hp : ∀ j, s.workers.controller.Pending (store s.world) j → c.Pending (store s.world) j)
    (ht : c.tombstones = s.workers.controller.tombstones)
    (hposition : c.position = s.workers.controller.position) :
    (s.go { s.workers with controller := c } s.world).Sound handlers store := by
  refine sound_go h.keyed hf (fun k t hk => h.named k t (ht ▸ hk)) (fun o ho => ?_)
    (fun o ho hb _ => h.removed o ho hb) h.attested
  refine (h.settling o ho).go (fun hu => .inr (.inr (.inl ?_))) fun htended =>
    htended.imp_left fun h' => hp _ h'
  change (store s.world).watch.Unread c.position _
  rwa [hposition]

theorem Sound.take (h : s.Sound handlers store) {q : WorkQueue}
    (ht : s.workers.controller.queue.queue.take? = some (k, q)) :
    ({ s with found := Function.update s.found k none }.go
      ⟨s.workers.controller.onQueue fun _ => q,
        (k, handlers.process k) :: s.workers.jobs⟩ s.world).Sound handlers store := by
  obtain ⟨hf, hpending⟩ := h.follows.take ht
  have hfree : k ∉ s.workers.busy := (List.nodup_cons.mp hf.queue.queue.apart).1
  have hfound {j : Key} {M : Processing σ τ} (hM : (j, M) ∈ s.workers.jobs) :
      Function.update s.found k none j = s.found j := by
    refine Function.update_of_ne ?_ _ _
    rintro rfl
    exact hfree (List.mem_map.mpr ⟨_, hM, rfl⟩)
  refine sound_go h.keyed hf h.named (fun o ho => ?_) (fun o ho hb _ =>
    h.removed o ho hb) fun o P hP => ?_
  · rcases h.settling o ho with hp | hs | hunread | ⟨hstands, htended⟩
    · exact .inl (List.mem_append_right _ hp)
    · exact .inr (.inl hs)
    · exact .inr (.inr (.inl hunread))
    · refine .inr (.inr (.inr ⟨hstands, ?_⟩))
      have hnew (e : o.key = k) :
          (o.key, handlers.process k) ∈ (k, handlers.process k) :: s.workers.jobs := by
        rw [e]
        exact List.mem_cons_self
      rcases htended with hp | ⟨M, hM, hM'⟩
      · rcases hpending _ hp with e | hp
        · exact .inr ⟨_, hnew e, handlers.tends_process k o _⟩
        · exact .inl hp
      · refine .inr ⟨M, List.mem_cons_of_mem _ hM, ?_⟩
        change M.Tends o (Function.update s.found k none o.key)
        rwa [hfound hM]
  · obtain ⟨hserved, hjobs⟩ := h.attested o P hP
    refine ⟨hserved, List.forall_mem_cons.mpr ⟨Handlers.attests_process hP, fun job hjob => ?_⟩⟩
    change job.2.Attests job.1 P o (Function.update s.found k none job.1) (s.Asked P o)
    rw [hfound hjob]
    exact hjobs job hjob

theorem Sound.done (h : s.Sound handlers store)
    (hj : s.workers.jobs = before ++ (k, .ended) :: after)
    (hleft : k ∉ s.workers.controller.abandoned) :
    (s.go ⟨s.workers.controller.onQueue (·.done k),
      before ++ after⟩ s.world).Sound handlers store := by
  have hf := h.follows
  have hb : s.workers.busy = before.map Prod.fst ++ k :: after.map Prod.fst := by
    rw [ControllerWorkers.busy, hj, List.map_append, List.map_cons]
  rw [hb] at hf
  refine sound_go h.keyed ?_ h.named (fun o ho => ?_) (fun o ho hb _ =>
    h.removed o ho hb) fun o P hP => ?_
  · have := hf.done hleft
    rwa [← List.map_append] at this
  · refine (h.settling o ho).go (fun hu => .inr (.inr (.inl hu))) fun ht => ?_
    rcases ht with hp | ⟨M, hM, hM'⟩
    · exact .inl (hp.done k)
    · rcases ControllerWorkers.mem_jobs (hj ▸ h.follows.queue.queue.apart) (hj ▸ hM)
        with ⟨-, rfl⟩ | ⟨-, hM⟩
      · exact hM'.elim
      · exact .inr ⟨M, hM, hM'⟩
  · obtain ⟨hserved, hjobs⟩ := h.attested o P hP
    rw [hj, List.forall_mem_append, List.forall_mem_cons] at hjobs
    exact ⟨hserved, List.forall_mem_append.mpr ⟨hjobs.1, hjobs.2.2⟩⟩

theorem Settling.turn (h : s.Settling store o) (htracks : Tracks wiring store)
    (hf : s.workers.controller.Follows (store s.world) s.workers.busy)
    (hj : s.workers.jobs = before ++ (k, L) :: after)
    (ht : L.Turn k s.workers.controller s.world r L' c w) :
    ((s.note k L).go ⟨c, before ++ (k, L') :: after⟩ w).Settling store o := by
  rcases h with hp | hs | hunread | ⟨hstands, htended⟩
  · refine .inl (List.mem_append_right _ ?_)
    rwa [note_passed]
  · exact .inr (.inl (note_served s k L hs))
  · exact .inr (.inr (.inl (turn_unread ht htracks hf hunread)))
  · have hstands' : (s.note k L).workers.controller.tombstones.find? o.key = some o := by
      rwa [note_workers]
    rcases stands_or_gone ⟨c, before ++ (k, L') :: after⟩ w hstands' with hstill | hs | hp
    · rcases htended with hp | ⟨M, hM, hM'⟩
      · exact .inr
          (.inr (.inr ⟨hstill,
            .inl (ht.pending htracks.moves hf (ControllerWorkers.mem_busy hj) hp)⟩))
      · rcases ControllerWorkers.mem_jobs (hj ▸ hf.queue.queue.apart) (hj ▸ hM)
          with ⟨rfl, rfl⟩ | ⟨hne, hM⟩
        · rcases turn_tends ht hf (ControllerWorkers.mem_busy hj) hstands hstill hM'
            with hp | hs | htends
          · exact .inr (.inr (.inr ⟨hstill, .inl hp⟩))
          · exact .inr (.inl hs)
          · exact .inr
              (.inr (.inr ⟨hstill, .inr ⟨L', List.mem_append_right _ List.mem_cons_self, htends⟩⟩))
        · refine .inr (.inr (.inr ⟨hstill, .inr ⟨M, ?_, ?_⟩⟩))
          · change (o.key, M) ∈ before ++ (k, L') :: after
            rw [List.mem_append, List.mem_cons]
            exact (List.mem_append.mp hM).imp_right .inr
          · change M.Tends o ((s.note k L).found o.key)
            rwa [note_found_of_ne L hne]
    · exact .inr (.inl hs)
    · exact .inl hp

theorem Sound.turn (h : s.Sound handlers store) (htracks : Tracks wiring store)
    (hj : s.workers.jobs = before ++ (k, L) :: after)
    (ht : L.Turn k s.workers.controller s.world r L' c w) :
    ((s.note k L).go ⟨c, before ++ (k, L') :: after⟩ w).Sound handlers store := by
  have hm : (store s.world).Moves (store w) := by
    cases ht with
    | @ask r next _ => exact htracks.moves r s.world
    | clock m => exact .still
    | own => exact .still
  refine sound_go (hm.keyed h.keyed) ?_ (fun j t hjt => ?_) (fun o ho => ?_) (fun o ho hb howes =>
    ?_) fun o P hP => ?_
  · have := ht.follows htracks.moves h.follows (ControllerWorkers.mem_busy hj)
    simpa only [ControllerWorkers.busy, hj, List.map_append, List.map_cons] using this
  · rcases turn_tombstones ht j with he | ⟨-, he⟩
    · exact h.named j t (he ▸ hjt)
    · rw [he] at hjt
      contradiction
  · rw [note_deleted] at ho
    exact (h.settling o ho).turn htracks h.follows hj ht
  · rw [note_world] at hb
    rw [note_late]
    exact h.removed o (turn_removed ht ho howes) hb
  · obtain ⟨hserved, hjobs⟩ := h.attested o P hP
    have hapart := h.follows.queue.queue.apart
    rw [hj, List.forall_mem_append, List.forall_mem_cons] at hjobs
    obtain ⟨hbefore, hL, hafter⟩ := hjobs
    obtain ⟨hserved', hL'⟩ := turn_attests ht h.named hL hserved
    have hother {job : Key × Processing σ τ} (hne : job.1 ≠ k)
        (hjob : job.2.Attests job.1 P o (s.found job.1) (s.Asked P o)) :
        job.2.Attests job.1 P o ((s.note k L).found job.1) ((s.note k L).Asked P o) := by
      rw [note_found_of_ne L hne]
      exact hjob.mono (asked_mono (note_asked s k L))
    rw [ControllerWorkers.busy, hj, List.map_append, List.map_cons, List.nodup_middle,
      List.nodup_cons, List.mem_append] at hapart
    refine ⟨hserved', ?_⟩
    rw [List.forall_mem_append, List.forall_mem_cons]
    refine ⟨fun job hm => hother ?_ (hbefore job hm), hL', fun job hm => hother ?_ (hafter job hm)⟩
    · rintro rfl
      exact hapart.1 (.inl (List.mem_map.mpr ⟨job, hm, rfl⟩))
    · rintro rfl
      exact hapart.1 (.inr (List.mem_map.mpr ⟨job, hm, rfl⟩))

theorem Step.sound (hs : Step handlers wiring store s s') (ht : Tracks wiring store)
    (h : s.Sound handlers store) :
    s'.Sound handlers store := by
  cases hs with
  | client c hw => exact h.client hw
  | elsewhere hw =>
    refine h.elsewhere ?_
    rcases hw with he | ⟨o, he⟩
    · rw [he]
      exact .still
    · rw [he]
      exact Store.moves_put _ o
  | feed hfeed hl =>
    obtain ⟨rfl, e, p, hr, rfl⟩ := Controller.feedOne?_item ht.serves hfeed hl
    exact h.observe hr
  | fire m => exact h.queue (h.follows.fire m) (fun j hp => hp.fire h.follows m) rfl rfl
  | enqueue k => exact h.queue (h.follows.addAll [k]) (fun j hp => hp.addAll h.follows [k]) rfl rfl
  | take htake => exact h.take htake
  | turn hj hturn => exact h.turn ht hj hturn
  | done hj hleft => exact h.done hj hleft

theorem Reachable.sound (h : Reachable handlers wiring store s) (ht : Tracks wiring store) :
    s.Sound handlers store := by
  obtain ⟨s₀, ho, hrun⟩ := h
  induction hrun with
  | refl => exact ho.sound ht
  | tail _ hs ih => exact hs.sound ht ih

theorem mem_passed_go (hn : ∀ k t, s.workers.controller.tombstones.find? k = some t → t.key = k)
    (ho : o ∈ (s.fallen c).filter (· ∉ s.served) ++ s.passed) :
    o ∈ s.passed ∨ s.workers.controller.tombstones.find? o.key = some o ∧
      c.tombstones.find? o.key ≠ some o := by
  rcases List.mem_append.mp ho with hnew | hold
  · right
    obtain ⟨hstood, hfallen⟩ := List.mem_filter.mp (List.mem_filter.mp hnew).1
    obtain ⟨k, hk⟩ := (Table.mem_values_iff _ _).mp hstood
    exact ⟨hn k o hk ▸ hk, of_decide_eq_true hfallen⟩
  · exact .inl hold

/-- What passes a deleted object over: the next deletion under its key, or a worker that takes the
tombstone of its key away. -/
theorem Step.passes (hs : Step handlers wiring store s s') (ht : Tracks wiring store)
    (h : s.Sound handlers store) (ho : o ∈ s'.passed) :
    o ∈ s.passed ∨ s.workers.controller.tombstones.find? o.key = some o ∧
      ((∃ p, p ≠ o ∧ s'.workers.controller.tombstones.find? o.key = some p) ∨
        ∃ a next, (o.key, .own a next) ∈ s.workers.jobs ∧
        (a = .discard ∨ ∃ uid, a = .clear uid)) := by
  cases hs with
  | feed hfeed hl =>
    obtain ⟨rfl, e, p, -, rfl⟩ := Controller.feedOne?_item ht.serves hfeed hl
    refine (mem_passed_go h.named ho).imp_right fun ⟨hstood, hfell⟩ => ⟨hstood, .inl ?_⟩
    cases e with
    | applied q => exact absurd hstood hfell
    | deleted q =>
      have hfind (k : Key) : (s.workers.controller.tombstones.insert q.key q).find? k =
          if k = q.key then some q else s.workers.controller.tombstones.find? k :=
            Table.find?_insert _ _ _ _
      change (s.workers.controller.tombstones.insert q.key q).find? o.key ≠ some o at hfell
      refine ⟨q, ?_, ?_⟩
      · rintro rfl
        exact hfell ((hfind _).trans (if_pos rfl))
      · refine (hfind _).trans (if_pos ?_)
        by_contra hne
        exact hfell ((hfind _).trans ((if_neg hne).trans hstood))
  | @turn before after k L L' r c w hj hturn =>
    have hpassed := mem_passed_go (s := s.note k L) (note_workers s k L ▸ h.named) ho
    rw [note_passed, note_workers] at hpassed
    refine hpassed.imp_right fun ⟨hstood, hfell⟩ => ⟨hstood, .inr ?_⟩
    cases hturn with
    | ask _ => exact absurd hstood hfell
    | clock m => exact absurd hstood hfell
    | @own a next =>
      rcases act_tombstones k o.key s.workers.controller a with he | ⟨rfl, -, ha⟩
      · exact absurd (he.trans hstood) hfell
      · exact ⟨a, next, hj ▸ List.mem_append_right _ List.mem_cons_self, ha⟩
  | _ => exact (mem_passed_go h.named ho).imp_right fun ⟨hstood, hfell⟩ => absurd hstood hfell

/-- Some step of the run has passed the object over while its tombstone stood. -/
theorem Reachable.passes (h : Reachable handlers wiring store s) (ht : Tracks wiring store)
    (ho : o ∈ s.passed) :
    ∃ s₀ s₁, Reachable handlers wiring store s₀ ∧ Step handlers wiring store s₀ s₁ ∧
      Relation.ReflTransGen (Step handlers wiring store) s₁ s ∧
      s₀.workers.controller.tombstones.find? o.key = some o ∧
      ((∃ p, p ≠ o ∧ s₁.workers.controller.tombstones.find? o.key = some p) ∨
        ∃ a next, (o.key, .own a next) ∈ s₀.workers.jobs ∧
        (a = .discard ∨ ∃ uid, a = .clear uid)) := by
  obtain ⟨start, hopening, hrun⟩ := h
  induction hrun with
  | refl =>
    cases hopening with
    | start => exact absurd ho List.not_mem_nil
  | @tail s s' hrun hstep ih =>
    have hbefore : Reachable handlers wiring store s := ⟨start, hopening, hrun⟩
    rcases hstep.passes ht (hbefore.sound ht) ho with hold | ⟨hstood, hwhy⟩
    · obtain ⟨s₀, s₁, hreached, hfirst, hrest, hwhy⟩ := ih hold
      exact ⟨s₀, s₁, hreached, hfirst, hrest.tail hstep, hwhy⟩
    · exact ⟨s, s', hbefore, hstep, .refl, hstood, hwhy⟩

end ControllerDeletions
end ModelTemplates
