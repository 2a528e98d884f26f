import ModelTemplates.Proofs.Controller.Heed
import ModelTemplates.Proofs.Controller.Pending
import ModelTemplates.Proofs.Plan.Handlers
/-! A controller with any number of workers, each on a key of its own. Between two steps of one of
them come any steps of the others. -/
namespace ModelTemplates

variable {κ σ τ : Type} [Preorder κ] {handlers : Handlers σ τ}
  {wiring : Controller.Wiring World σ τ} {store : World → Store σ τ}
  {x : Object σ τ → Concern κ σ τ} {w w' : World} {d d' : Store σ τ} {c c' : Controller σ τ}
  {ks : List Key} {k j : Key} {o : Object σ τ} {n n' : κ} {L L' M : Processing σ τ}

/-- A controller of the objects of one store. Its work on an object sees to the concern for it. -/
structure Attentive (handlers : Handlers σ τ) (wiring : Controller.Wiring World σ τ)
    (store : World → Store σ τ) (x : Object σ τ → Concern κ σ τ) : Prop where
  serves : wiring.Serves store
  moves : ∀ r w, (store w).Moves (store (World.answer r w).2)
  object : ∀ o, (x o).object = o
  within : ∀ o, (x o).store = store
  heeds : ∀ o n, (handlers.process o.key).Heeds (x o) n

def Concern.learned (x : Concern κ σ τ) (k : Key) (w : World) (n : κ) : Option (Key × Request) → κ
  | some (j, r) => if j = k then x.learn r w n else n
  | none => n

theorem Concern.learned_of_ne {x : Concern κ σ τ} (h : k ≠ j) (r : Option Request) :
    x.learned k w n (r.map (j, ·)) = n := by
  cases r with
  | none => rfl
  | some r => exact if_neg (Ne.symm h)

inductive Processing.Turn (k : Key) (c : Controller σ τ) (w : World) :
    Processing σ τ → Option Request → Processing σ τ → Controller σ τ → World → Prop where
  | ask {r : Request} {next : r.Answer → Processing σ τ} : VersionHandlers.Free w r →
      Turn k c w (.ask r next) (some r) (next (World.answer r w).1) c (World.answer r w).2
  | clock {next : Moment → Processing σ τ} (m : Moment) : Turn k c w (.clock next) none (next m) c w
  | own {a : ControllerAct σ τ} {next : Option (Object σ τ) → Processing σ τ} :
      Turn k c w (.own a next) none (next (a.act k c).1) (a.act k c).2 w

/-- Only a failure adds to what is pending, and nothing takes away from it. -/
theorem Controller.Follows.act (h : c.Follows d ks) (hk : k ∈ ks) (a : ControllerAct σ τ) :
    (a.act k c).2.Follows d ks ∧ (a.Fails → (a.act k c).2.Pending d k) ∧
      ∀ j, c.Pending d j → (a.act k c).2.Pending d j := by
  cases a with
  | retry m =>
    obtain ⟨hfollows, hback, hkept⟩ := h.retry hk m
    exact ⟨hfollows, fun _ => hback, hkept⟩
  | abandon => exact ⟨h.abandon hk, fun _ => pending_abandon c d k, fun j hj => hj.abandon k⟩
  | forget =>
    exact ⟨h.onQueue (h.queue.queue.congr rfl rfl rfl rfl) rfl h.abandoned, False.elim,
      fun j hj => hj⟩
  | clear uid =>
    simp only [ControllerAct.act]
    split <;> exact ⟨h.congr rfl rfl rfl, False.elim, fun j hj => hj⟩
  | _ => exact ⟨h.congr rfl rfl rfl, False.elim, fun j hj => hj⟩

namespace Processing.Turn

variable {r : Option Request}

theorem moves (ht : L.Turn k c w r L' c' w') (ha : Attentive handlers wiring store x) :
    (store w).Moves (store w') := by
  cases ht with
  | @ask r next _ => exact ha.moves r w
  | clock m => exact .still
  | own => exact .still

theorem follows (ht : L.Turn k c w r L' c' w')
    (hm : ∀ r w, (store w).Moves (store (World.answer r w).2)) (hf : c.Follows (store w) ks)
    (hk : k ∈ ks) : c'.Follows (store w') ks := by
  cases ht with
  | @ask r next _ => exact hf.moves (hm r w)
  | clock m => exact hf
  | @own a next => exact (hf.act hk a).1

theorem pending (ht : L.Turn k c w r L' c' w')
    (hm : ∀ r w, (store w).Moves (store (World.answer r w).2)) (hf : c.Follows (store w) ks)
    (hk : k ∈ ks) (hp : c.Pending (store w) j) : c'.Pending (store w') j := by
  cases ht with
  | @ask r next _ => exact hp.moves hf (hm r w)
  | clock m => exact hp
  | @own a next => exact (hf.act hk a).2.2 j hp

theorem same_or_pending (ht : L.Turn k c w r L' c' w') (ha : Attentive handlers wiring store x)
    (hf : c.Follows (store w) ks) (j : Key) :
    (store w').get? j = (store w).get? j ∨ c'.Pending (store w') j := by
  cases ht with
  | @ask r next _ => exact Controller.same_or_pending hf (ha.moves r w) j
  | clock m => exact .inl rfl
  | own => exact .inl rfl

/-- A worker that sees to its object does so after a step, or has made its key pending. -/
theorem heeds (ht : L.Turn k c w r L' c' w') (ha : Attentive handlers wiring store x)
    (hf : c.Follows (store w) ks) (hb : k ∈ ks) (hk : (store w).Keyed)
    (ho : (store w).get? k = some o) (hh : L.Heeds (x o) n) :
    c'.Pending (store w') k ∨ L'.Heeds (x o) ((x o).learned k w n (r.map (k, ·))) := by
  have hok : o.key = k := hk k o ho
  cases ht with
  | @ask r next _ =>
    have hstored : ((x o).store w).get? (x o).object.key = some (x o).object := by
      rw [ha.within, ha.object, hok]
      exact ho
    rcases hh w (ha.within o ▸ hk) hstored with ⟨p, hp, hput⟩ | ⟨-, hnext⟩
    · left
      rw [ha.within] at hput
      rw [ha.object, hok] at hp
      rw [hput, ← hp]
      exact Controller.pending_put hf p
    · right
      simpa only [Option.map_some, Concern.learned, if_true] using hnext
  | clock m => exact .inr (hh m)
  | @own a next =>
    rcases hh with hr | hnext
    · exact .inl ((hf.act hb a).2.1 hr)
    · exact .inr (hnext _)

end Processing.Turn

/-- A controller and what its workers still have to do. -/
structure ControllerWorkers (σ τ : Type) where
  controller : Controller σ τ
  jobs : List (Key × Processing σ τ)

namespace ControllerWorkers

def busy (b : ControllerWorkers σ τ) : List Key := b.jobs.map Prod.fst

/-- One step of a controller or of one of its workers, and the request that it makes. -/
inductive Step (handlers : Handlers σ τ) (wiring : Controller.Wiring World σ τ)
    (b : ControllerWorkers σ τ) (w : World) :
    Option (Key × Request) → ControllerWorkers σ τ → World → Prop where
  | feed {m : Moment} {c : Controller σ τ} {w' : World} :
      Controller.feedOne? wiring m b.controller w = some (c, w') →
      Step handlers wiring b w none { b with controller := c } w'
  | fire (m : Moment) : Step handlers wiring b w none { b with controller := b.controller.fire m } w
  | enqueue (k : Key) :
      Step handlers wiring b w none { b with controller := b.controller.enqueue k } w
  | take {k : Key} {q : WorkQueue} : b.controller.queue.queue.take? = some (k, q) →
      Step handlers wiring b w none ⟨b.controller.onQueue fun _ => q,
        (k, handlers.process k) :: b.jobs⟩ w
  | turn {before after : List (Key × Processing σ τ)} {k : Key} {L L' : Processing σ τ}
      {r : Option Request}
      {c : Controller σ τ} {w' : World} :
      b.jobs = before ++ (k, L) :: after → L.Turn k b.controller w r L' c w' →
      Step handlers wiring b w (r.map (k, ·)) ⟨c, before ++ (k, L') :: after⟩ w'
  /-- A key stays with a worker that broke off. -/
  | done {before after : List (Key × Processing σ τ)} {k : Key} :
      b.jobs = before ++ (k, .ended) :: after → k ∉ b.controller.abandoned →
      Step handlers wiring b w none ⟨b.controller.onQueue (·.done k), before ++ after⟩ w

/-- A stored object is seen to: it is pending, or worked on until enough is known, or nobody works
on it and enough is known. -/
def Sees (x : Object σ τ → Concern κ σ τ) (n : κ) (b : ControllerWorkers σ τ) (d : Store σ τ)
    (k : Key) (o : Object σ τ) : Prop :=
  b.controller.Pending d k ∨ (∃ L, (k, L) ∈ b.jobs ∧ L.Heeds (x o) n) ∨ k ∉ b.busy ∧ (x o).enough n

variable {b b' : ControllerWorkers σ τ} {asked : Option (Key × Request)}
  {before after : List (Key × Processing σ τ)}

theorem busy_turn (hj : b.jobs = before ++ (k, L) :: after) :
    (⟨c, before ++ (k, L') :: after⟩ : ControllerWorkers σ τ).busy = b.busy := by
  simp [busy, hj]

theorem mem_busy (hj : b.jobs = before ++ (k, L) :: after) : k ∈ b.busy := by
  simp [busy, hj]

theorem Sees.mono (h : Sees x n b d k o) (hn : n ≤ n') : Sees x n' b d k o := by
  rcases h with h | ⟨L, hL, hh⟩ | ⟨hb, he⟩
  · exact .inl h
  · exact .inr (.inl ⟨L, hL, hh.mono hn⟩)
  · exact .inr (.inr ⟨hb, (x o).enough_mono hn he⟩)

/-- What others write to the store is pending, and all else is still seen to. -/
theorem Sees.moves {N : Object σ τ → κ} (h : ∀ o, d.get? k = some o → Sees x (N o) b d k o)
    (hf : b.controller.Follows d b.busy) (hm : d.Moves d') (ho : d'.get? k = some o) :
    Sees x (N o) b d' k o := by
  rcases Controller.same_or_pending hf hm k with hs | hp
  · exact (h o (hs ▸ ho)).imp_left fun hp => hp.moves hf hm
  · exact .inl hp

theorem Sees.addAll (h : Sees x n b d k o) (hf : b.controller.Follows d b.busy) (ks : List Key) :
    Sees x n { b with controller := b.controller.onQueue (·.addAll ks) } d k o :=
  h.imp_left fun hp => hp.addAll hf ks

theorem Step.follows (hs : Step handlers wiring b w asked b' w')
    (ha : Attentive handlers wiring store x) (hf : b.controller.Follows (store w) b.busy)
    (hk : (store w).Keyed) :
    b'.controller.Follows (store w') b'.busy ∧ (store w).Moves (store w') := by
  cases hs with
  | feed h =>
    obtain rfl := Controller.feedOne?_world ha.serves h
    exact ⟨(hf.feed ha.serves hk h).1, .still⟩
  | fire m => exact ⟨hf.fire m, .still⟩
  | enqueue k => exact ⟨hf.addAll [k], .still⟩
  | take ht => exact ⟨(hf.take ht).1, .still⟩
  | turn hj ht =>
    have hf' := ht.follows ha.moves hf (mem_busy hj)
    refine ⟨?_, ht.moves ha⟩
    rw [busy_turn hj]
    exact hf'
  | done hj hleft =>
    refine ⟨?_, .still⟩
    rw [busy, hj, List.map_append, List.map_cons] at hf
    rw [busy, List.map_append]
    exact hf.done hleft

/-- A step leaves the world as the request that it makes leaves it. -/
theorem Step.world (hs : Step handlers wiring b w asked b' w')
    (ha : Attentive handlers wiring store x) :
    w' = asked.elim w fun p => (World.answer p.2 w).2 := by
  cases hs with
  | feed h => exact Controller.feedOne?_world ha.serves h
  | turn _ ht => cases ht <;> rfl
  | _ => rfl

theorem Step.asks {P : Key → Request → Prop} (hs : Step handlers wiring b w asked b' w')
    (hd : ∀ k, (handlers.process k).Asks (P k)) (hb : ∀ job ∈ b.jobs, job.2.Asks (P job.1)) :
    (∀ job ∈ b'.jobs, job.2.Asks (P job.1)) ∧ ∀ p ∈ asked, P p.1 p.2 := by
  cases hs with
  | @take k q _ => exact ⟨List.forall_mem_cons.mpr ⟨hd k, hb⟩, fun _ h => (by cases h)⟩
  | @turn before after k L L' r c w' hj ht =>
    rw [hj, List.forall_mem_append, List.forall_mem_cons] at hb
    obtain ⟨hbefore, hL, hafter⟩ := hb
    simp only [List.forall_mem_append, List.forall_mem_cons]
    cases ht with
    | ask _ =>
      refine ⟨⟨hbefore, hL.2 _, hafter⟩, fun p hp => ?_⟩
      obtain rfl := Option.some.inj hp
      exact hL.1
    | clock m => exact ⟨⟨hbefore, hL m, hafter⟩, fun _ h => (by cases h)⟩
    | own => exact ⟨⟨hbefore, hL _, hafter⟩, fun _ h => (by cases h)⟩
  | done hj _ =>
    rw [hj, List.forall_mem_append, List.forall_mem_cons] at hb
    exact ⟨List.forall_mem_append.mpr ⟨hb.1, hb.2.2⟩, fun _ h => (by cases h)⟩
  | _ => exact ⟨hb, fun _ h => (by cases h)⟩

theorem mem_jobs (hb : ((before ++ (j, L) :: after).map Prod.fst).Nodup)
    (hM : (k, M) ∈ before ++ (j, L) :: after) :
    k = j ∧ M = L ∨ k ≠ j ∧ (k, M) ∈ before ++ after := by
  rw [List.map_append, List.map_cons, List.nodup_middle, List.nodup_cons, ← List.map_append] at hb
  have hout (hm : (k, M) ∈ before ++ after) : k ≠ j := by
    rintro rfl
    exact hb.1 (List.mem_map.mpr ⟨_, hm, rfl⟩)
  rw [List.mem_append, List.mem_cons, or_left_comm, ← List.mem_append] at hM
  rcases hM with hM | hM
  · exact .inl (Prod.mk.inj hM)
  · exact .inr ⟨hout hM, hM⟩

/-- The work that begins sees to the object of its key, whatever was known before. -/
theorem Sees.take (h : Sees x n b d k o) (ha : Attentive handlers wiring store x)
    (hf : b.controller.Follows d b.busy) (hk : o.key = k) {q : WorkQueue}
    (ht : b.controller.queue.queue.take? = some (j, q)) :
    Sees x n ⟨b.controller.onQueue fun _ => q, (j, handlers.process j) :: b.jobs⟩ d k o := by
  have hnew (e : k = j) : (k, handlers.process k) ∈ (j, handlers.process j) :: b.jobs ∧
    (handlers.process k).Heeds (x o) n :=
    ⟨by rw [e]; exact List.mem_cons_self, hk ▸ ha.heeds o _⟩
  rcases h with hp | ⟨L, hL, hh⟩ | ⟨hb, he⟩
  · exact ((hf.take ht).2 k hp).elim (fun e => .inr (.inl ⟨_, hnew e⟩)) .inl
  · exact .inr (.inl ⟨L, List.mem_cons_of_mem _ hL, hh⟩)
  · by_cases e : k = j
    · exact .inr (.inl ⟨_, hnew e⟩)
    · exact .inr (.inr ⟨fun hm => (List.mem_cons.mp hm).elim e hb, he⟩)

/-- A worker's step leaves the object seen to, by this worker or as it was. -/
theorem Sees.turn {N : Object σ τ → κ}
    (h : ∀ o, (store w).get? k = some o → Sees x (N o) b (store w) k o)
    (ha : Attentive handlers wiring store x) (hf : b.controller.Follows (store w) b.busy)
    (hk : (store w).Keyed) {r : Option Request} (hj : b.jobs = before ++ (j, L) :: after)
    (ht : L.Turn j b.controller w r L' c' w') (ho : (store w').get? k = some o) :
    Sees x ((x o).learned k w (N o) (r.map (j, ·))) ⟨c',
      before ++ (j, L') :: after⟩ (store w') k o := by
  rcases ht.same_or_pending ha hf k with hsame | hpend
  · have ho' : (store w).get? k = some o := hsame ▸ ho
    rcases h o ho' with hp | ⟨M, hM, hh⟩ | ⟨hb, he⟩
    · exact .inl (ht.pending ha.moves hf (mem_busy hj) hp)
    · rcases mem_jobs (hj ▸ hf.queue.queue.apart) (hj ▸ hM) with ⟨rfl, rfl⟩ | ⟨hne, hM⟩
      · exact (ht.heeds ha hf (mem_busy hj) hk ho' hh).imp_right fun hh' => .inl ⟨L', by simp, hh'⟩
      · rw [Concern.learned_of_ne hne]
        refine .inr (.inl ⟨M, ?_, hh⟩)
        rw [List.mem_append, List.mem_cons]
        exact (List.mem_append.mp hM).imp_right .inr
    · have hne : k ≠ j := by
        rintro rfl
        exact hb (by simp [busy, hj])
      rw [Concern.learned_of_ne hne]
      exact .inr (.inr ⟨busy_turn hj ▸ hb, he⟩)
  · exact .inl hpend

/-- When the work on a key is over, enough is known of its object. -/
theorem Sees.done (h : Sees x n b d k o) (hf : b.controller.Follows d b.busy)
    (hj : b.jobs = before ++ (j, .ended) :: after) :
    Sees x n ⟨b.controller.onQueue (·.done j), before ++ after⟩ d k o := by
  rcases h with hp | ⟨M, hM, hh⟩ | ⟨hb, he⟩
  · exact .inl (hp.done j)
  · rcases mem_jobs (hj ▸ hf.queue.queue.apart) (hj ▸ hM) with ⟨rfl, rfl⟩ | ⟨-, hM⟩
    · have hapart := hf.queue.queue.apart
      rw [busy, hj, List.map_append, List.map_cons, List.nodup_middle,
        List.nodup_cons, ← List.map_append] at hapart
      exact .inr (.inr ⟨hapart.1, hh⟩)
    · exact .inr (.inl ⟨M, hM, hh⟩)
  · refine .inr (.inr ⟨fun hm => hb ?_, he⟩)
    simp only [busy, hj, List.map_append, List.map_cons, List.mem_append, List.mem_cons] at hm ⊢
    exact hm.imp_right .inr

theorem Sees.step {N : Object σ τ → κ}
    (h : ∀ o, (store w).get? k = some o → Sees x (N o) b (store w) k o)
    (hs : Step handlers wiring b w asked b' w') (ha : Attentive handlers wiring store x)
    (hf : b.controller.Follows (store w) b.busy) (hk : (store w).Keyed)
    (ho : (store w').get? k = some o) :
    Sees x ((x o).learned k w (N o) asked) b' (store w') k o := by
  cases hs with
  | feed hfeed =>
    obtain rfl := Controller.feedOne?_world ha.serves hfeed
    exact (h o ho).imp_left ((hf.feed ha.serves hk hfeed).2 k o ho)
  | fire m => exact (h o ho).imp_left fun hp => hp.fire hf m
  | enqueue j => exact (h o ho).addAll hf [j]
  | take ht => exact (h o ho).take ha hf (hk k o ho) ht
  | turn hj ht => exact Sees.turn h ha hf hk hj ht ho
  | done hj _ => exact (h o ho).done hf hj

end ControllerWorkers
end ModelTemplates
