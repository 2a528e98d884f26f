import Mathlib.Logic.Relation
import ModelTemplates.Proofs.Controller.Deliveries
import ModelTemplates.Proofs.Handler.Contract
import ModelTemplates.Proofs.Template.Delivery
/-! A controller with any number of workers, in a world that others change at will. When it comes to
rest, whatever was missed or failed before, every live object has been shown as it is to all
handlers, and none had anything to do. -/
namespace ModelTemplates

open Controller

inductive Feed (σ τ : Type) where
  | following
  /-- Events were missed, and nothing was listed since. -/
  | missed
  /-- Objects were listed that are still to be queued. -/
  | listed (os : List (Object σ τ))

structure ControllerDeliveries (ω σ τ : Type) where
  controller : Controller σ τ
  world : ω
  feed : Feed σ τ
  /-- The keys that workers hold, and whether they have handled them. -/
  jobs : List (Key × Bool)
  /-- The last delivery of every key. -/
  last : Key → Option (Delivery σ τ)

namespace ControllerDeliveries

variable {ω σ τ : Type}

def busy (s : ControllerDeliveries ω σ τ) : List Key := s.jobs.map Prod.fst

def opening (wiring : Wiring ω σ τ) (retry : RetryPolicy) (w : ω) : ControllerDeliveries ω σ τ where
  controller := { Controller.empty retry with position := (wiring.watch w).subscribe }
  world := w
  feed := .missed
  jobs := []
  last _ := none

def handle (s : ControllerDeliveries ω σ τ) (wiring : Wiring ω σ τ) (m : Moment) (k : Key)
    (jobs : List (Key × Bool)) :
    ControllerDeliveries ω σ τ where
  controller := (process wiring m k s.controller s.world).1
  world := (process wiring m k s.controller s.world).2
  feed := s.feed
  jobs := jobs
  last j := if j = k then some (delivery wiring m k s.controller s.world) else s.last j

variable {wiring : Wiring ω σ τ} {store : ω → Store σ τ} {s s' : ControllerDeliveries ω σ τ}
  {k j : Key} {o : Object σ τ} {m : Moment} {w : ω} {c : Controller σ τ}

/-- The key will be shown to the handlers once more: it is pending, a worker has it before it, or it
is listed. -/
def Due (s : ControllerDeliveries ω σ τ) (d : Store σ τ) (k : Key) : Prop :=
  s.controller.Pending d k ∨ (k, false) ∈ s.jobs ∨ ∃ os, s.feed = .listed os ∧ ∃ o ∈ os, o.key = k

/-- Unless events are missed, every live object is due or was left undisturbed by all handlers. -/
structure Sound (wiring : Wiring ω σ τ) (store : ω → Store σ τ) (s : ControllerDeliveries ω σ τ) :
    Prop where
  keyed : (store s.world).Keyed
  follows : s.controller.Follows (store s.world) s.busy
  shown : s.feed ≠ .missed → ∀ k o, (store s.world).get? k = some o →
    s.Due (store s.world) k ∨ s.last k = some (undisturbed wiring o)

/-- What the controller does to itself keeps what it had before it. -/
theorem Sound.advance (h : Sound wiring store s) (hfollows : c.Follows (store s.world) s.busy)
    (hpending : ∀ k, s.controller.Pending (store s.world) k → c.Pending (store s.world) k) :
    Sound wiring store { s with controller := c } := by
  constructor
  · exact h.keyed
  · exact hfollows
  · intro hf k o ho
    exact (h.shown hf k o ho).imp_left fun hdue => hdue.imp_left (hpending k)

theorem Sound.list (h : Sound wiring store s) (hs : wiring.Serves store) {os : List (Object σ τ)}
    (hl : wiring.list s.world = (.ok os, w)) :
    Sound wiring store { s with world := w, feed := .listed os } := by
  rw [hs.list] at hl
  obtain ⟨hos, rfl⟩ := Prod.mk.inj hl
  obtain rfl := Except.ok.inj hos
  constructor
  · exact h.keyed
  · exact h.follows
  · intro _ k o ho
    exact .inl (.inr (.inr ⟨_, rfl, o, Store.mem_all_iff.mpr ⟨k, ho⟩, h.keyed k o ho⟩))

theorem Sound.queue (h : Sound wiring store s) {os : List (Object σ τ)} (now : Timestamp)
    (hf : s.feed = .listed os) :
    Sound wiring store
      { s with controller := s.controller.reconcileWith now os, feed := .following } := by
  obtain ⟨hfollows, hlisted, hpending⟩ := h.follows.reconcileWith now os
  constructor
  · exact h.keyed
  · exact hfollows
  · intro _ k o ho
    rcases h.shown (by simp [hf]) k o ho with (hp | hj | ⟨os', hos, l, hl, rfl⟩) | hlast
    · exact .inl (.inl (hpending k hp))
    · exact .inl (.inr (.inl hj))
    · obtain rfl : os' = os := by simpa [hf] using hos.symm
      exact .inl (.inl (.inl (.inl (hlisted l hl))))
    · exact .inr hlast

theorem Sound.take (h : Sound wiring store s) {q : WorkQueue}
    (ht : s.controller.queue.queue.take? = some (k, q)) :
    Sound wiring store
      { s with controller := s.controller.onQueue fun _ => q, jobs := (k, false) :: s.jobs } := by
  obtain ⟨hfollows, hpending⟩ := h.follows.take ht
  constructor
  · exact h.keyed
  · exact hfollows
  · intro hf j o ho
    rcases h.shown hf j o ho with (hp | hj | hl) | hlast
    · rcases hpending j hp with rfl | hp
      · exact .inl (.inr (.inl List.mem_cons_self))
      · exact .inl (.inl hp)
    · exact .inl (.inr (.inl (List.mem_cons_of_mem _ hj)))
    · exact .inl (.inr (.inr hl))
    · exact .inr hlast

/-- The jobs that are still to be handled, beside one that is over. -/
theorem mem_jobs {before after : List (Key × Bool)} {b : Bool}
    (hj : (j, false) ∈ before ++ (k, b) :: after) (hne : (j, false) ≠ (k, b)) :
    (j, false) ∈ before ++ after := by
  rw [List.mem_append, List.mem_cons] at hj
  rw [List.mem_append]
  exact hj.imp_right fun h => h.resolve_left hne

theorem Sound.done (h : Sound wiring store s) {before after : List (Key × Bool)}
    (hj : s.jobs = before ++ (k, true) :: after) (hk : k ∉ s.controller.abandoned) :
    Sound wiring store
      { s with controller := s.controller.onQueue (·.done k), jobs := before ++ after } := by
  constructor
  · exact h.keyed
  · have hfollows := h.follows
    rw [busy, hj, List.map_append, List.map_cons] at hfollows
    show (s.controller.onQueue (·.done k)).Follows _ ((before ++ after).map Prod.fst)
    rw [List.map_append]
    exact hfollows.done hk
  · intro hf j o ho
    rcases h.shown hf j o ho with (hp | hjob | hl) | hlast
    · exact .inl (.inl (hp.done k))
    · exact .inl (.inr (.inl (mem_jobs (hj ▸ hjob) (by simp))))
    · exact .inl (.inr (.inr hl))
    · exact .inr hlast

variable [DecidableEq σ]

/-- One step of the controller, of a worker, or of somebody else who uses the store. -/
inductive Step (wiring : Wiring ω σ τ) (store : ω → Store σ τ) (s : ControllerDeliveries ω σ τ) :
    ControllerDeliveries ω σ τ → Prop where
  /-- Nothing is known of the rest of the world. -/
  | outside {w : ω} (op : Store.Operation σ τ) (hw : store w = ((store s.world).apply op).2) :
      Step wiring store s { s with world := w }
  | enqueue (k : Key) : Step wiring store s { s with controller := s.controller.enqueue k }
  | event {e : WatchEvent σ τ} {p : Nat} (hf : s.feed = .following)
      (hr : (wiring.watch s.world).receive s.controller.position = (.item e, p)) :
      Step wiring store s { s with controller := { s.controller with position := p }.observe e }
  | lag {missed p : Nat} (hf : s.feed = .following)
      (hr : (wiring.watch s.world).receive s.controller.position = (.lagged missed, p)) :
      Step wiring store s
        { s with controller := { s.controller with position := p }, feed := .missed }
  | list {os : List (Object σ τ)} {w : ω} (hf : s.feed = .missed)
      (hl : wiring.list s.world = (.ok os, w)) :
      Step wiring store s { s with world := w, feed := .listed os }
  | queue {os : List (Object σ τ)} (now : Timestamp) (hf : s.feed = .listed os) :
      Step wiring store s
        { s with controller := s.controller.reconcileWith now os, feed := .following }
  | fire (m : Moment) : Step wiring store s { s with controller := s.controller.fire m }
  | take {k : Key} {q : WorkQueue} (ht : s.controller.queue.queue.take? = some (k, q)) :
      Step wiring store s
        { s with controller := s.controller.onQueue fun _ => q, jobs := (k, false) :: s.jobs }
  | process {k : Key} {before after : List (Key × Bool)} (m : Moment)
      (hj : s.jobs = before ++ (k, false) :: after) :
      Step wiring store s (s.handle wiring m k (before ++ (k, true) :: after))
  /-- A key stays with a worker that broke off. -/
  | done {k : Key} {before after : List (Key × Bool)} (hj : s.jobs = before ++ (k, true) :: after)
      (hk : k ∉ s.controller.abandoned) :
      Step wiring store s
        { s with controller := s.controller.onQueue (·.done k), jobs := before ++ after }

abbrev Run (wiring : Wiring ω σ τ) (store : ω → Store σ τ) :
    ControllerDeliveries ω σ τ → ControllerDeliveries ω σ τ → Prop :=
  Relation.ReflTransGen (Step wiring store)

theorem Sound.outside (h : Sound wiring store s) {op : Store.Operation σ τ}
    (hw : store w = ((store s.world).apply op).2) : Sound wiring store { s with world := w } := by
  have hm : (store s.world).Moves (store w) := hw ▸ Store.moves_apply h.keyed op
  constructor
  · exact hm.keyed h.keyed
  · exact h.follows.moves hm
  · intro hf k o ho
    rcases same_or_pending h.follows hm k with hsame | hp
    · rcases h.shown hf k o (hsame.symm.trans ho) with hdue | hlast
      · exact .inl (hdue.imp_left fun hp => hp.moves h.follows hm)
      · exact .inr hlast
    · exact .inl (.inl hp)

theorem Sound.process (h : Sound wiring store s) (hc : wiring.Candid store) (m : Moment)
    {before after : List (Key × Bool)} (hj : s.jobs = before ++ (k, false) :: after) :
    Sound wiring store (s.handle wiring m k (before ++ (k, true) :: after)) := by
  have hbusy : k ∈ s.busy := by simp [busy, hj]
  have hhandled := process_handled hc h.follows hbusy h.keyed m
  have hsame : (s.handle wiring m k (before ++ (k, true) :: after)).busy = s.busy := by
    simp [busy, handle, hj]
  constructor
  · exact hhandled.keyed
  · exact hsame ▸ hhandled.follows
  · intro hf j o ho
    by_cases hk : j = k
    · subst hk
      rcases hhandled.shown o ho with hp | hd
      · exact .inl (.inl hp)
      · exact .inr ((if_pos rfl).trans (congrArg some hd))
    · rcases hhandled.same j with hsame | hp
      · rcases h.shown hf j o (hsame.symm.trans ho) with (hp | hjob | hl) | hlast
        · exact .inl (.inl (hhandled.pending j hp))
        · have hrest : (j, false) ∈ before ++ after := mem_jobs (hj ▸ hjob) (by simp [hk])
          have hnew : (j, false) ∈ before ++ (k, true) :: after := by
            rw [List.mem_append] at hrest ⊢
            exact hrest.imp_right (List.mem_cons_of_mem _)
          exact .inl (.inr (.inl hnew))
        · exact .inl (.inr (.inr hl))
        · exact .inr ((if_neg hk).trans hlast)
      · exact .inl (.inl hp)

theorem Sound.step (h : Sound wiring store s) (hc : wiring.Candid store)
    (hs : Step wiring store s s') :
    Sound wiring store s' := by
  cases hs with
  | outside op hw => exact h.outside hw
  | enqueue k => exact h.advance (h.follows.addAll [k]) fun j hp => hp.addAll h.follows [k]
  | event hf hr =>
    rw [hc.watch] at hr
    obtain ⟨hfollows, -, hpending, -⟩ := h.follows.observe hr
    exact h.advance hfollows hpending
  | lag hf hr =>
    rw [hc.watch] at hr
    constructor
    · exact h.keyed
    · exact ⟨h.follows.queue, Channel.receive_lagged hr h.follows.watch, h.follows.abandoned⟩
    · exact fun hmissed => absurd rfl hmissed
  | list hf hl => exact h.list hc.toServes hl
  | queue now hf => exact h.queue now hf
  | fire m => exact h.advance (h.follows.fire m) fun j hp => hp.fire h.follows m
  | take ht => exact h.take ht
  | process m hj => exact h.process hc m hj
  | done hj hk => exact h.done hj hk

theorem Sound.run (h : Sound wiring store s) (hc : wiring.Candid store)
    (hr : Run wiring store s s') :
    Sound wiring store s' := by
  induction hr with
  | refl => exact h
  | tail _ hs ih => exact ih.step hc hs

theorem sound_opening (hc : wiring.Candid store) (retry : RetryPolicy) {kind : Kind}
    {capacity : Nat} {d : Store σ τ} (hd : Store.make? kind capacity = some d)
    {ops : List (Store.Operation σ τ)} (hw : store w = d.after ops) :
    Sound wiring store (opening wiring retry w) := by
  have hkeyed : d.Keyed := (Store.Chronicle.make? hd).keyed
  have hfollows : (Controller.empty retry : Controller σ τ).Follows d [] := by
    simp only [Store.make?, Option.map_eq_some_iff] at hd
    obtain ⟨channel, hchannel, rfl⟩ := hd
    unfold Channel.make? at hchannel
    split at hchannel
    · contradiction
    · obtain rfl := Option.some.inj hchannel
      exact ⟨TimedQueue.orderly_empty retry,
        ⟨Nat.le_refl _, Nat.le_refl _⟩, by simp [Controller.empty]⟩
  have hlater := hfollows.after hkeyed ops
  constructor
  · exact hw ▸ hkeyed.after ops
  · refine ⟨hlater.queue, ?_, hlater.abandoned⟩
    show (store w).watch.Followed (wiring.watch w).subscribe
    rw [hc.watch, hw]
    exact Channel.followed_subscribe hlater.watch.kept
  · exact fun hmissed => absurd rfl hmissed

/-- Whatever others do and whatever handlers fail at: when the queue is idle, the watch is read and
no events are missed, the last delivery of a live object found it as it is stored, and every handler
in turn was shown just that and had nothing to do. -/
theorem rest_undisturbed (hc : wiring.Candid store) {retry : RetryPolicy} {kind : Kind}
    {capacity : Nat} {d : Store σ τ} (hd : Store.make? kind capacity = some d)
    {ops : List (Store.Operation σ τ)} (hw : store w = d.after ops)
    (hr : Run wiring store (opening wiring retry w) s) (hidle : s.controller.isIdle = true)
    (hread : Controller.waiting wiring s.controller s.world = 0) (hfeed : s.feed = .following) :
    ∀ k o, (store s.world).get? k = some o → ∃ d, s.last k = some d ∧ d.found = .ok (some o) ∧
      d.calls = wiring.change.map fun _ => (o, .ok .unchanged) := by
  intro k o ho
  have h := (sound_opening hc retry hd hw).run hc hr
  obtain ⟨hbusy, hnone⟩ := h.follows.idle hc.toServes hidle hread
  rcases h.shown (by simp [hfeed]) k o ho with (hp | hj | ⟨os, hos, -⟩) | hlast
  · exact absurd hp (hnone k)
  · have : k ∈ s.busy := List.mem_map.mpr ⟨_, hj, rfl⟩
    simp [hbusy] at this
  · simp [hfeed] at hos
  · exact ⟨_, hlast, rfl, rfl⟩

theorem run_start (hs : wiring.Serves store) (retry : RetryPolicy) (m : Moment) (w : ω) :
    Run wiring store (opening wiring retry w)
      { opening wiring retry w with
        controller := (Controller.start wiring m (.empty retry) w).2.1
        feed := .following } := by
  have hlist : Run wiring store (opening wiring retry w) _ := .single (.list rfl (hs.list w))
  have hqueue := hlist.tail (.queue m.time rfl)
  rw [Controller.start, relist, hs.list]
  exact hqueue

theorem Run.feedOne? {s₀ : ControllerDeliveries ω σ τ} (h : Run wiring store s₀ s)
    (hs : wiring.Serves store) (hfeed : s.feed = .following)
    (hf : Controller.feedOne? wiring m s.controller s.world = some (c, w)) :
    Run wiring store s₀ { s with controller := c, world := w } := by
  obtain ⟨controller, world, feed, jobs, last⟩ := s
  subst hfeed
  unfold Controller.feedOne? at hf
  split at hf
  · next e p hr =>
    obtain ⟨rfl, rfl⟩ := Prod.mk.inj (Option.some.inj hf)
    exact h.tail (.event rfl hr)
  · next missed p hr =>
    rw [relist, hs.list] at hf
    obtain ⟨rfl, rfl⟩ := Prod.mk.inj (Option.some.inj hf)
    have hlist := (h.tail (.lag rfl hr)).tail (.list rfl (hs.list _))
    exact hlist.tail (.queue m.time rfl)
  · contradiction
  · contradiction

theorem Run.workOne? {s₀ : ControllerDeliveries ω σ τ} (h : Run wiring store s₀ s)
    (hw : Controller.workOne? wiring m s.controller s.world = some (c, w)) :
    ∃ jobs last, Run wiring store s₀
      { s with controller := c, world := w, jobs := jobs, last := last } := by
  simp only [Controller.workOne?] at hw
  cases ht : s.controller.queue.queue.take? with
  | none =>
    rw [ht] at hw
    contradiction
  | some p =>
    obtain ⟨k, q⟩ := p
    simp only [ht] at hw
    obtain ⟨rfl, rfl⟩ := Prod.mk.inj (Option.some.inj hw)
    have hprocess := (h.tail (.take ht)).tail (@Step.process _ _ _ _ _ _ _ k [] s.jobs m rfl)
    unfold finish
    split
    · exact ⟨_, _, hprocess⟩
    · next hk => exact ⟨_, _, hprocess.tail (@Step.done _ _ _ _ _ _ _ k [] s.jobs rfl hk)⟩

theorem templateWiring_candid (generate : ServingGenerator) :
    (Manager.templateWiring (World.siteFor generate)).Candid fun w => w.stores.templates := by
  constructor
  · exact Template.wiring_serves generate
  · intro k w
    exact ⟨rfl, fun live hlive => (Except.ok.inj hlive).symm⟩
  · intro h hmem m o w hk
    have hkept : Side.templates.Kept w o (h m o.key o w) := by
      simp only [Manager.templateWiring, List.mem_cons, List.not_mem_nil, or_false] at hmem
      rcases hmem with rfl | rfl
      · exact Template.kept_resolveDefault hk
      · exact Template.kept_syncLatest hk
    exact hkept.operations
  · intro h hmem m k o w hk
    simp only [Manager.templateWiring, List.mem_singleton] at hmem
    subst hmem
    exact ⟨[], congrArg Stores.templates (Template.forgotten w k o m.time).2.stores⟩

def hopeful : Template := ⟨.named "models" "llama", ⟨none, some "v1"⟩, .empty⟩

def hopefulWorld : World :=
  World.empty.withTemplates ((Store.empty .template).after [.create hopeful ⟨1⟩ default])

def hopefulWiring : Wiring World TemplateSpec TemplateStatus :=
  Manager.templateWiring (World.siteFor fun _ => .ok "config")

/-- The first delivery writes that the version is missing, and the second one finds nothing to
do. -/
theorem rest_undisturbed_hopeful :
    ∃ s : ControllerDeliveries World TemplateSpec TemplateStatus, ∃ o : Template,
      Run hopefulWiring (fun w =>
        w.stores.templates) (opening hopefulWiring .standard hopefulWorld) s ∧
      s.world.stores.templates.get? hopeful.key = some o ∧ o.metadata.resourceVersion = 2 ∧
      ∃ d, s.last hopeful.key = some d ∧ d.calls = [(o, .ok .unchanged), (o, .ok .unchanged)] := by
  have hc : hopefulWiring.Candid fun w => w.stores.templates :=
    templateWiring_candid fun _ => .ok "config"
  have hstart := run_start hc.toServes .standard default hopefulWorld
  obtain ⟨jobs₁, last₁, hfirst⟩ := hstart.workOne? (m := default) rfl
  have hevent := hfirst.feedOne? (m := default) hc.toServes rfl rfl
  obtain ⟨jobs₂, last₂, hsecond⟩ := hevent.workOne? (m := default) rfl
  have hmade : Store.make? .template Store.defaultWatchCapacity =
    some (Store.empty .template : TemplateStore) := rfl
  obtain ⟨d, hd, -, hcalls⟩ := rest_undisturbed hc hmade rfl hsecond rfl rfl rfl hopeful.key _ rfl
  exact ⟨_, _, hsecond, rfl, rfl, d, hd, hcalls⟩

end ControllerDeliveries
end ModelTemplates
