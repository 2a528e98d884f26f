import ModelTemplates.Controller
import ModelTemplates.Proofs.Channel.Unread
import ModelTemplates.Proofs.Store.Client
import ModelTemplates.Proofs.WorkQueue.Orderly
/-! Which keys a controller still has before it. A write makes its key pending, and only the
hand-out of the key ends that. A key with which a worker broke off stays pending for ever. -/
namespace ModelTemplates

variable {σ τ ω : Type}

namespace Store

variable {d d' : Store σ τ}

inductive Moves (d : Store σ τ) : Store σ τ → Prop where
  | still : Moves d d
  | wrote {d' : Store σ τ} (e : WatchEvent σ τ) : d'.watch = d.watch.send e →
      (∀ k, k ≠ e.key → d'.get? k = d.get? k) → (d.Keyed → d'.Keyed) → Moves d d'

theorem moves_put (d : Store σ τ) (o : Object σ τ) : d.Moves (d.put o) :=
  .wrote (.applied o) rfl (fun k hk => (put_get? d o k).trans (if_neg hk)) fun h => h.put o

theorem moves_without (d : Store σ τ) (o : Object σ τ) (now : Timestamp) :
    d.Moves (d.without o now) :=
  .wrote (.deleted (buried o now)) rfl (fun k hk =>
    (without_get? d o now k).trans (if_neg hk)) fun h =>
    h.without o now

theorem Moves.keyed (hm : d.Moves d') (h : d.Keyed) : d'.Keyed := by
  cases hm with
  | still => exact h
  | wrote _ _ _ hk => exact hk h

theorem Moves.unread (hm : d.Moves d') {p : Nat} (hf : d.watch.Followed p)
    {P : WatchEvent σ τ → Prop} (hu : d.watch.Unread p P) : d'.watch.Unread p P := by
  cases hm with
  | still => exact hu
  | wrote e hw _ _ =>
    rw [hw]
    exact hu.send hf e

theorem Served.moves [DecidableEq σ] {c : Call σ τ} (h : Served d c d') : d.Moves d' := by
  cases h with
  | refused => exact .still
  | created _ => exact moves_put _ _
  | updated _ => exact moves_put _ _
  | deleted _ => exact moves_without _ _ _

end Store

namespace Controller

variable {c c' : Controller σ τ} {d d' : Store σ τ} {busy before after : List Key}
  {j k : Key} {m : Moment}

/-- A key that will be handed out, at the latest when the watch has been read, or one with which a
worker broke off. -/
def Pending (c : Controller σ τ) (d : Store σ τ) (k : Key) : Prop :=
  (c.queue.Coming k ∨ k ∈ c.abandoned) ∨ d.watch.Unread c.position fun e => e.key = k

/-- The queue is in order while the keys `busy` are worked on, whether their workers broke off or
not, and the watch is followed. -/
structure Follows (c : Controller σ τ) (d : Store σ τ) (busy : List Key) : Prop where
  queue : c.queue.Orderly busy
  watch : d.watch.Followed c.position
  abandoned : ∀ k ∈ c.abandoned, k ∈ busy

theorem Follows.moves (h : c.Follows d busy) (hm : d.Moves d') : c.Follows d' busy := by
  cases hm with
  | still => exact h
  | wrote e hw _ _ => exact ⟨h.queue, hw ▸ h.watch.send e, h.abandoned⟩

theorem Pending.map (hp : c.Pending d k) (hq : c.queue.Coming k → c'.queue.Coming k)
    (ha : c'.abandoned = c.abandoned) (hpos : c'.position = c.position) : c'.Pending d k := by
  unfold Pending at hp ⊢
  rw [ha, hpos]
  exact hp.imp_left (Or.imp_left hq)

theorem Pending.moves (hp : c.Pending d k) (h : c.Follows d busy) (hm : d.Moves d') :
    c.Pending d' k :=
  hp.imp_right (hm.unread h.watch)

theorem same_or_pending (h : c.Follows d busy) (hm : d.Moves d') (k : Key) :
    d'.get? k = d.get? k ∨ c.Pending d' k := by
  cases hm with
  | still => exact .inl rfl
  | wrote e hw hd _ =>
    by_cases hk : k = e.key
    · right
      right
      rw [hw]
      exact Channel.unread_send h.watch hk.symm
    · exact .inl (hd k hk)

theorem pending_put (h : c.Follows d busy) (o : Object σ τ) : c.Pending (d.put o) o.key :=
  .inr (Channel.unread_send h.watch rfl)

theorem Follows.onQueue (h : c.Follows d busy) {f : WorkQueue → WorkQueue} {busy' : List Key}
    (hq : (f c.queue.queue).Orderly busy') (hw : (f c.queue.queue).waiting = c.queue.queue.waiting)
    (hb : ∀ k ∈ c.abandoned, k ∈ busy') : (c.onQueue f).Follows d busy' :=
  ⟨h.queue.modify hq hw, h.watch, hb⟩

theorem waiting_addAll (q : WorkQueue) (ks : List Key) : (q.addAll ks).waiting = q.waiting := by
  unfold WorkQueue.addAll
  induction ks generalizing q with
  | nil => rfl
  | cons k ks ih => exact (ih _).trans (q.add_waiting k)

theorem Follows.addAll (h : c.Follows d busy) (ks : List Key) :
    (c.onQueue (·.addAll ks)).Follows d busy :=
  h.onQueue (h.queue.queue.addAll ks) (waiting_addAll _ _) h.abandoned

theorem coming_addAll (h : c.Follows d busy) (ks : List Key) :
    (c.onQueue (·.addAll ks)).queue.Coming k ↔ k ∈ ks ∨ c.queue.Coming k := by
  simp only [TimedQueue.Coming, onQueue, TimedQueue.modify,
    WorkQueue.mem_addAll_dirty h.queue.queue.opened, or_assoc]

theorem Pending.addAll (hp : c.Pending d k) (h : c.Follows d busy) (ks : List Key) :
    (c.onQueue (·.addAll ks)).Pending d k :=
  hp.map (fun hk => (coming_addAll h ks).mpr (.inr hk)) rfl rfl

theorem Follows.abandon (h : c.Follows d busy) (hk : k ∈ busy) : (c.abandon k).Follows d busy :=
  ⟨h.queue, h.watch, List.forall_mem_cons.mpr ⟨hk, h.abandoned⟩⟩

theorem pending_abandon (c : Controller σ τ) (d : Store σ τ) (k : Key) :
    (c.abandon k).Pending d k :=
  .inl (.inr List.mem_cons_self)

theorem Pending.abandon (hp : c.Pending d j) (k : Key) : (c.abandon k).Pending d j :=
  hp.imp_left (Or.imp_right (List.mem_cons_of_mem _))

theorem Follows.retry (h : c.Follows d busy) (hk : k ∈ busy) (m : Moment) :
    (c.retry m k).Follows d busy ∧ (c.retry m k).Pending d k ∧
      ∀ j, c.Pending d j → (c.retry m k).Pending d j := by
  unfold Controller.retry
  split
  · next q hq =>
    obtain ⟨hqueue, hback, hkept⟩ := h.queue.fail hq
    exact ⟨⟨hqueue, h.watch, h.abandoned⟩, .inl (.inl hback), fun j hp => hp.map (hkept j) rfl rfl⟩
  · exact ⟨h.abandon hk, pending_abandon c d k, fun j hp => hp.abandon k⟩

theorem Follows.fire (h : c.Follows d busy) (m : Moment) : (c.fire m).Follows d busy :=
  ⟨(h.queue.fire m.elapsed).1, h.watch, h.abandoned⟩

theorem Pending.fire (hp : c.Pending d k) (h : c.Follows d busy) (m : Moment) :
    (c.fire m).Pending d k :=
  hp.map ((h.queue.fire m.elapsed).2 k) rfl rfl

theorem Follows.done (h : c.Follows d (before ++ k :: after)) (hk : k ∉ c.abandoned) :
    (c.onQueue (·.done k)).Follows d (before ++ after) := by
  refine h.onQueue h.queue.queue.done (c.queue.queue.done_waiting k) fun j hj => ?_
  have hne : j ≠ k := by
    rintro rfl
    exact hk hj
  simpa [hne] using h.abandoned j hj

theorem Pending.done (hp : c.Pending d j) (k : Key) : (c.onQueue (·.done k)).Pending d j := by
  refine hp.map (fun hj => hj.imp_left fun hd => ?_) rfl rfl
  change j ∈ (c.queue.queue.done k).dirty
  rwa [WorkQueue.done_dirty]

theorem Follows.take (h : c.Follows d busy) {q : WorkQueue}
    (ht : c.queue.queue.take? = some (k, q)) :
    (c.onQueue fun _ => q).Follows d (k :: busy) ∧ ∀ j, c.Pending d j → j = k ∨
      (c.onQueue fun _ => q).Pending d j := by
  obtain ⟨hq, hd⟩ := h.queue.queue.take ht
  obtain ⟨-, -, hw, -⟩ := WorkQueue.of_take?_eq_some ht
  have hbusy (j : Key) (hj : j ∈ c.abandoned) : j ∈ k :: busy :=
    List.mem_cons_of_mem _ (h.abandoned j hj)
  refine ⟨h.onQueue (f := fun _ => q) hq hw hbusy, fun j hp => ?_⟩
  by_cases hj : j = k
  · exact .inl hj
  · exact .inr (hp.map (fun hc => hc.imp_left fun hk => (hd j).mpr ⟨hk, hj⟩) rfl rfl)

theorem foldl_meet (os : List (Object σ τ)) (c : Controller σ τ) :
    (os.foldl meet c).queue = (c.onQueue (·.addAll (os.map Object.key))).queue ∧
      (os.foldl meet c).position = c.position ∧ (os.foldl meet c).abandoned = c.abandoned := by
  induction os generalizing c with
  | nil => exact ⟨rfl, rfl, rfl⟩
  | cons o os ih => exact ih (c.meet o)

theorem foldl_bury (os : List (Object σ τ)) (c : Controller σ τ) :
    (os.foldl bury c).queue = (c.onQueue (·.addAll (os.map Object.key))).queue ∧
      (os.foldl bury c).position = c.position ∧ (os.foldl bury c).abandoned = c.abandoned := by
  induction os generalizing c with
  | nil => exact ⟨rfl, rfl, rfl⟩
  | cons o os ih => exact ih (c.bury o)

theorem Follows.congr (h : c.Follows d busy) (hq : c'.queue = c.queue)
    (hp : c'.position = c.position) (ha : c'.abandoned = c.abandoned) : c'.Follows d busy :=
  ⟨hq ▸ h.queue, hp ▸ h.watch, ha ▸ h.abandoned⟩

theorem reconcileWith_position (c : Controller σ τ) (now : Timestamp) (os : List (Object σ τ)) :
    (c.reconcileWith now os).position = c.position :=
  (foldl_meet os _).2.1.trans (foldl_bury _ c).2.1

/-- A new list queues all that is listed, and drops nothing that waits. -/
theorem Follows.reconcileWith (h : c.Follows d busy) (now : Timestamp)
    (listed : List (Object σ τ)) :
    (c.reconcileWith now listed).Follows d busy ∧
      (∀ o ∈ listed, (c.reconcileWith now listed).queue.Coming o.key) ∧
      ∀ k, c.Pending d k → (c.reconcileWith now listed).Pending d k := by
  unfold Controller.reconcileWith
  simp only
  generalize hg : List.map (vanished now) _ = gone
  obtain ⟨hbq, hbp, hba⟩ := foldl_bury gone c
  obtain ⟨hmq, hmp, hma⟩ := foldl_meet listed (gone.foldl bury c)
  have hb : (gone.foldl bury c).Follows d busy := (h.addAll _).congr hbq hbp hba
  refine ⟨(hb.addAll _).congr hmq hmp hma, fun o ho => ?_, fun k hp => ?_⟩
  · rw [hmq]
    exact (coming_addAll hb _).mpr (.inl (List.mem_map_of_mem ho))
  · refine hp.map (fun hk => ?_) (hma.trans hba) (hmp.trans hbp)
    rw [hmq]
    refine (coming_addAll hb _).mpr (.inr ?_)
    rw [hbq]
    exact (coming_addAll h _).mpr (.inr hk)

/-- A controller lists and watches one store of its world. -/
structure Wiring.Serves (wiring : Wiring ω σ τ) (store : ω → Store σ τ) : Prop where
  watch : ∀ w, wiring.watch w = (store w).watch
  list : ∀ w, wiring.list w = (.ok (store w).all, w)

variable {wiring : Wiring ω σ τ} {store : ω → Store σ τ} {w w' : ω}

theorem observe_eq (c : Controller σ τ) (e : WatchEvent σ τ) :
    (c.observe e).queue = (c.onQueue (·.addAll [e.key])).queue ∧
      (c.observe e).position = c.position ∧ (c.observe e).abandoned = c.abandoned := by
  cases e <;> exact ⟨rfl, rfl, rfl⟩

theorem feedOne?_world (hs : wiring.Serves store) (hf : feedOne? wiring m c w = some (c', w')) :
    w' = w := by
  unfold feedOne? at hf
  split at hf
  · exact (congrArg Prod.snd (Option.some.inj hf)).symm
  · rw [relist, hs.list] at hf
    exact (congrArg Prod.snd (Option.some.inj hf)).symm
  · contradiction
  · contradiction

/-- An event that is read makes its key wait, and leaves every other key as pending as it was. -/
theorem Follows.observe (h : c.Follows d busy) {e : WatchEvent σ τ} {p : Nat}
    (hr : d.watch.receive c.position = (.item e, p)) :
    ({ c with position := p }.observe e).Follows d busy ∧
      ({ c with position := p }.observe e).queue.Coming e.key ∧
      (∀ k, c.Pending d k → ({ c with position := p }.observe e).Pending d k) ∧
      ∀ {P : WatchEvent σ τ → Prop}, d.watch.Unread c.position P →
        P e ∨ d.watch.Unread ({ c with position := p }.observe e).position P := by
  obtain ⟨hw, hu⟩ := Channel.receive_item hr h.watch
  have hc : ({ c with position := p } : Controller σ τ).Follows d busy := ⟨h.queue, hw, h.abandoned⟩
  obtain ⟨hq, hp, ha⟩ := observe_eq { c with position := p } e
  have hcoming (k : Key) (hk : k = e.key ∨ c.queue.Coming k) :
      ({ c with position := p }.observe e).queue.Coming k := by
    rw [hq]
    exact (coming_addAll hc _).mpr (hk.imp_left List.mem_singleton.mpr)
  rw [hp]
  refine ⟨(hc.addAll _).congr hq hp ha, hcoming _ (.inl rfl), fun k hpend => ?_,
    fun hunread => hu hunread⟩
  rcases hpend with (hk | hk) | hunread
  · exact .inl (.inl (hcoming k (.inr hk)))
  · left
    right
    rw [ha]
    exact hk
  · rcases hu hunread with he | hunread
    · exact .inl (.inl (hcoming k (.inl he.symm)))
    · right
      rw [hp]
      exact hunread

/-- As long as nothing is missed, the watch is followed event by event. -/
theorem feedOne?_item (hs : wiring.Serves store) (hf : feedOne? wiring m c w = some (c', w'))
    (hl : (wiring.watch w).oldest ≤ c.position) :
    w' = w ∧ ∃ e p, (store w).watch.receive c.position = (.item e, p) ∧
      c' = { c with position := p }.observe e := by
  unfold feedOne? at hf
  rw [hs.watch] at hf hl
  split at hf
  · next e p hr =>
    obtain ⟨rfl, rfl⟩ := Prod.mk.inj (Option.some.inj hf)
    exact ⟨rfl, e, p, hr, rfl⟩
  · next n p hr =>
    unfold Channel.receive at hr
    rw [if_neg (Nat.not_lt.mpr hl)] at hr
    split at hr
    · simp at hr
    · split at hr <;> simp at hr
  · contradiction
  · contradiction

/-- To follow the watch by one event leaves every key of a live object pending that was so. -/
theorem Follows.feed (h : c.Follows (store w) busy) (hs : wiring.Serves store)
    (hk : (store w).Keyed) (hf : feedOne? wiring m c w = some (c', w')) :
    c'.Follows (store w) busy ∧
      ∀ k o, (store w).get? k = some o → c.Pending (store w) k → c'.Pending (store w) k := by
  unfold feedOne? at hf
  rw [hs.watch] at hf
  split at hf
  · next e p hr =>
    obtain ⟨rfl, rfl⟩ := Prod.mk.inj (Option.some.inj hf)
    obtain ⟨hfollows, -, hpending, -⟩ := h.observe hr
    exact ⟨hfollows, fun k _ _ => hpending k⟩
  · next n p hr =>
    rw [relist, hs.list] at hf
    obtain ⟨rfl, rfl⟩ := Prod.mk.inj (Option.some.inj hf)
    have hc : ({ c with position := p } : Controller σ τ).Follows (store w) busy :=
      ⟨h.queue, Channel.receive_lagged hr h.watch, h.abandoned⟩
    refine ⟨(hc.reconcileWith m.time _).1, fun k o ho _ => .inl (.inl ?_)⟩
    have hlisted := (hc.reconcileWith m.time (store w).all).2.1 o (Store.mem_all_iff.mpr ⟨k, ho⟩)
    rwa [hk k o ho] at hlisted
  · contradiction
  · contradiction

theorem follows_start (hs : wiring.Serves store) (hk : (store w).Keyed)
    (hwatch : (store w).watch.kept.length ≤ (store w).watch.sent) (hq : c.queue.Orderly [])
    (ha : c.abandoned = []) :
    ∃ c', Controller.start wiring m c w = (none, c', w) ∧ c'.Follows (store w) [] ∧
      ∀ k o, (store w).get? k = some o → c'.Pending (store w) k := by
  have hc :
      ({ c with position := (wiring.watch w).subscribe } : Controller σ τ).Follows (store w) [] :=
    ⟨hq, by rw [hs.watch]; exact Channel.followed_subscribe hwatch, by simp [ha]⟩
  refine ⟨_, ?_, (hc.reconcileWith m.time (store w).all).1, fun k o ho => .inl (.inl ?_)⟩
  · rw [Controller.start, relist, hs.list]
  · have := (hc.reconcileWith m.time (store w).all).2.1 o (Store.mem_all_iff.mpr ⟨k, ho⟩)
    rwa [hk k o ho] at this

/-- A controller that is idle and has read its watch has nothing before it. -/
theorem Follows.idle (h : c.Follows (store w) busy) (hs : wiring.Serves store)
    (hi : c.isIdle = true) (hd : waiting wiring c w = 0) :
    busy = [] ∧ ∀ k, ¬ c.Pending (store w) k := by
  obtain ⟨hb, hc⟩ := h.queue.idle hi
  rw [waiting, hs.watch] at hd
  refine ⟨hb, fun k hk => ?_⟩
  rcases hk with (hk | hk) | hk
  · exact hc k hk
  · simpa [hb] using h.abandoned k hk
  · exact Channel.not_unread_of_drained hd h.watch hk

end Controller
end ModelTemplates
