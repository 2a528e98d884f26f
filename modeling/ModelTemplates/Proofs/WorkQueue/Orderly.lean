import Mathlib.Data.List.Nodup
import ModelTemplates.WorkQueue.Timed
/-! No key that is added to an open queue is lost: it waits, or is worked on and comes back when
that is done. -/
namespace ModelTemplates

namespace WorkQueue

variable {q r : WorkQueue} {busy before after : List Key} {j k : Key}

/-- What an open queue keeps while the keys `busy` are worked on. -/
structure Orderly (q : WorkQueue) (busy : List Key) : Prop where
  opened : q.closed = false
  ready : ∀ k, k ∈ q.ready ↔ k ∈ q.dirty ∧ k ∉ q.processing
  once : q.ready.Nodup
  processing : ∀ k, k ∈ q.processing ↔ k ∈ busy
  apart : busy.Nodup

theorem orderly_empty (retry : RetryPolicy) : (empty retry).Orderly [] :=
  ⟨rfl, fun _ => by simp [empty], List.nodup_nil, fun _ => Iff.rfl, List.nodup_nil⟩

theorem mem_add_dirty (h : q.closed = false) : j ∈ (q.add k).dirty ↔ j = k ∨ j ∈ q.dirty := by
  unfold add
  split
  · next hc =>
    have hk : k ∈ q.dirty := by simpa [h] using hc
    constructor
    · exact .inr
    · rintro (rfl | hj)
      · exact hk
      · exact hj
  · split <;> exact List.mem_cons

theorem Orderly.add (h : q.Orderly busy) (k : Key) : (q.add k).Orderly busy := by
  unfold WorkQueue.add
  split
  · exact h
  next hn =>
    have hk : k ∉ q.dirty := fun hk => hn (.inr hk)
    split
    · next hp =>
      refine ⟨h.opened, fun j => ?_, h.once, h.processing, h.apart⟩
      rw [h.ready, List.mem_cons]
      constructor
      · exact fun hj => ⟨.inr hj.1, hj.2⟩
      · rintro ⟨rfl | hj, hjp⟩
        · exact absurd hp hjp
        · exact ⟨hj, hjp⟩
    · next hp =>
      refine ⟨h.opened, fun j => ?_, ?_, h.processing, h.apart⟩
      · rw [List.mem_append, List.mem_singleton, h.ready, List.mem_cons]
        constructor
        · rintro (hj | rfl)
          · exact ⟨.inr hj.1, hj.2⟩
          · exact ⟨.inl rfl, hp⟩
        · rintro ⟨rfl | hj, hjp⟩
          · exact .inr rfl
          · exact .inl ⟨hj, hjp⟩
      · rw [List.nodup_append]
        refine ⟨h.once, List.nodup_singleton k, fun a ha b hb => ?_⟩
        rintro rfl
        rw [List.mem_singleton.mp hb, h.ready] at ha
        exact hk ha.1

theorem Orderly.addAll (h : q.Orderly busy) (ks : List Key) : (q.addAll ks).Orderly busy := by
  unfold WorkQueue.addAll
  induction ks generalizing q with
  | nil => exact h
  | cons k ks ih => exact ih (h.add k)

theorem closed_add (q : WorkQueue) (k : Key) : (q.add k).closed = q.closed := by
  unfold add
  split
  · rfl
  · split <;> rfl

theorem mem_addAll_dirty (h : q.closed = false) {ks : List Key} :
    j ∈ (q.addAll ks).dirty ↔ j ∈ ks ∨ j ∈ q.dirty := by
  unfold addAll
  induction ks generalizing q with
  | nil => simp
  | cons k ks ih =>
    rw [List.foldl_cons, ih (by rw [closed_add, h]), mem_add_dirty h, List.mem_cons, or_assoc,
      or_left_comm]

theorem add_waiting (q : WorkQueue) (k : Key) : (q.add k).waiting = q.waiting := by
  unfold add
  split
  · rfl
  · split <;> rfl

theorem done_waiting (q : WorkQueue) (k : Key) : (q.done k).waiting = q.waiting := by
  unfold done
  simp only
  split <;> rfl

/-- A hand-out happens on an open queue, and takes the key off what was added. -/
theorem of_take?_eq_some (ht : q.take? = some (k, r)) :
    q.closed = false ∧ r.closed = false ∧ r.waiting = q.waiting ∧
      r.dirty = q.dirty.filter (· ≠ k) := by
  unfold take? at ht
  split at ht
  · contradiction
  next hc =>
    have hopen : q.closed = false := by simpa using hc
    split at ht
    · contradiction
    · obtain ⟨rfl, rfl⟩ := Prod.mk.inj (Option.some.inj ht)
      exact ⟨hopen, hopen, rfl, rfl⟩

theorem Orderly.take (h : q.Orderly busy) (ht : q.take? = some (k, r)) :
    r.Orderly (k :: busy) ∧ (∀ j, j ∈ r.dirty ↔ j ∈ q.dirty ∧ j ≠ k) := by
  unfold take? at ht
  rw [if_neg (by simp [h.opened])] at ht
  split at ht
  · contradiction
  next j ks hr =>
    obtain ⟨rfl, rfl⟩ := Prod.mk.inj (Option.some.inj ht)
    have hj : j ∈ q.dirty ∧ j ∉ q.processing := (h.ready j).mp (by simp [hr])
    have honce := h.once
    rw [hr, List.nodup_cons] at honce
    refine ⟨⟨h.opened, fun i => ?_, honce.2, fun i => ?_, ?_⟩, fun i => by simp⟩
    · have hi := h.ready i
      rw [hr, List.mem_cons] at hi
      rw [if_neg hj.2, List.mem_filter, List.mem_cons, decide_eq_true_eq, not_or]
      constructor
      · intro hk
        have hne : i ≠ j := fun e => honce.1 (e ▸ hk)
        obtain ⟨hd, hp⟩ := hi.mp (.inr hk)
        exact ⟨⟨hd, hne⟩, hne, hp⟩
      · rintro ⟨⟨hd, hne⟩, -, hp⟩
        exact (hi.mpr ⟨hd, hp⟩).resolve_left hne
    · rw [if_neg hj.2, List.mem_cons, List.mem_cons, h.processing]
    · exact List.nodup_cons.mpr ⟨fun hb => hj.2 ((h.processing j).mpr hb), h.apart⟩

theorem done_dirty (q : WorkQueue) (k : Key) : (q.done k).dirty = q.dirty := by
  unfold done
  simp only
  split <;> rfl

theorem Orderly.done (h : q.Orderly (before ++ k :: after)) :
    (q.done k).Orderly (before ++ after) := by
  have hb := List.nodup_middle.mp h.apart
  rw [List.nodup_cons] at hb
  have hmem (j : Key) : j ∈ q.processing.filter (· ≠ k) ↔ j ∈ before ++ after := by
    rw [List.mem_filter, h.processing, List.mem_append, List.mem_cons, List.mem_append,
      decide_eq_true_eq]
    constructor
    · rintro ⟨hj | rfl | hj, hne⟩
      · exact .inl hj
      · exact absurd rfl hne
      · exact .inr hj
    · intro hj
      have hne : j ≠ k := fun e => hb.1 (e ▸ List.mem_append.mpr hj)
      exact ⟨hj.imp_right .inr, hne⟩
  have hk : k ∈ q.processing := (h.processing k).mpr (by simp)
  unfold WorkQueue.done
  simp only [h.opened, Bool.false_eq_true, not_false_eq_true, and_true]
  split
  · next hd =>
    refine ⟨rfl, fun j => ?_, ?_, hmem, hb.2⟩
    · rw [List.mem_append, List.mem_singleton, h.ready, List.mem_filter, decide_eq_true_eq]
      by_cases hj : j = k
      · simp [hj, hd]
      · simp [hj]
    · rw [List.nodup_append]
      refine ⟨h.once, List.nodup_singleton k, fun a ha b hb => ?_⟩
      rintro rfl
      rw [List.mem_singleton.mp hb, h.ready] at ha
      exact ha.2 hk
  · next hd =>
    refine ⟨rfl, fun j => ?_, h.once, hmem, hb.2⟩
    rw [h.ready, List.mem_filter, decide_eq_true_eq]
    by_cases hj : j = k
    · simp [hj, hd]
    · simp [hj]

theorem Orderly.congr (h : q.Orderly busy) (hc : r.closed = q.closed) (hr : r.ready = q.ready)
    (hd : r.dirty = q.dirty) (hp : r.processing = q.processing) : r.Orderly busy :=
  ⟨hc.trans h.opened, by rw [hr, hd, hp]; exact h.ready, hr ▸ h.once,
    by rw [hp]; exact h.processing, h.apart⟩

/-- A failure that is counted moves no key, and sets a timer unless the queue is closed. -/
theorem of_fail_eq_some {wait : Option Duration} (hf : q.fail k = some (wait, r)) :
    r.closed = q.closed ∧ r.ready = q.ready ∧ r.dirty = q.dirty ∧ r.processing = q.processing ∧
      wait.isSome = !q.closed ∧ r.waiting = q.waiting + if wait.isSome then 1 else 0 := by
  unfold fail at hf
  split at hf
  · next hc =>
    obtain ⟨rfl, rfl⟩ := Prod.mk.inj (Option.some.inj hf)
    exact ⟨rfl, rfl, rfl, rfl, by simp [hc], rfl⟩
  · next hc =>
    obtain ⟨n, -, he⟩ := Option.map_eq_some_iff.mp hf
    obtain ⟨rfl, rfl⟩ := Prod.mk.inj he
    exact ⟨rfl, rfl, rfl, rfl, by simp [hc], rfl⟩

theorem Orderly.fail {wait : Option Duration} (h : q.Orderly busy)
    (hf : q.fail k = some (wait, r)) :
    r.Orderly busy := by
  obtain ⟨hc, hr, hd, hp, -⟩ := of_fail_eq_some hf
  exact h.congr hc hr hd hp

theorem Orderly.idle (h : q.Orderly busy) (hi : q.isIdle = true) :
    q.dirty = [] ∧ busy = [] ∧ q.waiting = 0 := by
  simp only [isIdle, Bool.and_eq_true, List.isEmpty_iff, decide_eq_true_eq] at hi
  obtain ⟨⟨hr, hp⟩, hw⟩ := hi
  refine ⟨List.eq_nil_iff_forall_not_mem.mpr fun k hk => ?_,
    List.eq_nil_iff_forall_not_mem.mpr fun k hk => ?_, hw⟩
  · have := (h.ready k).mpr ⟨hk, by simp [hp]⟩
    simp [hr] at this
  · have := (h.processing k).mpr hk
    simp [hp] at this

end WorkQueue

namespace TimedQueue

variable {q r : TimedQueue} {busy : List Key} {k : Key}

/-- Every key that waits for a timer has one. -/
structure Orderly (q : TimedQueue) (busy : List Key) : Prop where
  queue : q.queue.Orderly busy
  timers : q.queue.waiting = q.timers.length

def Coming (q : TimedQueue) (k : Key) : Prop := k ∈ q.queue.dirty ∨ ∃ t ∈ q.timers, t.key = k

theorem orderly_empty (retry : RetryPolicy) : (empty retry).Orderly [] :=
  ⟨WorkQueue.orderly_empty retry, rfl⟩

theorem mem_arm {t u : Timer} {ts : List Timer} : u ∈ arm t ts ↔ u = t ∨ u ∈ ts := by
  induction ts with
  | nil => simp [arm]
  | cons v vs ih =>
    unfold arm
    split
    · exact List.mem_cons
    · rw [List.mem_cons, ih, List.mem_cons, or_left_comm]

theorem length_arm (t : Timer) (ts : List Timer) : (arm t ts).length = ts.length + 1 := by
  induction ts with
  | nil => rfl
  | cons u us ih =>
    unfold arm
    split
    · rfl
    · rw [List.length_cons, ih, List.length_cons]

theorem Orderly.fail (h : q.Orderly busy) {now : Nat} (hf : q.fail now k = some r) :
    r.Orderly busy ∧ r.Coming k ∧ ∀ j, q.Coming j → r.Coming j := by
  unfold TimedQueue.fail at hf
  split at hf
  · next wait queue hq =>
    obtain rfl := Option.some.inj hf
    obtain ⟨-, -, hd, -, -, hw⟩ := WorkQueue.of_fail_eq_some hq
    refine ⟨⟨h.queue.fail hq, ?_⟩, .inr ⟨_, mem_arm.mpr (.inl rfl), rfl⟩, fun j hj => ?_⟩
    · rw [length_arm, hw, h.timers]
      rfl
    · rcases hj with hj | ⟨t, ht, he⟩
      · exact .inl (hd.symm ▸ hj)
      · exact .inr ⟨t, mem_arm.mpr (.inr ht), he⟩
  · next queue hq =>
    obtain ⟨-, -, -, -, hopen, -⟩ := WorkQueue.of_fail_eq_some hq
    rw [h.queue.opened] at hopen
    contradiction
  · contradiction

theorem Orderly.fire (h : q.Orderly busy) (now : Nat) :
    (q.fire now).Orderly busy ∧ ∀ j, q.Coming j → (q.fire now).Coming j := by
  obtain ⟨q, ts⟩ := q
  change (fireAll now q ts).Orderly busy ∧ ∀ j, (⟨q, ts⟩ : TimedQueue).Coming j →
    (fireAll now q ts).Coming j
  induction ts generalizing q with
  | nil => exact ⟨h, fun _ => id⟩
  | cons t ts ih =>
    unfold fireAll
    split
    · have hw : q.waiting = ts.length + 1 := h.timers
      have hopen := h.queue.opened
      have hq : (q.wake t.key).Orderly busy :=
        WorkQueue.Orderly.add
          (h.queue.congr (r := { q with waiting := q.waiting - 1 }) rfl rfl rfl rfl) t.key
      have hwaiting : (q.wake t.key).waiting = ts.length :=
        (WorkQueue.add_waiting _ _).trans (Nat.sub_eq_of_eq_add hw)
      obtain ⟨ho, hc⟩ := ih (q.wake t.key) ⟨hq, hwaiting⟩
      have hd (j : Key) : j ∈ (q.wake t.key).dirty ↔ j = t.key ∨ j ∈ q.dirty :=
        WorkQueue.mem_add_dirty hopen
      refine ⟨ho, fun j hj => hc j ?_⟩
      rcases hj with hj | ⟨u, hu, rfl⟩
      · exact .inl ((hd j).mpr (.inr hj))
      · rcases List.mem_cons.mp hu with rfl | hu
        · exact .inl ((hd _).mpr (.inl rfl))
        · exact .inr ⟨u, hu, rfl⟩
    · exact ⟨h, fun _ => id⟩

theorem Orderly.modify (h : q.Orderly busy) {f : WorkQueue → WorkQueue} {busy' : List Key}
    (ho : (f q.queue).Orderly busy') (hw : (f q.queue).waiting = q.queue.waiting) :
    (q.modify f).Orderly busy' :=
  ⟨ho, hw.trans h.timers⟩

theorem Orderly.idle (h : q.Orderly busy) (hi : q.queue.isIdle = true) :
    busy = [] ∧ ∀ k, ¬ q.Coming k := by
  obtain ⟨hd, hb, hw⟩ := h.queue.idle hi
  refine ⟨hb, fun k hk => ?_⟩
  rcases hk with hk | ⟨t, ht, -⟩
  · simp [hd] at hk
  · rw [h.timers, List.length_eq_zero_iff] at hw
    simp [hw] at ht

end TimedQueue
end ModelTemplates
