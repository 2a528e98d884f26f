import Mathlib.Data.List.Nodup
import Mathlib.Logic.Relation
import ModelTemplates.Ledger.Locks
/-! The locks on keys exclude one another, though those that nobody needs are thrown away and made
anew: all who wait for the lock of a key or hold it have to do with one and the same lock, the one
that stands for the key. -/
namespace ModelTemplates

namespace Locks

variable {s t : Locks} {h g : Handle} {j k : Key}

def handlesOf (s : Locks) (k : Key) : List Handle := s.handles.filter fun h => h.key = k

def guards (s : Locks) (k : Key) : List Handle := (s.handlesOf k).filter Handle.holds

theorem mem_handlesOf : h ∈ s.handlesOf k ↔ h ∈ s.handles ∧ h.key = k := by
  simp [handlesOf]

theorem guards_eq_nil_iff : s.guards k = [] ↔ ∀ h ∈ s.handles, h.key = k → h.holds = false := by
  simp only [guards, List.filter_eq_nil_iff, mem_handlesOf, and_imp, Bool.not_eq_true]

inductive Step (s : Locks) : Key → Locks → Prop where
  | request (k : Key) : Step s k (s.request k)
  | acquire {h : Handle} {t : Locks} (hh : h ∈ s.handles) (ht : s.acquire? h.id = some t) :
      Step s h.key t
  | release {h : Handle} (hh : h ∈ s.handles) : Step s h.key (s.release h.id)
  | sweep (k : Key) : Step s k (s.sweep k)

def Reachable (s : Locks) : Prop := Relation.ReflTransGen (fun s t => ∃ k, Step s k t) empty s

/-- Every handle is on the lock that stands for its key, no lock stands for two keys, no number is
used twice, and no two who hold a lock hold it on the same key. -/
structure Exclusive (s : Locks) : Prop where
  shared : ∀ h ∈ s.handles, s.table.find? h.key = some h.lock
  apart : ∀ j k lock, s.table.find? j = some lock → s.table.find? k = some lock → j = k
  locks : ∀ k lock, s.table.find? k = some lock → lock < s.fresh
  ids : ∀ h ∈ s.handles, h.id < s.fresh
  distinct : (s.handles.map Handle.id).Nodup
  alone : s.handles.Pairwise fun g h => g.holds = true → h.holds = true → g.key ≠ h.key

namespace Exclusive

/-- Those who have to do with the lock that stands for a key are those who have to do with the
key. -/
theorem lock_eq_iff {lock : Nat} (hs : s.Exclusive) (hk : s.table.find? k = some lock)
    (hh : h ∈ s.handles) :
    h.lock = lock ↔ h.key = k := by
  have hl := hs.shared h hh
  constructor
  · intro he
    rw [he] at hl
    exact hs.apart _ _ _ hl hk
  · intro he
    rw [he, hk] at hl
    exact (Option.some.inj hl).symm

theorem id_inj (hs : s.Exclusive) (hg : g ∈ s.handles) (hh : h ∈ s.handles) (hi : g.id = h.id) :
    g = h :=
  List.inj_on_of_nodup_map hs.distinct hg hh hi

theorem handle?_eq (hs : s.Exclusive) (hh : h ∈ s.handles) : s.handle? h.id = some h := by
  unfold handle?
  cases hf : s.handles.find? fun g => g.id = h.id with
  | none => exact absurd (List.find?_eq_none.mp hf h hh) (by simp)
  | some g =>
    have hid : g.id = h.id := by simpa using List.find?_some hf
    rw [hs.id_inj (List.mem_of_find?_eq_some hf) hh hid]

theorem isFree_iff (hs : s.Exclusive) (hh : h ∈ s.handles) :
    s.isFree h.lock = true ↔ s.guards h.key = [] := by
  rw [guards_eq_nil_iff, isFree, List.all_eq_true]
  apply forall₂_congr
  intro g hg
  have hlock := hs.lock_eq_iff (hs.shared h hh) hg
  simp [hlock, Classical.or_iff_not_imp_left]

end Exclusive

def Handle.granted (id : Nat) (h : Handle) : Handle :=
  if h.id = id then { h with holds := true } else h

@[simp] theorem id_granted (id : Nat) (h : Handle) : (h.granted id).id = h.id := by
  unfold Handle.granted; split <;> rfl

@[simp] theorem key_granted (id : Nat) (h : Handle) : (h.granted id).key = h.key := by
  unfold Handle.granted; split <;> rfl

@[simp] theorem lock_granted (id : Nat) (h : Handle) : (h.granted id).lock = h.lock := by
  unfold Handle.granted; split <;> rfl

theorem granted_of_ne {id : Nat} (hi : h.id ≠ id) : h.granted id = h := if_neg hi

def held (s : Locks) (id : Nat) : Locks := { s with handles := s.handles.map (Handle.granted id) }

/-- Whoever asks for a lock comes to hold it exactly when nobody holds the lock of that key. -/
theorem Exclusive.acquire?_eq (hs : s.Exclusive) (hh : h ∈ s.handles) :
    s.acquire? h.id = if s.guards h.key = [] then some (s.held h.id) else none := by
  simp only [acquire?, hs.handle?_eq hh, hs.isFree_iff hh]
  rfl

theorem Exclusive.sweep_eq (hs : s.Exclusive) (k : Key) :
    s.sweep k = if s.handlesOf k = [] then { s with table := s.table.erase k } else s := by
  unfold sweep
  cases hk : s.table.find? k with
  | none =>
    have herase : s.table.erase k = s.table := by
      apply Table.ext_find?
      intro j
      rw [Table.find?_erase]
      split
      · next hj => rw [hj, hk]
      · rfl
    simp [herase]
  | some lock =>
    have hany : (s.handles.any fun h => h.lock = lock) = true ↔ ¬ s.handlesOf k = [] := by
      rw [List.any_eq_true, ← ne_eq, ← List.length_pos_iff, List.length_pos_iff_exists_mem]
      apply exists_congr
      intro h
      rw [mem_handlesOf]
      apply and_congr_right
      intro hh
      rw [decide_eq_true_eq, hs.lock_eq_iff hk hh]
    simp only [hany, ite_not]

theorem exclusive_empty : Exclusive empty := by
  constructor <;> simp [empty]

namespace Exclusive

theorem lockOf_eq (hs : s.Exclusive) (hh : h ∈ s.handles) : s.lockOf h.key = h.lock := by
  rw [lockOf, hs.shared h hh, Option.getD_some]

theorem lockOf_lt (hs : s.Exclusive) (k : Key) : s.lockOf k < s.fresh + 1 := by
  unfold lockOf
  cases hk : s.table.find? k with
  | none => exact Nat.lt_succ_self _
  | some lock => exact Nat.lt_succ_of_lt (hs.locks k lock hk)

theorem eq_of_find?_eq_lockOf (hs : s.Exclusive) (hj : s.table.find? j = some (s.lockOf k)) :
    j = k := by
  unfold lockOf at hj
  cases hk : s.table.find? k with
  | none =>
    rw [hk] at hj
    exact absurd (hs.locks j _ hj) (Nat.lt_irrefl _)
  | some lock =>
    rw [hk] at hj
    exact hs.apart _ _ _ hj hk

theorem request (hs : s.Exclusive) (k : Key) : (s.request k).Exclusive := by
  unfold Locks.request
  constructor
  · intro h hh
    rw [Table.find?_insert]
    rcases List.mem_append.mp hh with hh | hh
    · split
      · next hk => rw [← hk, hs.lockOf_eq hh]
      · exact hs.shared h hh
    · obtain rfl := List.mem_singleton.mp hh
      exact if_pos rfl
  · intro i j lock hi hj
    rw [Table.find?_insert] at hi hj
    split at hi <;> split at hj
    · next hik hjk => rw [hik, hjk]
    · next hik hjk =>
      rw [← Option.some.inj hi] at hj
      exact absurd (hs.eq_of_find?_eq_lockOf hj) hjk
    · next hik hjk =>
      rw [← Option.some.inj hj] at hi
      exact absurd (hs.eq_of_find?_eq_lockOf hi) hik
    · exact hs.apart _ _ _ hi hj
  · intro j lock hj
    rw [Table.find?_insert] at hj
    split at hj
    · rw [← Option.some.inj hj]
      exact hs.lockOf_lt k
    · exact Nat.lt_succ_of_lt (hs.locks j lock hj)
  · intro h hh
    rcases List.mem_append.mp hh with hh | hh
    · exact Nat.lt_succ_of_lt (hs.ids h hh)
    · obtain rfl := List.mem_singleton.mp hh
      exact Nat.lt_succ_self _
  · have hnew : s.fresh ∉ s.handles.map Handle.id := by
      intro hmem
      obtain ⟨h, hh, hid⟩ := List.mem_map.mp hmem
      exact absurd (hs.ids h hh) (by rw [hid]; exact Nat.lt_irrefl _)
    rw [List.map_append, List.map_singleton, ← List.concat_eq_append]
    exact hs.distinct.concat hnew
  · apply List.pairwise_append.mpr
    refine ⟨hs.alone, List.pairwise_singleton _ _, ?_⟩
    intro g _ h hh _ hhold
    obtain rfl := List.mem_singleton.mp hh
    exact absurd hhold Bool.false_ne_true

theorem held (hs : s.Exclusive) (hh : h ∈ s.handles) (hfree : s.guards h.key = []) :
    (s.held h.id).Exclusive := by
  have hnobody := guards_eq_nil_iff.mp hfree
  unfold Locks.held
  constructor
  · intro g hg
    obtain ⟨g, hold, rfl⟩ := List.mem_map.mp hg
    simpa using hs.shared g hold
  · exact hs.apart
  · exact hs.locks
  · intro g hg
    obtain ⟨g, hold, rfl⟩ := List.mem_map.mp hg
    simpa using hs.ids g hold
  · have hids : Handle.id ∘ Handle.granted h.id = Handle.id := funext (id_granted h.id)
    rw [List.map_map, hids]
    exact hs.distinct
  · -- Whoever else holds the lock of that key would have kept it from being granted.
    have hother : ∀ g ∈ s.handles, g.id ≠ h.id → (g.granted h.id).holds = true → g.key ≠ h.key := by
      intro g hg hne hhold hkey
      rw [granted_of_ne hne, hnobody g hg hkey] at hhold
      exact Bool.false_ne_true hhold
    have hdistinct := List.pairwise_map.mp hs.distinct
    rw [List.pairwise_map]
    apply (hs.alone.and hdistinct).imp_of_mem
    intro f g hf hg hfg hfhold hghold
    obtain ⟨halone, hne⟩ := hfg
    rw [key_granted, key_granted]
    by_cases hfh : f.id = h.id
    · obtain rfl := hs.id_inj hf hh hfh
      exact (hother g hg (Ne.symm hne) hghold).symm
    · by_cases hgh : g.id = h.id
      · obtain rfl := hs.id_inj hg hh hgh
        exact hother f hf hne hfhold
      · rw [granted_of_ne hfh] at hfhold
        rw [granted_of_ne hgh] at hghold
        exact halone hfhold hghold

theorem release (hs : s.Exclusive) (id : Nat) : (s.release id).Exclusive := by
  have hfewer : List.Sublist (s.release id).handles s.handles := List.filter_sublist
  constructor
  · intro h hh
    exact hs.shared h (hfewer.subset hh)
  · exact hs.apart
  · exact hs.locks
  · intro h hh
    exact hs.ids h (hfewer.subset hh)
  · exact hs.distinct.sublist (hfewer.map _)
  · exact hs.alone.sublist hfewer

theorem sweep (hs : s.Exclusive) (k : Key) : (s.sweep k).Exclusive := by
  rw [hs.sweep_eq]
  split
  · next hnone =>
    have hfind : ∀ j lock, (s.table.erase k).find? j = some lock → s.table.find? j = some lock := by
      intro j lock hj
      rw [Table.find?_erase] at hj
      split at hj
      · contradiction
      · exact hj
    constructor
    · intro h hh
      have hkey : h.key ≠ k := by
        intro hk
        have hmem : h ∈ s.handlesOf k := mem_handlesOf.mpr ⟨hh, hk⟩
        rw [hnone] at hmem
        exact List.not_mem_nil hmem
      rw [Table.find?_erase, if_neg hkey]
      exact hs.shared h hh
    · intro i j lock hi hj
      exact hs.apart _ _ _ (hfind _ _ hi) (hfind _ _ hj)
    · intro j lock hj
      exact hs.locks j lock (hfind _ _ hj)
    · exact hs.ids
    · exact hs.distinct
    · exact hs.alone
  · exact hs

theorem step (hs : s.Exclusive) (hstep : Step s k t) : t.Exclusive := by
  cases hstep with
  | request => exact hs.request k
  | acquire hh ht =>
    rw [hs.acquire?_eq hh] at ht
    split at ht
    · next hfree =>
      obtain rfl := Option.some.inj ht
      exact hs.held hh hfree
    · contradiction
  | release => exact hs.release _
  | sweep => exact hs.sweep k

end Exclusive

theorem Reachable.exclusive (hs : Reachable s) : s.Exclusive := by
  induction hs with
  | refl => exact exclusive_empty
  | tail _ hstep ih =>
    obtain ⟨k, hstep⟩ := hstep
    exact ih.step hstep

/-- Asking for a lock without waiting is to take a handle, and to give it back when the lock is not
to be had. -/
theorem steps_tryLock (s : Locks) (k : Key) :
    Relation.ReflTransGen (fun s t => ∃ k, Step s k t) s (s.tryLock k).2 := by
  have hasked : Relation.ReflTransGen (fun s t => ∃ k, Step s k t) s (s.request k) :=
    .single ⟨k, .request k⟩
  have hnew : (⟨s.fresh, k, s.lockOf k, false⟩ : Handle) ∈ (s.request k).handles :=
    List.mem_append_right _ (List.mem_singleton_self _)
  unfold tryLock
  cases ht : (s.request k).acquire? s.fresh with
  | none => exact hasked.tail ⟨k, .release hnew⟩
  | some t => exact hasked.tail ⟨k, .acquire hnew ht⟩

theorem handlesOf_request (hj : j ≠ k) : (s.request k).handlesOf j = s.handlesOf j := by
  simp [handlesOf, request, Ne.symm hj]

theorem handlesOf_release (hs : s.Exclusive) (hh : h ∈ s.handles) (hj : j ≠ h.key) :
    (s.release h.id).handlesOf j = s.handlesOf j := by
  unfold handlesOf release
  rw [List.filter_filter]
  apply List.filter_congr
  intro g hg
  by_cases hk : g.key = j
  · have hid : g.id ≠ h.id := by
      intro hid
      rw [hs.id_inj hg hh hid] at hk
      exact hj hk.symm
    simp [hk, hid]
  · simp [hk]

theorem handlesOf_held (hs : s.Exclusive) (hh : h ∈ s.handles) (hj : j ≠ h.key) :
    (s.held h.id).handlesOf j = s.handlesOf j := by
  have hkey : (fun g : Handle => decide (g.key = j)) ∘ Handle.granted h.id = fun g =>
    decide (g.key = j) := by
    funext g
    simp
  unfold handlesOf held
  rw [List.filter_map, hkey]
  apply (List.map_congr_left _).trans (List.map_id _)
  intro g hg
  obtain ⟨hg, hk⟩ := List.mem_filter.mp hg
  apply granted_of_ne
  intro hid
  rw [hs.id_inj hg hh hid, decide_eq_true_eq] at hk
  exact hj hk.symm

/-- What is done with the lock of one key leaves the lock of any other key and all who have to do
with it as they are. -/
theorem Exclusive.elsewhere (hs : s.Exclusive) (hstep : Step s k t) (hj : j ≠ k) :
    t.table.find? j = s.table.find? j ∧ t.handlesOf j = s.handlesOf j := by
  cases hstep with
  | request =>
    constructor
    · exact (Table.find?_insert _ _ _ _).trans (if_neg hj)
    · exact handlesOf_request hj
  | acquire hh ht =>
    rw [hs.acquire?_eq hh] at ht
    split at ht
    · obtain rfl := Option.some.inj ht
      exact ⟨rfl, handlesOf_held hs hh hj⟩
    · contradiction
  | release hh => exact ⟨rfl, handlesOf_release hs hh hj⟩
  | sweep =>
    rw [hs.sweep_eq]
    split
    · exact ⟨(Table.find?_erase _ _ _).trans (if_neg hj), rfl⟩
    · exact ⟨rfl, rfl⟩

theorem Exclusive.length_guards_le_one (hs : s.Exclusive) (k : Key) : (s.guards k).length ≤ 1 := by
  have halone : (s.guards k).Pairwise fun g h => g.holds = true → h.holds = true → g.key ≠ h.key :=
    (hs.alone.filter _).filter _
  have hmem : ∀ h ∈ s.guards k, h.holds = true ∧ h.key = k := by
    intro h hh
    obtain ⟨hh, hhold⟩ := List.mem_filter.mp hh
    exact ⟨hhold, (mem_handlesOf.mp hh).2⟩
  generalize s.guards k = l at halone hmem
  match l, halone, hmem with
  | [], _, _ => exact Nat.zero_le 1
  | [_], _, _ => exact Nat.le_refl 1
  | g :: h :: l, halone, hmem =>
    obtain ⟨hg, hgk⟩ := hmem g (by simp)
    obtain ⟨hh, hhk⟩ := hmem h (by simp)
    have hne := List.rel_of_pairwise_cons halone (List.mem_cons_self) hg hh
    exact absurd (hgk.trans hhk.symm) hne

/-- Whatever tasks do, and in whatever order, at most one of them holds the lock of a key. All who
wait for it or hold it have a handle on the lock that stands for the key; it is to be had exactly
when nobody holds it, and is thrown away exactly when nobody has a handle on it. What is done with
the lock of one key neither changes nor blocks that of another. To ask for a lock without waiting is
no exception. -/
theorem guards_exclusive (hs : Reachable s) :
    (∀ k, (s.guards k).length ≤ 1) ∧
      (∀ h ∈ s.handles, s.table.find? h.key = some h.lock) ∧
      (∀ h ∈ s.handles, (s.acquire? h.id).isSome = true ↔ s.guards h.key = []) ∧
      (∀ k, (s.sweep k).table.find? k = none ↔ s.handlesOf k = []) ∧
      (∀ j k t, Step s k t → j ≠ k →
        t.table.find? j = s.table.find? j ∧ t.handlesOf j = s.handlesOf j ∧
          ∀ h ∈ s.handlesOf j, (t.acquire? h.id).isSome = (s.acquire? h.id).isSome) ∧
      ∀ k, Reachable (s.tryLock k).2 := by
  have hex := hs.exclusive
  have hacquire : ∀ {s : Locks}, s.Exclusive → ∀ h ∈ s.handles,
      ((s.acquire? h.id).isSome = true ↔ s.guards h.key = []) := by
    intro s hs h hh
    rw [hs.acquire?_eq hh]
    split <;> simp_all
  refine ⟨hex.length_guards_le_one, hex.shared, hacquire hex, ?_, ?_,
    fun k => hs.trans (s.steps_tryLock k)⟩
  · intro k
    rw [hex.sweep_eq]
    split
    · next hnone => simp [Table.find?_erase, hnone]
    · next hsome =>
      obtain ⟨h, hmem⟩ := List.exists_mem_of_ne_nil _ hsome
      obtain ⟨hh, rfl⟩ := mem_handlesOf.mp hmem
      simp [hex.shared h hh, hsome]
  · intro j k t hstep hj
    obtain ⟨htable, hhandles⟩ := hex.elsewhere hstep hj
    refine ⟨htable, hhandles, ?_⟩
    intro h hh
    have hguards : t.guards j = s.guards j := by rw [guards, guards, hhandles]
    obtain ⟨hbefore, rfl⟩ := mem_handlesOf.mp hh
    obtain ⟨hafter, -⟩ := mem_handlesOf.mp (hhandles ▸ hh)
    rw [Bool.eq_iff_iff, hacquire (hex.step hstep) h hafter, hacquire hex h hbefore, hguards]

/-- One task asks for the lock of a key, another for the lock of another key, and a third one for
the first lock. -/
def asked : Locks :=
  ((empty.request ⟨"models", "a"⟩).request ⟨"models", "b"⟩).request ⟨"models", "a"⟩

def contended : Locks := (asked.held 0).held 1

theorem reachable_contended : Reachable contended := by
  have hasked : Reachable asked :=
    ((Relation.ReflTransGen.refl.tail ⟨_, .request _⟩).tail ⟨_, .request _⟩).tail ⟨_, .request _⟩
  have hfirst : Step asked ⟨"models", "a"⟩ (asked.held 0) :=
    .acquire (h := ⟨0, ⟨"models", "a"⟩, 0, false⟩) (by decide) (by decide)
  have hother : Step (asked.held 0) ⟨"models", "b"⟩ contended :=
    .acquire (h := ⟨1, ⟨"models", "b"⟩, 1, false⟩) (by decide) (by decide)
  exact (hasked.tail ⟨_, hfirst⟩).tail ⟨_, hother⟩

/-- The lock that the third task waits for is not thrown away, and is to be had as soon as the first
one gives it back. -/
theorem guards_exclusive_contended :
    ∃ s, Reachable s ∧ (s.guards ⟨"models", "a"⟩).length = 1 ∧
      (s.guards ⟨"models", "b"⟩).length = 1 ∧
      (s.sweep ⟨"models", "a"⟩).table.find? ⟨"models", "a"⟩ ≠ none ∧ (s.acquire? 2).isSome = false ∧
      ((s.release 0).acquire? 2).isSome = true := by
  obtain ⟨-, -, hacquire, hsweep, -⟩ := guards_exclusive reachable_contended
  refine ⟨contended, reachable_contended, by decide, by decide, ?_, ?_, by decide⟩
  · rw [ne_eq, hsweep]
    decide
  · rw [Bool.eq_false_iff, ne_eq, hacquire ⟨2, ⟨"models", "a"⟩, 0, false⟩ (by decide)]
    decide

end Locks
end ModelTemplates
