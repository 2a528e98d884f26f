import ModelTemplates.Proofs.Controller.Processing
import ModelTemplates.Proofs.Controller.Pending
/-! What a new list does to a controller. It compares what is known with what is listed, key by key,
and buries what is missing. -/
namespace ModelTemplates

variable {σ τ : Type}

namespace Controller

variable {c : Controller σ τ} {now : Timestamp} {os ts : List (Object σ τ)}
  {o p t : Object σ τ} {k : Key}

/-- What is known under the key of an object is that object. -/
def knows (c : Controller σ τ) (o : Object σ τ) : Bool :=
  (c.known.find? o.key).any fun p => p.metadata.uid = o.metadata.uid

theorem knows_iff :
    c.knows o = true ↔ ∃ p, c.known.find? o.key = some p ∧ p.metadata.uid = o.metadata.uid := by
  simp [knows, Option.any_eq_true]

theorem knows_congr {c' : Controller σ τ} (h : c'.known.find? o.key = c.known.find? o.key) :
    c'.knows o = c.knows o := by
  rw [knows, knows, h]

def Filed (c : Controller σ τ) : Prop := ∀ k o, c.known.find? k = some o → o.key = k

/-- The last states of what is known and not listed. -/
def missing (c : Controller σ τ) (now : Timestamp) (os : List (Object σ τ)) : List (Object σ τ) :=
  (c.known.values.filter fun o => !(os.any fun l => l.key = o.key)).map (vanished now)

/-- A new list buries what is missing, as the events of the watch would have done, and meets what is
there. -/
theorem reconcileWith_eq (c : Controller σ τ) (now : Timestamp) (os : List (Object σ τ)) :
    c.reconcileWith now os = os.foldl meet ((c.missing now os).foldl bury c) := rfl

/-- That is what the events do which tell that each missing object was deleted, and that each listed
one is there. -/
theorem reconcileWith_observe (c : Controller σ τ) (now : Timestamp) (os : List (Object σ τ)) :
    c.reconcileWith now os =
      ((c.missing now os).map WatchEvent.deleted ++ os.map WatchEvent.applied).foldl observe c := by
  rw [reconcileWith_eq, List.foldl_append, List.foldl_map, List.foldl_map]
  rfl

theorem mem_missing (hc : c.Filed) :
    t ∈ c.missing now os ↔ ∃ p, c.known.find? t.key = some p ∧ (∀ l ∈ os, l.key ≠ t.key) ∧
      vanished now p = t := by
  simp only [missing, List.mem_map, List.mem_filter, Table.mem_values_iff, Bool.not_eq_true',
    List.any_eq_false, decide_eq_true_eq]
  constructor
  · rintro ⟨p, ⟨⟨k, hk⟩, hlisted⟩, rfl⟩
    have hkey := hc k p hk
    exact ⟨p, hkey ▸ hk, hlisted, rfl⟩
  · rintro ⟨p, hp, hlisted, rfl⟩
    exact ⟨p, ⟨⟨_, hp⟩, hlisted⟩, rfl⟩

/-- Among what is missing is an object exactly when it is known and nothing is listed under its
key. -/
theorem exists_mem_missing_iff (hc : c.Filed) :
    (∃ t ∈ c.missing now os, t.key = o.key ∧ t.metadata.uid = o.metadata.uid) ↔
      c.knows o = true ∧ ∀ l ∈ os, l.key ≠ o.key := by
  rw [knows_iff]
  constructor
  · rintro ⟨t, ht, hkey, huid⟩
    obtain ⟨p, hp, hlisted, rfl⟩ := (mem_missing hc).mp ht
    rw [hkey] at hp hlisted
    exact ⟨⟨p, hp, huid⟩, hlisted⟩
  · rintro ⟨⟨p, hp, huid⟩, hlisted⟩
    have hkey : p.key = o.key := hc _ p hp
    refine ⟨vanished now p, (mem_missing hc).mpr ⟨p, ?_, ?_, rfl⟩, hkey, huid⟩
    · change c.known.find? p.key = some p
      rw [hkey, hp]
    · change ∀ l ∈ os, l.key ≠ p.key
      rwa [hkey]

/-- Of the objects that were put in under a key, the last one is found. -/
theorem find?_foldl_insert (os : List (Object σ τ)) (d : Table Key (Object σ τ)) (k : Key) :
    (os.foldl (fun d o => d.insert o.key o) d).find? k =
      (os.reverse.find? fun o => o.key = k).or (d.find? k) := by
  induction os generalizing d with
  | nil => rfl
  | cons o os ih =>
    rw [List.foldl_cons, ih, Table.find?_insert, List.reverse_cons, List.find?_append,
      Option.or_assoc]
    by_cases hk : o.key = k
    · simp [hk]
    · simp [hk, Ne.symm hk]

theorem known_foldl_bury (ts : List (Object σ τ)) (c : Controller σ τ) (k : Key) :
    (ts.foldl bury c).known.find? k = if ∃ t ∈ ts, t.key = k then none else c.known.find? k := by
  induction ts generalizing c with
  | nil => simp
  | cons t ts ih =>
    have hburied : (c.bury t).known.find? k = if k = t.key then none else c.known.find? k :=
      Table.find?_erase _ _ _
    rw [List.foldl_cons, ih, hburied]
    by_cases hk : t.key = k
    · simp [hk]
    · simp [hk, Ne.symm hk]

theorem tombstones_foldl_bury (ts : List (Object σ τ)) (c : Controller σ τ) :
    (ts.foldl bury c).tombstones = ts.foldl (fun d t => d.insert t.key t) c.tombstones := by
  induction ts generalizing c with
  | nil => rfl
  | cons t ts ih => exact ih (c.bury t)

theorem known_foldl_meet (os : List (Object σ τ)) (c : Controller σ τ) :
    (os.foldl meet c).known = os.foldl (fun d o => d.insert o.key o) c.known := by
  induction os generalizing c with
  | nil => rfl
  | cons o os ih => exact ih (c.meet o)

theorem tombstones_foldl_meet (os : List (Object σ τ)) (c : Controller σ τ) :
    (os.foldl meet c).tombstones = c.tombstones := by
  induction os generalizing c with
  | nil => rfl
  | cons o os ih => exact ih (c.meet o)

/-- What is known under a key after a new list: what is listed, or else what was known and is not
missing. -/
theorem known_reconcileWith (c : Controller σ τ) (now : Timestamp)
    (os : List (Object σ τ)) (k : Key) :
    (c.reconcileWith now os).known.find? k = (os.reverse.find? fun o => o.key = k).or
      (if ∃ t ∈ c.missing now os, t.key = k then none else c.known.find? k) := by
  rw [reconcileWith_eq, known_foldl_meet, find?_foldl_insert, known_foldl_bury]

/-- The tombstone of a key after a new list: that of what is missing, or else the one before. -/
theorem tombstones_reconcileWith (c : Controller σ τ) (now : Timestamp)
    (os : List (Object σ τ)) (k : Key) :
    (c.reconcileWith now os).tombstones.find? k =
      ((c.missing now os).reverse.find? fun t => t.key = k).or (c.tombstones.find? k) := by
  rw [reconcileWith_eq, tombstones_foldl_meet, tombstones_foldl_bury, find?_foldl_insert]

theorem find?_reverse_eq_none (h : ∀ o ∈ os, o.key ≠ k) :
    (os.reverse.find? fun o => o.key = k) = none := by
  rw [List.find?_eq_none]
  intro o ho
  simpa using h o (List.mem_reverse.mp ho)

/-- What is missing when a new list is queued has a tombstone then, is not known any more, and has
its key queued. -/
theorem reconcileWith_missing {d : Store σ τ} {busy : List Key} (hc : c.Filed)
    (hf : c.Follows d busy) (ht : t ∈ c.missing now os) :
    (c.reconcileWith now os).tombstones.find? t.key = some t ∧
      (c.reconcileWith now os).known.find? t.key = none ∧
      t.key ∈ (c.reconcileWith now os).queue.queue.dirty := by
  obtain ⟨p, hp, hlisted, rfl⟩ := (mem_missing hc).mp ht
  refine ⟨?_, ?_, ?_⟩
  · rw [tombstones_reconcileWith]
    cases hu : (c.missing now os).reverse.find? fun u => u.key = (vanished now p).key with
    | none => exact absurd (List.find?_eq_none.mp hu _ (List.mem_reverse.mpr ht)) (by simp)
    | some u =>
      have hkey : u.key = (vanished now p).key := by simpa using List.find?_some hu
      obtain ⟨q, hq, -, rfl⟩ :=
        (mem_missing hc).mp (List.mem_reverse.mp (List.mem_of_find?_eq_some hu))
      rw [hkey, hp] at hq
      obtain rfl := Option.some.inj hq
      rfl
  · rw [known_reconcileWith, find?_reverse_eq_none hlisted, if_pos ⟨_, ht, rfl⟩]
    rfl
  · obtain ⟨hburied, -⟩ := foldl_bury (c.missing now os) c
    obtain ⟨hmet, -⟩ := foldl_meet os ((c.missing now os).foldl bury c)
    have hqueued : (c.onQueue (·.addAll ((c.missing now os).map Object.key))).Follows d busy :=
      hf.addAll _
    rw [reconcileWith_eq, hmet]
    refine (WorkQueue.mem_addAll_dirty ?_).mpr (.inr ?_)
    · rw [hburied]
      exact hqueued.queue.queue.opened
    · rw [hburied]
      exact (WorkQueue.mem_addAll_dirty hf.queue.queue.opened).mpr (.inl (List.mem_map_of_mem ht))

theorem Filed.reconcileWith (hc : c.Filed) (now : Timestamp) (os : List (Object σ τ)) :
    (c.reconcileWith now os).Filed := by
  intro k o ho
  rw [known_reconcileWith] at ho
  cases hl : os.reverse.find? fun l => l.key = k with
  | some l =>
    obtain rfl : l = o := by simpa [hl] using ho
    simpa using List.find?_some hl
  | none =>
    rw [hl, Option.none_or] at ho
    split at ho
    · contradiction
    · exact hc k o ho

theorem Filed.observe (hc : c.Filed) (e : WatchEvent σ τ) : (c.observe e).Filed := by
  intro k o ho
  cases e with
  | applied p =>
    replace ho := (Table.find?_insert _ _ _ _).symm.trans ho
    split at ho
    · next hk => exact Option.some.inj ho ▸ hk.symm
    · exact hc k o ho
  | deleted p =>
    replace ho := (Table.find?_erase _ _ _).symm.trans ho
    split at ho
    · contradiction
    · exact hc k o ho

theorem Filed.act (hc : c.Filed) {a : ControllerAct σ τ} (ha : ∀ o, a = .remember o → o.key = k) :
    (a.act k c).2.Filed := by
  intro j o ho
  cases a with
  | remember p =>
    replace ho := (Table.find?_insert _ _ _ _).symm.trans ho
    split at ho
    · next hj =>
      obtain rfl := Option.some.inj ho
      rw [ha p rfl, hj]
    · exact hc j o ho
  | lose =>
    replace ho := (Table.find?_erase _ _ _).symm.trans ho
    split at ho
    · contradiction
    · exact hc j o ho
  | clear uid =>
    simp only [ControllerAct.act] at ho
    split at ho <;> exact hc j o ho
  | retry m => exact hc j o (c.retry_known m k ▸ ho)
  | _ => exact hc j o ho

end Controller

end ModelTemplates
