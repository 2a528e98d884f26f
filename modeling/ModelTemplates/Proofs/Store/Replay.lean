import ModelTemplates.Proofs.Store.Fence
/-! What a store tells is what it holds. Whoever carries out on an empty copy all that those who
watch are told, in the order in which they are told, comes to have exactly the objects that are
stored. -/
namespace ModelTemplates

namespace Channel

variable {α : Type} {c : Channel α} {p : Nat}

/-- What was sent from a position on and is still kept, in the order in which it was sent. -/
def since (c : Channel α) (position : Nat) : List α := (c.kept.take (c.sent - position)).reverse

/-- A channel that keeps the latest of all that was sent hands out what was sent at a position, as
long as it keeps that. -/
theorem receive_of_sent {xs : List α} {x : α} (hs : c.sent = xs.length)
    (hk : c.kept = xs.reverse.take c.capacity) (hp : c.oldest ≤ p) (hx : xs[p]? = some x) :
    c.receive p = (.item x, p + 1) := by
  have hplace : xs.length - c.capacity + (p - c.oldest) = p := by
    simp only [oldest, hs, hk, List.length_take, List.length_reverse] at hp ⊢
    omega
  have hitem : c.kept.reverse[p - c.oldest]? = some x := by
    rw [hk, List.reverse_take, List.reverse_reverse, List.length_reverse,
      List.getElem?_drop, hplace, hx]
  rw [receive, if_neg (Nat.not_lt.mpr hp), hitem]

end Channel

variable {σ τ : Type}

def WatchEvent.carryOut (copy : Table Key (Object σ τ)) : WatchEvent σ τ → Table Key (Object σ τ)
  | applied o => copy.insert o.key o
  | deleted o => copy.erase o.key

namespace Store

variable {s t u : Store σ τ} {op : Operation σ τ} {ops : List (Operation σ τ)}
  {o : Object σ τ} {k : Key} {es fs : List (WatchEvent σ τ)} {r : Reply σ τ}

def replay (es : List (WatchEvent σ τ)) : Table Key (Object σ τ) :=
  es.foldl WatchEvent.carryOut .empty

/-- One store has become the other and has told of it by these events. -/
structure Tells (s : Store σ τ) (es : List (WatchEvent σ τ)) (t : Store σ τ) : Prop where
  objects : t.objects = es.foldl WatchEvent.carryOut s.objects
  writes : t.writes = s.writes + es.length
  sent : t.watch.sent = s.watch.sent + es.length
  capacity : t.watch.capacity = s.watch.capacity
  kept : t.watch.kept = (es.reverse ++ s.watch.kept).take s.watch.capacity

theorem tells_put (s : Store σ τ) (o : Object σ τ) : s.Tells [.applied o] (s.put o) := by
  constructor <;> rfl

theorem tells_without (s : Store σ τ) (o : Object σ τ) (now : Timestamp) :
    s.Tells [.deleted (buried o now)] (s.without o now) := by
  constructor <;> rfl

namespace Tells

theorem refl (h : s.watch.kept.length ≤ s.watch.capacity) : s.Tells [] s := by
  constructor
  · rfl
  · rfl
  · rfl
  · rfl
  · exact (List.take_of_length_le h).symm

theorem trans (h : s.Tells es t) (h' : t.Tells fs u) : s.Tells (es ++ fs) u := by
  constructor
  · rw [h'.objects, h.objects, List.foldl_append]
  · rw [h'.writes, h.writes, List.length_append, Nat.add_assoc]
  · rw [h'.sent, h.sent, List.length_append, Nat.add_assoc]
  · rw [h'.capacity, h.capacity]
  · have htake (n : Nat) (later earlier : List (WatchEvent σ τ)) :
        (later ++ earlier.take n).take n = (later ++ earlier).take n := by
      simp only [List.take_append, List.take_take, Nat.min_eq_left (Nat.sub_le _ _)]
    rw [h'.kept, h.kept, h.capacity, htake, List.reverse_append, List.append_assoc]

theorem length_kept_le (h : s.Tells es t) : t.watch.kept.length ≤ t.watch.capacity := by
  rw [h.kept, h.capacity, List.length_take]
  exact Nat.min_le_left _ _

/-- One who has subscribed before is told all of it, when there is room for it. -/
theorem since (h : s.Tells es t) (hroom : es.length ≤ s.watch.capacity) :
    t.watch.since s.watch.subscribe = es := by
  have hnew : t.watch.sent - s.watch.subscribe = es.length := by
    rw [h.sent, Channel.subscribe]
    omega
  rw [Channel.since, hnew, h.kept, List.take_take, Nat.min_eq_left hroom,
    List.take_append_of_le_length (by simp)]
  rw [List.take_of_length_le (by simp), List.reverse_reverse]

end Tells

/-- A store that is watched over a channel with room for an event. -/
structure Watched (s : Store σ τ) : Prop where
  keyed : s.Keyed
  room : 0 < s.watch.capacity
  kept : s.watch.kept.length ≤ s.watch.capacity

theorem watched_make? {kind : Kind} {capacity : Nat} (h : make? kind capacity = some s) :
    s.Watched ∧ s = ⟨kind, .empty, 0, 0, ⟨Channel.roundUp capacity, [], 0, false⟩⟩ := by
  have hkeyed : s.Keyed := (Chronicle.make? h).keyed
  simp only [make?, Option.map_eq_some_iff] at h
  obtain ⟨c, hc, rfl⟩ := h
  unfold Channel.make? at hc
  split at hc
  · contradiction
  · obtain rfl := Option.some.inj hc
    have hroom : 0 < Channel.roundUp capacity := by
      unfold Channel.roundUp
      split
      · exact Nat.one_pos
      · exact Nat.two_pow_pos _
    exact ⟨⟨hkeyed, hroom, Nat.zero_le _⟩, rfl⟩

inductive Announced (s : Store σ τ) : Operation σ τ → Reply σ τ → List (WatchEvent σ τ) → Prop where
  | read {op : Operation σ τ} {os : List (Object σ τ)} (ht : op.target = none) :
      Announced s op (.ok os, s) []
  | refused (op : Operation σ τ) (e : StoreError) : Announced s op (.error e, s) []
  | stored {op : Operation σ τ} {o : Object σ τ} (ht : op.target = some o.key) :
      Announced s op (.ok [o], s.put o) [.applied o]
  | removed {o : Object σ τ} {k : Key} {now : Timestamp} (hk : s.get? k = some o) (ho : o.key = k) :
      Announced s (.delete k now) (.ok [], s.without o now) [.deleted (buried o now)]

theorem Announced.tells (h : Announced s op r es) (hw : s.Watched) :
    s.Tells es r.2 ∧ es.length ≤ s.watch.capacity := by
  cases h with
  | read => exact ⟨.refl hw.kept, Nat.zero_le _⟩
  | refused => exact ⟨.refl hw.kept, Nat.zero_le _⟩
  | stored => exact ⟨tells_put s _, hw.room⟩
  | removed => exact ⟨tells_without s _ _, hw.room⟩

variable [DecidableEq σ]

/-- What one who has subscribed just before an operation is told of it. -/
def told (s : Store σ τ) (op : Operation σ τ) : List (WatchEvent σ τ) :=
  (s.apply op).2.watch.since s.watch.subscribe

/-- Everything that is told while operations are carried out one after the other. -/
def log (s : Store σ τ) : List (Operation σ τ) → List (WatchEvent σ τ)
  | [] => []
  | op :: ops => s.told op ++ (s.apply op).2.log ops

theorem log_append (s : Store σ τ) (ops more : List (Operation σ τ)) :
    s.log (ops ++ more) = s.log ops ++ (s.after ops).log more := by
  induction ops generalizing s with
  | nil => rfl
  | cons op ops ih => simp only [List.cons_append, log, ih, after_cons, List.append_assoc]

omit [DecidableEq σ] in
theorem announced_commit (ht : op.target ≠ none) {a : Except StoreError (Object σ τ × Store σ τ)}
    (he : Effect s op (s.commit a)) : ∃ es, Announced s op (s.commit a) es := by
  cases a with
  | error e => exact ⟨[], .refused op e⟩
  | ok p =>
    obtain ⟨o, t⟩ := p
    simp only [commit] at he ⊢
    cases he with
    | read hn => exact absurd hn ht
    | stored hk => exact ⟨[.applied o], .stored hk⟩

theorem exists_announced (hk : s.Keyed) (op : Operation σ τ) :
    ∃ es, Announced s op (s.apply op) es := by
  have he := effect hk op
  cases op with
  | get k => exact ⟨[], .read rfl⟩
  | list space selector => exact ⟨[], .read rfl⟩
  | create o uid now => exact announced_commit (by simp [Operation.target]) he
  | update o => exact announced_commit (by simp [Operation.target]) he
  | updateStatus o => exact announced_commit (by simp [Operation.target]) he
  | delete k now =>
    simp only [apply]
    cases hd : s.delete k now with
    | error e => exact ⟨[], .refused _ e⟩
    | ok t =>
      obtain ⟨o, ho, rfl⟩ := (delete_eq_ok hk).mp hd
      exact ⟨[.deleted (buried o now)], .removed ho (hk k o ho)⟩

theorem Watched.announced (h : s.Watched) (op : Operation σ τ) :
    Announced s op (s.apply op) (s.told op) := by
  obtain ⟨es, hes⟩ := exists_announced h.keyed op
  obtain ⟨htells, hroom⟩ := hes.tells h
  have htold : s.told op = es := htells.since hroom
  rwa [htold]

theorem Watched.apply (h : s.Watched) (op : Operation σ τ) : (s.apply op).2.Watched := by
  obtain ⟨htells, -⟩ := (h.announced op).tells h
  constructor
  · exact h.keyed.apply op
  · rw [htells.capacity]
    exact h.room
  · exact htells.length_kept_le

theorem Watched.after (h : s.Watched) (ops : List (Operation σ τ)) :
    (s.after ops).Watched ∧ s.Tells (s.log ops) (s.after ops) := by
  induction ops generalizing s with
  | nil => exact ⟨h, .refl h.kept⟩
  | cons op ops ih =>
    obtain ⟨hwatched, hlater⟩ := ih (h.apply op)
    obtain ⟨hnow, -⟩ := (h.announced op).tells h
    exact ⟨hwatched, hnow.trans hlater⟩

/-- What was told, carried out on an empty copy, gives what is stored, and was told once for every
write. The channel keeps the latest of it and hands it out to everyone who watches. An operation
that is refused tells nothing and changes nothing at all. One that succeeds tells of the key that it
writes: of the state that it returns, or, when it deletes, of the state that was stored with nothing
but the time of the deletion changed. -/
theorem replay_log {kind : Kind} {capacity : Nat} (hs : make? kind capacity = some s)
    (ops : List (Operation σ τ)) :
    replay (s.log ops) = (s.after ops).objects ∧ (s.after ops).writes = (s.log ops).length ∧
      (s.after ops).watch.sent = (s.log ops).length ∧
      (s.after ops).watch.kept = (s.log ops).reverse.take s.watch.capacity ∧
      (∀ p e, (s.after ops).watch.oldest ≤ p → (s.log ops)[p]? = some e →
        (s.after ops).watch.receive p = (.item e, p + 1)) ∧
      ∀ op, s.log (ops ++ [op]) = s.log ops ++ (s.after ops).told op ∧
        (∀ e, ((s.after ops).apply op).1 = .error e →
          (s.after ops).told op = [] ∧ ((s.after ops).apply op).2 = s.after ops) ∧
        (∀ os, ((s.after ops).apply op).1 = .ok os →
          ((s.after ops).told op).map WatchEvent.key = op.target.toList ∧
            ∀ o, .applied o ∈ (s.after ops).told op → os = [o]) ∧
        ∀ o, .deleted o ∈ (s.after ops).told op → ∃ c now, op = .delete o.key now ∧
          (s.after ops).get? o.key = some c ∧
          o = { c with metadata := { c.metadata with deletionTimestamp := some now } } := by
  obtain ⟨hopen, hempty⟩ := watched_make? hs
  obtain ⟨hwatched, htells⟩ := hopen.after ops
  have hnothing : s.objects = .empty ∧ s.writes = 0 ∧ s.watch.sent = 0 ∧ s.watch.kept = [] := by
    rw [hempty]
    exact ⟨rfl, rfl, rfl, rfl⟩
  obtain ⟨hobjects, hwrites, hsent, hkept⟩ := hnothing
  have hlog : ∀ op, s.log (ops ++ [op]) = s.log ops ++ (s.after ops).told op := by
    intro op
    rw [log_append, log, log, List.append_nil]
  have hall : (s.after ops).watch.sent = (s.log ops).length := by
    rw [htells.sent, hsent, Nat.zero_add]
  have hlatest : (s.after ops).watch.kept = (s.log ops).reverse.take s.watch.capacity := by
    rw [htells.kept, hkept, List.append_nil]
  refine ⟨?_, ?_, hall, hlatest, ?_, fun op => ⟨hlog op, ?_⟩⟩
  · rw [replay, htells.objects, hobjects]
  · rw [htells.writes, hwrites, Nat.zero_add]
  · intro p e hp he
    rw [← htells.capacity] at hlatest
    exact Channel.receive_of_sent hall hlatest hp he
  · have hannounced := hwatched.announced op
    generalize (s.after ops).apply op = r at hannounced ⊢
    generalize (s.after ops).told op = es at hannounced ⊢
    cases hannounced with
    | read ht => simp [ht]
    | refused e => simp
    | stored ht => simp [ht, WatchEvent.key, WatchEvent.object]
    | @removed o k now hk ho =>
      have hkey : (buried o now).key = k := ho
      simp only [reduceCtorEq, false_implies, implies_true, Operation.target, true_and]
      constructor
      · intro os _
        simp [WatchEvent.key, WatchEvent.object, hkey]
      · intro p hp
        obtain rfl : p = buried o now := by simpa using hp
        exact ⟨o, now, by rw [hkey], by rw [hkey, hk], rfl⟩

def rewritten : List (Operation TemplateSpec TemplateStatus) :=
  [.create subject ⟨1⟩ default, .create other ⟨2⟩ default, .create subject ⟨3⟩ default,
    .delete subject.key default, .create subject ⟨4⟩ default]

/-- Those who watch over a channel of one event find only the last one in it. -/
theorem replay_log_rewritten :
    ∃ s : TemplateStore, make? .template 1 = some s ∧
      replay (s.log rewritten) = (s.after rewritten).objects ∧ (s.log rewritten).length = 4 ∧
      (s.after rewritten).watch.kept.length = 1 ∧ (s.after rewritten).objects.size = 2 := by
  obtain ⟨hreplay, -, -, hkept, -, -⟩ :=
    @replay_log TemplateSpec TemplateStatus _ _ .template 1 rfl rewritten
  refine ⟨_, rfl, hreplay, by decide, ?_, by decide⟩
  rw [hkept]
  decide

end Store
end ModelTemplates
