import ModelTemplates.Lease
/-! One leader at a time. Who leads, and which token still renews its lease, can be told from what
was asked of the elector and what it answered: the lease that was given last counts, until it is
given back or the clock comes to its end. -/
namespace ModelTemplates

namespace Leases

/-- What was asked of an elector, and what it answered. -/
inductive Deed where
  | acquire (lock holder token : String) (answer : Acquisition)
  | renew (lock token : String) (answer : Renewal)
  | release (lock token : String) (done : Bool)
  | expire (lock : String)
  | lead (lock : String) (leader : Option String)
deriving DecidableEq

structure Entry where
  now : Instant
  deed : Deed

structure Grant where
  now : Instant
  holder : String
  token : String

variable {length : Nat} {d : Duration} {s t : Leases} {l l' : Lease} {g : Grant} {e : Entry}
  {log since earlier later : List Entry} {lock key holder token : String} {now : Instant}
  {deed : Deed}

def Entry.grant? (lock : String) (e : Entry) : Option Grant :=
  match e.deed with
  | .acquire key holder token .acquired => if key = lock then some ⟨e.now, holder, token⟩ else none
  | _ => none

/-- The lease of a lock that was given last, and all that was done since. What was done last comes
first in a log. -/
def latest? (lock : String) : List Entry → Option (Grant × List Entry)
  | [] => none
  | e :: log =>
    match e.grant? lock with
    | some g => some (g, [])
    | none => (latest? lock log).map fun p => (p.1, e :: p.2)

/-- When a lease is to end, after all that was done since it was given. It is put off with every
renewal, and cut short when somebody ends it. -/
def deadline (length : Nat) (lock : String) (g : Grant) : List Entry → Instant
  | [] => g.now + length
  | e :: since =>
    match e.deed with
    | .renew key token .renewed =>
      if key = lock ∧ token = g.token then e.now + length else deadline length lock g since
    | .expire key => if key = lock then min e.now (deadline length lock g since)
        else deadline length lock g since
    | _ => deadline length lock g since

/-- Whatever the clock said, the lease was not to end yet. -/
def Unreached (length : Nat) (lock : String) (g : Grant) : List Entry → Prop
  | [] => True
  | e :: since => e.now < deadline length lock g since ∧ Unreached length lock g since

/-- The lease of a lock that was given last, under this token, has not been given back, and the
clock has never come to its end. -/
def Stands (length : Nat) (log : List Entry) (lock holder token : String) (now : Instant) : Prop :=
  ∃ g since, latest? lock log = some (g, since) ∧ g.holder = holder ∧ g.token = token ∧
    (∀ e ∈ since, e.deed ≠ .release lock token true) ∧ Unreached length lock g since ∧
    now < deadline length lock g since

/-- The token was given out with a lease of the lock. -/
def Entry.Grants (e : Entry) (lock token : String) : Prop :=
  ∃ holder, e.deed = .acquire lock holder token .acquired

inductive Call (s : Leases) (now : Instant) : Deed → Leases → Prop where
  | acquire {lock holder token : String} {a : Acquisition} {t : Leases}
      (h : s.acquire? lock holder token now = some (a, t)) :
      Call s now (.acquire lock holder token a) t
  | renew {lock token : String} {a : Renewal} {t : Leases}
      (h : s.renew? lock token now = some (a, t)) :
      Call s now (.renew lock token a) t
  | release (lock token : String) :
      Call s now (.release lock token (s.releases lock token)) (s.release lock token)
  | expire (lock : String) : Call s now (.expire lock) (s.expire lock now)
  | lead (lock : String) : Call s now (.lead lock (s.leader? lock now)) s

/-- Any calls, one after the other, while the clock does not go back and no token is given out
twice. -/
inductive History (d : Duration) : List Entry → Leases → Prop where
  | start : History d [] (empty d)
  | call {log : List Entry} {s t : Leases} {now : Instant} {deed : Deed} (h : History d log s)
      (hnow : ∀ e ∈ log, e.now ≤ now)
      (hnew : ∀ lock token, Entry.Grants ⟨now, deed⟩ lock token →
        ∀ e ∈ log, ∀ key, ¬ e.Grants key token)
      (hcall : Call s now deed t) : History d (⟨now, deed⟩ :: log) t

def give (s : Leases) (lock : String) (l : Lease) : Leases :=
  { s with table := s.table.insert lock l }

theorem find?_give (s : Leases) (lock key : String) (l : Lease) :
    (s.give lock l).table.find? key = if key = lock then some l else s.table.find? key :=
  Table.find?_insert _ _ _ _

theorem current?_eq_some :
    s.current? lock now = some l ↔ s.table.find? lock = some l ∧ now < l.expiry := by
  simp [current?, Option.filter_eq_some_iff]

theorem acquire?_cases {a : Acquisition} (h : s.acquire? lock holder token now = some (a, t)) :
    (∃ l, s.current? lock now = some l ∧ l.holder ≠ holder ∧ a = .refused l.holder ∧ t = s) ∨
      (∀ l, s.current? lock now = some l → l.holder = holder) ∧ a = .acquired ∧
        t = s.give lock ⟨holder, token, now + s.measured⟩ := by
  unfold acquire? at h
  split at h
  · next l hl =>
    obtain ⟨rfl, rfl⟩ : .refused l.holder = a ∧ s = t := by simpa using h
    obtain ⟨hl, hother⟩ := Option.filter_eq_some_iff.mp hl
    exact .inl ⟨l, hl, by simpa using hother, rfl, rfl⟩
  · next hnone =>
    have hmine : ∀ l, s.current? lock now = some l → l.holder = holder := by
      intro l hl
      simpa [hl] using hnone
    unfold expiry? at h
    split at h
    · obtain ⟨rfl, rfl⟩ : .acquired = a ∧ s.give lock ⟨holder, token, now + s.measured⟩ = t := by
        simpa [give] using h
      exact .inr ⟨hmine, rfl, rfl⟩
    · contradiction

theorem exists_acquire? (hfits : now + s.measured ≤ Instant.last) (lock holder token : String) :
    ∃ a t, s.acquire? lock holder token now = some (a, t) := by
  unfold acquire? expiry?
  rw [if_pos hfits]
  split
  · exact ⟨_, _, rfl⟩
  · exact ⟨_, _, rfl⟩

theorem renew?_cases {a : Renewal} (h : s.renew? lock token now = some (a, t)) :
    (∃ l, s.current? lock now = some l ∧ l.token = token ∧ a = .renewed ∧
        t = s.give lock { l with expiry := now + s.measured }) ∨
      (∀ l, s.current? lock now = some l → l.token ≠ token) ∧ a ≠ .renewed ∧ t = s := by
  simp only [current?_eq_some]
  unfold renew? at h
  split at h
  · next hnone =>
    obtain ⟨rfl, rfl⟩ : .lost = a ∧ s = t := by simpa using h
    exact .inr ⟨by simp [hnone], nofun, rfl⟩
  · next l hl =>
    simp only [hl, Option.some.injEq]
    split at h
    · next htoken =>
      obtain ⟨rfl, rfl⟩ : .invalidToken = a ∧ s = t := by simpa using h
      right
      refine ⟨?_, nofun, rfl⟩
      rintro _ ⟨rfl, -⟩
      exact htoken
    · next htoken =>
      split at h
      · next hended =>
        obtain ⟨rfl, rfl⟩ : .lost = a ∧ s = t := by simpa using h
        right
        refine ⟨?_, nofun, rfl⟩
        rintro _ ⟨rfl, hrunning⟩
        exact absurd hrunning (Nat.not_lt.mpr hended)
      · next hrunning =>
        unfold expiry? at h
        split at h
        · obtain ⟨rfl, rfl⟩ :
              .renewed = a ∧ s.give lock { l with expiry := now + s.measured } = t := by
            simpa [give] using h
          exact .inl ⟨l, ⟨rfl, Nat.not_le.mp hrunning⟩, Decidable.of_not_not htoken, rfl, rfl⟩
        · contradiction

theorem exists_renew? (hfits : now + s.measured ≤ Instant.last) (lock token : String) :
    ∃ a t, s.renew? lock token now = some (a, t) := by
  unfold renew? expiry?
  rw [if_pos hfits]
  split
  · exact ⟨_, _, rfl⟩
  · split
    · exact ⟨_, _, rfl⟩
    · split
      · exact ⟨_, _, rfl⟩
      · exact ⟨_, _, rfl⟩

theorem releases_iff :
    s.releases lock token = true ↔ ∃ l, s.table.find? lock = some l ∧ l.token = token := by
  unfold releases
  cases s.table.find? lock <;> simp

theorem find?_release (s : Leases) (lock token key : String) :
    (s.release lock token).table.find? key =
      if key = lock ∧ s.releases lock token = true then none else s.table.find? key := by
  unfold release
  by_cases hr : s.releases lock token = true
  · simp [hr, Table.find?_erase]
  · simp [hr]

theorem find?_expire (s : Leases) (lock key : String) :
    (s.expire lock now).table.find? key =
      if key = lock then (s.table.find? lock).map fun l => { l with expiry := now }
        else s.table.find? key := by
  unfold expire
  cases hl : s.table.find? lock with
  | none => split <;> simp_all
  | some l => exact Table.find?_insert _ _ _ _

theorem Call.measured_eq (h : Call s now deed t) : t.measured = s.measured := by
  cases h with
  | acquire h => rcases acquire?_cases h with ⟨_, _, _, _, rfl⟩ | ⟨_, _, rfl⟩ <;> rfl
  | renew h => rcases renew?_cases h with ⟨_, _, _, _, rfl⟩ | ⟨_, _, rfl⟩ <;> rfl
  | release => unfold Leases.release; split <;> rfl
  | expire => unfold Leases.expire; split <;> rfl
  | lead => rfl

theorem latest?_cons_of_none (h : e.grant? lock = none) :
    latest? lock (e :: log) = (latest? lock log).map fun p => (p.1, e :: p.2) := by
  simp only [latest?, h]

theorem latest?_cons_of_some (h : e.grant? lock = some g) :
    latest? lock (e :: log) = some (g, []) := by
  simp only [latest?, h]

/-- The lease is the one that was given last and has not been given back. It ends at its deadline,
unless the clock has come to that before. -/
structure Backs (length : Nat) (log : List Entry) (lock : String) (l : Lease) (g : Grant)
    (since : List Entry) :
    Prop where
  latest : latest? lock log = some (g, since)
  holder : g.holder = l.holder
  token : g.token = l.token
  kept : ∀ e ∈ since, e.deed ≠ .release lock g.token true
  running : Unreached length lock g since → l.expiry = deadline length lock g since
  ended : ¬ Unreached length lock g since → ∃ e ∈ log, l.expiry ≤ e.now

theorem Backs.lt_expiry_iff (h : Backs length log lock l g since) (hnow : ∀ e ∈ log, e.now ≤ now) :
    now < l.expiry ↔ Unreached length lock g since ∧ now < deadline length lock g since := by
  by_cases hu : Unreached length lock g since
  · simp [hu, h.running hu]
  · obtain ⟨e, he, hover⟩ := h.ended hu
    have hended := Nat.le_trans hover (hnow e he)
    simp [hu, hended]

/-- What is stored for a lock is backed by the log. Where nothing is, the lease that was given last
was given back. -/
def Tracked (length : Nat) (log : List Entry) (lock : String) : Option Lease → Prop
  | some l => ∃ g since, Backs length log lock l g since
  | none => ∀ g since, latest? lock log = some (g, since) →
      ∃ e ∈ since, e.deed = .release lock g.token true

/-- The lease that the log lets stand is the one that is stored and has not ended. -/
theorem stands_iff (h : Tracked length log lock (s.table.find? lock))
    (hnow : ∀ e ∈ log, e.now ≤ now) :
    Stands length log lock holder token now ↔
      ∃ l, s.current? lock now = some l ∧ l.holder = holder ∧ l.token = token := by
  simp only [current?_eq_some]
  cases hl : s.table.find? lock with
  | none =>
    rw [hl] at h
    constructor
    · rintro ⟨g, since, hg, -, rfl, hkept, -, -⟩
      obtain ⟨e, he, hback⟩ := h g since hg
      exact absurd hback (hkept e he)
    · rintro ⟨l, ⟨hsome, -⟩, -, -⟩
      contradiction
  | some l =>
    rw [hl] at h
    obtain ⟨g, since, hb⟩ := h
    have hexpiry := hb.lt_expiry_iff hnow
    constructor
    · rintro ⟨g', since', hg, rfl, rfl, -, hu, hahead⟩
      obtain ⟨rfl, rfl⟩ : g = g' ∧ since = since' := by simpa [hb.latest] using hg
      exact ⟨l, ⟨rfl, hexpiry.mpr ⟨hu, hahead⟩⟩, hb.holder.symm, hb.token.symm⟩
    · rintro ⟨l', ⟨hsome, hahead⟩, rfl, rfl⟩
      obtain rfl := Option.some.inj hsome
      obtain ⟨hu, hdeadline⟩ := hexpiry.mp hahead
      exact ⟨g, since, hb.latest, hb.holder, hb.token, hb.token ▸ hb.kept, hu, hdeadline⟩

/-- A lease stays backed by what is done to it, when it comes to end at its new deadline, or not
after the clock when it has ended before. -/
theorem Backs.cons (h : Backs length log lock l g since) (hnow : ∀ p ∈ log, p.now ≤ e.now)
    (hg : e.grant? lock = none) (hr : e.deed ≠ .release lock l.token true)
    (hh : l'.holder = l.holder) (ht : l'.token = l.token)
    (hrunning : e.now < l.expiry → deadline length lock g since = l.expiry →
      l'.expiry = deadline length lock g (e :: since))
    (hover : l.expiry ≤ e.now → l'.expiry ≤ e.now) :
    Backs length (e :: log) lock l' g (e :: since) := by
  have hexpiry := h.lt_expiry_iff hnow
  constructor
  · rw [latest?_cons_of_none hg, h.latest]
    rfl
  · rw [h.holder, hh]
  · rw [h.token, ht]
  · intro p hp
    rcases List.mem_cons.mp hp with rfl | hp
    · rw [h.token]
      exact hr
    · exact h.kept p hp
  · rintro ⟨hahead, hu⟩
    exact hrunning (hexpiry.mpr ⟨hu, hahead⟩) (h.running hu).symm
  · intro hnot
    refine ⟨e, List.mem_cons_self, hover (Nat.not_lt.mp ?_)⟩
    intro hahead
    obtain ⟨hu, hdeadline⟩ := hexpiry.mp hahead
    exact hnot ⟨hdeadline, hu⟩

def Deed.altered? : Deed → Option String
  | .acquire lock _ _ .acquired => some lock
  | .renew lock _ .renewed => some lock
  | .release lock _ true => some lock
  | .expire lock => some lock
  | _ => none

theorem grant?_of_unaltered (he : deed.altered? ≠ some lock) :
    Entry.grant? lock ⟨now, deed⟩ = none := by
  unfold Entry.grant?
  split
  · next key holder token hdeed =>
    obtain rfl : deed = .acquire key holder token .acquired := hdeed
    exact if_neg fun hkey => he (congrArg some hkey)
  · rfl

theorem deadline_of_unaltered (he : deed.altered? ≠ some lock) :
    deadline length lock g (⟨now, deed⟩ :: since) = deadline length lock g since := by
  rw [deadline]
  split
  · next key token hdeed =>
    obtain rfl : deed = .renew key token .renewed := hdeed
    exact if_neg fun hkey => he (congrArg some hkey.1)
  · next key hdeed =>
    obtain rfl : deed = .expire key := hdeed
    exact if_neg fun hkey => he (congrArg some hkey)
  · rfl

/-- Once a lease is taken away or was never there, nothing is, whatever is done but giving it. -/
theorem Tracked.none_cons (h : Tracked length log lock none) (hg : e.grant? lock = none) :
    Tracked length (e :: log) lock none := by
  intro g since hlatest
  rw [latest?_cons_of_none hg] at hlatest
  obtain ⟨⟨g, since⟩, hold, hp⟩ := Option.map_eq_some_iff.mp hlatest
  obtain ⟨rfl, rfl⟩ := Prod.mk.inj hp
  obtain ⟨e, he, hback⟩ := h g since hold
  exact ⟨e, List.mem_cons_of_mem _ he, hback⟩

theorem Tracked.unaltered {o : Option Lease} (h : Tracked length log lock o)
    (hnow : ∀ p ∈ log, p.now ≤ now) (he : deed.altered? ≠ some lock) :
    Tracked length (⟨now, deed⟩ :: log) lock o := by
  have hg : Entry.grant? lock ⟨now, deed⟩ = none := grant?_of_unaltered he
  cases o with
  | none => exact h.none_cons hg
  | some l =>
    obtain ⟨g, since, hb⟩ := h
    refine ⟨g, _, hb.cons hnow hg ?_ rfl rfl ?_ id⟩
    · rintro rfl
      exact he rfl
    · intro _ hends
      rw [deadline_of_unaltered he, hends]

theorem Tracked.call (h : ∀ key, Tracked s.measured log key (s.table.find? key))
    (hnow : ∀ p ∈ log, p.now ≤ now) (hcall : Call s now deed t) (key : String) :
    Tracked s.measured (⟨now, deed⟩ :: log) key (t.table.find? key) := by
  cases hcall with
  | @acquire lock holder token a t ha =>
    rcases acquire?_cases ha with ⟨l, -, -, rfl, rfl⟩ | ⟨-, rfl, rfl⟩
    · exact (h key).unaltered hnow nofun
    · rw [find?_give]
      split
      · next hkey =>
        subst hkey
        refine ⟨⟨now, holder, token⟩, [], latest?_cons_of_some (if_pos rfl), rfl, rfl, nofun,
          fun _ => rfl, ?_⟩
        exact fun hnot => absurd trivial hnot
      · next hkey => exact (h key).unaltered hnow fun he => hkey (Option.some.inj he).symm
  | @renew lock token a t hr =>
    rcases renew?_cases hr with ⟨l, hl, rfl, rfl, rfl⟩ | ⟨-, hrefused, rfl⟩
    · rw [find?_give]
      split
      · next hkey =>
        subst hkey
        obtain ⟨hfind, hahead⟩ := current?_eq_some.mp hl
        have hbacked := h key
        rw [hfind] at hbacked
        obtain ⟨g, since, hb⟩ := hbacked
        refine ⟨g, _, hb.cons hnow rfl nofun rfl rfl ?_ fun hended =>
          absurd hahead (Nat.not_lt.mpr hended)⟩
        intro _ _
        exact (if_pos ⟨rfl, hb.token.symm⟩).symm
      · next hkey => exact (h key).unaltered hnow fun he => hkey (Option.some.inj he).symm
    · apply (h key).unaltered hnow
      cases a <;> first | contradiction | exact nofun
  | release lock token =>
    rw [find?_release]
    split
    · next hkey =>
      obtain ⟨rfl, hreleased⟩ := hkey
      obtain ⟨l, hfind, rfl⟩ := releases_iff.mp hreleased
      have hbacked := h key
      rw [hfind] at hbacked
      obtain ⟨g, since, hb⟩ := hbacked
      intro g' since' hlatest
      rw [latest?_cons_of_none rfl, hb.latest] at hlatest
      obtain ⟨rfl, rfl⟩ := Prod.mk.inj (Option.some.inj hlatest)
      refine ⟨_, List.mem_cons_self, ?_⟩
      rw [hreleased, hb.token]
    · next hkey =>
      apply (h key).unaltered hnow
      cases hreleased : s.releases lock token with
      | true => exact fun he => hkey ⟨(Option.some.inj he).symm, hreleased⟩
      | false => exact nofun
  | expire lock =>
    rw [find?_expire]
    split
    · next hkey =>
      subst hkey
      have hbacked := h key
      cases hfind : s.table.find? key with
      | none =>
        rw [hfind] at hbacked
        exact hbacked.none_cons rfl
      | some l =>
        rw [hfind] at hbacked
        obtain ⟨g, since, hb⟩ := hbacked
        refine ⟨g, _, hb.cons hnow rfl nofun rfl rfl ?_ fun _ => Nat.le_refl now⟩
        intro hahead hends
        have hmin : deadline s.measured key g (⟨now, .expire key⟩ :: since) = min now l.expiry := by
          rw [deadline, hends]
          exact if_pos rfl
        rw [hmin]
        exact (Nat.min_eq_left (Nat.le_of_lt hahead)).symm
    · next hkey => exact (h key).unaltered hnow fun he => hkey (Option.some.inj he).symm
  | lead => exact (h key).unaltered hnow nofun

theorem History.tracked (h : History d log s) :
    s.measured = (empty d).measured ∧ ∀ key, Tracked s.measured log key (s.table.find? key) := by
  induction h with
  | start => exact ⟨rfl, fun key g since hlatest => nomatch hlatest⟩
  | call h hnow _ hcall ih =>
    obtain ⟨hmeasured, htracked⟩ := ih
    rw [hcall.measured_eq]
    exact ⟨hmeasured, Tracked.call htracked hnow hcall⟩

theorem grant?_eq_some (h : e.grant? lock = some g) :
    e.deed = .acquire lock g.holder g.token .acquired := by
  unfold Entry.grant? at h
  split at h
  · next hdeed =>
    split at h
    · next hkey =>
      obtain rfl := Option.some.inj h
      rw [hdeed, hkey]
    · contradiction
  · contradiction

theorem Stands.of_cons (h : Stands length (e :: log) lock holder token now)
    (he : ¬ e.Grants lock token) :
    Stands length log lock holder token e.now := by
  obtain ⟨g, since, hlatest, rfl, rfl, hkept, hu, -⟩ := h
  cases hg : e.grant? lock with
  | some g' =>
    rw [latest?_cons_of_some hg] at hlatest
    obtain ⟨rfl, rfl⟩ := Prod.mk.inj (Option.some.inj hlatest)
    exact absurd ⟨_, grant?_eq_some hg⟩ he
  | none =>
    rw [latest?_cons_of_none hg] at hlatest
    obtain ⟨⟨g, since⟩, hold, hp⟩ := Option.map_eq_some_iff.mp hlatest
    obtain ⟨rfl, rfl⟩ := Prod.mk.inj hp
    exact ⟨g, since, hold, rfl, rfl, fun p hp => hkept p (List.mem_cons_of_mem _ hp), hu.2, hu.1⟩

/-- A lease that stands has stood ever since its token was given out. -/
theorem Stands.before (h : Stands length (later ++ e :: earlier) lock holder token now)
    (hlater : ∀ p ∈ later, ¬ p.Grants lock token) (he : ¬ e.Grants lock token) :
    Stands length earlier lock holder token e.now := by
  induction later generalizing now with
  | nil => exact h.of_cons he
  | cons p later ih =>
    apply ih (h.of_cons (hlater p List.mem_cons_self))
    intro q hq
    exact hlater q (List.mem_cons_of_mem _ hq)

/-- Every entry of a log tells of a call, and no token that was given out before it is given out
after it. -/
theorem History.entry (h : History d (later ++ e :: earlier) s) :
    (∃ s t, History d earlier s ∧ (∀ p ∈ earlier, p.now ≤ e.now) ∧ Call s e.now e.deed t) ∧
      ∀ token, (∃ p ∈ earlier, ∃ key, p.Grants key token) →
      ∀ q ∈ later, ∀ key, ¬ q.Grants key token := by
  induction later generalizing s with
  | nil =>
    cases h with
    | call h hnow _ hcall => exact ⟨⟨_, _, h, hnow, hcall⟩, fun _ _ => nofun⟩
  | cons q later ih =>
    cases h with
    | call h _ hnew _ =>
      obtain ⟨hcall, hlater⟩ := ih h
      refine ⟨hcall, ?_⟩
      rintro token ⟨p, hp, key, hgrant⟩ r hr key' hagain
      rcases List.mem_cons.mp hr with rfl | hr
      · exact hnew key' token hagain p
          (List.mem_append_right _ (List.mem_cons_of_mem _ hp)) key hgrant
      · exact hlater token ⟨p, hp, key, hgrant⟩ r hr key' hagain

theorem renew?_eq_renewed_iff (h : ∀ key, Tracked s.measured log key (s.table.find? key))
    (hnow : ∀ e ∈ log, e.now ≤ now) {a : Renewal} (hr : s.renew? lock token now = some (a, t)) :
    a = .renewed ↔ ∃ holder, Stands s.measured log lock holder token now := by
  simp only [stands_iff (h lock) hnow]
  rcases renew?_cases hr with ⟨l, hl, rfl, rfl, -⟩ | ⟨hother, hrefused, -⟩
  · simp [hl]
  · simp only [hrefused, false_iff]
    rintro ⟨_, l, hl, -, htoken⟩
    exact hother l hl htoken

/-- Whatever was asked of an elector before, and by whom: a token renews its lease exactly as long
as the lease stands, and never again after it has failed to. While the lease stands, only its holder
is given another one. Whoever is refused one is told who leads: another one, whose lease stands. -/
theorem lease_exclusive (h : History d log s) (hnow : ∀ e ∈ log, e.now ≤ now)
    (hfits : now + s.measured ≤ Instant.last) (lock : String) :
    (∀ token, ∃ a t, s.renew? lock token now = some (a, t) ∧
        (a = .renewed ↔ ∃ holder, Stands s.measured log lock holder token now)) ∧
      (∀ token later failed earlier r, log = later ++ failed :: earlier →
        (∃ e ∈ earlier, e.Grants lock token) → failed.deed = .renew lock token r → r ≠ .renewed →
        ∀ a t, s.renew? lock token now = some (a, t) → a ≠ .renewed) ∧
      (∀ leader standing, Stands s.measured log lock leader standing now →
        ∀ asker token t, s.acquire? lock asker token now = some (.acquired, t) → asker = leader) ∧
      (∀ asker token, ∃ a t, s.acquire? lock asker token now = some (a, t) ∧
        ∀ leader, a = .refused leader ↔
          leader ≠ asker ∧ ∃ standing, Stands s.measured log lock leader standing now) ∧
      ∀ leader, s.leader? lock now = some leader ↔
      ∃ standing, Stands s.measured log lock leader standing now := by
  obtain ⟨hmeasured, htracked⟩ := h.tracked
  have hstands (holder token : String) : Stands s.measured log lock holder token now ↔
      ∃ l, s.current? lock now = some l ∧ l.holder = holder ∧ l.token = token :=
        stands_iff (htracked lock) hnow
  refine ⟨?_, ?_, ?_, ?_, ?_⟩
  · intro token
    obtain ⟨a, t, hr⟩ := exists_renew? hfits lock token
    exact ⟨a, t, hr, renew?_eq_renewed_iff htracked hnow hr⟩
  · rintro token later failed earlier r rfl ⟨e, he, hgrant⟩ hfailed hr a t hagain hrenewed
    obtain ⟨⟨s', t', h', hnow', hcall⟩, hlater⟩ := h.entry
    obtain ⟨holder, hstanding⟩ := (renew?_eq_renewed_iff htracked hnow hagain).mp hrenewed
    obtain ⟨hmeasured', htracked'⟩ := h'.tracked
    have hother : ¬ failed.Grants lock token := by
      rintro ⟨holder, hgiven⟩
      rw [hfailed] at hgiven
      contradiction
    have hbefore :=
      hstanding.before (fun q hq => hlater token ⟨e, he, lock, hgrant⟩ q hq lock) hother
    rw [hmeasured, ← hmeasured'] at hbefore
    rw [hfailed] at hcall
    cases hcall with
    | renew hcall => exact hr ((renew?_eq_renewed_iff htracked' hnow' hcall).mpr ⟨holder, hbefore⟩)
  · intro leader standing hstanding asker token t ha
    obtain ⟨l, hl, rfl, -⟩ := (hstands _ _).mp hstanding
    rcases acquire?_cases ha with ⟨_, _, _, hrefused, _⟩ | ⟨hmine, -, -⟩
    · contradiction
    · exact (hmine l hl).symm
  · intro asker token
    obtain ⟨a, t, ha⟩ := exists_acquire? hfits lock asker token
    refine ⟨a, t, ha, ?_⟩
    intro leader
    simp only [hstands]
    rcases acquire?_cases ha with ⟨l, hl, hother, rfl, -⟩ | ⟨hmine, rfl, -⟩
    · simp only [hl, Acquisition.refused.injEq, Option.some.injEq]
      constructor
      · rintro rfl
        exact ⟨hother, l.token, l, rfl, rfl, rfl⟩
      · rintro ⟨-, _, _, rfl, rfl, -⟩
        rfl
    · simp only [reduceCtorEq, false_iff]
      rintro ⟨hother, _, l, hl, rfl, -⟩
      exact hother (hmine l hl)
  · intro leader
    simp only [hstands, leader?, Option.map_eq_some_iff]
    constructor
    · rintro ⟨l, hl, rfl⟩
      exact ⟨l.token, l, hl, rfl, rfl⟩
    · rintro ⟨_, l, hl, rfl, -⟩
      exact ⟨l, hl, rfl⟩

/-- One leads and renews its lease, which is then cut short, so that it fails to renew it; another
one takes over. -/
def takeover : List Entry :=
  [⟨26, .acquire "a" "second" "2" .acquired⟩, ⟨25, .renew "a" "1" .lost⟩, ⟨25, .expire "a"⟩,
    ⟨20, .renew "a" "1" .renewed⟩, ⟨0, .acquire "a" "first" "1" .acquired⟩]

theorem history_takeover :
    History (.ofNanos 30) takeover ((empty (.ofNanos 30)).give "a" ⟨"second", "2", 56⟩) := by
  have hfirst :
      History (.ofNanos 30) (takeover.drop 4) ((empty (.ofNanos 30)).give "a" ⟨"first", "1", 30⟩) :=
    .call .start (by simp) (by simp) (.acquire (by decide))
  have hrenewed :
      History (.ofNanos 30) (takeover.drop 3) ((empty (.ofNanos 30)).give "a" ⟨"first", "1", 50⟩) :=
    .call hfirst (by decide) (by simp [Entry.Grants]) (.renew (by decide))
  have hended :
      History (.ofNanos 30) (takeover.drop 2) ((empty (.ofNanos 30)).give "a" ⟨"first", "1", 25⟩) :=
    .call hrenewed (by decide) (by simp [Entry.Grants]) (.expire "a")
  have hfailed :
      History (.ofNanos 30) (takeover.drop 1) ((empty (.ofNanos 30)).give "a" ⟨"first", "1", 25⟩) :=
    .call hended (by decide) (by simp [Entry.Grants]) (.renew (by decide))
  exact .call hfailed (by decide) (by simp [Entry.Grants]) (.acquire (by decide))

/-- The one who took over leads: it renews its lease, the one before it never does again, and a
third one is told who leads. -/
theorem lease_exclusive_takeover :
    ∃ log s, History (.ofNanos 30) log s ∧ (∀ e ∈ log, e.now ≤ 30) ∧
      30 + s.measured ≤ Instant.last ∧ (∃ t, s.renew? "a" "2" 30 = some (.renewed, t)) ∧
      (∀ a t, s.renew? "a" "1" 30 = some (a, t) → a ≠ .renewed) ∧
      ∃ t, s.acquire? "a" "third" "3" 30 = some (.refused "second", t) := by
  have hnow : ∀ e ∈ takeover, e.now ≤ 30 := by decide
  have hfits :
      30 + ((empty (.ofNanos 30)).give "a" ⟨"second", "2", 56⟩).measured ≤ Instant.last := by decide
  have hstands :
      Stands ((empty (.ofNanos 30)).give "a" ⟨"second", "2",
        56⟩).measured takeover "a" "second" "2" 30 :=
    ⟨⟨26, "second", "2"⟩, [], rfl, rfl, rfl, nofun, trivial, by decide⟩
  obtain ⟨hrenew, hfailed, -, hacquire, -⟩ := lease_exclusive history_takeover hnow hfits "a"
  refine ⟨takeover, _, history_takeover, hnow, hfits, ?_, ?_, ?_⟩
  · obtain ⟨a, t, hr, ha⟩ := hrenew "2"
    exact ⟨t, by rw [hr, ha.mpr ⟨_, hstands⟩]⟩
  · apply hfailed "1" [_] ⟨25, .renew "a" "1" .lost⟩ (takeover.drop 2) .lost rfl ?_ rfl nofun
    exact ⟨⟨0, .acquire "a" "first" "1" .acquired⟩, by simp [takeover], "first", rfl⟩
  · obtain ⟨a, t, ha, hleader⟩ := hacquire "third" "3"
    exact ⟨t, by rw [ha, (hleader "second").mpr ⟨by decide, _, hstands⟩]⟩

end Leases
end ModelTemplates
