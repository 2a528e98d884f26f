import Mathlib.Logic.Function.Basic
import Mathlib.Logic.Relation
import ModelTemplates.Leadership
import ModelTemplates.Proofs.Lease.Exclusivity
/-! Candidates for one lock. A leader renews its lease before it ends, so that nobody else is given
one until the leader has ended its work and given the lease back: no two of them ever work at the
same time, and none ever loses its lease. -/
namespace ModelTemplates

namespace Leases

def within (s : Leases) (now : Instant) : Option Leases :=
  if now + s.duration.nanos ≤ Instant.last then some s else none

theorem within_eq_some {s t : Leases} {now : Instant} :
    s.within now = some t ↔ now + s.duration.nanos ≤ Instant.last ∧ s = t := by
  unfold within
  split <;> simp [*]

theorem measured_of_within {s : Leases} {now : Instant}
    (h : now + s.duration.nanos ≤ Instant.last) :
    s.measured = s.duration.nanos :=
  if_pos (Nat.le_trans (Nat.le_trans (Nat.le_add_left _ _) h) (by decide))

/-- Leases as an elector that gives out this token next. None are left of it when one was to end
after the calendar does. -/
def elector (token : String) : Leadership.Elector (Option Leases) where
  acquire lock holder now s :=
    match s.bind fun s => s.acquire? lock holder token now with
    | some (.acquired, s) => (.ok (.acquired token), s.within now)
    | some (.refused leader, s) => (.ok (.refused (some leader)), some s)
    | none => (.error (.backend "overflow"), none)
  renew lock shown now s :=
    match s.bind fun s => s.renew? lock shown now with
    | some (.renewed, s) => (.ok .renewed, s.within now)
    | some (r, s) => (.ok r, some s)
    | none => (.error (.backend "overflow"), none)
  release lock shown _ s :=
    (.ok (s.any fun s => s.releases lock shown), s.map fun s => s.release lock shown)

end Leases

namespace Leadership

/-- Whether work has started and not come to its end. The last act is the first one here. -/
def atWork : List (Instant × Act) → Bool
  | [] => false
  | a :: acts =>
    match a.2 with
    | .workStarted => true
    | .workEnded _ => false
    | _ => atWork acts

section

variable {el : Election} {leases t : Leases} {c c' : Candidate} {token fresh : String}
  {now : Instant}

theorem ask_cases (hperiod : 0 < el.renewPeriod)
    (h : c.ask el (Leases.elector token) now (some leases) = (c', some t)) :
    (∃ leader retryAt, c' = (c.did now (.asked (.ok (.refused (some leader))))).enter
      (.standby retryAt) ∧
        t = leases) ∨
      (∀ l, leases.current? el.lock now = some l → l.holder = el.candidate) ∧
        c' = ((c.did now (.asked (.ok (.acquired token)))).did now .workStarted).enter
          (.leading token (now + el.renewPeriod)) ∧
        t = leases.give el.lock ⟨el.candidate, token, now + leases.duration.nanos⟩ := by
  simp only [Candidate.ask, Leases.elector, Option.bind_some] at h
  cases ha : leases.acquire? el.lock el.candidate token now with
  | none => simp [ha] at h
  | some p =>
    obtain ⟨a, t'⟩ := p
    rcases Leases.acquire?_cases ha with ⟨l, -, -, rfl, rfl⟩ | ⟨hmine, rfl, rfl⟩
    · simp only [ha, Prod.mk.injEq, Option.some.injEq] at h
      obtain ⟨rfl, rfl⟩ := h
      exact .inl ⟨_, _, rfl, rfl⟩
    · simp only [ha, if_neg (Nat.ne_of_gt hperiod), Prod.mk.injEq, Leases.within_eq_some] at h
      obtain ⟨rfl, hwithin, rfl⟩ := h
      have hmeasured : leases.measured = leases.duration.nanos := Leases.measured_of_within hwithin
      exact .inr ⟨hmine, rfl, by rw [hmeasured]⟩

theorem renew_cases (h : c.renew el (Leases.elector fresh) now token (some leases) = (c', some t)) :
    (∃ l, leases.current? el.lock now = some l ∧ l.token = token ∧
        c' = (c.did now (.renewed token (.ok .renewed))).enter
          (.leading token (now + el.renewPeriod)) ∧
        t = leases.give el.lock { l with expiry := now + leases.duration.nanos }) ∨
      ∀ l, leases.current? el.lock now = some l → l.token ≠ token := by
  simp only [Candidate.renew, Leases.elector, Option.bind_some] at h
  cases hr : leases.renew? el.lock token now with
  | none => simp [hr] at h
  | some p =>
    obtain ⟨r, t'⟩ := p
    rcases Leases.renew?_cases hr with ⟨l, hl, htoken, rfl, rfl⟩ | ⟨hother, -, -⟩
    · simp only [hr, Prod.mk.injEq, Leases.within_eq_some] at h
      obtain ⟨rfl, hwithin, rfl⟩ := h
      have hmeasured : leases.measured = leases.duration.nanos := Leases.measured_of_within hwithin
      exact .inl ⟨l, hl, htoken, rfl, by rw [hmeasured]⟩
    · exact .inr hother

/-- What comes of the end of the work, when the lease is still there. -/
theorem retire_eq {failure : Option String} {l : Lease} (hl : leases.table.find? el.lock = some l)
    (h : c.retire el (Leases.elector fresh) now l.token failure (some leases) = (c', some t)) :
    c' = (c.did now (.released l.token (.ok true))).enter (.finished (.worked failure)) ∧
      t.duration = leases.duration ∧ t.table.find? el.lock = none := by
  have hreleases : leases.releases el.lock l.token = true := Leases.releases_iff.mpr ⟨l, hl, rfl⟩
  simp only [Candidate.retire, Leases.elector, Option.any_some, hreleases, Option.map_some,
    Prod.mk.injEq, Option.some.injEq] at h
  obtain ⟨rfl, rfl⟩ := h
  refine ⟨rfl, ?_, ?_⟩
  · rw [Leases.release, if_pos hreleases]
  · rw [Leases.find?_release, if_pos ⟨rfl, hreleases⟩]

end

structure Candidates (ι : Type) where
  now : Instant
  leases : Leases
  candidates : ι → Candidate
  /-- For whom the shutdown has come. -/
  down : ι → Bool

namespace Candidates

variable {ι : Type} {e : ι → Election} {lock : String} {d : Duration} {s s' : Candidates ι}
  {i j : ι} {c : Candidate} {t : Leases} {l : Lease} {token : String} {due : Instant}

def opening (ι : Type) (d : Duration) (now : Instant) : Candidates ι :=
  ⟨now, .empty d, fun _ => .new, fun _ => false⟩

def Leads (s : Candidates ι) (i : ι) : Prop :=
  ∃ token due, (s.candidates i).phase = .leading token due

/-- Candidates for the same lock, each under a name of its own, that renew a lease before it
ends. -/
structure Terms (e : ι → Election) (lock : String) (d : Duration) : Prop where
  lock : ∀ i, (e i).lock = lock
  apart : Function.Injective fun i => (e i).candidate
  renewPeriod : ∀ i, 0 < (e i).renewPeriod ∧ (e i).renewPeriod < d.nanos

/-- Who leads holds a lease that ends after its next renewal. Nobody else has a lease or is at work,
and nobody has lost one. -/
structure Sound (e : ι → Election) (lock : String) (d : Duration) (s : Candidates ι) : Prop where
  duration : s.leases.duration = d
  held : ∀ i token due, (s.candidates i).phase = .leading token due → s.now ≤ due ∧
    ∃ l, s.leases.table.find? lock = some l ∧ l.holder = (e i).candidate ∧ l.token = token ∧
    due < l.expiry
  backed : ∀ l, s.leases.table.find? lock = some l → ∃ i, s.Leads i ∧ l.holder = (e i).candidate
  busy : ∀ i, atWork (s.candidates i).acts = true → s.Leads i
  unlost : ∀ i, (s.candidates i).phase ≠ .steppingDown ∧ (s.candidates i).phase ≠ .finished .lost

theorem Sound.alone (h : Sound e lock d s) (hterms : Terms e lock d) (hi : s.Leads i)
    (hj : s.Leads j) : i = j := by
  obtain ⟨_, _, hi⟩ := hi
  obtain ⟨_, _, hj⟩ := hj
  obtain ⟨-, l, hl, hholder, -⟩ := h.held i _ _ hi
  obtain ⟨-, l', hl', hholder', -⟩ := h.held j _ _ hj
  obtain rfl : l = l' := Option.some.inj (hl.symm.trans hl')
  exact hterms.apart (hholder.symm.trans hholder')

/-- A lease that is given or renewed now ends after the next renewal. -/
theorem Sound.renewed_in_time (h : Sound e lock d s) (hterms : Terms e lock d) (i : ι) :
    s.now + (e i).renewPeriod < s.now + s.leases.duration.nanos := by
  rw [h.duration]
  exact Nat.add_lt_add_left (hterms.renewPeriod i).2 s.now

theorem Sound.current (h : Sound e lock d s) (hi : (s.candidates i).phase = .leading token due) :
    ∃ l, s.leases.current? lock s.now = some l ∧ l.holder = (e i).candidate ∧ l.token = token := by
  obtain ⟨hdue, l, hl, hholder, htoken, hexpiry⟩ := h.held i _ _ hi
  exact ⟨l, Leases.current?_eq_some.mpr ⟨hl, Nat.lt_of_le_of_lt hdue hexpiry⟩, hholder, htoken⟩

variable [DecidableEq ι]

def put (s : Candidates ι) (i : ι) (c : Candidate) (t : Leases) : Candidates ι :=
  { s with leases := t, candidates := Function.update s.candidates i c }

/-- What can happen. Time goes on, but no further than to the next renewal; a shutdown comes; a
candidate does what it may do, with any token for a new lease, as long as no lease ends after the
calendar does; or one that has come to its end takes part again. -/
inductive Step (e : ι → Election) (s : Candidates ι) : Candidates ι → Prop where
  | pass (later : Instant) (hnow : s.now ≤ later)
      (hdue : ∀ i token due, (s.candidates i).phase = .leading token due → later ≤ due) :
      Step e s { s with now := later }
  | shutdown (i : ι) : Step e s { s with down := Function.update s.down i true }
  | act (i : ι) (token : String) (cue : Cue) {c : Candidate} {t : Leases}
      (h : step? (e i) (Leases.elector token) s.now (s.down i) cue (s.candidates i)
        (some s.leases) = some (c, some t)) : Step e s (s.put i c t)
  | again (i : ι) {ending : Ending} (h : (s.candidates i).phase = .finished ending) :
      Step e s { s.put i .new s.leases with down := Function.update s.down i false }

def Reachable (e : ι → Election) (d : Duration) (s : Candidates ι) : Prop :=
  ∃ now, Relation.ReflTransGen (Step e) (opening ι d now) s

theorem leads_put_self : (s.put i c t).Leads i ↔ ∃ token due, c.phase = .leading token due := by
  simp [Leads, put]

theorem leads_put_of_ne (h : j ≠ i) : (s.put i c t).Leads j ↔ s.Leads j := by
  simp [Leads, put, h]

theorem Sound.lead (h : Sound e lock d s) (hothers : ∀ j, j ≠ i → ¬ s.Leads j)
    (hduration : t.duration = d) (hphase : c.phase = .leading token due) (hdue : s.now ≤ due)
    (hl : t.table.find? lock = some l) (hholder : l.holder = (e i).candidate)
    (htoken : l.token = token) (hexpiry : due < l.expiry) :
    Sound e lock d (s.put i c t) := by
  have hleads : (s.put i c t).Leads i := leads_put_self.mpr ⟨_, _, hphase⟩
  refine ⟨hduration, ?_, ?_, ?_, ?_⟩
  · intro j token' due' hj
    obtain rfl | hne := eq_or_ne j i
    · obtain ⟨rfl, rfl⟩ : token = token' ∧ due = due' := by simpa [put, hphase] using hj
      exact ⟨hdue, l, hl, hholder, htoken, hexpiry⟩
    · exact absurd ((leads_put_of_ne hne).mp ⟨_, _, hj⟩) (hothers j hne)
  · intro l' hl'
    obtain rfl : l = l' := Option.some.inj (hl.symm.trans hl')
    exact ⟨i, hleads, hholder⟩
  · intro j hj
    obtain rfl | hne := eq_or_ne j i
    · exact hleads
    · exact absurd (h.busy j (by simpa [put, hne] using hj)) (hothers j hne)
  · intro j
    obtain rfl | hne := eq_or_ne j i
    · simp [put, hphase]
    · simpa [put, hne] using h.unlost j

/-- Nobody has the lease any more, when the one who led has ended. -/
theorem Sound.leave (h : Sound e lock d s) (hothers : ∀ j, j ≠ i → ¬ s.Leads j)
    (hduration : t.duration = d) {failure : Option String}
    (hphase : c.phase = .finished (.worked failure)) (hidle : atWork c.acts = false)
    (hl : t.table.find? lock = none) : Sound e lock d (s.put i c t) := by
  refine ⟨hduration, ?_, ?_, ?_, ?_⟩
  · intro j token due hj
    obtain rfl | hne := eq_or_ne j i
    · simp [put, hphase] at hj
    · exact absurd ((leads_put_of_ne hne).mp ⟨_, _, hj⟩) (hothers j hne)
  · intro l hl'
    have hl' : t.table.find? lock = some l := hl'
    rw [hl] at hl'
    contradiction
  · intro j hj
    obtain rfl | hne := eq_or_ne j i
    · simp [put, hidle] at hj
    · exact absurd (h.busy j (by simpa [put, hne] using hj)) (hothers j hne)
  · intro j
    obtain rfl | hne := eq_or_ne j i
    · simp [put, hphase]
    · simpa [put, hne] using h.unlost j

/-- Nothing changes for the others, when one that does not lead goes on without the lease. -/
theorem Sound.stand (h : Sound e lock d s) (hbefore : ¬ s.Leads i)
    (hafter : ¬ ∃ token due, c.phase = .leading token due)
    (hidle : atWork c.acts = true → atWork (s.candidates i).acts = true)
    (hphase : c.phase ≠ .steppingDown ∧ c.phase ≠ .finished .lost) :
    Sound e lock d (s.put i c s.leases) := by
  have hleads (j : ι) : (s.put i c s.leases).Leads j ↔ s.Leads j := by
    obtain rfl | hne := eq_or_ne j i
    · rw [leads_put_self]
      exact iff_of_false hafter hbefore
    · exact leads_put_of_ne hne
  refine ⟨h.duration, ?_, ?_, ?_, ?_⟩
  · intro j token due hj
    obtain rfl | hne := eq_or_ne j i
    · exact absurd (leads_put_self.mp ⟨_, _, hj⟩) hafter
    · exact h.held j token due (by simpa [put, hne] using hj)
  · intro l hl
    obtain ⟨j, hj, hholder⟩ := h.backed l hl
    exact ⟨j, (hleads j).mpr hj, hholder⟩
  · intro j hj
    rw [hleads]
    obtain rfl | hne := eq_or_ne j i
    · exact h.busy j (hidle (by simpa [put] using hj))
    · exact h.busy j (by simpa [put, hne] using hj)
  · intro j
    obtain rfl | hne := eq_or_ne j i
    · simpa [put] using hphase
    · simpa [put, hne] using h.unlost j

theorem Sound.ask (h : Sound e lock d s) (hterms : Terms e lock d)
    (hmay : (s.candidates i).mayAsk s.now = true)
    (hask : (s.candidates i).ask (e i) (Leases.elector token) s.now (some s.leases) = (c, some t)) :
    Sound e lock d (s.put i c t) := by
  have hnot : ¬ s.Leads i := by
    rintro ⟨_, _, hphase⟩
    simp [Candidate.mayAsk, hphase] at hmay
  rcases ask_cases (hterms.renewPeriod i).1 hask
    with ⟨leader, retryAt, rfl, rfl⟩ | ⟨hmine, rfl, rfl⟩
  · exact h.stand hnot (by simp [Candidate.enter]) id (by simp [Candidate.enter])
  · -- Nobody led before: the lease of a leader has not ended, and so would have been refused.
    rw [hterms.lock i] at hmine ⊢
    have hothers (j : ι) (hne : j ≠ i) : ¬ s.Leads j := by
      rintro ⟨_, _, hj⟩
      obtain ⟨l, hl, hholder, -⟩ := h.current hj
      exact hne (hterms.apart (hholder.symm.trans (hmine l hl)))
    have hfind :=
      Leases.find?_give s.leases lock lock ⟨(e i).candidate, token, s.now + s.leases.duration.nanos⟩
    rw [if_pos rfl] at hfind
    exact h.lead hothers h.duration rfl (Nat.le_add_right _ _) hfind rfl rfl
      (h.renewed_in_time hterms i)

theorem Sound.renew (h : Sound e lock d s) (hterms : Terms e lock d) {fresh : String}
    (hi : (s.candidates i).phase = .leading token due)
    (hrenew : (s.candidates i).renew (e i) (Leases.elector fresh) s.now token (some s.leases) =
      (c, some t)) :
    Sound e lock d (s.put i c t) := by
  obtain ⟨l, hl, hholder, htoken⟩ := h.current hi
  have hcases := renew_cases hrenew
  rw [hterms.lock i] at hcases
  rcases hcases with ⟨l', hl', -, rfl, rfl⟩ | hother
  · obtain rfl : l = l' := Option.some.inj (hl.symm.trans hl')
    have hothers (j : ι) (hne : j ≠ i) : ¬ s.Leads j := fun hj => hne (h.alone hterms hj ⟨_, _, hi⟩)
    have hfind :=
      Leases.find?_give s.leases lock lock { l with expiry := s.now + s.leases.duration.nanos }
    rw [if_pos rfl] at hfind
    exact h.lead hothers h.duration rfl (Nat.le_add_right _ _) hfind hholder htoken
      (h.renewed_in_time hterms i)
  · exact absurd htoken (hother l hl)

theorem Sound.retire (h : Sound e lock d s) (hterms : Terms e lock d) {fresh : String}
    {failure : Option String} {cancelled : Bool} (hi : (s.candidates i).phase = .leading token due)
    (hretire : ((s.candidates i).did s.now (.workEnded cancelled)).retire (e i)
      (Leases.elector fresh) s.now token failure (some s.leases) = (c, some t)) : Sound e lock d
        (s.put i c t) := by
  obtain ⟨-, l, hl, -, rfl, -⟩ := h.held i _ _ hi
  have hothers (j : ι) (hne : j ≠ i) : ¬ s.Leads j := fun hj => hne (h.alone hterms hj ⟨_, _, hi⟩)
  rw [← hterms.lock i] at hl
  obtain ⟨rfl, hduration, hnone⟩ := retire_eq hl hretire
  rw [hterms.lock i] at hnone
  exact h.leave hothers (hduration.trans h.duration) rfl rfl hnone

theorem Sound.act (h : Sound e lock d s) (hterms : Terms e lock d) {cue : Cue}
    (hact : step? (e i) (Leases.elector token) s.now (s.down i) cue (s.candidates i)
      (some s.leases) = some (c, some t)) : Sound e lock d (s.put i c t) := by
  unfold step? at hact
  split at hact
  · next =>
    split at hact
    · next hmay => exact h.ask hterms hmay (Option.some.inj hact)
    · contradiction
  · next retryAt hi =>
    split at hact
    · obtain ⟨rfl, rfl⟩ : (s.candidates i).enter (.finished .idle) = c ∧ s.leases = t := by
        simpa using hact
      exact h.stand (by simp [Leads, hi]) (by simp [Candidate.enter]) id (by simp [Candidate.enter])
    · contradiction
  · next token' due hi =>
    split at hact
    · exact h.renew hterms hi (Option.some.inj hact)
    · contradiction
  · next failure token' due hi => exact h.retire hterms hi (Option.some.inj hact)
  · next hi => exact absurd hi (h.unlost i).1
  · contradiction

theorem Sound.step (h : Sound e lock d s) (hterms : Terms e lock d) (hstep : Step e s s') :
    Sound e lock d s' := by
  cases hstep with
  | pass later hnow hdue =>
    refine { h with held := ?_ }
    intro i token due hi
    exact ⟨hdue i token due hi, (h.held i token due hi).2⟩
  | shutdown => exact { h with }
  | act i token cue hact => exact h.act hterms hact
  | again i hphase =>
    have hnew : Sound e lock d (s.put i .new s.leases) :=
      h.stand (by simp [Leads, hphase]) (by simp [Candidate.new]) nofun (by simp [Candidate.new])
    exact { hnew with }

theorem Reachable.sound (h : Reachable e d s) (hterms : Terms e lock d) : Sound e lock d s := by
  obtain ⟨now, hsteps⟩ := h
  induction hsteps with
  | refl => exact ⟨rfl, nofun, nofun, nofun, fun _ => ⟨nofun, nofun⟩⟩
  | tail _ hstep ih => exact ih.step hterms hstep

/-- However many candidates there are for a lock, and whenever they ask, renew, are shut down or end
their work: no two of them are at work at the same time, none of them loses its lease, and there is
no lease of one that has come to its end. -/
theorem one_works_at_a_time (h : Reachable e d s) (hterms : Terms e lock d) :
    (∀ i j, atWork (s.candidates i).acts = true → atWork (s.candidates j).acts = true → i = j) ∧
      (∀ i, (s.candidates i).phase ≠ .finished .lost) ∧
      ∀ i ending, (s.candidates i).phase = .finished ending →
        ∀ l, s.leases.table.find? lock = some l → l.holder ≠ (e i).candidate := by
  have hsound := h.sound hterms
  refine ⟨?_, fun i => (hsound.unlost i).2, ?_⟩
  · intro i j hi hj
    exact hsound.alone hterms (hsound.busy i hi) (hsound.busy j hj)
  · intro i ending hfinished l hl hmine
    obtain ⟨j, ⟨token, due, hj⟩, hholder⟩ := hsound.backed l hl
    obtain rfl : i = j := hterms.apart (hmine.symm.trans hholder)
    rw [hfinished] at hj
    contradiction

def pair : Bool → Election
  | true => ⟨"lock", "first", 20, 10⟩
  | false => ⟨"lock", "second", 20, 10⟩

theorem terms_pair : Terms pair "lock" (.ofNanos 30) where
  lock i := by cases i <;> rfl
  apart i j := by cases i <;> cases j <;> simp [pair]
  renewPeriod i := by cases i <;> decide

/-- The first one leads, the second one is refused; the first one renews its lease, is shut down and
ends its work, and the second one takes over. -/
theorem exists_handover :
    ∃ s, Reachable pair (.ofNanos 30) s ∧ (s.candidates true).phase = .finished (.worked none) ∧
      atWork (s.candidates false).acts = true ∧ s.leases.leader? "lock" s.now = some "second" := by
  have hopening :
      Relation.ReflTransGen (Step pair) (opening Bool (.ofNanos 30) 0)
        (opening Bool (.ofNanos 30) 0) :=
    .refl
  have hleads := hopening.tail (Step.act true "1" .ask rfl)
  have hrefused := hleads.tail (Step.act false "2" .ask rfl)
  have hlater := hrefused.tail <| Step.pass 20 (by decide) <| by
    intro i token due h
    cases i <;> cases h
    exact Nat.le_refl 20
  have hrenewed := hlater.tail (Step.act true "3" .renew rfl)
  have hdown := hrenewed.tail (Step.shutdown true)
  have hended := hdown.tail (Step.act true "4" (.workEnds none) rfl)
  have hnext := hended.tail (Step.act false "5" .ask rfl)
  exact ⟨_, ⟨0, hnext⟩, rfl, rfl, by decide⟩

/-- After the second one has taken over, the first one is not at work, and the lease is not its
own. -/
theorem one_works_at_a_time_handover :
    ∃ s, Reachable pair (.ofNanos 30) s ∧ Terms pair "lock" (.ofNanos 30) ∧
      (s.candidates true).phase = .finished (.worked none) ∧
      atWork (s.candidates false).acts = true ∧ atWork (s.candidates true).acts ≠ true ∧
      ∀ l, s.leases.table.find? "lock" = some l → l.holder ≠ "first" := by
  obtain ⟨s, hreachable, hfinished, hwork, -⟩ := exists_handover
  obtain ⟨halone, -, hreturned⟩ := one_works_at_a_time hreachable terms_pair
  refine ⟨s, hreachable, terms_pair, hfinished, hwork, ?_, hreturned true _ hfinished⟩
  intro hboth
  exact absurd (halone true false hboth hwork) nofun

end Candidates
end Leadership
end ModelTemplates
