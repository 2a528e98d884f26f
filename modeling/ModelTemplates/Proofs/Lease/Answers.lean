import ModelTemplates.Proofs.Lease.Exclusivity
/-! What the answers of an elector say about one another. A token renews its lease exactly as long
as the one who got it leads under it; giving the lease back takes the token alone, and finds
whatever lease is stored under it. -/
namespace ModelTemplates

namespace Leases

variable {length : Nat} {d : Duration} {s t : Leases} {l : Lease} {g : Grant}
  {log since : List Entry} {lock holder token : String} {now : Instant}

/-- The lease of a lock that was given last was given to this holder, under this token. -/
def GivenLast (log : List Entry) (lock holder token : String) : Prop :=
  ∃ g since, latest? lock log = some (g, since) ∧ g.holder = holder ∧ g.token = token

theorem Backs.givenLast_iff (h : Backs length log lock l g since) :
    GivenLast log lock holder token ↔ l.holder = holder ∧ l.token = token := by
  simp [GivenLast, h.latest, h.holder, h.token]

/-- A lease that has not ended has this token exactly when it was given last and the one who got it
leads. -/
theorem Tracked.current_iff (h : Tracked length log lock (s.table.find? lock)) :
    (∃ l, s.current? lock now = some l ∧ l.token = token) ↔
      ∃ holder, GivenLast log lock holder token ∧ s.leader? lock now = some holder := by
  simp only [leader?, Option.map_eq_some_iff, current?_eq_some]
  cases hl : s.table.find? lock with
  | none => simp
  | some l =>
    rw [hl] at h
    obtain ⟨g, since, hb⟩ := h
    simp only [hb.givenLast_iff, Option.some.injEq]
    constructor
    · rintro ⟨_, ⟨rfl, hahead⟩, rfl⟩
      exact ⟨_, ⟨rfl, rfl⟩, _, ⟨rfl, hahead⟩, rfl⟩
    · rintro ⟨_, ⟨-, rfl⟩, _, ⟨rfl, hahead⟩, -⟩
      exact ⟨_, ⟨rfl, hahead⟩, rfl⟩

theorem renewed_iff_current {a : Renewal} (h : s.renew? lock token now = some (a, t)) :
    a = .renewed ↔ ∃ l, s.current? lock now = some l ∧ l.token = token := by
  rcases renew?_cases h with ⟨l, hl, htoken, rfl, -⟩ | ⟨hother, hrefused, -⟩
  · exact iff_of_true rfl ⟨l, hl, htoken⟩
  · refine iff_of_false hrefused ?_
    rintro ⟨l, hl, htoken⟩
    exact hother l hl htoken

theorem releases_iff_current (hrunning : ∀ l, s.table.find? lock = some l → now < l.expiry) :
    s.releases lock token = true ↔ ∃ l, s.current? lock now = some l ∧ l.token = token := by
  simp only [releases_iff, current?_eq_some]
  exact exists_congr fun l => and_congr_left' ⟨fun hl => ⟨hl, hrunning l hl⟩, And.left⟩

theorem Tracked.givenLast_of_releases (h : Tracked length log lock (s.table.find? lock))
    (hreleases : s.releases lock token = true) : ∃ holder, GivenLast log lock holder token := by
  obtain ⟨l, hl, rfl⟩ := releases_iff.mp hreleases
  rw [hl] at h
  obtain ⟨g, since, hb⟩ := h
  exact ⟨l.holder, hb.givenLast_iff.mpr ⟨rfl, rfl⟩⟩

/-- Whatever was asked of an elector before, and by whom: a token renews its lease exactly when it
was given last for the lock and the one who got it leads now. As long as no lease of the lock has
ended, exactly then the token gives it back as well; and no token does that but the one that was
given last. -/
theorem answers_agree (h : History d log s) (lock token : String) (now : Instant) :
    (∀ a t, s.renew? lock token now = some (a, t) →
        (a = .renewed ↔ ∃ holder, GivenLast log lock holder token ∧
          s.leader? lock now = some holder)) ∧
      (now + s.measured ≤ Instant.last → ∃ a t, s.renew? lock token now = some (a, t)) ∧
      ((∀ l, s.table.find? lock = some l → now < l.expiry) →
        (s.releases lock token = true ↔
          ∃ holder, GivenLast log lock holder token ∧ s.leader? lock now = some holder)) ∧
      ((∀ holder, ¬ GivenLast log lock holder token) → s.releases lock token = false) := by
  have htracked := h.tracked.2 lock
  refine ⟨?_, fun hfits => exists_renew? hfits lock token, ?_, ?_⟩
  · intro a t hr
    exact (renewed_iff_current hr).trans htracked.current_iff
  · intro hrunning
    exact (releases_iff_current hrunning).trans htracked.current_iff
  · intro hother
    rw [Bool.eq_false_iff]
    intro hreleases
    obtain ⟨holder, hgiven⟩ := htracked.givenLast_of_releases hreleases
    exact hother holder hgiven

/-- After a takeover the new token renews the lease and gives it back, and the old one does
neither. -/
theorem answers_agree_takeover :
    ∃ log s, History (.ofNanos 30) log s ∧ 30 + s.measured ≤ Instant.last ∧
      (∀ l, s.table.find? "a" = some l → 30 < l.expiry) ∧
      (∀ holder, ¬ GivenLast log "a" holder "1") ∧ (∃ t, s.renew? "a" "2" 30 = some (.renewed, t)) ∧
      s.releases "a" "2" = true ∧ s.releases "a" "1" = false := by
  have hgiven : GivenLast takeover "a" "second" "2" := ⟨⟨26, "second", "2"⟩, [], rfl, rfl, rfl⟩
  have hother : ∀ holder, ¬ GivenLast takeover "a" holder "1" := by
    rintro holder ⟨g, since, hlatest, -, htoken⟩
    obtain ⟨rfl, -⟩ := Prod.mk.inj (Option.some.inj hlatest)
    exact absurd htoken (by decide)
  have hrunning :
      ∀ l, ((empty (.ofNanos 30)).give "a" ⟨"second", "2", 56⟩).table.find? "a" = some l →
      30 < l.expiry := by
    simp [find?_give]
  have hfits :
      30 + ((empty (.ofNanos 30)).give "a" ⟨"second", "2", 56⟩).measured ≤ Instant.last := by decide
  obtain ⟨hrenew, hanswer, hrelease, -⟩ := answers_agree history_takeover "a" "2" 30
  obtain ⟨-, -, -, hrefuse⟩ := answers_agree history_takeover "a" "1" 30
  have hleads := (hrelease hrunning).mpr ⟨"second", hgiven, rfl⟩
  obtain ⟨a, t, hr⟩ := hanswer hfits
  obtain rfl := (hrenew a t hr).mpr ⟨"second", hgiven, rfl⟩
  exact ⟨takeover, _, history_takeover, hfits, hrunning, hother, ⟨t, hr⟩, hleads, hrefuse hother⟩

theorem history_given (h : (empty d).acquire? "a" "first" "1" 0 = some (.acquired, s)) :
    History d [⟨0, .acquire "a" "first" "1" .acquired⟩] s :=
  .call .start (by simp) (by simp) (.acquire h)

theorem history_again :
    History (.ofNanos 30) [⟨1, .acquire "a" "first" "2" .acquired⟩,
      ⟨0, .acquire "a" "first" "1" .acquired⟩]
        ((empty (.ofNanos 30)).give "a" ⟨"first", "2", 31⟩) := by
  have hgiven : History (.ofNanos 30) _ ((empty (.ofNanos 30)).give "a" ⟨"first", "1", 30⟩) :=
    history_given (by decide)
  exact .call hgiven (by decide) (by simp [Entry.Grants]) (.acquire (by decide))

/-- A lease that has ended is given back with its token, which does not renew it. One who asked
again leads, but its first token renews nothing. And a renewal has no answer when the lease was to
end after the calendar does. -/
theorem answers_disagree :
    (¬ ∀ d log s lock token now, History d log s → (∀ e ∈ log, e.now ≤ now) →
        (s.releases lock token = true ↔ ∃ t, s.renew? lock token now = some (.renewed, t))) ∧
      (¬ ∀ d log s lock token now holder, History d log s → (∀ e ∈ log, e.now ≤ now) →
        (∃ e ∈ log, e.deed = .acquire lock holder token .acquired) →
        ((∃ t, s.renew? lock token now = some (.renewed, t)) ↔ s.leader? lock now = some holder)) ∧
      ¬ ∀ d log s lock token now, History d log s → (∀ e ∈ log, e.now ≤ now) →
        ∃ a t, s.renew? lock token now = some (a, t) := by
  refine ⟨fun h => ?_, fun h => ?_, fun h => ?_⟩
  · have hgiven : History (.ofNanos 30) _ ((empty (.ofNanos 30)).give "a" ⟨"first", "1", 30⟩) :=
      history_given (by decide)
    obtain ⟨t, hr⟩ := (h _ _ _ "a" "1" 30 hgiven (by decide)).mp (by decide)
    obtain ⟨l, hl, -⟩ := (renewed_iff_current hr).mp rfl
    exact absurd hl nofun
  · have hasked :
        ∃ e ∈ [Entry.mk 1 (.acquire "a" "first" "2" .acquired), ⟨0,
          .acquire "a" "first" "1" .acquired⟩],
        e.deed = .acquire "a" "first" "1" .acquired := by simp
    obtain ⟨t, hr⟩ := (h _ _ _ "a" "1" 1 "first" history_again (by decide) hasked).mpr (by decide)
    obtain ⟨l, hl, htoken⟩ := (renewed_iff_current hr).mp rfl
    obtain rfl : ⟨"first", "2", 31⟩ = l := Option.some.inj hl
    exact absurd htoken (by decide)
  · have hgiven : History (.ofNanos Instant.last) _
        ((empty (.ofNanos Instant.last)).give "a" ⟨"first", "1", Instant.last⟩) :=
          history_given (by decide)
    obtain ⟨a, t, hr⟩ := h _ _ _ "a" "1" 1 hgiven (by decide)
    exact absurd hr nofun

end Leases
end ModelTemplates
