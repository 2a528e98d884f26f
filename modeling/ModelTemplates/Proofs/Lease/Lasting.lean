import ModelTemplates.Config
import ModelTemplates.Proofs.Lease.Exclusivity
/-! Leases that last from one renewal to the next. A leader that renews its lease within a period
shorter than the lease never loses it, whatever others do. The leases of a valid configuration are
longer than its renew period, but one that is too long for the calendar is not given at all, or as a
short one. -/
namespace ModelTemplates

namespace Leases

def Deed.Foreign (lock holder token : String) : Deed → Prop
  | .acquire key asker _ _ => key = lock → asker ≠ holder
  | .renew key shown _ => key = lock → shown ≠ token
  | .release key shown _ => key = lock → shown ≠ token
  | .expire key => key ≠ lock
  | .lead _ _ => True

/-- One was given the lease of a lock and has renewed it within every period; `last` is when that
was, and `now` the time of what was done last. -/
inductive TimelyLease (length period : Nat) (lock holder token : String) :
    Instant → Instant → Leases → Prop where
  | start {s t : Leases} {now : Instant} (hlength : s.measured = length)
      (h : s.acquire? lock holder token now = some (.acquired, t)) :
      TimelyLease length period lock holder token now now t
  | renew {s t : Leases} {last now later : Instant} {a : Renewal}
      (h : TimelyLease length period lock holder token last now s)
      (hnow : now ≤ later) (hperiod : later ≤ last + period)
      (hr : s.renew? lock token later = some (a, t)) :
      TimelyLease length period lock holder token later later t
  | other {s t : Leases} {last now later : Instant} {deed : Deed}
      (h : TimelyLease length period lock holder token last now s)
      (hnow : now ≤ later) (hperiod : later ≤ last + period)
      (hforeign : deed.Foreign lock holder token)
      (hcall : Call s later deed t) : TimelyLease length period lock holder token last later t

variable {length period : Nat} {lock holder token : String} {last now later : Instant}
  {s t : Leases} {deed : Deed}

theorem Call.find?_of_foreign (h : Call s now deed t) (hforeign : deed.Foreign lock holder token)
    {e : Instant} (hl : s.table.find? lock = some ⟨holder, token, e⟩) (hahead : now < e) :
    t.table.find? lock = some ⟨holder, token, e⟩ := by
  have hcurrent : s.current? lock now = some ⟨holder, token, e⟩ := current?_eq_some.mpr ⟨hl, hahead⟩
  cases h with
  | @acquire key asker fresh a t ha =>
    rcases acquire?_cases ha with ⟨_, -, -, -, rfl⟩ | ⟨hmine, rfl, rfl⟩
    · exact hl
    · rw [find?_give, if_neg, hl]
      rintro rfl
      exact hforeign rfl (hmine _ hcurrent).symm
  | @renew key shown a t hr =>
    rcases renew?_cases hr with ⟨l, hother, hshown, rfl, rfl⟩ | ⟨-, -, rfl⟩
    · rw [find?_give, if_neg, hl]
      rintro rfl
      obtain rfl := Option.some.inj (hcurrent.symm.trans hother)
      exact hforeign rfl hshown.symm
    · exact hl
  | release key shown =>
    rw [find?_release, if_neg, hl]
    rintro ⟨rfl, hreleased⟩
    obtain ⟨l, hother, hshown⟩ := releases_iff.mp hreleased
    obtain rfl := Option.some.inj (hl.symm.trans hother)
    exact hforeign rfl hshown.symm
  | expire key => rw [find?_expire, if_neg (Ne.symm hforeign), hl]
  | lead => exact hl

/-- The lease that was renewed last is still there, and ends a lease's length after that. -/
theorem TimelyLease.held (h : TimelyLease length period lock holder token last now s)
    (hperiod : period < length) :
    s.measured = length ∧ now ≤ last + period ∧
      s.table.find? lock = some ⟨holder, token, last + length⟩ := by
  induction h with
  | start hlength ha =>
    subst hlength
    rcases acquire?_cases ha with ⟨_, -, -, hrefused, -⟩ | ⟨-, -, rfl⟩
    · contradiction
    · exact ⟨rfl, Nat.le_add_right _ _, by rw [find?_give, if_pos rfl]⟩
  | renew h hnow hlater hr ih =>
    obtain ⟨hlength, -, hl⟩ := ih
    rcases renew?_cases hr with ⟨l, hcurrent, -, -, rfl⟩ | ⟨hother, -, -⟩
    · obtain rfl := Option.some.inj (hl.symm.trans (current?_eq_some.mp hcurrent).1)
      exact ⟨hlength, Nat.le_add_right _ _, by rw [find?_give, if_pos rfl, hlength]⟩
    · have hahead := Nat.lt_of_le_of_lt hlater (Nat.add_lt_add_left hperiod _)
      exact absurd rfl (hother _ (current?_eq_some.mpr ⟨hl, hahead⟩))
  | other h hnow hlater hforeign hcall ih =>
    obtain ⟨hlength, -, hl⟩ := ih
    have hahead := Nat.lt_of_le_of_lt hlater (Nat.add_lt_add_left hperiod _)
    exact ⟨hcall.measured_eq.trans hlength, hlater, hcall.find?_of_foreign hforeign hl hahead⟩

/-- Whoever renews a lease within a period that is shorter leads all the while, and is answered that
it was renewed. -/
theorem TimelyLease.kept (h : TimelyLease length period lock holder token last now s)
    (hperiod : period < length) (hlater : later ≤ last + period) :
    s.leader? lock later = some holder ∧
      (later + length ≤ Instant.last → ∃ t, s.renew? lock token later = some (.renewed, t)) := by
  obtain ⟨hlength, -, hl⟩ := h.held hperiod
  have hahead : later < last + length :=
    Nat.lt_of_le_of_lt hlater (Nat.add_lt_add_left hperiod last)
  have hcurrent : s.current? lock later = some ⟨holder, token, last + length⟩ :=
    current?_eq_some.mpr ⟨hl, hahead⟩
  refine ⟨by rw [leader?, hcurrent]; rfl, fun hfits => ?_⟩
  obtain ⟨a, t, hr⟩ := exists_renew? (hlength ▸ hfits) lock token
  rcases renew?_cases hr with ⟨_, -, -, rfl, -⟩ | ⟨hother, -, -⟩
  · exact ⟨t, hr⟩
  · exact absurd rfl (hother _ hcurrent)

theorem expiry?_eq_some {e : Instant} :
    s.expiry? now = some e ↔ now + s.measured ≤ Instant.last ∧ now + s.measured = e := by
  unfold Leases.expiry?
  split <;> simp [*]

end Leases

namespace ElectionConfig

variable {c : ElectionConfig} {now : Instant}

def leases (c : ElectionConfig) : Leases := .empty c.leaseDuration

/-- A lease that is given now ends, and later than the next renewal. -/
def Outlasts (c : ElectionConfig) (now : Instant) : Prop :=
  ∃ e, c.leases.expiry? now = some e ∧ now + c.renewPeriod.nanos < e

theorem outlasts_iff :
    c.Outlasts now ↔ now + c.leases.measured ≤ Instant.last ∧
      c.renewPeriod.nanos < c.leases.measured := by
  simp only [Outlasts, Leases.expiry?_eq_some]
  constructor
  · rintro ⟨_, ⟨hfits, rfl⟩, hlater⟩
    exact ⟨hfits, Nat.add_lt_add_iff_left.mp hlater⟩
  · rintro ⟨hfits, hperiod⟩
    exact ⟨_, ⟨hfits, rfl⟩, Nat.add_lt_add_left hperiod now⟩

theorem measured_leases (c : ElectionConfig) : c.leases.measured =
    if c.leaseDuration.nanos ≤ Leases.longest then c.leaseDuration.nanos
      else Leases.defaultDuration.nanos :=
  rfl

end ElectionConfig

namespace Config

variable {c : Config}

/-- What a valid configuration says about the lengths of its leases. -/
theorem renewPeriod_lt_leaseDuration (h : c.validate = .ok ())
    (henabled : c.spec.election.enabled = true) :
    c.spec.election.renewPeriod.nanos < c.spec.election.leaseDuration.nanos := by
  have hshorter : c.spec.election.renewPeriodSecs < c.spec.election.leaseDurationSecs := by
    refine Decidable.of_not_not fun hlong => ?_
    have hbad : c.spec.election.renewPeriodSecs = 0 ∨
        c.spec.election.renewPeriodSecs ≥ c.spec.election.leaseDurationSecs :=
          .inr (UInt64.not_lt.mp hlong)
    -- it is refused, if not by one of the checks before
    unfold validate at h
    simp only [henabled, hbad, and_self, if_true] at h
    repeat' split at h
    all_goals contradiction
  exact Nat.mul_lt_mul_of_pos_right hshorter (by decide)

/-- In a process with a valid configuration, a lease lasts until the next renewal exactly when it
ends within the calendar; or when it is so long that the default is taken instead, which must then
be longer than the renew period and end within the calendar. Whoever renews such a lease within
every period leads all the while. -/
theorem outlasts_iff_fits (h : c.validate = .ok ()) (henabled : c.spec.election.enabled = true) :
    (∀ now, c.spec.election.Outlasts now ↔
        now + c.spec.election.leaseDuration.nanos ≤ Instant.last ∨
          Leases.longest < c.spec.election.leaseDuration.nanos ∧
            c.spec.election.renewPeriod.nanos < Leases.defaultDuration.nanos ∧
              now + Leases.defaultDuration.nanos ≤ Instant.last) ∧
      ∀ lock holder token last now s,
        Leases.TimelyLease c.spec.election.leases.measured c.spec.election.renewPeriod.nanos lock
          holder token last now s →
        c.spec.election.Outlasts last →
        ∀ later, later ≤ last + c.spec.election.renewPeriod.nanos →
          s.leader? lock later = some holder ∧
            (c.spec.election.Outlasts later →
              ∃ t, s.renew? lock token later = some (.renewed, t)) := by
  constructor
  · intro now
    have hshorter := renewPeriod_lt_leaseDuration h henabled
    rw [ElectionConfig.outlasts_iff, ElectionConfig.measured_leases]
    by_cases hlong : c.spec.election.leaseDuration.nanos ≤ Leases.longest
    · simp only [if_pos hlong, Nat.not_lt.mpr hlong, false_and, or_false, hshorter, and_true]
    · have hpast : ¬ now + c.spec.election.leaseDuration.nanos ≤ Instant.last :=
        Nat.not_le.mpr <| calc
        Instant.last < Leases.longest := by decide
        _ < c.spec.election.leaseDuration.nanos := Nat.not_le.mp hlong
        _ ≤ now + c.spec.election.leaseDuration.nanos := Nat.le_add_left _ _
      simp only [if_neg hlong, hpast, Nat.not_le.mp hlong, false_or, true_and]
      exact and_comm
  · intro lock holder token last now s htimely houtlasts later hlater
    obtain ⟨-, hperiod⟩ := ElectionConfig.outlasts_iff.mp houtlasts
    obtain ⟨hleads, hrenews⟩ := htimely.kept hperiod hlater
    exact ⟨hleads, fun hlasts => hrenews (ElectionConfig.outlasts_iff.mp hlasts).1⟩

def newYear : Instant := 1767225600000000000

/-- The leases of a process with the standard configuration, in which one leads until then. -/
def leading (expiry : Instant) : Leases :=
  standard.spec.election.leases.give "vela-controllers" ⟨"first", "1", expiry⟩

/-- One leads, and renews its lease after five seconds; another one is refused a lease two seconds
later. -/
theorem timelyLease_leading :
    Leases.TimelyLease standard.spec.election.leases.measured
      standard.spec.election.renewPeriod.nanos "vela-controllers" "first" "1" (newYear + 5000000000)
        (newYear + 7000000000) (leading (newYear + 20000000000)) := by
  have hgiven :
      Leases.TimelyLease standard.spec.election.leases.measured
        standard.spec.election.renewPeriod.nanos
      "vela-controllers" "first" "1" newYear newYear (leading (newYear + 15000000000)) :=
    .start rfl (by decide)
  have hrenewed :
      Leases.TimelyLease standard.spec.election.leases.measured
        standard.spec.election.renewPeriod.nanos
      "vela-controllers" "first" "1" (newYear + 5000000000) (newYear + 5000000000)
        (leading (newYear + 20000000000)) :=
    .renew (a := .renewed) hgiven (by decide) (by decide) (by decide)
  have hasked : Leases.Call (leading (newYear + 20000000000)) (newYear + 7000000000)
      (.acquire "vela-controllers" "second" "2" (.refused "first"))
        (leading (newYear + 20000000000)) :=
    .acquire (by decide)
  have hforeign : (Leases.Deed.acquire "vela-controllers" "second" "2" (.refused "first")).Foreign
      "vela-controllers" "first" "1" := fun _ => by decide
  exact .other hrenewed (by decide) (by decide) hforeign hasked

/-- Ten seconds after it was given, the lease still makes its holder lead, and is renewed. -/
theorem outlasts_iff_fits_standard :
    standard.validate = .ok () ∧ standard.spec.election.enabled = true ∧
      standard.spec.election.Outlasts newYear ∧ ∃ last now s later,
        Leases.TimelyLease standard.spec.election.leases.measured
          standard.spec.election.renewPeriod.nanos "vela-controllers" "first" "1" last now s ∧
          now < later ∧
        s.leader? "vela-controllers" later = some "first" ∧
        ∃ t, s.renew? "vela-controllers" "1" later = some (.renewed, t) := by
  have hvalid : standard.validate = .ok () := rfl
  obtain ⟨hlasts, hkept⟩ := outlasts_iff_fits hvalid rfl
  have hrenewal := (hlasts (newYear + 5000000000)).mpr (.inl (by decide))
  have hlater := (hlasts (newYear + 10000000000)).mpr (.inl (by decide))
  obtain ⟨hleads, hrenews⟩ :=
    hkept _ _ _ _ _ _ timelyLease_leading hrenewal (newYear + 10000000000) (by decide)
  exact ⟨hvalid, rfl, (hlasts newYear).mpr (.inl (by decide)), _, _, _, _,
    timelyLease_leading, by decide, hleads, hrenews hlater⟩

/-- The standard configuration with another length of its leases and another renew period, in
seconds. -/
def renewing (lease period : UInt64) : Config :=
  { standard with
    spec := { standard.spec with
      election :=
        { standard.spec.election with leaseDurationSecs := lease, renewPeriodSecs := period } } }

/-- Of two valid configurations, one gives no lease at all, since it would end after the calendar
does. The other one's is too long to be measured, and over before its first renewal, so that its
holder does not lead any more. -/
theorem valid_lease_outlived :
    (¬ ∀ c : Config, c.validate = .ok () → c.spec.election.enabled = true →
        ∃ a t, c.spec.election.leases.acquire? "vela-controllers" "first" "1" newYear =
        some (a, t)) ∧
      ¬ ∀ c : Config, c.validate = .ok () → c.spec.election.enabled = true →
        ∀ t, c.spec.election.leases.acquire? "vela-controllers" "first" "1" newYear =
        some (.acquired, t) →
          t.leader? "vela-controllers" (newYear + c.spec.election.renewPeriod.nanos) =
          some "first" := by
  constructor
  · intro h
    obtain ⟨a, t, ha⟩ := h (renewing 10000000000000 5) rfl rfl
    have hnone :
        (renewing 10000000000000 5).spec.election.leases.acquire? "vela-controllers" "first"
          "1" newYear =
        none := by decide
    rw [hnone] at ha
    contradiction
  · intro h
    have hleads := h (renewing 18446744073709551615 20) rfl rfl _ rfl
    exact absurd hleads (by decide)

end Config

end ModelTemplates
