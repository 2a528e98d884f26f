import Mathlib.Logic.Relation
import ModelTemplates.Leadership
/-! When a shutdown keeps the work from starting. Only a standby that waits for its next attempt
looks at the shutdown; one that comes before the first attempt, while the lease is being asked for,
or when the next attempt is due, is not seen before the answer. -/
namespace ModelTemplates
namespace Leadership

namespace Candidate

variable {ε : Type} {c c' : Candidate} {s s' : ε} {now : Instant} {e : Election}
  {elector : Elector ε}

def started (c : Candidate) : Bool := c.acts.any fun a => a.2 matches .workStarted

@[simp] theorem started_enter (c : Candidate) (p : Phase) : (c.enter p).started = c.started := rfl

@[simp] theorem started_did (c : Candidate) (now : Instant) (a : Act) :
    (c.did now a).started = ((a matches .workStarted) || c.started) := rfl

@[simp] theorem started_renew (e : Election) (elector : Elector ε) (now : Instant) (token : String)
    (c : Candidate) (s : ε) : (c.renew e elector now token s).1.started = c.started := by
  unfold renew
  generalize elector.renew e.lock token now s = r
  obtain ⟨answer, s⟩ := r
  cases answer with
  | error e => rfl
  | ok r => cases r <;> rfl

@[simp] theorem started_retire (e : Election) (elector : Elector ε) (now : Instant) (token : String)
    (failure : Option String) (c : Candidate) (s : ε) :
    (c.retire e elector now token failure s).1.started = c.started := rfl

/-- An answer leads to work, back to waiting, or to a lease that cannot be renewed. -/
theorem ask_cases (e : Election) (elector : Elector ε) (now : Instant) (c : Candidate) (s : ε) :
    (c.ask e elector now s).1.started = true ∨
      (c.ask e elector now s).1.phase = .standby (now + e.retryPeriod) ∨
      e.renewPeriod = 0 ∧ (c.ask e elector now s).1.phase = .finished .noPeriod := by
  unfold ask
  generalize elector.acquire e.lock e.candidate now s = r
  obtain ⟨answer, s⟩ := r
  cases answer with
  | error e => exact .inr (.inl rfl)
  | ok attempt =>
    cases attempt with
    | refused leader => exact .inr (.inl rfl)
    | acquired token =>
      by_cases hperiod : e.renewPeriod = 0
      · simp [hperiod, enter]
      · simp [hperiod]

end Candidate

/-- A candidate under a clock. -/
structure TimedCandidate where
  now : Instant
  candidate : Candidate
  /-- The lease was asked for, and the answer is still to come. -/
  asking : Bool
  down : Bool

namespace TimedCandidate

def opening (now : Instant) : TimedCandidate := ⟨now, .new, false, false⟩

def shut (s : TimedCandidate) : TimedCandidate := { s with down := true }

/-- What can happen. Time goes on, unless a standby has something to do; the shutdown comes; the
lease is asked for, once that is due, and answered later, in whatever way; or the candidate does
what else it may do. -/
inductive Step (e : Election) (s : TimedCandidate) : TimedCandidate → Prop where
  | pass (later : Instant) (hnow : s.now ≤ later)
      (hidle : ∀ retryAt, s.candidate.phase = .standby retryAt → s.asking = false → s.down = false ∧
        later ≤ retryAt) :
      Step e s { s with now := later }
  | shutdown : Step e s s.shut
  | begin (hidle : s.asking = false) (hmay : s.candidate.mayAsk s.now = true) :
      Step e s { s with asking := true }
  | act (elector : Elector Unit) (cue : Cue) {c : Candidate} (hcue : cue = .ask ↔ s.asking = true)
      (h : step? e elector s.now s.down cue s.candidate () = some (c, ())) :
      Step e s { s with candidate := c, asking := false }

def Reachable (e : Election) (s : TimedCandidate) : Prop :=
  ∃ now, Relation.ReflTransGen (Step e) (opening now) s

/-- The candidate waits for its next attempt, which is not due yet. -/
def Waiting (s : TimedCandidate) : Prop :=
  ∃ retryAt, s.candidate.phase = .standby retryAt ∧ s.asking = false ∧ s.now < retryAt

variable {e : Election} {s s' : TimedCandidate} {c : Candidate} {elector : Elector Unit} {cue : Cue}

inductive Idle (e : Election) (down : Bool) : Phase → Prop where
  | new : Idle e down .new
  | standby (retryAt : Instant) : Idle e down (.standby retryAt)
  | idle (h : down = true) : Idle e down (.finished .idle)
  | noPeriod (h : e.renewPeriod = 0) : Idle e down (.finished .noPeriod)

/-- The lease is asked for when that is due, and without the lease the work does not start. -/
structure Sound (e : Election) (s : TimedCandidate) : Prop where
  due : s.asking = true → s.candidate.mayAsk s.now = true
  idle : s.candidate.started = false → Idle e s.down s.candidate.phase

theorem mayAsk_mono {now later : Instant} (hle : now ≤ later) (h : c.mayAsk now = true) :
    c.mayAsk later = true := by
  unfold Candidate.mayAsk at h ⊢
  split at h
  · rfl
  · simp only [decide_eq_true_eq] at h ⊢
    exact Nat.le_trans h hle
  · contradiction

theorem started_of_not_idle {down : Bool} (hidle : c.started = false → Idle e down c.phase)
    (h : ¬ Idle e down c.phase) : c.started = true := by
  cases hstarted : c.started with
  | true => rfl
  | false => exact absurd (hidle hstarted) h

/-- Whatever a candidate does, its work was started unless it is still idle. -/
theorem idle_act {now : Instant} {down : Bool} {c' : Candidate}
    (hidle : c.started = false → Idle e down c.phase)
    (h : step? e elector now down cue c () = some (c', ())) :
    c'.started = false → Idle e down c'.phase := by
  unfold step? at h
  split at h
  · split at h
    · have hask : c' = (c.ask e elector now ()).1 := (congrArg Prod.fst (Option.some.inj h)).symm
      subst hask
      intro hstarted
      rcases c.ask_cases e elector now () with hyes | hstandby | ⟨hperiod, hdone⟩
      · simp [hyes] at hstarted
      · exact hstandby ▸ .standby _
      · exact hdone ▸ .noPeriod hperiod
    · contradiction
  · split at h
    · next hdown =>
      obtain rfl : c.enter (.finished .idle) = c' := by simpa using h
      exact fun _ => .idle hdown
    · contradiction
  · next token due hp =>
    have hon : c.started = true := started_of_not_idle hidle (by rw [hp]; nofun)
    split at h
    · have hrenew : c' = (c.renew e elector now token ()).1 :=
        (congrArg Prod.fst (Option.some.inj h)).symm
      simp [hrenew, hon]
    · contradiction
  · next token due hp =>
    have hon : c.started = true := started_of_not_idle hidle (by rw [hp]; nofun)
    obtain rfl := (congrArg Prod.fst (Option.some.inj h)).symm
    simp [hon]
  · next hp =>
    have hon : c.started = true := started_of_not_idle hidle (by rw [hp]; nofun)
    obtain rfl := (congrArg Prod.fst (Option.some.inj h)).symm
    simp [hon]
  · contradiction

theorem Idle.shut {down : Bool} {p : Phase} (h : Idle e down p) : Idle e true p := by
  cases h with
  | new => exact .new
  | standby retryAt => exact .standby retryAt
  | idle => exact .idle rfl
  | noPeriod hperiod => exact .noPeriod hperiod

theorem Sound.step (h : Sound e s) (hstep : Step e s s') : Sound e s' := by
  cases hstep with
  | pass later hnow _ => exact ⟨fun hasking => mayAsk_mono hnow (h.due hasking), h.idle⟩
  | shutdown => exact ⟨h.due, fun hstarted => (h.idle hstarted).shut⟩
  | begin _ hmay => exact ⟨fun _ => hmay, h.idle⟩
  | act elector cue _ hact => exact ⟨nofun, idle_act h.idle hact⟩

theorem Reachable.sound (h : Reachable e s) : Sound e s := by
  obtain ⟨now, hsteps⟩ := h
  induction hsteps with
  | refl => exact ⟨nofun, fun _ => .new⟩
  | tail _ hstep ih => exact ih.step hstep

def generous : Elector Unit where
  acquire _ _ _ s := (.ok (.acquired ""), s)
  renew _ _ _ s := (.ok .renewed, s)
  release _ _ _ s := (.ok true, s)

theorem ask_generous (hperiod : 0 < e.renewPeriod) (c : Candidate) (now : Instant) :
    (c.ask e generous now ()).1.started = true := by
  simp only [Candidate.ask, generous, if_neg (Nat.ne_of_gt hperiod)]
  rfl

/-- When the lease is due to be asked for, it may come, and the work starts. -/
theorem exists_started (hperiod : 0 < e.renewPeriod) (hmay : s.candidate.mayAsk s.now = true) :
    ∃ s', Relation.ReflTransGen (Step e) s s' ∧ s'.candidate.started = true := by
  have hanswer {t : TimedCandidate} (hasking : t.asking = true)
    (hmay : t.candidate.mayAsk t.now = true) :
      Step e t { t with candidate := (t.candidate.ask e generous t.now ()).1, asking := false } :=
    .act generous .ask (by simp [hasking]) (by simp only [step?, if_pos hmay])
  cases hasking : s.asking with
  | true => exact ⟨_, .single (hanswer hasking hmay), ask_generous hperiod _ _⟩
  | false =>
    have hbegin : Step e s { s with asking := true } := .begin hasking hmay
    exact ⟨_, .head hbegin (.single (hanswer rfl hmay)), ask_generous hperiod _ _⟩

/-- What a standby does that was shut down while it waited: it gives up, at once. -/
theorem Waiting.step (h : s.Waiting) (hdown : s.down = true) (hstep : Step e s s') :
    s' = s ∨ s' = { s with candidate := s.candidate.enter (.finished .idle) } := by
  obtain ⟨retryAt, hp, hasking, hlt⟩ := h
  cases hstep with
  | pass later _ hidle =>
    have hup := (hidle retryAt hp hasking).1
    rw [hdown] at hup
    contradiction
  | shutdown =>
    left
    rw [shut, ← hdown]
  | begin _ hmay =>
    simp only [Candidate.mayAsk, hp, decide_eq_true_eq] at hmay
    exact absurd hlt (Nat.not_lt.mpr hmay)
  | @act elector cue c hcue hact =>
    cases cue with
    | ask => simp [hasking] at hcue
    | shutdown =>
      right
      obtain rfl : s.candidate.enter (.finished .idle) = c := by simpa [step?, hp, hdown] using hact
      rw [hasking]
    | renew => simp [step?, hp] at hact
    | workEnds failure => simp [step?, hp] at hact

theorem step_of_finished {ending : Ending} (h : s.candidate.phase = .finished ending)
    (hasking : s.asking = false) (hstep : Step e s s') :
    s'.candidate = s.candidate ∧ s'.asking = false := by
  cases hstep with
  | pass => exact ⟨rfl, hasking⟩
  | shutdown => exact ⟨rfl, hasking⟩
  | begin _ hmay => simp [Candidate.mayAsk, h] at hmay
  | act elector cue hcue hact =>
    cases cue with
    | ask => simp [hasking] at hcue
    | shutdown => simp [step?, h] at hact
    | renew => simp [step?, h] at hact
    | workEnds failure => simp [step?, h] at hact

/-- A standby that was shut down while it waited never does anything more. -/
theorem Waiting.acts (h : s.Waiting) (hdown : s.down = true)
    (hsteps : Relation.ReflTransGen (Step e) s s') :
    s'.candidate.acts = s.candidate.acts := by
  have hkept : s' = s ∨ s'.candidate = s.candidate.enter (.finished .idle) ∧ s'.asking = false := by
    induction hsteps with
    | refl => exact .inl rfl
    | tail _ hstep ih =>
      rcases ih with rfl | ⟨hleft, hasking⟩
      · refine (h.step hdown hstep).imp id ?_
        rintro rfl
        obtain ⟨_, -, hasking, -⟩ := h
        exact ⟨rfl, hasking⟩
      · obtain ⟨hsame, hasking⟩ := step_of_finished (by rw [hleft]; rfl) hasking hstep
        exact .inr ⟨hsame.trans hleft, hasking⟩
  rcases hkept with rfl | ⟨hleft, -⟩
  · rfl
  · rw [hleft]
    rfl

theorem Sound.waiting_or_mayAsk (h : Sound e s) (hperiod : 0 < e.renewPeriod) (hup : s.down = false)
    (hidle : s.candidate.started = false) : s.Waiting ∨ s.candidate.mayAsk s.now = true := by
  have hphase := h.idle hidle
  cases hp : s.candidate.phase with
  | new => exact .inr (by simp [Candidate.mayAsk, hp])
  | standby retryAt =>
    by_cases hdue : retryAt ≤ s.now
    · exact .inr (by simp [Candidate.mayAsk, hp, hdue])
    · cases hasking : s.asking with
      | true => exact .inr (h.due hasking)
      | false => exact .inl ⟨retryAt, hp, hasking, Nat.not_le.mp hdue⟩
  | leading token due => rw [hp] at hphase; nomatch hphase
  | steppingDown => rw [hp] at hphase; nomatch hphase
  | finished ending =>
    rw [hp] at hphase
    cases hphase with
    | idle hdown => simp [hup] at hdown
    | noPeriod hzero => omega

/-- A shutdown that comes before the work keeps it from ever starting exactly when the candidate
waits for its next attempt and that is not due yet; then all that is left is to return, with
success. -/
theorem shutdown_seen_iff_waiting (hperiod : 0 < e.renewPeriod) (h : Reachable e s)
    (hup : s.down = false) (hidle : s.candidate.started = false) :
    ((∀ s', Relation.ReflTransGen (Step e) s.shut s' → s'.candidate.started = false) ↔ s.Waiting) ∧
    (s.Waiting → (∃ s', Step e s.shut s' ∧ s' ≠ s.shut) ∧ ∀ s', Step e s.shut s' → s' = s.shut ∨
      ∃ ending, s'.candidate.phase = .finished ending ∧ ending.result? e.lock = some (.ok ())) := by
  refine ⟨⟨fun hnever => ?_, fun hwaiting s' hsteps => ?_⟩, fun hwaiting =>
    ⟨?_, fun s' hstep => ?_⟩⟩
  · rcases h.sound.waiting_or_mayAsk hperiod hup hidle with hwaiting | hmay
    · exact hwaiting
    · obtain ⟨s', hsteps, hstarted⟩ := exists_started (s := s.shut) hperiod hmay
      rw [hnever s' hsteps] at hstarted
      contradiction
  · have hshut : s.shut.Waiting := hwaiting
    rw [Candidate.started, hshut.acts rfl hsteps]
    exact hidle
  · obtain ⟨retryAt, hp, hasking, -⟩ := hwaiting
    have hleave :
        Step e s.shut
          { s.shut with candidate := s.candidate.enter (.finished .idle), asking := false } :=
      .act generous .shutdown (by simp [shut, hasking]) (by simp [step?, shut, hp])
    refine ⟨_, hleave, fun hsame => ?_⟩
    have hphase := congrArg (fun s : TimedCandidate => s.candidate.phase) hsame
    simp [shut, hp, Candidate.enter] at hphase
  · have hshut : s.shut.Waiting := hwaiting
    refine (hshut.step rfl hstep).imp id ?_
    rintro rfl
    exact ⟨.idle, rfl, rfl⟩

def brief : Election := ⟨"lock", "first", 20, 10⟩

def taken : Elector Unit where
  acquire _ _ _ s := (.ok (.refused (some "second")), s)
  renew _ _ _ s := (.ok .lost, s)
  release _ _ _ s := (.ok false, s)

def refused : TimedCandidate :=
  ⟨0, ⟨.standby 10, [(0, .asked (.ok (.refused (some "second"))))]⟩, false, false⟩

theorem reachable_refused : Reachable brief refused := by
  have hbegin : Step brief (opening 0) { opening 0 with asking := true } := .begin rfl rfl
  have hanswer : Step brief { opening 0 with asking := true } refused :=
    .act taken .ask (by decide) rfl
  exact ⟨0, .head hbegin (.single hanswer)⟩

theorem shutdown_seen_iff_waiting_refused :
    Reachable brief refused ∧
      ∀ s', Relation.ReflTransGen (Step brief) refused.shut s' → s'.candidate.started = false := by
  have hwaiting : refused.Waiting := ⟨10, rfl, rfl, by decide⟩
  exact ⟨reachable_refused,
    (shutdown_seen_iff_waiting (by decide) reachable_refused rfl rfl).1.mpr hwaiting⟩

/-- A shutdown that comes before the first attempt does not keep the work from starting. -/
theorem shutdown_before_first_attempt_missed :
    ¬ ∀ (e : Election) (s : TimedCandidate), 0 < e.renewPeriod → Reachable e s → s.down = false →
      s.candidate.started = false →
      ∀ s', Relation.ReflTransGen (Step e) s.shut s' → s'.candidate.started = false := by
  intro h
  obtain ⟨s', hsteps, hstarted⟩ :=
    exists_started (e := brief) (s := (opening 0).shut) (by decide) rfl
  have hnever := h brief (opening 0) (by decide) ⟨0, .refl⟩ rfl rfl s' hsteps
  rw [hstarted] at hnever
  contradiction

end TimedCandidate
end Leadership
end ModelTemplates
