import Mathlib.Logic.Relation
import ModelTemplates.Leadership
/-! What a candidate does with its lease, whatever the elector answers and however long the work
takes. The work is started once, under the lease that was given; a renewal that fails has it
cancelled and ends in the loss of the lease, and work that ends before gives the lease back. -/
namespace ModelTemplates
namespace Leadership

def Candidate.deeds (c : Candidate) : List Act := c.acts.map Prod.snd

namespace Act

def starts : Act → Bool
  | workStarted => true
  | _ => false

def ends : Act → Bool
  | workEnded _ => true
  | _ => false

def releases : Act → Bool
  | released _ _ => true
  | _ => false

/-- What may come once the work has been started under a token. -/
def Under (token : String) : Act → Prop
  | renewed shown _ => shown = token
  | released shown _ => shown = token
  | workEnded _ => True
  | _ => False

end Act

/-- A renewal failed before the work came to its end. -/
def FailedInTime (as : List Act) : Prop :=
  ∃ later token answer before, as = later ++ .renewed token answer :: before ∧
    answer ≠ .ok .renewed ∧ before.all fun a => !a.ends

def Cue.outcome? : Cue → Option (Option String)
  | .workEnds failure => some failure
  | _ => none

inductive Move (e : Election) (now : Instant) (down : Bool) (c : Candidate) :
    Cue → Candidate → Prop where
  | refused {answer : Except LeadershipError Attempt} (hmay : c.mayAsk now = true)
      (hanswer : ∀ token, answer ≠ .ok (.acquired token)) :
      Move e now down c .ask ((c.did now (.asked answer)).enter (.standby (now + e.retryPeriod)))
  | noPeriod (token : String) (hmay : c.mayAsk now = true) :
      Move e now down c .ask
        ((c.did now (.asked (.ok (.acquired token)))).enter (.finished .noPeriod))
  | start (token : String) (hmay : c.mayAsk now = true) :
      Move e now down c .ask
        (((c.did now (.asked (.ok (.acquired token)))).did now .workStarted).enter
          (.leading token (now + e.renewPeriod)))
  | giveUp {retryAt : Instant} (hp : c.phase = .standby retryAt) :
      Move e now down c .shutdown (c.enter (.finished .idle))
  | renew {token : String} {due : Instant} (hp : c.phase = .leading token due) :
      Move e now down c .renew
        ((c.did now (.renewed token (.ok .renewed))).enter (.leading token (now + e.renewPeriod)))
  | fail {token : String} {due : Instant} {answer : Except LeadershipError Leases.Renewal}
      (hp : c.phase = .leading token due) (hanswer : answer ≠ .ok .renewed) :
      Move e now down c .renew ((c.did now (.renewed token answer)).enter .steppingDown)
  | retire {token : String} {due : Instant} (failure : Option String)
      (answer : Except LeadershipError Bool)
      (hp : c.phase = .leading token due) :
      Move e now down c (.workEnds failure)
        (((c.did now (.workEnded down)).did now (.released token answer)).enter
          (.finished (.worked failure)))
  | lose (failure : Option String) (hp : c.phase = .steppingDown) :
      Move e now down c (.workEnds failure) ((c.did now (.workEnded true)).enter (.finished .lost))

section

variable {ε : Type} {e : Election} {elector : Elector ε} {now : Instant} {down : Bool}
  {c c' : Candidate} {t t' : ε}

theorem move_ask (hmay : c.mayAsk now = true) :
    Move e now down c .ask (c.ask e elector now t).1 := by
  unfold Candidate.ask
  generalize elector.acquire e.lock e.candidate now t = r
  obtain ⟨answer, t⟩ := r
  cases answer with
  | error why => exact .refused hmay fun _ => nofun
  | ok attempt =>
    cases attempt with
    | refused leader => exact .refused hmay fun _ => nofun
    | acquired token =>
      by_cases hperiod : e.renewPeriod = 0
      · simp only [if_pos hperiod]
        exact .noPeriod token hmay
      · simp only [if_neg hperiod]
        exact .start token hmay

theorem move_renew {token : String} {due : Instant} (hp : c.phase = .leading token due) :
    Move e now down c .renew (c.renew e elector now token t).1 := by
  unfold Candidate.renew
  generalize elector.renew e.lock token now t = r
  obtain ⟨answer, t⟩ := r
  cases answer with
  | error why => exact .fail hp nofun
  | ok renewal =>
    cases renewal with
    | renewed => exact .renew hp
    | lost => exact .fail hp nofun
    | invalidToken => exact .fail hp nofun

theorem move_of_step? {cue : Cue} (h : step? e elector now down cue c t = some (c', t')) :
    Move e now down c cue c' := by
  unfold step? at h
  split at h
  · split at h
    · next hmay =>
      obtain rfl : (c.ask e elector now t).1 = c' := congrArg Prod.fst (Option.some.inj h)
      exact move_ask hmay
    · contradiction
  · next hp =>
    split at h
    · obtain rfl := congrArg Prod.fst (Option.some.inj h)
      exact .giveUp hp
    · contradiction
  · next token due hp =>
    split at h
    · obtain rfl : (c.renew e elector now token t).1 = c' := congrArg Prod.fst (Option.some.inj h)
      exact move_renew hp
    · contradiction
  · next failure token due hp =>
    obtain rfl := congrArg Prod.fst (Option.some.inj h)
    exact .retire failure _ hp
  · next failure hp =>
    obtain rfl := congrArg Prod.fst (Option.some.inj h)
    exact .lose failure hp
  · contradiction

end

/-- A candidate and the elector that it asks, under a clock. -/
structure CandidateWithElector (ε : Type) where
  now : Instant
  down : Bool
  candidate : Candidate
  elector : ε
  /-- Why the work failed, if it did, once it has come to its end. -/
  outcome : Option (Option String)

namespace CandidateWithElector

variable {ε : Type} {e : Election} {elector : Elector ε} {s s' : CandidateWithElector ε}
  {c : Candidate} {t : ε} {now : Instant}

def opening (now : Instant) (start : ε) : CandidateWithElector ε := ⟨now, false, .new, start, none⟩

/-- What can happen. Time goes on, the shutdown comes, or the candidate does what it may do; its
work may end at any time, in any way. -/
inductive Step (e : Election) (elector : Elector ε) (s : CandidateWithElector ε) :
    CandidateWithElector ε → Prop where
  | pass (later : Instant) (hnow : s.now ≤ later) : Step e elector s { s with now := later }
  | shutdown : Step e elector s { s with down := true }
  | act (cue : Cue) {c : Candidate} {t : ε}
      (h : step? e elector s.now s.down cue s.candidate s.elector = some (c, t)) :
      Step e elector s { s with candidate := c, elector := t, outcome := cue.outcome?.or s.outcome }

def Reachable (e : Election) (elector : Elector ε) (s : CandidateWithElector ε) : Prop :=
  ∃ now start, Relation.ReflTransGen (Step e elector) (opening now start) s

/-- Nothing was done but asking for the lease. -/
def Asked (as : List Act) : Prop := ∀ a ∈ as, ∃ answer, a = .asked answer

/-- Attempts that were all in vain. -/
def Refused (as : List Act) : Prop :=
  ∀ a ∈ as, ∃ answer, a = .asked answer ∧ ∀ token, answer ≠ .ok (.acquired token)

/-- Renewals under a token that all went well. -/
def Kept (token : String) (as : List Act) : Prop := ∀ a ∈ as, a = .renewed token (.ok .renewed)

/-- The lease came under a token after attempts in vain, the work was started, and the lease was
kept since. -/
def Led (token : String) (as : List Act) : Prop :=
  ∃ renewals attempts, as = renewals ++ .workStarted :: .asked (.ok (.acquired token)) :: attempts ∧
    Kept token renewals ∧ Refused attempts

/-- All that can have been done when a candidate has come so far, and how its work ended. -/
inductive Course : Phase → List Act → Option (Option String) → Prop where
  | new : Course .new [] none
  | standby (retryAt : Instant) {as : List Act} (h : Refused as) : Course (.standby retryAt) as none
  | leading (due : Instant) {token : String} {as : List Act} (h : Led token as) :
      Course (.leading token due) as none
  | steppingDown {token : String} {answer : Except LeadershipError Leases.Renewal} {as : List Act}
      (h : Led token as) (hanswer : answer ≠ .ok .renewed) :
      Course .steppingDown (.renewed token answer :: as) none
  | idle {as : List Act} (h : Refused as) : Course (.finished .idle) as none
  | noPeriod (token : String) {as : List Act} (h : Refused as) :
      Course (.finished .noPeriod) (.asked (.ok (.acquired token)) :: as) none
  | worked (failure : Option String) (cancelled : Bool) (answer : Except LeadershipError Bool)
      {token : String}
      {as : List Act} (h : Led token as) :
      Course (.finished (.worked failure)) (.released token answer :: .workEnded cancelled :: as)
        (some failure)
  | lost (failure : Option String) {token : String} {answer : Except LeadershipError Leases.Renewal}
      {as : List Act}
      (h : Led token as) (hanswer : answer ≠ .ok .renewed) :
      Course (.finished .lost) (.workEnded true :: .renewed token answer :: as) (some failure)

variable {as : List Act} {token : String}

theorem Refused.cons (h : Refused as) {answer : Except LeadershipError Attempt}
    (hanswer : ∀ token, answer ≠ .ok (.acquired token)) : Refused (.asked answer :: as) :=
  List.forall_mem_cons.mpr ⟨⟨answer, rfl, hanswer⟩, h⟩

theorem Led.renewed (h : Led token as) : Led token (.renewed token (.ok .renewed) :: as) := by
  obtain ⟨renewals, attempts, rfl, hkept, hrefused⟩ := h
  exact ⟨_ :: renewals, attempts, rfl, List.forall_mem_cons.mpr ⟨rfl, hkept⟩, hrefused⟩

theorem Course.refused {outcome : Option (Option String)} (h : Course c.phase as outcome)
    (hmay : c.mayAsk now = true) : Refused as ∧ outcome = none := by
  unfold Candidate.mayAsk at hmay
  split at hmay
  · next hp =>
    rw [hp] at h
    cases h with
    | new => exact ⟨nofun, rfl⟩
  · next hp =>
    rw [hp] at h
    cases h with
    | standby retryAt hrefused => exact ⟨hrefused, rfl⟩
  · contradiction

theorem Course.move {down : Bool} {cue : Cue} {c' : Candidate} {outcome : Option (Option String)}
    (h : Course c.phase c.deeds outcome) (hmove : Move e now down c cue c') :
    Course c'.phase c'.deeds (cue.outcome?.or outcome) := by
  cases hmove with
  | refused hmay hanswer =>
    obtain ⟨hrefused, rfl⟩ := h.refused hmay
    exact .standby _ (hrefused.cons hanswer)
  | noPeriod token hmay =>
    obtain ⟨hrefused, rfl⟩ := h.refused hmay
    exact .noPeriod token hrefused
  | start token hmay =>
    obtain ⟨hrefused, rfl⟩ := h.refused hmay
    exact .leading _ ⟨[], c.deeds, rfl, nofun, hrefused⟩
  | giveUp hp =>
    rw [hp] at h
    cases h with
    | standby _ hrefused => exact .idle hrefused
  | renew hp =>
    rw [hp] at h
    cases h with
    | leading _ hled => exact .leading _ hled.renewed
  | fail hp hanswer =>
    rw [hp] at h
    cases h with
    | leading _ hled => exact .steppingDown hled hanswer
  | retire failure answer hp =>
    rw [hp] at h
    cases h with
    | leading _ hled => exact .worked failure down answer hled
  | lose failure hp =>
    rw [hp] at h
    generalize hdeeds : c.deeds = as at h
    cases h with
    | steppingDown hled hanswer =>
      rw [show Candidate.deeds _ = .workEnded true :: c.deeds from rfl, hdeeds]
      exact .lost failure hled hanswer

theorem Reachable.course (h : Reachable e elector s) :
    Course s.candidate.phase s.candidate.deeds s.outcome := by
  obtain ⟨now, start, hsteps⟩ := h
  induction hsteps with
  | refl => exact .new
  | tail _ hstep ih =>
    cases hstep with
    | pass => exact ih
    | shutdown => exact ih
    | act cue hact => exact ih.move (move_of_step? hact)

section

variable {p : Phase} {ending : Ending} {outcome : Option (Option String)} {a : Act}

theorem Refused.asked (h : Refused as) : Asked as := by
  intro a ha
  obtain ⟨answer, rfl, -⟩ := h a ha
  exact ⟨answer, rfl⟩

theorem Asked.cons (h : Asked as) (answer : Except LeadershipError Attempt) :
    Asked (.asked answer :: as) :=
  List.forall_mem_cons.mpr ⟨⟨answer, rfl⟩, h⟩

theorem Asked.countP_starts (h : Asked as) : as.countP Act.starts = 0 := by
  rw [List.countP_eq_zero]
  intro a ha
  obtain ⟨answer, rfl⟩ := h a ha
  exact nofun

theorem Asked.not_started (h : Asked as) : .workStarted ∉ as := by
  intro hstarted
  obtain ⟨answer, hasked⟩ := h _ hstarted
  contradiction

theorem Asked.not_failedInTime (h : Asked as) : ¬ FailedInTime as := by
  rintro ⟨later, shown, answer, before, rfl, -, -⟩
  obtain ⟨_, hasked⟩ := h (.renewed shown answer) (by simp)
  contradiction

/-- All that is done while the work goes on and the lease is kept. -/
theorem Led.cases_of_mem (h : Led token as) (ha : a ∈ as) :
    a = .renewed token (.ok .renewed) ∨ a = .workStarted ∨ ∃ answer, a = .asked answer := by
  obtain ⟨renewals, attempts, rfl, hkept, hrefused⟩ := h
  simp only [List.mem_append, List.mem_cons] at ha
  rcases ha with ha | rfl | rfl | ha
  · exact .inl (hkept a ha)
  · exact .inr (.inl rfl)
  · exact .inr (.inr ⟨_, rfl⟩)
  · exact .inr (.inr (hrefused.asked a ha))

/-- What is done after the lease was kept for some time, as long as it is under the same token. -/
theorem Led.under (h : Led token as) (rest : List Act) (hrest : ∀ a ∈ rest, a.Under token) :
    ∃ token later attempts, rest ++ as = later ++ .workStarted ::
      .asked (.ok (.acquired token)) :: attempts ∧ Refused attempts ∧
      ∀ a ∈ later, a.Under token := by
  obtain ⟨renewals, attempts, rfl, hkept, hrefused⟩ := h
  refine ⟨token, rest ++ renewals, attempts, (List.append_assoc _ _ _).symm, hrefused, ?_⟩
  intro a ha
  rcases List.mem_append.mp ha with ha | ha
  · exact hrest a ha
  · rw [hkept a ha]
    exact rfl

/-- Nothing was done but asking for the lease, or the work was started after the lease was given,
and all that came after was under its token. -/
theorem Course.under_lease (h : Course p as outcome) :
    Asked as ∨
      ∃ token later attempts, as = later ++ .workStarted ::
      .asked (.ok (.acquired token)) :: attempts ∧
        Refused attempts ∧ ∀ a ∈ later, a.Under token := by
  cases h with
  | new => exact .inl nofun
  | standby _ hrefused => exact .inl hrefused.asked
  | leading _ hled => exact .inr (hled.under [] nofun)
  | @steppingDown token answer _ hled _ =>
    exact .inr (hled.under [.renewed token answer] (by simp [Act.Under]))
  | idle hrefused => exact .inl hrefused.asked
  | noPeriod token hrefused => exact .inl (hrefused.asked.cons _)
  | @worked _ cancelled answer token _ hled =>
    exact .inr (hled.under [.released token answer, .workEnded cancelled] (by simp [Act.Under]))
  | @lost _ token answer _ hled _ =>
    exact .inr (hled.under [.workEnded true, .renewed token answer] (by simp [Act.Under]))

theorem Course.starts_once (h : Course p as outcome) : as.countP Act.starts ≤ 1 := by
  rcases h.under_lease with hasked | ⟨token, later, attempts, rfl, hrefused, hunder⟩
  · rw [hasked.countP_starts]
    exact Nat.zero_le 1
  · have hlater : later.countP Act.starts = 0 := by
      rw [List.countP_eq_zero]
      intro a ha
      have hunder := hunder a ha
      cases a <;> first | contradiction | exact nofun
    simp [List.countP_cons, hlater, hrefused.asked.countP_starts, Act.starts]

theorem Led.going (h : Led token as) : as.all fun a => !a.ends := by
  rw [List.all_eq_true]
  intro a ha
  rcases h.cases_of_mem ha with rfl | rfl | ⟨answer, rfl⟩ <;> rfl

theorem Led.not_failedInTime (h : Led token as) (cancelled : Bool)
    (answer : Except LeadershipError Bool) :
    ¬ FailedInTime (.released token answer :: .workEnded cancelled :: as) := by
  rintro ⟨later, shown, answer', before, hsplit, hfailed, -⟩
  have ha : .renewed shown answer' ∈ as := by
    have hmem : .renewed shown answer' ∈ .released token answer :: .workEnded cancelled :: as := by
      simp [hsplit]
    simpa using hmem
  rcases h.cases_of_mem ha with hkept | hstarted | ⟨_, hasked⟩
  · exact hfailed (Act.renewed.inj hkept).2
  · contradiction
  · contradiction

theorem Course.lost_iff (h : Course (.finished ending) as outcome) :
    ending = .lost ↔ FailedInTime as := by
  cases h with
  | idle hrefused => exact iff_of_false nofun hrefused.asked.not_failedInTime
  | noPeriod token hrefused => exact iff_of_false nofun (hrefused.asked.cons _).not_failedInTime
  | worked failure cancelled answer hled =>
    exact iff_of_false nofun (hled.not_failedInTime cancelled answer)
  | lost failure hled hanswer => exact iff_of_true rfl ⟨[_], _, _, _, rfl, hanswer, hled.going⟩

theorem Led.countP_releases (h : Led token as) : as.countP Act.releases = 0 := by
  rw [List.countP_eq_zero]
  intro a ha
  rcases h.cases_of_mem ha with rfl | rfl | ⟨answer, rfl⟩ <;> exact nofun

/-- Once the lease was lost, the work comes to its end, cancelled, and that is all. -/
theorem Course.lost_course (h : Course (.finished .lost) as outcome) :
    (∃ failure, outcome = some failure) ∧ as.head? = some (.workEnded true) ∧
      as.countP Act.releases = 0 := by
  cases h with
  | lost failure hled _ =>
    exact ⟨⟨failure, rfl⟩, rfl, by simp [hled.countP_releases, Act.releases]⟩

/-- Work that was started and not given up ends as it does, and the lease is given back once. -/
theorem Course.worked_course (h : Course (.finished ending) as outcome)
    (hstarted : .workStarted ∈ as) (hkept : ending ≠ .lost) :
    ∃ failure, outcome = some failure ∧ ending = .worked failure ∧ as.countP Act.releases = 1 := by
  cases h with
  | idle hrefused => exact absurd hstarted hrefused.asked.not_started
  | noPeriod token hrefused => exact absurd hstarted (hrefused.asked.cons _).not_started
  | worked failure cancelled answer hled =>
    exact ⟨failure, rfl, rfl, by simp [List.countP_cons, hled.countP_releases, Act.releases]⟩
  | lost => contradiction

theorem Course.working (h : Course p as none) (hstarted : .workStarted ∈ as) :
    (∃ token due, p = .leading token due) ∨ p = .steppingDown := by
  cases h with
  | new => contradiction
  | standby _ hrefused => exact absurd hstarted hrefused.asked.not_started
  | leading => exact .inl ⟨_, _, rfl⟩
  | steppingDown => exact .inr rfl
  | idle hrefused => exact absurd hstarted hrefused.asked.not_started
  | noPeriod token hrefused => exact absurd hstarted (hrefused.asked.cons _).not_started

end

/-- Work that has not come to its end may do so in any way, and then the candidate is done. -/
theorem exists_finished (h : Course s.candidate.phase s.candidate.deeds s.outcome)
    (hstarted : .workStarted ∈ s.candidate.deeds) (hgoing : s.outcome = none)
    (failure : Option String) :
    ∃ s' ending, Step e elector s s' ∧ s'.outcome = some failure ∧
      s'.candidate.phase = .finished ending := by
  rw [hgoing] at h
  rcases h.working hstarted with ⟨token, due, hp⟩ | hp
  · refine ⟨_, .worked failure, .act (.workEnds failure) (by simp only [step?, hp]; rfl), rfl, rfl⟩
  · refine ⟨_, .lost, .act (.workEnds failure) (by simp only [step?, hp]; rfl), rfl, rfl⟩

/-- Whatever the elector answers, however long the work takes, whatever comes of it and whenever the
shutdown comes: the work is started at most once, after the lease was given, and what comes after is
under the token of that lease. It ends in the loss of the lease exactly when a renewal failed while
the work went on, and then the work has come to its end, cancelled, and the lease is not given back.
Otherwise it ends as the work does, after the lease was given back once. It does end when the work
does. -/
theorem work_under_one_lease (h : Reachable e elector s) :
    s.candidate.deeds.countP Act.starts ≤ 1 ∧
      (Asked s.candidate.deeds ∨
        ∃ token later attempts,
          s.candidate.deeds = later ++ .workStarted :: .asked (.ok (.acquired token)) :: attempts ∧
            Refused attempts ∧ ∀ a ∈ later, a.Under token) ∧
      (∀ ending, s.candidate.phase = .finished ending →
        (ending = .lost ↔ FailedInTime s.candidate.deeds) ∧
        (ending = .lost → (∃ failure, s.outcome = some failure) ∧
          s.candidate.deeds.head? = some (.workEnded true) ∧
          s.candidate.deeds.countP Act.releases = 0) ∧
        (.workStarted ∈ s.candidate.deeds → ending ≠ .lost → ∃ failure, s.outcome = some failure ∧
          ending = .worked failure ∧ s.candidate.deeds.countP Act.releases = 1)) ∧
      (.workStarted ∈ s.candidate.deeds → s.outcome = none → ∀ failure,
        ∃ s' ending, Step e elector s s' ∧ s'.outcome = some failure ∧
        s'.candidate.phase = .finished ending) := by
  have hcourse := h.course
  refine ⟨hcourse.starts_once, hcourse.under_lease, ?_, fun hstarted hgoing =>
    exists_finished hcourse hstarted hgoing⟩
  intro ending hfinished
  rw [hfinished] at hcourse
  refine ⟨hcourse.lost_iff, ?_, hcourse.worked_course⟩
  rintro rfl
  exact hcourse.lost_course

def brief : Election := ⟨"lock", "first", 20, 10⟩

/-- An elector that has another leader at first, and later gives up on whom it gave the lease to. -/
def fickle : Elector Nat where
  acquire _ _ _ n := (if n = 0 then .ok (.refused (some "second")) else .ok (.acquired "1"), n + 1)
  renew _ _ _ n := (if n = 2 then .ok .renewed else .error (.backend "down"), n + 1)
  release _ _ _ n := (.ok true, n)

/-- A lease that is renewed once, and lost when its renewal fails while the work goes on. -/
theorem exists_lost : ∃ s, Reachable brief fickle s ∧ s.candidate.phase = .finished .lost := by
  have hopening : Relation.ReflTransGen (Step brief fickle) (opening 0 0) (opening 0 0) := .refl
  have hrefused := hopening.tail (.act .ask rfl)
  have hleads := (hrefused.tail (.pass 10 (by decide))).tail (.act .ask rfl)
  have hrenewed := (hleads.tail (.pass 30 (by decide))).tail (.act .renew rfl)
  have hfailed := (hrenewed.tail (.pass 50 (by decide))).tail (.act .renew rfl)
  have hended := (hfailed.tail (.pass 60 (by decide))).tail (.act (.workEnds (some "late")) rfl)
  exact ⟨_, ⟨0, 0, hended⟩, rfl⟩

/-- A renewal has failed in time there, the work has come to its end, cancelled, and the lease is
not given back. -/
theorem work_under_one_lease_lost :
    ∃ s, Reachable brief fickle s ∧ s.candidate.phase = .finished .lost ∧
      FailedInTime s.candidate.deeds ∧ s.candidate.deeds.head? = some (.workEnded true) ∧
      s.candidate.deeds.countP Act.releases = 0 := by
  obtain ⟨s, hreachable, hlost⟩ := exists_lost
  obtain ⟨hiff, hcourse, -⟩ := (work_under_one_lease hreachable).2.2.1 .lost hlost
  exact ⟨s, hreachable, hlost, hiff.mp rfl, (hcourse rfl).2⟩

end CandidateWithElector
end Leadership
end ModelTemplates
