import ModelTemplates.Config
import ModelTemplates.Lease
/-! Work that is done only while a lease is held. A standby keeps asking for the lease; a leader
that cannot renew it has its work cancelled, waits for its end and gives up. Every step is one
`Cue`, and any cue that fits may come next. -/
namespace ModelTemplates

inductive LeadershipError where
  /-- The lease could not be renewed. -/
  | lost (lock : String)
  /-- The elector failed. -/
  | backend (text : String)
deriving DecidableEq

def LeadershipError.message : LeadershipError → String
  | lost lock => "Leadership of '" ++ lock ++ "' was lost"
  | backend text => "Leader election backend error: " ++ text

/-- What one takes part in. The periods are in nanoseconds. -/
structure Election where
  lock : String
  candidate : String
  renewPeriod : Nat
  retryPeriod : Nat
deriving DecidableEq

def Election.ofConfig (c : ElectionConfig) (candidate : String) : Election :=
  ⟨c.lockName, candidate, c.renewPeriod.nanos, c.retryPeriod.nanos⟩

namespace Leadership

inductive Attempt where
  | acquired (token : String)
  | refused (leader : Option String)
deriving DecidableEq

/-- Whoever gives out leases, with states `ε`. A lock comes first, then who asks or the token that
is shown. -/
structure Elector (ε : Type) where
  acquire : String → String → Instant → ε → Except LeadershipError Attempt × ε
  renew : String → String → Instant → ε → Except LeadershipError Leases.Renewal × ε
  release : String → String → Instant → ε → Except LeadershipError Bool × ε

/-- How it ended. -/
inductive Ending where
  /-- Shutdown came before the lease. -/
  | idle
  /-- The work came to its end, perhaps by failing. -/
  | worked (failure : Option String)
  /-- The lease was lost. -/
  | lost
  /-- The lease came, but nothing can be renewed every zero seconds. -/
  | noPeriod
deriving DecidableEq

inductive Phase where
  /-- The lease was not asked for yet. -/
  | new
  | standby (retryAt : Instant)
  | leading (token : String) (renewAt : Instant)
  /-- The lease was lost and the work cancelled. -/
  | steppingDown
  | finished (ending : Ending)
deriving DecidableEq

/-- What a candidate did, with the answers that it got. -/
inductive Act where
  | asked (answer : Except LeadershipError Attempt)
  | workStarted
  | renewed (token : String) (answer : Except LeadershipError Leases.Renewal)
  | workEnded (cancelled : Bool)
  | released (token : String) (answer : Except LeadershipError Bool)

structure Candidate where
  phase : Phase
  /-- The last act first. -/
  acts : List (Instant × Act)

namespace Candidate

variable {ε : Type}

def new : Candidate := ⟨.new, []⟩

def did (c : Candidate) (now : Instant) (a : Act) : Candidate :=
  { c with acts := (now, a) :: c.acts }

def enter (c : Candidate) (p : Phase) : Candidate := { c with phase := p }

/-- Whether the lease is due to be asked for. The first time it is so at once. -/
def mayAsk (c : Candidate) (now : Instant) : Bool :=
  match c.phase with
  | .new => true
  | .standby retryAt => retryAt ≤ now
  | _ => false

def ask (e : Election) (elector : Elector ε) (now : Instant) (c : Candidate) (s : ε) :
    Candidate × ε :=
  let (answer, s) := elector.acquire e.lock e.candidate now s
  let c := c.did now (.asked answer)
  match answer with
  | .ok (.acquired token) =>
    if e.renewPeriod = 0 then (c.enter (.finished .noPeriod), s)
    else ((c.did now .workStarted).enter (.leading token (now + e.renewPeriod)), s)
  | _ => (c.enter (.standby (now + e.retryPeriod)), s)

def renew (e : Election) (elector : Elector ε) (now : Instant) (token : String)
    (c : Candidate) (s : ε) :
    Candidate × ε :=
  let (answer, s) := elector.renew e.lock token now s
  let c := c.did now (.renewed token answer)
  match answer with
  | .ok .renewed => (c.enter (.leading token (now + e.renewPeriod)), s)
  | _ => (c.enter .steppingDown, s)

/-- Give the lease back after the work, whatever the elector answers. -/
def retire (e : Election) (elector : Elector ε) (now : Instant) (token : String)
    (failure : Option String) (c : Candidate) (s : ε) : Candidate × ε :=
  let (answer, s) := elector.release e.lock token now s
  ((c.did now (.released token answer)).enter (.finished (.worked failure)), s)

end Candidate

inductive Cue where
  | ask
  /-- A standby sees the shutdown. -/
  | shutdown
  | renew
  | workEnds (failure : Option String)
deriving DecidableEq

/-- One step, if the cue fits; `down` tells whether the shutdown has come. The work of a leader is
cancelled by it. -/
def step? {ε : Type} (e : Election) (elector : Elector ε) (now : Instant) (down : Bool) (cue : Cue)
    (c : Candidate) (s : ε) : Option (Candidate × ε) :=
  match cue, c.phase with
  | .ask, _ => if c.mayAsk now then some (c.ask e elector now s) else none
  | .shutdown, .standby _ => if down then some (c.enter (.finished .idle), s) else none
  | .renew, .leading token due => if due ≤ now then some (c.renew e elector now token s) else none
  | .workEnds failure, .leading token _ =>
    some ((c.did now (.workEnded down)).retire e elector now token failure s)
  | .workEnds _, .steppingDown => some ((c.did now (.workEnded true)).enter (.finished .lost), s)
  | _, _ => none

/-- What the caller gets, if anything: nothing, why the work failed, or that the lease was lost. -/
def Ending.result? (lock : String) : Ending → Option (Except String Unit)
  | idle => some (.ok ())
  | worked none => some (.ok ())
  | worked (some why) => some (.error why)
  | lost => some (.error (LeadershipError.lost lock).message)
  | noPeriod => none

end Leadership
end ModelTemplates
