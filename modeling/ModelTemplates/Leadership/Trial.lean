import ModelTemplates.Leadership
/-! One candidate under a clock that jumps from one cue to the next, with an elector that answers
from a script. -/
namespace ModelTemplates
namespace Leadership
namespace Trial

/-- An answer as scripts write it: an error after `error:`, anything else as `f` reads it. -/
def reply {α : Type} (f : String → α) (text : String) : Except LeadershipError α :=
  if text.startsWith "error:" then .error (.backend (text.drop 6).toString) else .ok (f text)

/-- A token after `token:`, or who leads instead. -/
def attempt (text : String) : Attempt :=
  if text.startsWith "token:" then .acquired (text.drop 6).toString
  else .refused (if text.isEmpty then none else some text)

def renewal (text : String) : Leases.Renewal :=
  if text = "lost" then .lost else if text = "invalid" then .invalidToken else .renewed

/-- Answers still to be given. The last one repeats, and no answer at all is empty text. -/
abbrev Answers := List String

def Answers.rest (as : Answers) : Answers := if as.length ≤ 1 then as else as.tail

structure Script where
  acquire : Answers
  renew : Answers
  release : String

def elector : Elector Script where
  acquire _ _ _ s := (reply attempt (s.acquire.headD ""), { s with acquire := s.acquire.rest })
  renew _ _ _ s := (reply renewal (s.renew.headD ""), { s with renew := s.renew.rest })
  release _ _ _ s := (reply (· = "true") s.release, s)

/-- Work of some length, or else until it is cancelled. -/
structure Work where
  length : Option Nat
  failure : Option String

structure Setting where
  work : Work
  /-- When the shutdown comes, if it does. -/
  shutdown : Option Instant

def Setting.isDown (p : Setting) (now : Instant) : Bool := p.shutdown.any (· ≤ now)

def workStart (c : Candidate) : Instant :=
  ((c.acts.find? fun a => a.2 matches .workStarted).map Prod.fst).getD 0

/-- When the work ends, once it runs. -/
def workEnd? (p : Setting) (now : Instant) (c : Candidate) : Option Instant :=
  match p.work.length with
  | some length => some (max now (workStart c + length))
  | none => if c.phase = .steppingDown then some now else p.shutdown.map (max now)

/-- What comes next and when. The end of the work comes before a renewal, the shutdown before a new
attempt. -/
def cue? (p : Setting) (now : Instant) (c : Candidate) : Option (Instant × Cue) :=
  match c.phase with
  | .new => some (now, .ask)
  | .standby due =>
    match p.shutdown with
    | some s => if s ≤ due then some (max now s, .shutdown) else some (due, .ask)
    | none => some (due, .ask)
  | .leading _ due =>
    match workEnd? p now c with
    | some finish =>
      if finish ≤ due then some (finish, .workEnds p.work.failure) else some (due, .renew)
    | none => some (due, .renew)
  | .steppingDown => (workEnd? p now c).map fun t => (t, .workEnds p.work.failure)
  | .finished _ => none

/-- One cue after the other, up to a moment. -/
def runTo (e : Election) (p : Setting) (finish : Instant) :
    Nat → Instant → Candidate → Script → Candidate
  | 0, _, c, _ => c
  | fuel + 1, now, c, s =>
    match cue? p now c with
    | some (t, cue) =>
      if t ≤ finish then
        match step? e elector t (p.isDown t) cue c s with
        | some (c, s) => runTo e p finish fuel t c s
        | none => c
      else c
    | none => c

/-- No run has more steps than this. -/
def patience : Nat := 1000000

def run (e : Election) (p : Setting) (s : Script) (finish : Instant) : Candidate :=
  runTo e p finish patience 0 .new s

/-- An act as it is told, with the text of the answer or whether the work was cancelled. -/
structure Line where
  moment : Instant
  call : String
  answer : Option String
  cancelled : Option Bool
deriving DecidableEq

/-- Acts, the first one first, with the texts of the answers that they got. -/
def told (e : Election) (s : Script) : List (Instant × Act) → List Line
  | [] => []
  | (now, a) :: as =>
    let call (verb token : String) : String := verb ++ " " ++ e.lock ++ " " ++ token
    match a with
    | .asked _ =>
      ⟨now, call "acquire" e.candidate, some (s.acquire.headD ""), none⟩ ::
        told e { s with acquire := s.acquire.rest } as
    | .workStarted => ⟨now, "work starts", none, none⟩ :: told e s as
    | .renewed token _ =>
      ⟨now, call "renew" token, some (s.renew.headD ""), none⟩ ::
        told e { s with renew := s.renew.rest } as
    | .workEnded cancelled => ⟨now, "work ends", none, some cancelled⟩ :: told e s as
    | .released token _ => ⟨now, call "release" token, some s.release, none⟩ :: told e s as

end Trial
end Leadership
end ModelTemplates
