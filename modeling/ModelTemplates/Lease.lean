import ModelTemplates.Duration
import ModelTemplates.Table
/-! Leases on locks for one leader at a time. A lease has a token, which must be shown to renew or
release it, and a time at which it ends by itself. -/
namespace ModelTemplates

/-- Nanoseconds since the start of 1970. -/
abbrev Instant := Nat

/-- The last moment of the calendar. -/
def Instant.last : Instant := 8210266876799999999999

structure Lease where
  holder : String
  token : String
  expiry : Instant
deriving DecidableEq, Inhabited

/-- The leases of one elector. -/
structure Leases where
  table : Table String Lease
  /-- The length of every lease. -/
  duration : Duration
deriving DecidableEq

namespace Leases

def defaultDuration : Duration := .ofSecs 15

def empty (duration : Duration) : Leases := ⟨.empty, duration⟩

/-- The longest lease that is measured; one that is longer lasts as long as the default. -/
def longest : Nat := 9223372036854775807000000

def measured (s : Leases) : Nat :=
  if s.duration.nanos ≤ longest then s.duration.nanos else defaultDuration.nanos

/-- When a lease ends that is given now. None ends after the calendar does. -/
def expiry? (s : Leases) (now : Instant) : Option Instant :=
  if now + s.measured ≤ Instant.last then some (now + s.measured) else none

/-- The lease of a lock that has not ended. -/
def current? (s : Leases) (lock : String) (now : Instant) : Option Lease :=
  (s.table.find? lock).filter fun l => now < l.expiry

/-- Who leads. -/
def leader? (s : Leases) (lock : String) (now : Instant) : Option String :=
  (s.current? lock now).map Lease.holder

inductive Acquisition where
  /-- The lease is given under the token. -/
  | acquired
  /-- Another one leads. -/
  | refused (leader : String)
deriving DecidableEq

/-- Ask to lead. The leader itself gets a new lease under a new token. -/
def acquire? (s : Leases) (lock holder token : String) (now : Instant) :
    Option (Acquisition × Leases) :=
  match (s.current? lock now).filter fun l => l.holder ≠ holder with
  | some l => some (.refused l.holder, s)
  | none => (s.expiry? now).map fun e =>
    (.acquired, { s with table := s.table.insert lock ⟨holder, token, e⟩ })

inductive Renewal where
  | renewed
  /-- There is no lease, or it has ended. -/
  | lost
  /-- The lease has another token. -/
  | invalidToken
deriving DecidableEq

/-- Lengthen a lease from now on. -/
def renew? (s : Leases) (lock token : String) (now : Instant) : Option (Renewal × Leases) :=
  match s.table.find? lock with
  | none => some (.lost, s)
  | some l =>
    if l.token ≠ token then some (.invalidToken, s)
    else if l.expiry ≤ now then some (.lost, s)
    else (s.expiry? now).map fun e =>
      (.renewed, { s with table := s.table.insert lock { l with expiry := e } })

/-- Whether `release` takes a lease away: one of that token is there, ended or not. -/
def releases (s : Leases) (lock token : String) : Bool :=
  match s.table.find? lock with
  | some l => l.token = token
  | none => false

def release (s : Leases) (lock token : String) : Leases :=
  if s.releases lock token then { s with table := s.table.erase lock } else s

/-- End a lease now. -/
def expire (s : Leases) (lock : String) (now : Instant) : Leases :=
  match s.table.find? lock with
  | some l => { s with table := s.table.insert lock { l with expiry := now } }
  | none => s

end Leases
end ModelTemplates
