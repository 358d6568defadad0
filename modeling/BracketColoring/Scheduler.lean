import BracketColoring.Event

/-!
# Scheduling passes

Edits are gathered until no other has come for a while. The scheduler keeps the lowest edited line
and the time at which the pass over it is due; every edit puts that time off again. Times are
milliseconds on the host's clock.
-/

namespace BracketColoring

/-- Gathers edits; a delay of zero lets each through at once. -/
structure Scheduler where
  delay : Nat
  /-- The lowest line of the edits that wait. -/
  pending : Option Nat := none
  /-- When the pass over them is due. -/
  due : Option Nat := none
deriving DecidableEq, Repr, Inhabited

/-- What to do after an edit: run the pass at once, or ask again at a later time. -/
inductive Schedule where
  | immediate
  | deferred (due : Nat)
deriving DecidableEq, Repr, Inhabited

namespace Scheduler

def noteEdit (s : Scheduler) (line now : Nat) : Traced (Schedule × Scheduler) := do
  let dirty := match s.pending with
    | some lowest => min lowest line
    | none => line
  if s.delay = 0 then
    Traced.log (.editImmediate line dirty)
    return (.immediate, { s with pending := some dirty, due := some now })
  else
    -- Times are natural numbers, so there is always such a time. On a host's clock the sum can be
    -- beyond the last time; the host then gives up on the call, and there is no state after it.
    let due := now + s.delay
    Traced.log (.editDeferred line dirty s.delay)
    return (.deferred due, { s with pending := some dirty, due := some due })

/-- Drops the work that waits. -/
def reset (s : Scheduler) : Scheduler := { s with pending := none, due := none }

/-- Gives out the line that waits, whether it is due or not. -/
def take (s : Scheduler) : Traced (Option Nat × Scheduler) := do
  Traced.logAll (s.pending.toList.map .fired)
  return (s.pending, s.reset)

/-- Gives out the line that waits if it is due. Only the time is looked at. -/
def poll (s : Scheduler) (now : Nat) : Traced (Option Nat × Scheduler) :=
  match s.due with
  | some due => if due ≤ now then s.take else return (none, s)
  | none => return (none, s)

/-- Changes the delay for later edits; work that waits already stays due when it was. -/
def setDelay (s : Scheduler) (delay : Nat) : Scheduler := { s with delay }

def dirtyLine? (s : Scheduler) : Option Nat := s.pending

def deadline? (s : Scheduler) : Option Nat := s.due

end Scheduler

end BracketColoring
