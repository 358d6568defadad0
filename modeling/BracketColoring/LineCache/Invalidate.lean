import BracketColoring.Event
import BracketColoring.LineCache

/-!
# Dropping lines

An edit on a line can change every stack after it, so the lines from there on are dropped. The drop
is announced when there were lines to drop.
-/

namespace BracketColoring.LineCache

/-- The event of dropping the lines from `index` on, if there are such lines. -/
def dropEvents (c : LineCache) (index : Nat) : List Event :=
  if index < c.size then [.linesDropped index (c.size - index)] else []

/-- Drops the lines from `index` on and announces it. -/
def invalidate (c : LineCache) (index : Nat) : Traced LineCache := do
  Traced.logAll (c.dropEvents index)
  return c.truncate index

@[simp] theorem value_invalidate (c : LineCache) (index : Nat) :
    (c.invalidate index).value = c.truncate index := rfl

end BracketColoring.LineCache
