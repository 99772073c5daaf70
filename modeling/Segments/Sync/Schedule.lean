

namespace Segments.Sync

def minPeriod : Nat := 1000

/-- How late a tick may be and still be on time. -/
def slack : Nat := 5

def periodOf (every : Nat) : Nat :=
  max every minPeriod

/-- When the tick after the one due at `deadline` is due, that one having fired at `now`. A tick
that comes late by more than the slack moves the next to the first whole period after now, so that
missed ticks are not made up for. -/
def nextTick (period deadline now : Nat) : Nat :=
  if now ≤ deadline + slack then deadline + period
  else now + period - (now - deadline) % period

/-- The next tick is always in the future. -/
theorem lt_nextTick {period deadline now : Nat} (h : slack < period) :
    now < nextTick period deadline now := by
  unfold nextTick
  split
  · omega
  · have := Nat.mod_lt (now - deadline) (Nat.lt_of_le_of_lt (Nat.zero_le _) h)
    omega

end Segments.Sync
