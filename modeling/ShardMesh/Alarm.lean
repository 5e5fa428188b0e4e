/-!
# Alarms

Everything that waits for a time waits for an alarm. Of several alarms the one that is due first
rings first, and of those due at the same time the one that was set first. No wait lasts longer
than thirty years: who wants to wait for longer is woken then.
-/

namespace ShardMesh

/-- The longest wait in milliseconds: thirty years of 365 days. -/
def longestWait : Nat := 946080000000

/-- How long a wait for so many milliseconds lasts. -/
def waitFor (millis : Nat) : Nat := min millis longestWait

/-- When an alarm was set, and when it is due, in milliseconds. -/
structure Alarm where
  set : Nat
  due : Nat
  deriving DecidableEq, Repr, Inhabited

namespace Alarm

/-- The alarm that is set now for some milliseconds later. -/
def after (now millis : Nat) : Alarm := ⟨now, now + waitFor millis⟩

/-- Whether an alarm rings before another. -/
def before (a b : Alarm) : Bool := a.due < b.due || (a.due == b.due && a.set < b.set)

/-- The alarm that rings first, with what it is for; of equals the first in the list. -/
def first? {α : Type} : List (Alarm × α) → Option (Alarm × α)
  | [] => none
  | a :: rest =>
    match first? rest with
    | some b => if b.1.before a.1 then some b else some a
    | none => some a

end Alarm
end ShardMesh
