import ShardMesh.Decimal.Binary64

/-!
# How often to probe

A connection on which nothing arrives for the read timeout is closed. Probes go out at four fifths
of that time, so a healthy peer never runs into its own timeout. The product is taken in binary
floating point, in seconds, and rounded to nanoseconds.
-/

namespace ShardMesh.Keepalive

/-- Nanoseconds in a second. -/
def nanosPerSecond : Nat := 1000000000

/-- The binary number nearest to four fifths. -/
def ratio : Binary64 := Binary64.ofQuotient 4 5

/-- A time in nanoseconds as a binary number of seconds: whole seconds and the rest are rounded
one by one and then added. -/
def seconds (nanos : Nat) : Binary64 :=
  (Binary64.ofQuotient (nanos / nanosPerSecond) 1).add
    (Binary64.ofQuotient (nanos % nanosPerSecond) nanosPerSecond)

/-- The interval between probes, in nanoseconds, for a read timeout in nanoseconds. -/
def interval (readTimeout : Nat) : Nat :=
  let (num, den) := (ratio.mul (seconds readTimeout)).toQuotient
  roundQuotient (num * nanosPerSecond) den

end ShardMesh.Keepalive
