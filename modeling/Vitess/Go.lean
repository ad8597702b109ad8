import Mathlib.Data.Int.Defs

/-!
Go's 64-bit integers and the units of package time, as the modelled code uses them. A
`time.Duration` is an int64 count of nanoseconds, so a product of durations wraps modulo 2^64.
-/

namespace Vitess

-- The bounds of Go's 64-bit `int`, 2^63 - 1 and -2^63, written as literals so that no power
-- instance is involved.
def maxInt64 : Int := 9223372036854775807
def minInt64 : Int := -9223372036854775808

-- Go's `int` arithmetic wraps modulo 2^64.
def wrapInt64 (value : Int) : Int := (value - minInt64) % 18446744073709551616 + minInt64

/-- `time.Millisecond`, `time.Second` and `time.Minute`, in nanoseconds. -/
def Time.millisecond : Nat := 1000000

def Time.second : Nat := 1000000000

def Time.minute : Nat := 60 * Time.second

end Vitess
