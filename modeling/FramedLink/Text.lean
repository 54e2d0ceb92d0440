/-!
# Diagnostic texts

A record is shown as its name and its fields between braces, in the order of the fields.  A duration in nanoseconds is
shown in the largest unit of seconds, milliseconds, microseconds and nanoseconds that it reaches, with as many decimals
as it needs.
-/
namespace FramedLink.Text

/-- The name of a record, then its fields with their values. -/
def record (name : String) (fields : List (String × String)) : String :=
  name ++ " \x7b " ++ String.intercalate ", " (fields.map fun (field, value) => field ++ ": " ++ value) ++ " \x7d"

/-- A single value in the parentheses of its wrapper. -/
def wrapped (name value : String) : String := name ++ "(" ++ value ++ ")"

/-- The decimals of a fraction with `places` digits, without the zeros at its end. -/
def decimals (places fraction : Nat) : List Char :=
  let digits := Nat.toDigits 10 fraction
  let padded := List.replicate (places - digits.length) '0' ++ digits
  (padded.reverse.dropWhile (· = '0')).reverse

/-- `n` divided by the power of ten with `places` zeros, without needless decimals. -/
def scaled (n places : Nat) : String :=
  let fraction := decimals places (n % Nat.pow 10 places)
  toString (n / Nat.pow 10 places) ++ if fraction.isEmpty then "" else "." ++ String.ofList fraction

def duration (ns : Nat) : String :=
  if 1000000000 ≤ ns then scaled ns 9 ++ "s"
  else if 1000000 ≤ ns then scaled ns 6 ++ "ms"
  else if 1000 ≤ ns then scaled ns 3 ++ "µs"
  else toString ns ++ "ns"

end FramedLink.Text
