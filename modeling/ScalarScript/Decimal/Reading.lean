import ScalarScript.Integer
import ScalarScript.Decimal.Shortest

/-!
# `ScalarScript.Decimal.Reading`: doubles from decimal text

Two readers. A number with a fraction in a program text is the nearest
double of its integer part plus a quotient: the nearest double of its
fraction digits over a power of ten computed in doubles. A text given
to a conversion is read as one decimal, with an optional sign, point
and exponent, and rounded once.
-/

set_option autoImplicit false

namespace ScalarScript.Decimal

/-- Positive infinity. -/
def infinity : Float :=
  1.0 / 0.0

/-- The double that is not a number. -/
def notANumber : Float :=
  0.0 / 0.0

/-- The double nearest to a decimal, a tie going to the even one. Numbers
beyond the range of doubles are decided by their magnitude alone. -/
def nearest (d : Decimal) : Float :=
  if d.digits = 0 then 0.0
  else if 310 < d.magnitude then infinity
  else if d.magnitude < -330 then 0.0
  else Float.ofScientific d.digits (d.exponent < 0) d.exponent.natAbs

/-- `power · base ^ n` by repeated squaring, every product rounded. -/
def squaring (power base : Float) (n : Nat) : Float :=
  let power := if n % 2 = 1 then power * base else power
  if h : n / 2 = 0 then power else squaring power (base * base) (n / 2)
termination_by n
decreasing_by omega

/-- The power of ten that `places` digits after a point are divided by. -/
def scale (places : Nat) : Float :=
  squaring 1.0 10.0 places

/-- The double of an integer and a fraction, which is given as the double
of its digits and the number of these. -/
def withFraction (integer : Int64) (fraction : Float) (places : Nat) : Float :=
  Integer.toFloat integer + fraction / scale places

/-- The double that a program text writes as an integer, a point and
fraction digits. -/
def literal (integer : Int64) (fraction : List Char) : Float :=
  withFraction integer (nearest ⟨Integer.ofDigits fraction, 0⟩) fraction.length

/-- The exponent after the digits of a decimal: none, or `e` or `E`, an
optional sign and digits. -/
def readExponent? : List Char → Option Int
  | [] => some 0
  | e :: cs =>
    if e = 'e' ∨ e = 'E' then
      match cs with
      | '-' :: digits => (Integer.readNat? digits).map fun n => -(n : Int)
      | '+' :: digits => (Integer.readNat? digits).map fun n => (n : Int)
      | digits => (Integer.readNat? digits).map fun n => (n : Int)
    else none

/-- The decimal that a text without sign denotes: digits with at most one
point among or beside them, then an exponent. -/
def readUnsigned? (cs : List Char) : Option Decimal :=
  let whole := cs.takeWhile Char.isDigit
  let rest := cs.dropWhile Char.isDigit
  let afterPoint := match rest with
    | '.' :: tail => tail
    | _ => []
  let fraction := afterPoint.takeWhile Char.isDigit
  let tail := match rest with
    | '.' :: _ => afterPoint.dropWhile Char.isDigit
    | _ => rest
  if whole = [] ∧ fraction = [] then none
  else (readExponent? tail).map fun e =>
    ⟨Integer.ofDigits (whole ++ fraction), e - fraction.length⟩

/-- The double that a text without sign denotes: a decimal, or a name of
infinity or of what is not a number, in any case of letters. -/
def readMagnitude? (cs : List Char) : Option Float :=
  let name := String.ofList (cs.map Char.toLower)
  if name = "inf" ∨ name = "infinity" then some infinity
  else if name = "nan" then some notANumber
  else (readUnsigned? cs).map nearest

/-- The double that a text denotes. The sign may be left out. -/
def read? : List Char → Option Float
  | '-' :: cs => (readMagnitude? cs).map fun x => -x
  | '+' :: cs => readMagnitude? cs
  | cs => readMagnitude? cs

/-! ### Digits alone -/

/-- Digits alone are read as the natural number that they denote. -/
theorem readUnsigned?_of_digits {cs : List Char} (hne : cs ≠ [])
    (hall : ∀ c ∈ cs, c.isDigit = true) :
    readUnsigned? cs = some ⟨Integer.ofDigits cs, 0⟩ := by
  have htake : cs.takeWhile Char.isDigit = cs := by
    simpa using @List.takeWhile_append_of_pos _ Char.isDigit cs [] hall
  have hdrop : cs.dropWhile Char.isDigit = [] := by
    simpa using @List.dropWhile_append_of_pos _ Char.isDigit cs [] hall
  simp [readUnsigned?, htake, hdrop, hne, readExponent?]

/-- One or more digits denote a double: neither a sign nor the name of a
double begins with a digit. -/
theorem read?_of_digits {cs : List Char} (hne : cs ≠ [])
    (hall : ∀ c ∈ cs, c.isDigit = true) :
    read? cs = some (nearest ⟨Integer.ofDigits cs, 0⟩) := by
  obtain ⟨first, others, rfl⟩ := List.exists_cons_of_ne_nil hne
  have hfirst : first.isDigit = true := hall first (by simp)
  have hlower : first.toLower = first := by
    unfold Char.toLower
    grind [Char.isDigit]
  have hname : ∀ c name, c.isDigit = false →
      String.ofList ((first :: others).map Char.toLower) ≠ String.ofList (c :: name) := by
    intro c name hc heq
    have hhead : first = c := by
      simpa [hlower] using congrArg List.head? (String.ofList_injective heq)
    rw [hhead, hc] at hfirst
    cases hfirst
  have hmagnitude : readMagnitude? (first :: others) =
      some (nearest ⟨Integer.ofDigits (first :: others), 0⟩) := by
    unfold readMagnitude?
    dsimp only
    rw [if_neg, if_neg (hname 'n' ['a', 'n'] rfl), readUnsigned?_of_digits hne hall]
    · rfl
    · exact not_or.mpr ⟨hname 'i' ['n', 'f'] rfl,
        hname 'i' ['n', 'f', 'i', 'n', 'i', 't', 'y'] rfl⟩
  unfold read?
  split
  · rename_i heq
    cases heq
    exact absurd hfirst (by decide)
  · rename_i heq
    cases heq
    exact absurd hfirst (by decide)
  · exact hmagnitude

end ScalarScript.Decimal
