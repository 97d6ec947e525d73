import Mathlib.Data.Nat.Digits.Defs
import Mathlib.Data.Rat.Floor
import Mathlib.Tactic.NormNum
import CloudAlert.Text.Bytes

/-!
# Numbers and times as text

`atoi` and `atof` read the longest numeral at the start of a C string, after
white space, and give 0 where there is none; `atoi` saturates at the bounds of
a 32-bit `int`. Prices are exact: `atof` gives the rational number its decimal
numeral denotes. Hexadecimal numerals, infinities and NaNs are left out; they are
read up to their first letter.

`fmtInt` is `%d`, `fmtPrice` is `%.2f` (a tie goes to the even last digit), and
`LocalTime` is the part of `struct tm` that the two `strftime` formats of the
server print.
-/

namespace CloudAlert

/-! ## Reading -/

def isDigit (b : UInt8) : Bool := 48 ≤ b && b ≤ 57

/-- The number a run of decimal digits denotes. -/
def decimal (digits : Bytes) : ℕ :=
  digits.foldl (fun n d => 10 * n + (d.toNat - 48)) 0

/-- Takes an optional sign off the front: is it negative, and the rest. -/
def takeSign : Bytes → Bool × Bytes
  | 45 :: s => (true, s)
  | 43 :: s => (false, s)
  | s => (false, s)

/-- `atoi`. -/
def atoi (s : Bytes) : ℤ :=
  let (neg, s) := takeSign ((cstr s).val.dropWhile isSpace)
  let n : ℤ := decimal (s.takeWhile isDigit)
  if neg then max (-n) (-2147483648) else min n 2147483647

/-- The exponent part of a numeral: `e` or `E`, an optional sign and at least
one digit; 0 where there is no such part. -/
def takeExponent : Bytes → ℤ
  | e :: s =>
      if e = 101 ∨ e = 69 then
        let (neg, s) := takeSign s
        let n : ℤ := decimal (s.takeWhile isDigit)
        if neg then -n else n
      else 0
  | [] => 0

/-- The fraction digits of a numeral and what follows them. -/
def takeFraction : Bytes → Bytes × Bytes
  | 46 :: s => (s.takeWhile isDigit, s.dropWhile isDigit)
  | s => ([], s)

/-- `atof`: sign, digits, fraction and exponent of a decimal numeral. -/
def atof (s : Bytes) : ℚ :=
  let (neg, s) := takeSign ((cstr s).val.dropWhile isSpace)
  let whole := s.takeWhile isDigit
  let (frac, s) := takeFraction (s.dropWhile isDigit)
  if whole = [] ∧ frac = [] then 0
  else
    let m : ℚ := decimal (whole ++ frac)
    let x := m * 10 ^ (takeExponent s - frac.length)
    if neg then -x else x

/-! ## Printing -/

/-- The decimal digits of `n`. -/
def fmtNat (n : ℕ) : Bytes :=
  if n = 0 then [48] else (Nat.digits 10 n).reverse.map fun d => UInt8.ofNat (48 + d)

/-- `%d`. -/
def fmtInt (n : ℤ) : Bytes :=
  if n < 0 then 45 :: fmtNat n.natAbs else fmtNat n.natAbs

/-- The last two decimal digits of `n`. -/
def pad2 (n : ℕ) : Bytes :=
  [UInt8.ofNat (48 + n / 10 % 10), UInt8.ofNat (48 + n % 10)]

/-- The nearest natural number to `q ≥ 0`, the even one of two. -/
def roundHalfEven (q : ℚ) : ℕ :=
  let n := ⌊q⌋.toNat
  let r := q - n
  if r < 1 / 2 then n
  else if 1 / 2 < r then n + 1
  else if n % 2 = 0 then n else n + 1

/-- `%.2f`. -/
def fmtPrice (x : ℚ) : Bytes :=
  let n := roundHalfEven (|x| * 100)
  (if x < 0 then [45] else []) ++ fmtNat (n / 100) ++ 46 :: pad2 (n % 100)

/-- `_snprintf_s` into a buffer of `size` bytes, with `size` as its count:
`none` when the text and its NUL byte do not fit, where the runtime calls the
invalid-parameter handler and the process ends. -/
def snprintf (size : ℕ) (text : Bytes) : Option Bytes :=
  if text.length < size then some text else none

example : fmtPrice (atof (ascii "3500.125x")) = ascii "3500.12" := by decide +kernel

/-! ## Local time -/

-- The numerals of the fields below are in `Fin n` by these.
instance neZero_months : NeZero 12 := ⟨by decide⟩
instance neZero_days : NeZero 31 := ⟨by decide⟩
instance neZero_hours : NeZero 24 := ⟨by decide⟩
instance neZero_minutes : NeZero 60 := ⟨by decide⟩

/-- The fields of `struct tm` the server prints, as `localtime_s` fills them. -/
structure LocalTime where
  year : ℕ
  month : Fin 12
  day : Fin 31
  hour : Fin 24
  minute : Fin 60
  second : Fin 60
deriving DecidableEq

/-- `strftime` with `%H:%M:%S`. -/
def LocalTime.hms (t : LocalTime) : Text :=
  cstr (pad2 t.hour ++ 58 :: pad2 t.minute ++ 58 :: pad2 t.second)

/-- `strftime` with `%Y-%m-%d %H:%M:%S`. -/
def LocalTime.stamp (t : LocalTime) : Text :=
  cstr (fmtNat t.year ++ 45 :: pad2 (t.month.val + 1) ++ 45 :: pad2 (t.day.val + 1) ++
    32 :: t.hms.val)

end CloudAlert
