import Raef.Lib.Text

/-!
# Python numbers: `float` as binary64 over exact rationals

A finite `float` is kept as the rational it denotes; `roundDouble` is the
round-half-even step every operation ends with.  `ofStr` is `float(text)`,
`repr` the shortest text that reads back as the same value.
-/

namespace Raef

/-- What a Python call raises: the exception class and its message. -/
inductive PyError where
  | value (msg : String)
  | runtime (msg : String)
  | integrity (msg : String)
  | overflow (msg : String)
  | type (msg : String)
  | recursion (msg : String)
deriving DecidableEq, Repr

/-- Limits of the interpreter: the digits of an int it writes, the objects and lists `json.dumps` goes
down into below the top, and the nested calls its stack still has room for. -/
structure PyLimits where
  intDigits : ℕ := 4300
  nesting : ℕ := 1000
  frames : ℕ := 900

inductive PyFloat where
  | fin (q : ℚ)
  | negZero
  | inf
  | negInf
  | nan
deriving DecidableEq, Repr

namespace PyFloat

/-! ## Rounding -/

def roundHalfEven (r : ℚ) : ℤ :=
  let f := ⌊r⌋
  let d := r - f
  if d < 1 / 2 then f else if 1 / 2 < d then f + 1 else if f % 2 = 0 then f else f + 1

/-- Nearest binary64 of an exact value: 53 bits, exponents down to `-1074`. -/
def roundDouble (q : ℚ) : PyFloat :=
  if q = 0 then .fin 0
  else
    let a := |q|
    let e := max (Int.log 2 a - 52) (-1074)
    let v := (roundHalfEven (a / (2 : ℚ) ^ e) : ℚ) * (2 : ℚ) ^ e
    if (2 : ℚ) ^ (1024 : ℤ) ≤ v then (if q < 0 then .negInf else .inf)
    else if q < 0 then (if v = 0 then .negZero else .fin (-v))
    else .fin v

/-- `float(n)` of an `int`. -/
def ofInt (n : ℤ) : Except PyError PyFloat :=
  match roundDouble n with
  | .inf | .negInf => .error (.overflow "int too large to convert to float")
  | x => .ok x

/-! ## Order and arithmetic -/

/-- `x > 0`. -/
def pos : PyFloat → Bool
  | .fin q => decide (0 < q)
  | .inf => true
  | _ => false

/-- `x == y`; a NaN equals nothing. -/
def eq : PyFloat → PyFloat → Bool
  | .nan, _ | _, .nan => false
  | .negZero, .fin q | .fin q, .negZero => q == 0
  | x, y => x == y

/-- `x == n` for an `int`: exact, no rounding of `n`. -/
def eqInt : PyFloat → ℤ → Bool
  | .fin q, n => q == n
  | .negZero, n => n == 0
  | _, _ => false

def add : PyFloat → PyFloat → PyFloat
  | .nan, _ | _, .nan => .nan
  | .inf, .negInf | .negInf, .inf => .nan
  | .inf, _ | _, .inf => .inf
  | .negInf, _ | _, .negInf => .negInf
  | .negZero, y => y
  | x, .negZero => x
  | .fin p, .fin q => roundDouble (p + q)

/-- `x / 1000.0`. -/
def divThousand : PyFloat → PyFloat
  | .fin q => roundDouble (q / 1000)
  | x => x

/-! ## Text to number -/

/-- First code points of the runs of ten decimal digits (category `Nd`). -/
def digitZeros : List Nat :=
  [0x30, 0x660, 0x6F0, 0x7C0, 0x966, 0x9E6, 0xA66, 0xAE6, 0xB66, 0xBE6, 0xC66, 0xCE6, 0xD66, 0xDE6,
    0xE50, 0xED0, 0xF20, 0x1040, 0x1090, 0x17E0, 0x1810, 0x1946, 0x19D0, 0x1A80, 0x1A90, 0x1B50,
    0x1BB0, 0x1C40, 0x1C50, 0xA620, 0xA8D0, 0xA900, 0xA9D0, 0xA9F0, 0xAA50, 0xABF0, 0xFF10, 0x104A0,
    0x10D30, 0x11066, 0x110F0, 0x11136, 0x111D0, 0x112F0, 0x11450, 0x114D0, 0x11650, 0x116C0, 0x11730,
    0x118E0, 0x11950, 0x11C50, 0x11D50, 0x11DA0, 0x11F50, 0x16A60, 0x16AC0, 0x16B50, 0x1D7CE, 0x1D7D8,
    0x1D7E2, 0x1D7EC, 0x1D7F6, 0x1E140, 0x1E2F0, 0x1E4F0, 0x1E950, 0x1FBF0]

def digitVal (c : Char) : Option Nat :=
  (digitZeros.find? fun z => z ≤ c.toNat && c.toNat < z + 10).map fun z => c.toNat - z

/-- A run of digits with single underscores between them: value, length, rest. -/
def takeDigits : List Char → Nat → Nat → Nat × Nat × List Char
  | [], v, k => (v, k, [])
  | '_' :: c :: cs, v, k =>
    match digitVal c with
    | some d => if k = 0 then (v, k, '_' :: c :: cs) else takeDigits cs (10 * v + d) (k + 1)
    | none => (v, k, '_' :: c :: cs)
  | c :: cs, v, k =>
    match digitVal c with
    | some d => takeDigits cs (10 * v + d) (k + 1)
    | none => (v, k, c :: cs)

def takeSign : List Char → Bool × List Char
  | '+' :: cs => (false, cs)
  | '-' :: cs => (true, cs)
  | cs => (false, cs)

/-- `[eE][+-]?digits` up to the end of the text. -/
def takeExponent : List Char → Option ℤ
  | [] => some 0
  | c :: cs =>
    if c == 'e' || c == 'E' then
      let (neg, ds) := takeSign cs
      match takeDigits ds 0 0 with
      | (v, _ + 1, []) => some (if neg then -(v : ℤ) else v)
      | _ => none
    else none

def negate : PyFloat → PyFloat
  | .fin q => if q = 0 then .negZero else .fin (-q)
  | .negZero => .fin 0
  | .inf => .negInf
  | .negInf => .inf
  | .nan => .nan

def parseUnsigned (cs : List Char) : Option PyFloat :=
  let word := String.ofList (cs.map Text.lowerChar)
  if word == "inf" || word == "infinity" then some .inf
  else if word == "nan" then some .nan
  else
    let (v, k, rest) := takeDigits cs 0 0
    let (w, j, rest') := match rest with
      | '.' :: ds => takeDigits ds 0 0
      | _ => (0, 0, rest)
    if k + j = 0 then none
    else
      (takeExponent rest').map fun (e : ℤ) =>
        roundDouble (((v * 10 ^ j + w : ℕ) : ℚ) * (10 : ℚ) ^ (e - (j : ℤ)))

/-- `float(text)`; `none` is the `ValueError`. -/
def ofStr (text : String) : Option PyFloat :=
  let (neg, cs) := takeSign (Text.stripChars text.toList)
  (parseUnsigned cs).map fun x => if neg then negate x else x

/-! ## Number to text -/

/-- The shortest decimal `digits · 10 ^ exp` that rounds to `a`, tried at `n`, `n + 1`, … digits.
Below a power of two the doubles are closer than above it, so that of the two decimals around `a`
the farther may be the one that reads back. -/
def shortest (a : ℚ) : Nat → Nat → ℕ × ℤ
  | 0, _ => (0, 0)
  | fuel + 1, n =>
    let e := Int.log 10 a - (n : ℤ) + 1
    let near := (roundHalfEven (a / (10 : ℚ) ^ e)).toNat
    let far := if (near : ℚ) * (10 : ℚ) ^ e ≤ a then near + 1 else near - 1
    if fuel = 0 ∨ roundDouble ((near : ℚ) * (10 : ℚ) ^ e) = .fin a then (near, e)
    else if roundDouble ((far : ℚ) * (10 : ℚ) ^ e) = .fin a then (far, e)
    else shortest a fuel (n + 1)

/-- `repr` of a positive finite value: fixed for exponents in `[-4, 16)`, else scientific. -/
def reprPos (a : ℚ) : String :=
  let (m, e) := shortest a 17 1
  let ds := (Nat.toDigits 10 m).reverse.dropWhile (· == '0')
  let digits := ds.reverse
  let e10 : ℤ := (Nat.toDigits 10 m).length - 1 + e
  let len := digits.length
  if -4 ≤ e10 ∧ e10 < 16 then
    if e10 < 0 then String.ofList ('0' :: '.' :: (List.replicate (-e10 - 1).toNat '0' ++ digits))
    else
      let k := e10.toNat + 1
      if len ≤ k then String.ofList (digits ++ List.replicate (k - len) '0' ++ ['.', '0'])
      else String.ofList (digits.take k ++ '.' :: digits.drop k)
  else
    let mant := match digits with
      | [] => []
      | [d] => [d]
      | d :: rest => d :: '.' :: rest
    let x := Nat.toDigits 10 e10.natAbs
    let x := if x.length < 2 then '0' :: x else x
    String.ofList (mant ++ 'e' :: (if e10 < 0 then '-' else '+') :: x)

/-- The text `json.dumps` writes for a float. -/
def repr : PyFloat → String
  | .fin q => if q = 0 then "0.0" else if q < 0 then "-" ++ reprPos (-q) else reprPos q
  | .negZero => "-0.0"
  | .inf => "Infinity"
  | .negInf => "-Infinity"
  | .nan => "NaN"

example : repr (.fin (1 / 2 ^ 44)) = "5.684341886080802e-14" := by decide +kernel

end PyFloat

end Raef
