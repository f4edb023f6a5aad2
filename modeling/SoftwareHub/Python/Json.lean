import SoftwareHub.Python.Codec

/-! The `json` module: values, `dumps` with indentation and sorted keys, and `loads`
with the errors that are not a `JSONDecodeError`. -/
namespace SoftwareHub.Python

/-- A binary64 number, `± mantissa * 2 ^ exponent` when finite. -/
inductive PyFloat where
  | nan
  | infinite (negative : Bool)
  | finite (negative : Bool) (mantissa : Nat) (exponent : Int)
  deriving DecidableEq, Repr

namespace PyFloat

/-- `numerator / denominator` rounded to nearest, ties to even. -/
def ofRatio (negative : Bool) (numerator denominator : Nat) : PyFloat :=
  if numerator = 0 then finite negative 0 0 else
  let guess : Int := (Nat.log2 numerator : Int) - Nat.log2 denominator
  let scale (e : Int) : Nat × Nat :=
    if 0 ≤ e then (numerator, denominator * 2 ^ e.toNat) else (numerator * 2 ^ (-e).toNat, denominator)
  let binade := if (scale guess).2 ≤ (scale guess).1 then guess else guess - 1
  let exponent := max (binade - 52) (-1074)
  let (n, d) := scale exponent
  let mantissa :=
    if d < 2 * (n % d) ∨ (2 * (n % d) = d ∧ n / d % 2 = 1) then n / d + 1 else n / d
  if 0 ≤ exponent ∧ 2 ^ 1024 ≤ mantissa * 2 ^ exponent.toNat then infinite negative
  else finite negative mantissa exponent

/-- `int(x)` of a float, where `none` is the error for NaN and the infinities. -/
def trunc? : PyFloat → Option Int
  | finite negative mantissa exponent =>
      let size := if 0 ≤ exponent then mantissa * 2 ^ exponent.toNat else mantissa / 2 ^ (-exponent).toNat
      some (if negative then -(size : Int) else size)
  | _ => none

/-- `x == n` for a natural number. -/
def eqNat (n : Nat) : PyFloat → Bool
  | finite negative mantissa exponent =>
      (if 0 ≤ exponent then mantissa * 2 ^ exponent.toNat == n else mantissa == n * 2 ^ (-exponent).toNat) &&
        (!negative || mantissa == 0)
  | _ => false

end PyFloat

/-- What `json.loads` returns. Objects keep their pairs in source order; the
dictionary has the last value of a repeated key. -/
inductive Json where
  | null
  | bool (value : Bool)
  | int (value : Int)
  | float (value : PyFloat)
  | str (value : PyStr)
  | array (items : List Json)
  | object (members : List (PyStr × Json))

/-- How `loads` fails: `JSONDecodeError`, `RecursionError` of a deep nesting,
or the `ValueError` of an integer literal with too many digits. -/
inductive JsonError where
  | decode
  | recursion
  | digits
  | fuel
  deriving DecidableEq, Repr

namespace Json

/-- `mapping.get(key)` of a parsed object: the last value of a repeated key. -/
def get? (members : List (PyStr × Json)) (key : PyStr) : Option Json :=
  members.reverse.lookup key

/-- The lower-case hexadecimal digit that an escape is written with. -/
def hexDigit (n : Nat) : Nat := if n < 10 then 0x30 + n else 0x57 + n

/-- `ensure_ascii=False`: only quotes, backslashes and control characters are escaped. -/
def escapeChar (c : Nat) : PyStr :=
  if c = 0x22 then [0x5C, 0x22]
  else if c = 0x5C then [0x5C, 0x5C]
  else if c = 0x0A then [0x5C, 0x6E]
  else if c = 0x0D then [0x5C, 0x72]
  else if c = 0x09 then [0x5C, 0x74]
  else if c = 0x0C then [0x5C, 0x66]
  else if c = 0x08 then [0x5C, 0x62]
  else if c < 0x20 then [0x5C, 0x75, 0x30, 0x30, hexDigit (c / 16), hexDigit (c % 16)]
  else [c]

/-- A string as `json.dumps` writes it, between quotation marks. -/
def quote (s : PyStr) : PyStr := 0x22 :: (s.flatMap escapeChar ++ [0x22])

/-- A line break and the indentation of one nesting level, two blanks each. -/
def newline (level : Nat) : PyStr := 0x0A :: List.replicate (2 * level) 0x20

/-- `json.dumps(value, ensure_ascii=False, indent=2)` at a nesting level. The
members of an object are written in the order they stand. -/
def dumpsAt (floatRepr : PyFloat → PyStr) (level : Nat) : Json → PyStr
  | null => py "null"
  | bool true => py "true"
  | bool false => py "false"
  | int value => intRepr value
  | float value => floatRepr value
  | str value => quote value
  | array [] => py "[]"
  | array (item :: items) =>
      0x5B :: (newline (level + 1) ++ dumpsAt floatRepr (level + 1) item ++
        dumpsItems floatRepr (level + 1) items ++ newline level ++ [0x5D])
  | object [] => py "{}"
  | object ((key, value) :: members) =>
      0x7B :: (newline (level + 1) ++ quote key ++ [0x3A, 0x20] ++
        dumpsAt floatRepr (level + 1) value ++ dumpsMembers floatRepr (level + 1) members ++
        newline level ++ [0x7D])
where
  dumpsItems (floatRepr : PyFloat → PyStr) (level : Nat) : List Json → PyStr
    | [] => []
    | item :: items =>
        0x2C :: (newline level ++ dumpsAt floatRepr level item ++ dumpsItems floatRepr level items)
  dumpsMembers (floatRepr : PyFloat → PyStr) (level : Nat) : List (PyStr × Json) → PyStr
    | [] => []
    | (key, value) :: members =>
        0x2C :: (newline level ++ quote key ++ [0x3A, 0x20] ++ dumpsAt floatRepr level value ++
          dumpsMembers floatRepr level members)

/-- `sort_keys=True` for one object. Keys are compared by code points. -/
def sortKeys (members : List (PyStr × Json)) : List (PyStr × Json) :=
  members.insertionSort fun left right => left.1 ≤ right.1

/-- `sort_keys=True` at every level of a value. -/
def sorted : Json → Json
  | array items => array (sortedItems items)
  | object members => object (sortKeys (sortedMembers members))
  | value => value
where
  sortedItems : List Json → List Json
    | [] => []
    | item :: items => sorted item :: sortedItems items
  sortedMembers : List (PyStr × Json) → List (PyStr × Json)
    | [] => []
    | (key, value) :: members => (key, sorted value) :: sortedMembers members

/-- The four blanks that JSON allows between its tokens. -/
def isBlank (c : Nat) : Bool := c == 0x20 || c == 0x09 || c == 0x0A || c == 0x0D

def skipBlanks (s : PyStr) : PyStr := s.dropWhile isBlank

/-- The value of a hexadecimal digit of either case. -/
def hexValue? (c : Nat) : Option Nat :=
  if isDigit c then some (c - 0x30)
  else if 0x61 ≤ c ∧ c ≤ 0x66 then some (c - 0x57)
  else if 0x41 ≤ c ∧ c ≤ 0x46 then some (c - 0x37)
  else none

/-- The value of the four digits of a `\uXXXX` escape, or a failure when one of them
is no digit. -/
def hex4? (a b c d : Nat) : Option Nat := do
  let a ← hexValue? a
  let b ← hexValue? b
  let c ← hexValue? c
  let d ← hexValue? d
  return ((a * 16 + b) * 16 + c) * 16 + d

/-- What stands behind the backslash of a short escape. -/
def unescape? (c : Nat) : Option Nat :=
  if c = 0x22 ∨ c = 0x5C ∨ c = 0x2F then some c
  else if c = 0x62 then some 0x08
  else if c = 0x66 then some 0x0C
  else if c = 0x6E then some 0x0A
  else if c = 0x72 then some 0x0D
  else if c = 0x74 then some 0x09
  else none

def consFst (c : Nat) (result : PyStr × PyStr) : PyStr × PyStr := (c :: result.1, result.2)

/-- The rest of a string after its opening quote, and what follows the
closing one. A pair of surrogate escapes is one code point. -/
def scanString : PyStr → Option (PyStr × PyStr)
  | [] => none
  | 0x22 :: rest => some ([], rest)
  | 0x5C :: 0x75 :: a :: b :: c :: d :: rest =>
      match hex4? a b c d with
      | none => none
      | some high =>
          match rest with
          | 0x5C :: 0x75 :: e :: f :: g :: h :: tail =>
              match hex4? e f g h with
              | none => none
              | some low =>
                  if 0xD800 ≤ high ∧ high < 0xDC00 ∧ 0xDC00 ≤ low ∧ low < 0xE000 then
                    (scanString tail).map (consFst (0x10000 + (high - 0xD800) * 0x400 + (low - 0xDC00)))
                  else (scanString (0x5C :: 0x75 :: e :: f :: g :: h :: tail)).map (consFst high)
          | tail => (scanString tail).map (consFst high)
  | 0x5C :: c :: rest => match unescape? c with
      | none => none
      | some plain => (scanString rest).map (consFst plain)
  | c :: rest => if c < 0x20 ∨ c = 0x5C then none else (scanString rest).map (consFst c)

section

-- The equations of the scanner are made here, once for all the lemmas below.
attribute [local simp] scanString

end

def splitDigits (s : PyStr) : PyStr × PyStr := s.span isDigit

def splitSign : PyStr → Bool × PyStr
  | 0x2D :: rest => (true, rest)
  | rest => (false, rest)

/-- `0|[1-9][0-9]*`: nothing follows a leading zero, so that `01` is a number and a
rest. -/
def splitWhole : PyStr → PyStr × PyStr
  | 0x30 :: rest => ([0x30], rest)
  | rest => splitDigits rest

/-- The digits after a point. A point without digits is left to the rest of the
text. -/
def scanFraction : PyStr → PyStr × PyStr
  | 0x2E :: rest => match splitDigits rest with
    | ([], _) => ([], 0x2E :: rest)
    | (digits, tail) => (digits, tail)
  | rest => ([], rest)

def splitExponentSign : PyStr → Bool × PyStr
  | 0x2D :: rest => (true, rest)
  | 0x2B :: rest => (false, rest)
  | rest => (false, rest)

/-- The exponent after `e` or `E`, when it has digits; else the letter is left to
the rest of the text. -/
def scanExponent (s : PyStr) : Option (Bool × PyStr) × PyStr :=
  match s with
  | c :: rest =>
      if c = 0x65 ∨ c = 0x45 then
        let (negative, body) := splitExponentSign rest
        match splitDigits body with
        | ([], _) => (none, s)
        | (digits, tail) => (some (negative, digits), tail)
      else (none, s)
  | [] => (none, [])

def digitValues (s : PyStr) : Nat := digitsValue (s.map (· - 0x30))

/-- `(-?(?:0|[1-9][0-9]*))(\.[0-9]+)?([eE][-+]?[0-9]+)?` at the start of the text. -/
def scanNumber (s : PyStr) : Except JsonError (Json × PyStr) :=
  let (negative, body) := splitSign s
  let (whole, rest) := splitWhole body
  if whole = [] then .error .decode
  else
    let (fraction, rest) := scanFraction rest
    let (exponent, rest) := scanExponent rest
    if fraction = [] ∧ exponent = none then
      if whole.length ≤ intMaxStrDigits then
        .ok (.int (if negative then -(digitValues whole : Int) else digitValues whole), rest)
      else .error .digits
    else
      let digits := digitValues (whole ++ fraction)
      let shift : Int := match exponent with
        | none => -(fraction.length : Int)
        | some (true, power) => -(digitValues power : Int) - fraction.length
        | some (false, power) => (digitValues power : Int) - fraction.length
      .ok (.float (if 0 ≤ shift then PyFloat.ofRatio negative (digits * 10 ^ shift.toNat) 1
        else PyFloat.ofRatio negative digits (10 ^ (-shift).toNat)), rest)

/-- The constants, each with its spelling. -/
def constants : List (PyStr × Json) :=
  [(py "null", .null), (py "true", .bool true), (py "false", .bool false), (py "NaN", .float .nan),
    (py "Infinity", .float (.infinite false)), (py "-Infinity", .float (.infinite true))]

/-- The constant at the start of a text, of which no spelling starts another one. -/
def scanConstant (s : PyStr) : Option (Json × PyStr) :=
  (constants.find? fun constant => constant.1.isPrefixOf s).map fun constant =>
    (constant.2, s.drop constant.1.length)

mutual

/-- One value. `depth` is the nesting the interpreter still allows, `fuel`
bounds the number of values and separators; the length of the text suffices. -/
def scanValue : Nat → Nat → PyStr → Except JsonError (Json × PyStr)
  | 0, _, _ => .error .fuel
  | _ + 1, _, [] => .error .decode
  | fuel + 1, depth, c :: rest =>
      if c = 0x22 then
        match scanString rest with
        | none => .error .decode
        | some (value, tail) => .ok (.str value, tail)
      else if c = 0x7B then
        match depth with
        | 0 => .error .recursion
        | depth + 1 => match skipBlanks rest with
          | 0x7D :: tail => .ok (.object [], tail)
          | body => match scanMembers fuel depth body with
            | .error e => .error e
            | .ok (members, tail) => .ok (.object members, tail)
      else if c = 0x5B then
        match depth with
        | 0 => .error .recursion
        | depth + 1 => match skipBlanks rest with
          | 0x5D :: tail => .ok (.array [], tail)
          | body => match scanItems fuel depth body with
            | .error e => .error e
            | .ok (items, tail) => .ok (.array items, tail)
      else match scanConstant (c :: rest) with
        | some result => .ok result
        | none => scanNumber (c :: rest)

/-- The items of a list from the first one up to the closing bracket. -/
def scanItems : Nat → Nat → PyStr → Except JsonError (List Json × PyStr)
  | 0, _, _ => .error .fuel
  | fuel + 1, depth, s => match scanValue fuel depth s with
    | .error e => .error e
    | .ok (item, rest) => match skipBlanks rest with
      | 0x5D :: tail => .ok ([item], tail)
      | 0x2C :: tail => match scanItems fuel depth (skipBlanks tail) with
        | .error e => .error e
        | .ok (items, tail) => .ok (item :: items, tail)
      | _ => .error .decode

/-- The members of an object from the first key up to the closing brace. -/
def scanMembers : Nat → Nat → PyStr → Except JsonError (List (PyStr × Json) × PyStr)
  | 0, _, _ => .error .fuel
  | fuel + 1, depth, s => match s with
    | 0x22 :: rest => match scanString rest with
      | none => .error .decode
      | some (key, rest) => match skipBlanks rest with
        | 0x3A :: rest => match scanValue fuel depth (skipBlanks rest) with
          | .error e => .error e
          | .ok (value, rest) => match skipBlanks rest with
            | 0x7D :: tail => .ok ([(key, value)], tail)
            | 0x2C :: tail => match scanMembers fuel depth (skipBlanks tail) with
              | .error e => .error e
              | .ok (members, tail) => .ok ((key, value) :: members, tail)
            | _ => .error .decode
        | _ => .error .decode
    | _ => .error .decode

end

/-- `json.loads` of a text: one value, with nothing but blanks around it. The fuel
depends on the length of the text and always suffices. -/
def loadsText (maxDepth : Nat) (s : PyStr) : Except JsonError Json :=
  match scanValue (2 * s.length + 1) maxDepth (skipBlanks s) with
  | .error e => .error e
  | .ok (value, rest) => if skipBlanks rest = [] then .ok value else .error .decode

section

-- Likewise those of the parser.
attribute [local simp] scanValue scanItems scanMembers scanNumber

end

/-- What `json.loads` of bytes can raise, its decoding of the bytes included. -/
inductive LoadsError where
  | unicodeDecode
  | json (error : JsonError)
  deriving DecidableEq, Repr

/-- `json.loads(data)`: the encoding is detected, the bytes are decoded, and the
text is read. -/
def loads (maxDepth : Nat) (data : Bytes) : Except LoadsError Json :=
  match decodeDetected data with
  | none => .error .unicodeDecode
  | some s => match loadsText maxDepth s with
    | .error e => .error (.json e)
    | .ok value => .ok value

end Json
end SoftwareHub.Python
