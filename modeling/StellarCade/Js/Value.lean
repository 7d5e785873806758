import Mathlib.Data.List.Basic

/-!
# The ECMAScript values a query key is made of

A `QueryKey` is a JS array whose segments are strings, numbers, booleans or `null`
(`types/query-cache.ts`). This file fixes how those values are represented, so that
`===` (used by `hasPrefix`) and `JSON.stringify` (used by `keyToString`) can both be
stated on them.

* A string is its sequence of UTF-16 code units (`JsString`). Lone surrogates are JS
  strings too, and `JSON.stringify` escapes them, so they are kept in the model.
* A finite number is named by its `Number::toString` text (`FiniteNumber`). ECMAScript
  guarantees `ToNumber(ToString(x)) = x` for every finite `x`, and `+0`, `-0` both print
  `"0"` and are `===`; so the text names exactly the value that `===` and
  `JSON.stringify` observe. The text is made of digits, `.`, `e`, `+` and `-`.
* `NaN`, `Infinity` and `-Infinity` are constructors of their own: `JSON.stringify`
  writes all three as `null`, and `NaN === NaN` is false.
-/

namespace StellarCade.Js

/-- A UTF-16 code unit. -/
abbrev CodeUnit := Fin 65536

/-- A JS string: its UTF-16 code units. -/
abbrev JsString := List CodeUnit

/-- The code units of a source literal. All literals of the source are ASCII. -/
def jsString (s : String) : JsString := s.toList.map fun c => Fin.ofNat c.toNat

/-! ## Numbers -/

/-- The code units `Number::toString` writes for a finite number: `0-9 . e + -`. -/
def isNumberUnit (c : CodeUnit) : Bool :=
  (48 ≤ c.val && c.val ≤ 57) || c.val == 46 || c.val == 101 || c.val == 43 || c.val == 45

/-- A finite JS number, named by its `Number::toString` text. -/
@[ext] structure FiniteNumber where
  text : JsString
  text_ne_nil : text ≠ []
  text_units : ∀ c ∈ text, isNumberUnit c = true
  deriving DecidableEq, Repr

/-- A JS number. -/
inductive JsNumber where
  | finite (n : FiniteNumber)
  | nan
  | infinity
  | negInfinity
  deriving DecidableEq, Repr

namespace JsNumber

/-- `x === y` on numbers: `NaN` is equal to nothing, not even itself. -/
def strictEquals : JsNumber → JsNumber → Bool
  | .finite a, .finite b => a.text == b.text
  | .infinity, .infinity => true
  | .negInfinity, .negInfinity => true
  | _, _ => false

/-- `String(x)`, that is `Number::toString(x)`. -/
def toJsString : JsNumber → JsString
  | .finite a => a.text
  | .nan => jsString "NaN"
  | .infinity => jsString "Infinity"
  | .negInfinity => jsString "-Infinity"

/-- Finite numbers are the ones `JSON.stringify` writes as themselves. -/
def isFinite : JsNumber → Bool
  | .finite _ => true
  | _ => false

end JsNumber

/-! ## Key segments -/

/-- A segment of a query key: `string | number | boolean | null`. -/
inductive Segment where
  | str (s : JsString)
  | num (n : JsNumber)
  | bool (b : Bool)
  | null
  deriving DecidableEq, Repr

namespace Segment

/-- `a === b` on segments: values of different types are never equal. -/
def strictEquals : Segment → Segment → Bool
  | .str a, .str b => a == b
  | .num a, .num b => a.strictEquals b
  | .bool a, .bool b => a == b
  | .null, .null => true
  | _, _ => false

/-- `SameValueZero(a, b)`: `a === b`, or both are `NaN`. -/
def sameValueZero (a b : Segment) : Bool :=
  a.strictEquals b || (a == .num .nan && b == .num .nan)

/-- The non-finite numbers: `NaN`, `Infinity`, `-Infinity`. -/
def isNonFinite : Segment → Bool
  | .num n => !n.isFinite
  | _ => false

/-- The segments `JSON.stringify` writes as `null`: `null` itself and the non-finite
numbers. -/
def isJsonNull : Segment → Bool
  | .null => true
  | .num n => !n.isFinite
  | _ => false

end Segment

end StellarCade.Js
