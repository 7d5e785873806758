import StellarCade.Js.Value

/-!
# `JSON.stringify` on an array of key segments

`keyToString` is `JSON.stringify(key)`. For the values a key holds, ECMAScript's
`SerializeJSONProperty` does the following:

* a string goes through `QuoteJSONString`: the seven characters of its table become
  two-character escapes, the other controls and every lone surrogate become `\uXXXX`
  with lowercase hex, a surrogate pair is copied, and everything else is copied;
* a finite number is written as `Number::toString`, a non-finite one as `null`;
* booleans and `null` are written as themselves;
* an array is `[`, the elements joined by `,`, and `]` (no gap).

The second half of the file reads such text back. `parseSegment` is a small JSON
reader for one element; `parseSegment_serialize` says it undoes `serializeSegment`
up to the `,` or `]` that follows, which is what makes the array encoding injective
up to `jsonValue` (`serializeArray_inj`).
-/

namespace StellarCade.Js

/-! ## Serialising -/

/-- The lowercase hexadecimal digit for `n < 16`. -/
def hexDigit (n : Nat) : CodeUnit := Fin.ofNat (if n < 10 then 48 + n else 87 + n)

/-- `UnicodeEscape(c)`: `\u` and four lowercase hexadecimal digits. -/
def unicodeEscape (c : CodeUnit) : JsString :=
  [92, 117, hexDigit (c.val / 4096), hexDigit (c.val / 256 % 16), hexDigit (c.val / 16 % 16),
    hexDigit (c.val % 16)]

/-- A leading (high) surrogate. -/
def isLeadSurrogate (c : CodeUnit) : Bool := 0xD800 ≤ c.val && c.val ≤ 0xDBFF

/-- A trailing (low) surrogate. -/
def isTrailSurrogate (c : CodeUnit) : Bool := 0xDC00 ≤ c.val && c.val ≤ 0xDFFF

/-- What `QuoteJSONString` writes for a code point that is a single code unit `c`:
a character of the escape table, another control, a lone surrogate, or any other
character. -/
def escapeUnit (c : CodeUnit) : JsString :=
  if c = 8 then [92, 98]
  else if c = 9 then [92, 116]
  else if c = 10 then [92, 110]
  else if c = 12 then [92, 102]
  else if c = 13 then [92, 114]
  else if c = 34 then [92, 34]
  else if c = 92 then [92, 92]
  else if c.val < 32 || isLeadSurrogate c || isTrailSurrogate c then unicodeEscape c
  else [c]

/-- The body of `QuoteJSONString(s)`, code point by code point (`StringToCodePoints`):
a leading surrogate followed by a trailing one is a single code point and is copied. -/
def quoteBody : JsString → JsString
  | [] => []
  | [c] => escapeUnit c
  | c :: d :: rest =>
    if isLeadSurrogate c && isTrailSurrogate d then c :: d :: quoteBody rest
    else escapeUnit c ++ quoteBody (d :: rest)

/-- `QuoteJSONString(s)`. -/
def quote (s : JsString) : JsString := 34 :: (quoteBody s ++ [34])

/-- `SerializeJSONProperty` for one segment. -/
def serializeSegment : Segment → JsString
  | .str s => quote s
  | .num (.finite n) => n.text
  | .num _ => jsString "null"
  | .bool true => jsString "true"
  | .bool false => jsString "false"
  | .null => jsString "null"

/-- `JSON.stringify` of an array of segments (`SerializeJSONArray` with no gap). -/
def serializeArray (xs : List Segment) : JsString :=
  91 :: (List.intercalate [44] (xs.map serializeSegment) ++ [93])

/-- The value `JSON.parse` gives back for a segment: non-finite numbers become `null`. -/
def Segment.jsonValue : Segment → Segment
  | .num n => if n.isFinite then .num n else .null
  | s => s

/-! ## Reading back -/

/-- The value of a hexadecimal digit of either case. -/
def hexValue (c : CodeUnit) : Option Nat :=
  if 48 ≤ c.val ∧ c.val ≤ 57 then some (c.val - 48)
  else if 97 ≤ c.val ∧ c.val ≤ 102 then some (c.val - 87)
  else if 65 ≤ c.val ∧ c.val ≤ 70 then some (c.val - 55)
  else none

/-- The character a two-character escape `\e` stands for. -/
def simpleEscape (e : CodeUnit) : Option CodeUnit :=
  if e = 34 then some 34
  else if e = 92 then some 92
  else if e = 47 then some 47
  else if e = 98 then some 8
  else if e = 102 then some 12
  else if e = 110 then some 10
  else if e = 114 then some 13
  else if e = 116 then some 9
  else none

/-- The code unit four hexadecimal digits stand for. -/
def hex4 (a b c d : CodeUnit) : Option CodeUnit := do
  let a ← hexValue a
  let b ← hexValue b
  let c ← hexValue c
  let d ← hexValue d
  pure (Fin.ofNat (4096 * a + 256 * b + 16 * c + d))

/-- Put `u` in front of the string part of a reader's result. -/
def consFst (u : CodeUnit) : Option (JsString × JsString) → Option (JsString × JsString) :=
  Option.map fun p => (u :: p.1, p.2)

/-- Read a JSON string literal whose opening quote is already consumed: the string,
and what follows its closing quote. Raw controls and bad escapes are rejected. -/
def unquote : JsString → Option (JsString × JsString)
  | [] => none
  | c :: cs =>
    if c = 34 then some ([], cs)
    else if c = 92 then
      match cs with
      | [] => none
      | e :: cs' =>
        if e = 117 then
          match cs' with
          | a :: b :: c' :: d :: r => (hex4 a b c' d).bind fun u => consFst u (unquote r)
          | _ => none
        else (simpleEscape e).bind fun u => consFst u (unquote cs')
    else if c.val < 32 then none
    else consFst c (unquote cs)

/-- Strip a literal prefix. -/
def stripLiteral (lit s : JsString) : Option JsString :=
  if lit.isPrefixOf s then some (s.drop lit.length) else none

/-- Read one JSON array element: a string, `null`, `true`, `false`, or a number
(the longest run of number characters). -/
def parseSegment (s : JsString) : Option (Segment × JsString) :=
  match s with
  | [] => none
  | c :: cs =>
    if c = 34 then (unquote cs).map fun p => (.str p.1, p.2)
    else match stripLiteral (jsString "null") s, stripLiteral (jsString "true") s,
        stripLiteral (jsString "false") s with
      | some r, _, _ => some (.null, r)
      | _, some r, _ => some (.bool true, r)
      | _, _, some r => some (.bool false, r)
      | none, none, none =>
        let t := s.takeWhile isNumberUnit
        if h : t = [] then none
        else some (.num (.finite ⟨t, h, fun _ hu => List.mem_takeWhile_imp hu⟩),
          s.drop t.length)

/-! ## The decoder undoes the encoder -/

theorem ofNat_val (c : CodeUnit) : (Fin.ofNat c.val : CodeUnit) = c :=
  Fin.ext (Nat.mod_eq_of_lt c.isLt)

theorem hexValue_hexDigit : ∀ n : Fin 16, hexValue (hexDigit n) = some n.val := by decide

theorem hex4_unicodeEscape (c : CodeUnit) :
    hex4 (hexDigit (c.val / 4096)) (hexDigit (c.val / 256 % 16)) (hexDigit (c.val / 16 % 16))
      (hexDigit (c.val % 16)) = some c := by
  have hc := c.isLt
  have h1 := hexValue_hexDigit ⟨c.val / 4096, by omega⟩
  have h2 := hexValue_hexDigit ⟨c.val / 256 % 16, by omega⟩
  have h3 := hexValue_hexDigit ⟨c.val / 16 % 16, by omega⟩
  have h4 := hexValue_hexDigit ⟨c.val % 16, by omega⟩
  simp only at h1 h2 h3 h4
  simp only [hex4, h1, h2, h3, h4, Option.bind_eq_bind, Option.some_bind, pure]
  rw [show 4096 * (c.val / 4096) + 256 * (c.val / 256 % 16) + 16 * (c.val / 16 % 16) +
    c.val % 16 = c.val by omega, ofNat_val]

theorem unquote_cons (c : CodeUnit) (cs : JsString) :
    unquote (c :: cs) =
      if c = 34 then some ([], cs)
      else if c = 92 then
        match cs with
        | [] => none
        | e :: cs' =>
          if e = 117 then
            match cs' with
            | a :: b :: c' :: d :: r => (hex4 a b c' d).bind fun u => consFst u (unquote r)
            | _ => none
          else (simpleEscape e).bind fun u => consFst u (unquote cs')
      else if c.val < 32 then none
      else consFst c (unquote cs) := by
  rw [unquote.eq_def]; rfl

theorem unquote_raw {c : CodeUnit} (h32 : 32 ≤ c.val) (h34 : c ≠ 34) (h92 : c ≠ 92)
    (r : JsString) : unquote (c :: r) = consFst c (unquote r) := by
  rw [unquote_cons, if_neg h34, if_neg h92, if_neg (by omega)]

theorem unquote_simpleEscape {e u : CodeUnit} (he : simpleEscape e = some u) (hu : e ≠ 117)
    (r : JsString) : unquote (92 :: e :: r) = consFst u (unquote r) := by
  rw [unquote_cons, if_neg (by decide), if_pos rfl]
  simp only [if_neg hu, he, Option.some_bind]

theorem unquote_unicodeEscape (c : CodeUnit) (r : JsString) :
    unquote (unicodeEscape c ++ r) = consFst c (unquote r) := by
  rw [unicodeEscape, List.cons_append, unquote_cons, if_neg (by decide), if_pos rfl]
  simp only [List.cons_append, List.nil_append, if_pos, hex4_unicodeEscape, Option.some_bind]

/-- Every code unit `QuoteJSONString` writes on its own reads back as itself. -/
theorem unquote_escapeUnit (c : CodeUnit) (r : JsString) :
    unquote (escapeUnit c ++ r) = consFst c (unquote r) := by
  by_cases ht : c ∈ ([8, 9, 10, 12, 13, 34, 92] : List CodeUnit)
  · simp only [List.mem_cons, List.mem_singleton, List.not_mem_nil, or_false] at ht
    rcases ht with rfl | rfl | rfl | rfl | rfl | rfl | rfl <;>
      exact unquote_simpleEscape (by decide) (by decide) r
  · simp only [List.mem_cons, List.mem_singleton, List.not_mem_nil, or_false, not_or] at ht
    obtain ⟨h8, h9, h10, h12, h13, h34, h92⟩ := ht
    rw [escapeUnit, if_neg h8, if_neg h9, if_neg h10, if_neg h12, if_neg h13, if_neg h34,
      if_neg h92]
    split
    · exact unquote_unicodeEscape c r
    · next hu =>
      simp only [Bool.or_eq_true, decide_eq_true_eq, not_or] at hu
      exact unquote_raw (by omega) h34 h92 r

theorem unquote_surrogate {c : CodeUnit} (h : isLeadSurrogate c || isTrailSurrogate c)
    (r : JsString) : unquote (c :: r) = consFst c (unquote r) := by
  simp only [isLeadSurrogate, isTrailSurrogate, Bool.or_eq_true, Bool.and_eq_true,
    decide_eq_true_eq] at h
  exact unquote_raw (by omega) (by rintro rfl; revert h; decide) (by rintro rfl; revert h; decide) r

/-- **Round trip of `QuoteJSONString`**: the body reads back as the string, and the
reader stops right after the closing quote. -/
theorem unquote_quoteBody (s r : JsString) : unquote (quoteBody s ++ 34 :: r) = some (s, r) := by
  induction s using quoteBody.induct with
  | case1 => rw [quoteBody, List.nil_append, unquote_cons, if_pos rfl]
  | case2 c =>
    rw [quoteBody, unquote_escapeUnit, unquote_cons, if_pos rfl]; rfl
  | case3 c d rest h ih =>
    simp only [Bool.and_eq_true] at h
    rw [quoteBody, if_pos (by simp [h]), List.cons_append, List.cons_append,
      unquote_surrogate (by simp [h]), unquote_surrogate (by simp [h]), ih]; rfl
  | case4 c d rest h ih =>
    rw [quoteBody, if_neg h, List.append_assoc, unquote_escapeUnit, ih]; rfl

/-! ### One array element -/

theorem stripLiteral_append (lit r : JsString) : stripLiteral lit (lit ++ r) = some r := by
  simp [stripLiteral]

theorem stripLiteral_cons_of_ne {l c : CodeUnit} (ls s : JsString) (h : c ≠ l) :
    stripLiteral (l :: ls) (c :: s) = none := by
  simp [stripLiteral, Ne.symm h]

theorem jsString_null : jsString "null" = [110, 117, 108, 108] := by decide
theorem jsString_true : jsString "true" = [116, 114, 117, 101] := by decide
theorem jsString_false : jsString "false" = [102, 97, 108, 115, 101] := by decide

/-- A number's text starts with none of `"`, `n`, `t`, `f`. -/
theorem ne_of_isNumberUnit {c : CodeUnit} (h : isNumberUnit c = true) :
    c ≠ 34 ∧ c ≠ 110 ∧ c ≠ 116 ∧ c ≠ 102 := by
  refine ⟨?_, ?_, ?_, ?_⟩ <;> (rintro rfl; revert h; decide)

theorem parseSegment_finite (n : FiniteNumber) {t : CodeUnit} (ht : isNumberUnit t = false)
    (r : JsString) : parseSegment (n.text ++ t :: r) = some (.num (.finite n), t :: r) := by
  obtain ⟨text, hne, hunits⟩ := n
  obtain ⟨c, cs, rfl⟩ := List.exists_cons_of_ne_nil hne
  obtain ⟨h34, h110, h116, h102⟩ := ne_of_isNumberUnit (hunits c (List.mem_cons_self _ _))
  have htake : (c :: cs ++ t :: r).takeWhile isNumberUnit = c :: cs := by
    rw [List.takeWhile_append_of_pos hunits, List.takeWhile_cons_of_neg (by simp [ht]),
      List.append_nil]
  simp only [parseSegment, List.cons_append, if_neg h34, jsString_null, jsString_true,
    jsString_false, stripLiteral_cons_of_ne _ _ h110, stripLiteral_cons_of_ne _ _ h116,
    stripLiteral_cons_of_ne _ _ h102]
  simp only [← List.cons_append, htake, dif_neg (List.cons_ne_nil c cs), List.drop_left]

/-- **Round trip of one element**: `parseSegment` reads back what `serializeSegment`
wrote, as `JSON.parse` would see it, and stops at the `,` or `]` after it. -/
theorem parseSegment_serializeSegment (x : Segment) {t : CodeUnit} (ht : t = 44 ∨ t = 93)
    (r : JsString) : parseSegment (serializeSegment x ++ t :: r) = some (x.jsonValue, t :: r) := by
  have hnt : isNumberUnit t = false := by rcases ht with rfl | rfl <;> rfl
  rcases x with s | (n | _ | _ | _) | (_ | _) | _
  · simp [serializeSegment, quote, parseSegment, unquote_quoteBody, Segment.jsonValue]
  · exact parseSegment_finite n hnt r
  all_goals
    simp [serializeSegment, parseSegment, jsString_null, jsString_true, jsString_false,
      stripLiteral, Segment.jsonValue, JsNumber.isFinite]

/-! ### The whole array -/

theorem intercalate_singleton (x : Segment) :
    List.intercalate [44] ([x].map serializeSegment) = serializeSegment x := by
  simp [List.intercalate]

theorem intercalate_cons_cons (x y : Segment) (xs : List Segment) :
    List.intercalate [44] ((x :: y :: xs).map serializeSegment) =
      serializeSegment x ++ 44 :: List.intercalate [44] ((y :: xs).map serializeSegment) := by
  simp [List.intercalate, List.intersperse]

/-- The elements and the closing bracket of an array start with an element's text, or
are the bracket alone. -/
theorem parseSegment_elements_cons (x : Segment) (xs : List Segment) :
    ∃ t r, (t = 44 ∨ t = 93) ∧
      List.intercalate [44] ((x :: xs).map serializeSegment) ++ [93] = serializeSegment x ++ t :: r ∧
      (xs = [] → t :: r = [93]) ∧
      (xs ≠ [] → t :: r = 44 :: (List.intercalate [44] (xs.map serializeSegment) ++ [93])) := by
  cases xs with
  | nil => exact ⟨93, [], .inr rfl, by rw [intercalate_singleton], fun _ => rfl, fun h => (h rfl).elim⟩
  | cons y ys =>
    exact ⟨44, _, .inl rfl, by rw [intercalate_cons_cons, List.append_assoc]; rfl,
      fun h => (List.cons_ne_nil _ _ h).elim, fun _ => rfl⟩

theorem parseSegment_close :
    parseSegment (List.intercalate [44] (([] : List Segment).map serializeSegment) ++ [93]) = none := by
  decide

theorem elements_inj : ∀ {xs ys : List Segment},
    List.intercalate [44] (xs.map serializeSegment) ++ [93] =
      List.intercalate [44] (ys.map serializeSegment) ++ [93] →
    xs.map Segment.jsonValue = ys.map Segment.jsonValue
  | [], [], _ => rfl
  | [], y :: ys, h => by
    obtain ⟨t, r, ht, he, -, -⟩ := parseSegment_elements_cons y ys
    have hp := parseSegment_serializeSegment y ht r
    rw [← he, ← h, parseSegment_close] at hp
    cases hp
  | y :: ys, [], h => by
    obtain ⟨t, r, ht, he, -, -⟩ := parseSegment_elements_cons y ys
    have hp := parseSegment_serializeSegment y ht r
    rw [← he, h, parseSegment_close] at hp
    cases hp
  | x :: xs, y :: ys, h => by
    obtain ⟨t, r, ht, he, hnil, hcons⟩ := parseSegment_elements_cons x xs
    obtain ⟨t', r', ht', he', hnil', hcons'⟩ := parseSegment_elements_cons y ys
    have hp := parseSegment_serializeSegment x ht r
    rw [← he, h, he', parseSegment_serializeSegment y ht' r'] at hp
    simp only [Option.some.injEq, Prod.mk.injEq] at hp
    rw [List.map_cons, List.map_cons, hp.1]
    congr 1
    cases xs <;> cases ys
    · rfl
    · have := (hnil rfl).symm.trans (hp.2.symm.trans (hcons' (List.cons_ne_nil _ _))); simp at this
    · have := (hcons (List.cons_ne_nil _ _)).symm.trans (hp.2.symm.trans (hnil' rfl)); simp at this
    · exact elements_inj (List.cons.inj ((hcons (List.cons_ne_nil _ _)).symm.trans
        (hp.2.symm.trans (hcons' (List.cons_ne_nil _ _))))).2

theorem serializeSegment_jsonValue (x : Segment) :
    serializeSegment x.jsonValue = serializeSegment x := by
  rcases x with _ | (_ | _ | _ | _) | _ | _ <;> rfl

/-- **`JSON.stringify` is injective on key arrays up to `jsonValue`**: two arrays
serialise to the same text exactly when they hold the same JSON values. -/
theorem serializeArray_eq_iff (xs ys : List Segment) :
    serializeArray xs = serializeArray ys ↔ xs.map Segment.jsonValue = ys.map Segment.jsonValue := by
  refine ⟨fun h => elements_inj (List.cons.inj h).2, fun h => ?_⟩
  have hx : ∀ zs : List Segment, serializeArray (zs.map Segment.jsonValue) = serializeArray zs :=
    fun zs => by simp only [serializeArray, List.map_map, Function.comp_def, serializeSegment_jsonValue]
  rw [← hx xs, h, hx]

end StellarCade.Js
