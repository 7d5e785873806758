import StellarCade.Js.Value
import Mathlib.Data.List.DropRight

/-!
# Input validators

The validators of `utils/v1/validation` that the form hooks call, on the strings the
hooks hand them. Each returns a `ValidationResult`: the parsed value, or a
`ValidationError` with a code, a message and the field it is about.

Two pieces of the language matter here and are modelled exactly:

* `String.prototype.trim` strips `WhiteSpace` and `LineTerminator` code units from both
  ends (`trim`);
* `BigInt(s)` for a string is `StringToBigInt`: whitespace around an optional sign and
  decimal digits, or a `0b`/`0o`/`0x` literal, and `0n` for a string that is all
  whitespace (`stringToBigInt`). It throws `SyntaxError` on anything else, which the
  validators catch. It reads back the decimal text `toString` writes for every integer
  (`stringToBigInt_toString`).

So `validateGameId("  ")` passes the `value === ""` test, and `BigInt("  ")` is `0n`: a
whitespace-only ID is accepted as `0` (`validateId_blank`), where the address validators,
which test `value.trim() === ""`, answer `REQUIRED`.
-/

namespace StellarCade.Forms

open StellarCade.Js

/-! ## Results -/

/-- `ValidationErrorCode`. -/
inductive ValidationErrorCode where
  | required
  | invalidType
  | outOfRange
  | invalidFormat
  | invalidEnum
  | tooShort
  | tooLong
  | invalidAddress
  | invalidHash
  deriving DecidableEq, Repr

/-- `ValidationError`, without the `context` record, which only repeats the offending
value for debugging. -/
structure ValidationError where
  code : ValidationErrorCode
  message : JsString
  field : Option JsString
  deriving DecidableEq, Repr

/-- `ValidationResult<T>`: `{ success: true, data }` or `{ success: false, error }`. -/
abbrev ValidationResult (β : Type) := Except ValidationError β

instance decidableEqExcept {ε β : Type} [DecidableEq ε] [DecidableEq β] : DecidableEq (Except ε β) := fun a b =>
  match a, b with
  | .ok x, .ok y => if h : x = y then isTrue (h ▸ rfl) else isFalse fun e => h (by cases e; rfl)
  | .error x, .error y => if h : x = y then isTrue (h ▸ rfl) else isFalse fun e => h (by cases e; rfl)
  | .ok _, .error _ => isFalse fun e => by cases e
  | .error _, .ok _ => isFalse fun e => by cases e

/-- A failure about `field`. -/
def fail {β : Type} (code : ValidationErrorCode) (message : String) (field : JsString) :
    ValidationResult β :=
  .error ⟨code, jsString message, some field⟩

/-- Every error of `r` names `field`. -/
def NamesField {β : Type} (r : ValidationResult β) (field : JsString) : Prop :=
  ∀ e, r = .error e → e.field = some field

@[simp] theorem namesField_ok {β : Type} (x : β) (field : JsString) :
    NamesField (.ok x : ValidationResult β) field := by
  intro e h; cases h

@[simp] theorem namesField_fail {β : Type} (c : ValidationErrorCode) (m : String) (field : JsString) :
    NamesField (fail c m field : ValidationResult β) field := by
  intro e h; cases h; rfl

/-! ## Strings and big integers -/

/-- The `WhiteSpace` and `LineTerminator` code units, which `trim` and `StringToBigInt`
strip; `USP` is every code unit of category `Zs`. -/
def isStrWhiteSpace (c : CodeUnit) : Bool :=
  [0x09, 0x0A, 0x0B, 0x0C, 0x0D, 0x20, 0xA0, 0x1680, 0x2028, 0x2029, 0x202F, 0x205F, 0x3000,
    0xFEFF].contains c.val || (0x2000 ≤ c.val && c.val ≤ 0x200A)

/-- `String.prototype.trim`. -/
def trim (s : JsString) : JsString :=
  ((s.dropWhile isStrWhiteSpace).reverse.dropWhile isStrWhiteSpace).reverse

/-- The value of `c` as a digit of `base` (at most 16), either case for `a`-`f`. -/
def digitValue (base : Nat) (c : CodeUnit) : Option Nat :=
  let v := if 48 ≤ c.val ∧ c.val ≤ 57 then c.val - 48
    else if 97 ≤ c.val ∧ c.val ≤ 102 then c.val - 87
    else if 65 ≤ c.val ∧ c.val ≤ 70 then c.val - 55
    else 16
  if v < base then some v else none

/-- Read digits of `base` after the value `acc` of those already read. -/
def digitsFrom (base : Nat) (acc : Nat) : JsString → Option Nat
  | [] => some acc
  | c :: cs => (digitValue base c).bind fun d => digitsFrom base (acc * base + d) cs

/-- A non-empty run of digits of `base`. -/
def digitsValue (base : Nat) (s : JsString) : Option Nat :=
  if s = [] then none else digitsFrom base 0 s

/-- `NonDecimalIntegerLiteral`: the base its prefix `0b`, `0o` or `0x` names (either
case), and the digits after it. -/
def nonDecimalBase : JsString → Option (Nat × JsString)
  | z :: p :: ds =>
    if z ≠ 48 then none
    else if p = 98 ∨ p = 66 then some (2, ds)
    else if p = 111 ∨ p = 79 then some (8, ds)
    else if p = 120 ∨ p = 88 then some (16, ds)
    else none
  | _ => none

/-- `SignedInteger`: decimal digits after an optional `+` or `-`. -/
def signedInteger : JsString → Option Int
  | [] => none
  | c :: ds =>
    if c = 43 then (digitsValue 10 ds).map Int.ofNat
    else if c = 45 then (digitsValue 10 ds).map fun n => -(n : Int)
    else (digitsValue 10 (c :: ds)).map Int.ofNat

/-- `StringToBigInt(s)`, which `BigInt(s)` returns for a string; `none` where `BigInt`
throws `SyntaxError`. -/
def stringToBigInt (s : JsString) : Option Int :=
  let t := trim s
  if t = [] then some 0
  else match nonDecimalBase t with
    | some (base, ds) => (digitsValue base ds).map Int.ofNat
    | none => signedInteger t

theorem trim_eq_nil_of_all {s : JsString} (h : ∀ c ∈ s, isStrWhiteSpace c = true) : trim s = [] := by
  rw [trim, List.dropWhile_eq_nil_iff.2 h]; rfl

/-- A string that is all whitespace is `0n`. -/
theorem stringToBigInt_of_all {s : JsString} (h : ∀ c ∈ s, isStrWhiteSpace c = true) :
    stringToBigInt s = some 0 := by
  rw [stringToBigInt, if_pos (trim_eq_nil_of_all h)]

/-! ### `BigInt` reads back what `toString` writes -/

/-- A decimal digit as `toString` writes it: its value, and it is neither whitespace nor
outside `0`-`9`. -/
theorem digitChar_unit : ∀ d : Fin 10,
    digitValue 10 (Fin.ofNat (Nat.digitChar d).toNat) = some d.val ∧
    48 ≤ (Fin.ofNat (Nat.digitChar d).toNat : CodeUnit).val ∧
    (Fin.ofNat (Nat.digitChar d).toNat : CodeUnit).val ≤ 57 := by
  decide

/-- `toDigitsCore` puts the digits of `n`, most significant first, before `ds`. -/
theorem toDigitsCore_eq : ∀ (fuel n : Nat) (ds : List Char), n < fuel →
    ∃ pre, Nat.toDigitsCore 10 fuel n ds = pre ++ ds ∧ pre ≠ [] ∧
      (∀ c ∈ pre, ∃ d : Fin 10, c = Nat.digitChar d) ∧
      ∀ r, digitsFrom 10 0 ((pre ++ r).map fun c => (Fin.ofNat c.toNat : CodeUnit)) =
        digitsFrom 10 n (r.map fun c => Fin.ofNat c.toNat)
  | 0, _, _, h => absurd h (Nat.not_lt_zero _)
  | fuel + 1, n, ds, h => by
    have hd : digitValue 10 (Fin.ofNat (Nat.digitChar (n % 10)).toNat) = some (n % 10) :=
      (digitChar_unit ⟨n % 10, Nat.mod_lt n (by decide)⟩).1
    have hcore : Nat.toDigitsCore 10 (fuel + 1) n ds =
        if n / 10 = 0 then Nat.digitChar (n % 10) :: ds
        else Nat.toDigitsCore 10 fuel (n / 10) (Nat.digitChar (n % 10) :: ds) := rfl
    rw [hcore]
    split
    · next h0 =>
      refine ⟨[Nat.digitChar (n % 10)], rfl, List.cons_ne_nil _ _,
        fun c hc => ⟨⟨n % 10, Nat.mod_lt n (by decide)⟩, List.mem_singleton.1 hc⟩, fun r => ?_⟩
      rw [List.singleton_append, List.map_cons, digitsFrom, hd, Option.some_bind]
      congr 1; omega
    · next h0 =>
      obtain ⟨pre, hpre, -, hdig, hval⟩ := toDigitsCore_eq fuel (n / 10) _ (by omega)
      refine ⟨pre ++ [Nat.digitChar (n % 10)], by rw [hpre, List.append_assoc]; rfl,
        by simp, fun c hc => ?_, fun r => ?_⟩
      · rcases List.mem_append.1 hc with hc | hc
        · exact hdig c hc
        · exact ⟨⟨n % 10, Nat.mod_lt n (by decide)⟩, List.mem_singleton.1 hc⟩
      · rw [List.append_assoc, hval, List.singleton_append, List.map_cons, digitsFrom, hd,
          Option.some_bind]
        congr 1; omega

theorem dropWhile_eq_self {p : CodeUnit → Bool} : ∀ {s : JsString}, (∀ c ∈ s, p c = false) →
    s.dropWhile p = s
  | [], _ => rfl
  | c :: _, h => by rw [List.dropWhile_cons, if_neg (by simp [h c (List.mem_cons_self _ _)])]

theorem trim_eq_self {s : JsString} (h : ∀ c ∈ s, isStrWhiteSpace c = false) : trim s = s := by
  rw [trim, dropWhile_eq_self h, dropWhile_eq_self (fun c hc => h c (List.mem_reverse.1 hc)),
    List.reverse_reverse]

/-- `trim` drops whitespace from the front, then from the back. -/
theorem trim_eq_rdropWhile (s : JsString) :
    trim s = (s.dropWhile isStrWhiteSpace).rdropWhile isStrWhiteSpace := rfl

theorem dropWhile_of_prefix {p : CodeUnit → Bool} {u t : JsString} (h : u <+: t)
    (ht : t.dropWhile p = t) : u.dropWhile p = u := by
  obtain ⟨v, rfl⟩ := h
  cases u with
  | nil => rfl
  | cons a u =>
    have ha := List.dropWhile_eq_self_iff.1 ht (by simp)
    exact List.dropWhile_eq_self_iff.2 fun _ => ha

/-- Trimming twice is trimming once. -/
theorem trim_trim (s : JsString) : trim (trim s) = trim s := by
  have hd : (trim s).dropWhile isStrWhiteSpace = trim s :=
    dropWhile_of_prefix (List.rdropWhile_prefix _ _) (List.dropWhile_idempotent _ _)
  rw [trim_eq_rdropWhile (trim s), hd, trim_eq_rdropWhile, List.rdropWhile_idempotent]

/-- Decimal digits start no `0b`, `0o` or `0x` prefix. -/
theorem nonDecimalBase_of_decimal : ∀ {s : JsString}, (∀ c ∈ s, 48 ≤ c.val ∧ c.val ≤ 57) →
    nonDecimalBase s = none
  | [], _ => rfl
  | [_], _ => rfl
  | z :: p :: ds, h => by
    have hp := h p (by simp)
    simp only [nonDecimalBase, Fin.ext_iff]
    split_ifs <;> first | rfl | omega

theorem isStrWhiteSpace_of_decimal {c : CodeUnit} (h : 48 ≤ c.val ∧ c.val ≤ 57) :
    isStrWhiteSpace c = false := by
  simp only [isStrWhiteSpace, List.contains, List.elem_eq_mem, List.mem_cons, List.not_mem_nil,
    or_false, Bool.or_eq_false_iff, decide_eq_false_iff_not, Bool.and_eq_false_iff, not_or]
  omega

theorem nonDecimalBase_cons_of_ne {z : CodeUnit} (h : z ≠ 48) : ∀ s : JsString, nonDecimalBase (z :: s) = none
  | [] => rfl
  | _ :: _ => by simp only [nonDecimalBase, if_pos h]

/-- **`BigInt` reads back what `toString` writes.** The decimal text of any integer, as
`validateWager` prints its bounds in its messages, is read by `BigInt` as that integer. -/
theorem stringToBigInt_toString (n : Int) : stringToBigInt (jsString (toString n)) = some n := by
  obtain ⟨pre, hpre, hne, hdig, hval⟩ :=
    toDigitsCore_eq (n.natAbs + 1) n.natAbs [] (Nat.lt_succ_self _)
  rw [List.append_nil] at hpre
  -- the digits of `|n|`, as code units
  have hdigits : jsString (Nat.repr n.natAbs) = pre.map fun c => (Fin.ofNat c.toNat : CodeUnit) := by
    show (Nat.toDigitsCore 10 (n.natAbs + 1) n.natAbs []).map _ = _
    rw [hpre]
  have hdec : ∀ c ∈ pre.map fun c => (Fin.ofNat c.toNat : CodeUnit), 48 ≤ c.val ∧ c.val ≤ 57 := by
    intro c hc
    obtain ⟨c', hc', rfl⟩ := List.mem_map.1 hc
    obtain ⟨d, rfl⟩ := hdig c' hc'
    exact (digitChar_unit d).2
  have hvalue : digitsValue 10 (pre.map fun c => (Fin.ofNat c.toNat : CodeUnit)) = some n.natAbs := by
    rw [digitsValue, if_neg (by simpa using hne)]
    simpa using hval []
  obtain ⟨c, ds, hcd⟩ := List.exists_cons_of_ne_nil (by simpa using hne :
    (pre.map fun c => (Fin.ofNat c.toNat : CodeUnit)) ≠ [])
  rw [hcd] at hdec hvalue
  have hc := hdec c (List.mem_cons_self _ _)
  have hws : ∀ u ∈ c :: ds, isStrWhiteSpace u = false := fun u hu => isStrWhiteSpace_of_decimal (hdec u hu)
  cases n with
  | ofNat m =>
    show stringToBigInt (jsString (Nat.repr m)) = _
    rw [show m = (Int.ofNat m).natAbs from rfl, hdigits, hcd, stringToBigInt, trim_eq_self hws,
      if_neg (List.cons_ne_nil _ _), nonDecimalBase_of_decimal hdec, signedInteger,
      if_neg (fun h => absurd (h ▸ hc) (by decide)), if_neg (fun h => absurd (h ▸ hc) (by decide)),
      hvalue]
    rfl
  | negSucc m =>
    show stringToBigInt (45 :: jsString (Nat.repr (m + 1))) = _
    rw [show m + 1 = (Int.negSucc m).natAbs from rfl, hdigits, hcd, stringToBigInt,
      trim_eq_self (fun u hu => (List.mem_cons.1 hu).elim (fun h => by subst h; rfl) (hws u)),
      if_neg (List.cons_ne_nil _ _),
      nonDecimalBase_cons_of_ne (by decide), signedInteger, if_neg (by decide), if_pos rfl, hvalue]
    rfl

/-! ## Wagers and IDs -/

/-- `WagerBounds`, in stroops. -/
structure WagerBounds where
  min : Int
  max : Int
  deriving DecidableEq, Repr

/-- `DEFAULT_WAGER_BOUNDS`: 1 XLM to 1000 XLM. -/
def defaultWagerBounds : WagerBounds := ⟨10000000, 10000000000⟩

/-- `validateWager(value, bounds)` for a string `value`. -/
def validateWager (value : JsString) (bounds : WagerBounds) : ValidationResult Int :=
  if value = [] then fail .required "Wager amount is required" (jsString "wager")
  else match stringToBigInt value with
    | none => fail .invalidType "Wager must be a valid integer" (jsString "wager")
    | some parsed =>
      if parsed ≤ 0 then fail .outOfRange "Wager must be greater than zero" (jsString "wager")
      else if parsed < bounds.min then
        fail .outOfRange ("Wager must be at least " ++ toString bounds.min ++ " stroops")
          (jsString "wager")
      else if parsed > bounds.max then
        fail .outOfRange ("Wager cannot exceed " ++ toString bounds.max ++ " stroops")
          (jsString "wager")
      else .ok parsed

/-- The checks `validateGameId` and `validateBadgeId` share, for the label and the field
each names. -/
def validateId (label field : String) (value : JsString) : ValidationResult Int :=
  if value = [] then fail .required (label ++ " is required") (jsString field)
  else match stringToBigInt value with
    | none => fail .invalidType (label ++ " must be a valid integer") (jsString field)
    | some parsed =>
      if parsed < 0 then fail .outOfRange (label ++ " must be non-negative") (jsString field)
      else .ok parsed

/-- `validateGameId(value)` for a string `value`. -/
def validateGameId (value : JsString) : ValidationResult Int := validateId "Game ID" "gameId" value

/-- `validateBadgeId(value)` for a string `value`. -/
def validateBadgeId (value : JsString) : ValidationResult Int := validateId "Badge ID" "badgeId" value

theorem validateWager_namesField (value : JsString) (bounds : WagerBounds) :
    NamesField (validateWager value bounds) (jsString "wager") := by
  unfold validateWager
  split_ifs
  · simp
  · split <;> [simp; (split_ifs <;> simp)]

theorem validateId_namesField (label field : String) (value : JsString) :
    NamesField (validateId label field value) (jsString field) := by
  unfold validateId
  split_ifs
  · simp
  · split <;> [simp; (split_ifs <;> simp)]

/-- **Wagers.** A wager is accepted exactly when it is non-empty, `BigInt` reads an
integer from it, and that integer is positive and within the bounds. -/
theorem validateWager_eq_ok {value : JsString} {bounds : WagerBounds} {n : Int} :
    validateWager value bounds = .ok n ↔
      value ≠ [] ∧ stringToBigInt value = some n ∧ 0 < n ∧ bounds.min ≤ n ∧ n ≤ bounds.max := by
  unfold validateWager
  by_cases hv : value = []
  · simp [hv, fail]
  · rw [if_neg hv]
    cases hp : stringToBigInt value with
    | none => simp [hv, fail]
    | some p => dsimp only; split_ifs <;> simp [fail, hv] <;> omega

/-- `toString` never writes the empty string. -/
theorem toString_ne_nil (n : Int) : jsString (toString n) ≠ [] := fun h => by
  have := stringToBigInt_toString n
  rw [h, stringToBigInt, if_pos (show trim [] = [] from rfl)] at this
  cases this
  exact absurd h (by decide)

/-- The default bounds accept their own minimum, 1 XLM. -/
example : validateWager (jsString "10000000") defaultWagerBounds = .ok 10000000 := by rfl

/-- **IDs.** An ID is accepted exactly when it is non-empty and `BigInt` reads a
non-negative integer from it. -/
theorem validateId_eq_ok {label field : String} {value : JsString} {n : Int} :
    validateId label field value = .ok n ↔
      value ≠ [] ∧ stringToBigInt value = some n ∧ 0 ≤ n := by
  unfold validateId
  by_cases hv : value = []
  · simp [hv, fail]
  · rw [if_neg hv]
    cases hp : stringToBigInt value with
    | none => simp [hv, fail]
    | some p => dsimp only; split_ifs <;> simp [fail, hv] <;> omega

/-- **Read-back.** Every integer, written as `String` writes it, is read back as itself:
by `BigInt`, by `validateWager` exactly when it is positive and within the bounds, and by
`validateGameId` and `validateBadgeId` exactly when it is not negative. -/
theorem validators_read_back_toString (n : Int) (bounds : WagerBounds) :
    stringToBigInt (jsString (toString n)) = some n ∧
    (∀ m, validateWager (jsString (toString n)) bounds = .ok m ↔
      m = n ∧ 0 < n ∧ bounds.min ≤ n ∧ n ≤ bounds.max) ∧
    (∀ m, validateGameId (jsString (toString n)) = .ok m ↔ m = n ∧ 0 ≤ n) ∧
    (∀ m, validateBadgeId (jsString (toString n)) = .ok m ↔ m = n ∧ 0 ≤ n) := by
  have hp := stringToBigInt_toString n
  have hne := toString_ne_nil n
  refine ⟨hp, fun m => ?_, fun m => ?_, fun m => ?_⟩ <;>
    simp only [validateWager_eq_ok, validateGameId, validateBadgeId, validateId_eq_ok, hp, ne_eq,
      hne, not_false_eq_true, Option.some.injEq, true_and, @eq_comm _ n m]
  all_goals exact and_congr_right fun h => by rw [h]

/-- `BigInt` reads hexadecimal, but not a signed hexadecimal literal. -/
example : validateGameId (jsString "0x1F") = .ok 31 := by rfl
example : validateGameId (jsString "-0x1F") =
    fail .invalidType "Game ID must be a valid integer" (jsString "gameId") := by rfl

/-- A non-empty ID of whitespace only is `BigInt` `0n`, so it is accepted as `0`. -/
theorem validateId_blank (label field : String) {value : JsString} (hne : value ≠ [])
    (h : ∀ c ∈ value, isStrWhiteSpace c = true) : validateId label field value = .ok 0 :=
  validateId_eq_ok.2 ⟨hne, stringToBigInt_of_all h, Int.le_refl 0⟩

/-! ## Enumerations and addresses -/

/-- `validateEnum(value, allowedValues, fieldName)` for a string `value`. -/
def validateEnum (value : JsString) (allowedValues : List JsString) (fieldName : JsString) :
    ValidationResult JsString :=
  if value = [] then .error ⟨.required, fieldName ++ jsString " is required", some fieldName⟩
  else if value ∉ allowedValues then
    .error ⟨.invalidEnum,
      fieldName ++ jsString " must be one of: " ++ (jsString ", ").intercalate allowedValues,
      some fieldName⟩
  else .ok value

/-- A character of `[A-Z2-7]`, the base32 alphabet of strkeys. -/
def isBase32Unit (c : CodeUnit) : Bool :=
  (65 ≤ c.val && c.val ≤ 90) || (50 ≤ c.val && c.val ≤ 55)

/-- The checks `validateStellarAddress` and `validateContractAddress` share, for the
label, the field and the leading letter each names. -/
def validateAddress (label field : String) (lead : Char) (value : JsString) :
    ValidationResult JsString :=
  let trimmed := trim value
  if trimmed = [] then fail .required (label ++ " is required") (jsString field)
  else if trimmed.head? ≠ some (Fin.ofNat lead.toNat) then
    fail .invalidAddress (label ++ " must start with \x27" ++ lead.toString ++ "\x27")
      (jsString field)
  else if trimmed.length ≠ 56 then
    fail .invalidAddress (label ++ " must be exactly 56 characters") (jsString field)
  else if !trimmed.all isBase32Unit then
    fail .invalidAddress (label ++ " contains invalid characters") (jsString field)
  else .ok trimmed

/-- `validateStellarAddress(value)` for a string `value`. -/
def validateStellarAddress (value : JsString) : ValidationResult JsString :=
  validateAddress "Stellar address" "address" 'G' value

/-- `validateContractAddress(value)` for a string `value`. -/
def validateContractAddress (value : JsString) : ValidationResult JsString :=
  validateAddress "Contract address" "contractAddress" 'C' value

theorem validateEnum_namesField (value : JsString) (allowedValues : List JsString)
    (fieldName : JsString) : NamesField (validateEnum value allowedValues fieldName) fieldName := by
  unfold validateEnum
  split_ifs <;> intro e h <;> cases h <;> rfl

theorem validateAddress_namesField (label field : String) (lead : Char) (value : JsString) :
    NamesField (validateAddress label field lead value) (jsString field) := by
  unfold validateAddress
  dsimp only
  split_ifs <;> simp

/-- **Addresses.** An address is accepted exactly when, trimmed, it is the leading
letter and 55 more characters of `[A-Z2-7]`; what is returned is the trimmed text. -/
theorem validateAddress_eq_ok {label field : String} {lead : Char} {value t : JsString} :
    validateAddress label field lead value = .ok t ↔
      t = trim value ∧ t.head? = some (Fin.ofNat lead.toNat) ∧ t.length = 56 ∧
        t.all isBase32Unit = true := by
  unfold validateAddress
  dsimp only
  by_cases h0 : trim value = []
  · rw [if_pos h0]
    constructor
    · intro h; cases h
    · rintro ⟨rfl, h, -⟩; rw [h0] at h; cases h
  rw [if_neg h0]
  split_ifs with h1 h2 h3
  · exact ⟨(fun h => nomatch h), fun ⟨ht, hh, _⟩ => absurd (ht ▸ hh) h1⟩
  · exact ⟨(fun h => nomatch h), fun ⟨ht, _, hl, _⟩ => absurd (ht ▸ hl) h2⟩
  · exact ⟨(fun h => nomatch h), fun ⟨ht, _, _, ha⟩ => by rw [← ht, ha] at h3; cases h3⟩
  · constructor
    · rintro ⟨⟩
      exact ⟨rfl, not_not.1 h1, not_not.1 h2, by simpa using h3⟩
    · rintro ⟨rfl, -, -, -⟩; rfl

/-- A blank address is `REQUIRED`, unlike a blank ID. -/
theorem validateAddress_blank (label field : String) (lead : Char) {value : JsString}
    (h : ∀ c ∈ value, isStrWhiteSpace c = true) :
    validateAddress label field lead value =
      fail .required (label ++ " is required") (jsString field) := by
  rw [validateAddress, if_pos (trim_eq_nil_of_all h)]

/-- **Blank input.** A non-empty string of whitespace only is `0n` to `BigInt`: the ID
validators accept it as `0`, and the wager validator rejects it as out of range, not as
missing. The address validators, which trim before they test, reject it as `REQUIRED`. -/
theorem blank_input_verdicts {value : JsString} (hne : value ≠ [])
    (h : ∀ c ∈ value, isStrWhiteSpace c = true) (bounds : WagerBounds) :
    validateGameId value = .ok 0 ∧ validateBadgeId value = .ok 0 ∧
    validateWager value bounds = fail .outOfRange "Wager must be greater than zero" (jsString "wager") ∧
    validateStellarAddress value = fail .required "Stellar address is required" (jsString "address") ∧
    validateContractAddress value =
      fail .required "Contract address is required" (jsString "contractAddress") :=
  ⟨validateId_blank _ _ hne h, validateId_blank _ _ hne h,
    by rw [validateWager, if_neg hne, stringToBigInt_of_all h]; rfl,
    validateAddress_blank _ _ _ h, validateAddress_blank _ _ _ h⟩

theorem isStrWhiteSpace_of_mem_spaces {c : CodeUnit} (h : c ∈ ([32, 32, 32] : JsString)) :
    isStrWhiteSpace c = true := by
  simp only [List.mem_cons, List.not_mem_nil, or_false, or_self] at h
  subst h; rfl

/-- Three spaces: game ID `0`, and a `REQUIRED` address. -/
theorem blank_game_id_is_zero :
    ([32, 32, 32] : JsString) ≠ [] ∧ (∀ c ∈ ([32, 32, 32] : JsString), isStrWhiteSpace c = true) ∧
    (validateGameId [32, 32, 32] = .ok 0 ∧ validateBadgeId [32, 32, 32] = .ok 0 ∧
      validateWager [32, 32, 32] defaultWagerBounds =
        fail .outOfRange "Wager must be greater than zero" (jsString "wager") ∧
      validateStellarAddress [32, 32, 32] =
        fail .required "Stellar address is required" (jsString "address") ∧
      validateContractAddress [32, 32, 32] =
        fail .required "Contract address is required" (jsString "contractAddress")) :=
  ⟨List.cons_ne_nil _ _, fun _ => isStrWhiteSpace_of_mem_spaces,
    blank_input_verdicts (List.cons_ne_nil _ _) (fun _ => isStrWhiteSpace_of_mem_spaces)
      defaultWagerBounds⟩

/-! ## Regular expressions -/

/-- A `RegExp` as `test` uses it. `matchAt s i` is where a match of the pattern that starts
at index `i` of `s` ends, if there is one; the flags and `lastIndex` are what `test` reads
and writes besides. -/
structure RegExp where
  matchAt : JsString → Nat → Option Nat
  global : Bool
  sticky : Bool
  /-- The `u` or `v` flag. -/
  unicode : Bool
  lastIndex : Nat

def isLeadSurrogate (c : CodeUnit) : Bool := 0xD800 ≤ c.val && c.val ≤ 0xDBFF

def isTrailSurrogate (c : CodeUnit) : Bool := 0xDC00 ≤ c.val && c.val ≤ 0xDFFF

/-- `AdvanceStringIndex(s, index, unicode)`: one code unit on, or one code point with the
`u` flag. -/
def advanceStringIndex (s : JsString) (index : Nat) (unicode : Bool) : Nat :=
  if !unicode || s.length ≤ index + 1 then index + 1
  else match s[index]?, s[index + 1]? with
    | some a, some b => if isLeadSurrogate a && isTrailSurrogate b then index + 2 else index + 1
    | _, _ => index + 1

namespace RegExp

/-- Whether `test` reads and writes `lastIndex`: the `g` or the `y` flag. -/
def stateful (r : RegExp) : Bool := r.global || r.sticky

/-- The loop of `RegExpBuiltinExec` from index `i`: the end of the first match, trying each
index in turn, or only `i` when sticky. Each turn moves on, so `s.length + 1` turns try
every index. -/
def search (r : RegExp) (s : JsString) : Nat → Nat → Option Nat
  | 0, _ => none
  | fuel + 1, i =>
    if s.length < i then none
    else match r.matchAt s i with
      | some e => some e
      | none => if r.sticky then none else r.search s fuel (advanceStringIndex s i r.unicode)

/-- `RegExp.prototype.test(s)`: whether `RegExpBuiltinExec` finds a match, and the `RegExp`
after it. With the `g` or `y` flag the search starts at `lastIndex`, which then moves to
the end of the match, or back to `0` when there is none; without them it starts at `0`
and `lastIndex` is left alone. -/
def test (r : RegExp) (s : JsString) : Bool × RegExp :=
  match r.search s (s.length + 1) (if r.stateful then r.lastIndex else 0) with
  | some e => (true, if r.stateful then { r with lastIndex := e } else r)
  | none => (false, if r.stateful then { r with lastIndex := 0 } else r)

/-- Without `g` and `y`, `test` is a function of the string: it starts at `0` and leaves
the `RegExp` as it was. -/
theorem test_of_stateful_eq_false {r : RegExp} (h : r.stateful = false) (s : JsString) :
    r.test s = ((r.search s (s.length + 1) 0).isSome, r) := by
  cases hs : r.search s (s.length + 1) 0 <;> simp [test, h, hs]

end RegExp

/-! ## Free-form strings -/

/-- `StringConstraints`. The `RegExp` of `pattern` is an object the caller keeps: `test`
moves its `lastIndex` for every later call when it has the `g` or `y` flag. -/
structure StringConstraints where
  minLength : Option Int
  maxLength : Option Int
  pattern : Option RegExp
  patternDescription : Option JsString

/-- Constraints whose pattern, if any, has neither the `g` nor the `y` flag. -/
def StringConstraints.stateless (constraints : StringConstraints) : Bool :=
  constraints.pattern.all fun r => !r.stateful

/-- `patternDescription || "the required format"`. -/
def StringConstraints.description (constraints : StringConstraints) : JsString :=
  match constraints.patternDescription with
  | some d => if d = [] then jsString "the required format" else d
  | none => jsString "the required format"

/-- `validateString(value, fieldName, constraints)` for a string `value`, and the
constraints after it, whose pattern `test` may have moved. A bound named in a message is
the one whose test failed, so `getD` never supplies it. -/
def validateString (value fieldName : JsString) (constraints : StringConstraints) :
    ValidationResult JsString × StringConstraints :=
  let trimmed := trim value
  let failWith (code : ValidationErrorCode) (text : JsString) : ValidationResult JsString :=
    .error ⟨code, fieldName ++ text, some fieldName⟩
  if trimmed = [] ∧ constraints.minLength ≠ some 0 then
    (failWith .required (jsString " cannot be empty"), constraints)
  else if constraints.minLength.any fun m => (trimmed.length : Int) < m then
    (failWith .tooShort
      (jsString (" must be at least " ++ toString (constraints.minLength.getD 0) ++ " characters")),
      constraints)
  else if constraints.maxLength.any fun m => m < (trimmed.length : Int) then
    (failWith .tooLong
      (jsString (" cannot exceed " ++ toString (constraints.maxLength.getD 0) ++ " characters")),
      constraints)
  else match constraints.pattern with
    | none => (.ok trimmed, constraints)
    | some r =>
      let t := r.test trimmed
      (if t.1 then .ok trimmed else failWith .invalidFormat (jsString " must match " ++ constraints.description),
        { constraints with pattern := some t.2 })

theorem validateString_namesField (value fieldName : JsString) (constraints : StringConstraints) :
    NamesField (validateString value fieldName constraints).1 fieldName := by
  unfold validateString
  dsimp only
  split_ifs
  any_goals intro e h; cases h; rfl
  split
  · intro e h; cases h
  · dsimp only
    split_ifs
    · intro e h; cases h
    · intro e h; cases h; rfl

/-- With constraints whose pattern has neither `g` nor `y`, `validateString` leaves them as
they were. -/
theorem validateString_stateless {constraints : StringConstraints}
    (h : constraints.stateless = true) (value fieldName : JsString) :
    (validateString value fieldName constraints).2 = constraints := by
  unfold validateString
  dsimp only
  split_ifs
  any_goals rfl
  split
  · rfl
  · next r hr =>
    simp only [StringConstraints.stateless, hr, Option.all_some, Bool.not_eq_true',
      Bool.not_eq_eq_eq_not, Bool.not_true] at h
    rw [RegExp.test_of_stateful_eq_false h]
    cases constraints; cases hr; rfl

/-! ## Validating again -/

/-- `validateString` reads its value only through `trim`. -/
theorem validateString_trim (value fieldName : JsString) (constraints : StringConstraints) :
    validateString (trim value) fieldName constraints = validateString value fieldName constraints := by
  unfold validateString; rw [trim_trim]

/-- A check that fails with an error passes on only what comes after it. -/
theorem ok_of_ite {β γ : Type} {c : Prop} [Decidable c] {e : ValidationError} {x : γ}
    {r : ValidationResult β × γ} {t : β} (h : (if c then (.error e, x) else r).1 = .ok t) :
    r.1 = .ok t := by
  by_cases hc : c
  · rw [if_pos hc] at h; cases h
  · rwa [if_neg hc] at h

/-- What `validateString` accepts is the trimmed value. -/
theorem validateString_eq_ok_trim {value fieldName t : JsString} {constraints : StringConstraints}
    (h : (validateString value fieldName constraints).1 = .ok t) : t = trim value := by
  have h' := ok_of_ite (ok_of_ite (ok_of_ite h))
  split at h'
  · cases h'; rfl
  · dsimp only at h'
    split_ifs at h'
    cases h'; rfl

theorem validateAddress_again {label field : String} {lead : Char} {value t : JsString}
    (h : validateAddress label field lead value = .ok t) : validateAddress label field lead t = .ok t := by
  obtain ⟨rfl, hh, hl, ha⟩ := validateAddress_eq_ok.1 h
  exact validateAddress_eq_ok.2 ⟨(trim_trim value).symm, hh, hl, ha⟩

/-- **Idempotence.** The validators that trim accept what they return, and return it
unchanged: validating an accepted address again gives the same result, and so does
validating an accepted free-form string again with the same constraints, when their
pattern has neither the `g` nor the `y` flag. -/
theorem validators_accept_own_output (value fieldName : JsString) (constraints : StringConstraints) :
    (∀ t, validateStellarAddress value = .ok t → validateStellarAddress t = .ok t) ∧
    (∀ t, validateContractAddress value = .ok t → validateContractAddress t = .ok t) ∧
    (constraints.stateless = true → ∀ t, (validateString value fieldName constraints).1 = .ok t →
      (validateString t fieldName constraints).1 = .ok t) :=
  ⟨fun _ => validateAddress_again, fun _ => validateAddress_again, fun _ t h => by
    rw [validateString_eq_ok_trim h, validateString_trim, ← validateString_eq_ok_trim h, h]⟩

/-- A username typed with a trailing blank, under `/^[a-z]+$/`: accepted as `abc`, and
`abc` again. -/
theorem validators_accept_own_output_username :
    let c : StringConstraints := ⟨some 3, some 20, some ⟨fun s i =>
      if i = 0 ∧ s ≠ [] ∧ s.all (fun u => 97 ≤ u.val && u.val ≤ 122) then some s.length else none,
      false, false, false, 0⟩, none⟩
    c.stateless = true ∧ (validateString (jsString "abc ") (jsString "username") c).1 = .ok (jsString "abc") ∧
      (validateString (jsString "abc") (jsString "username") c).1 = .ok (jsString "abc") := by
  intro c
  exact ⟨rfl, by decide, (validators_accept_own_output (jsString "abc ") (jsString "username") c).2.2 rfl _
    (by decide)⟩

/-- With the `g` flag, the same constraints accept `abc` once and then reject it: the
first `test` leaves `lastIndex` at `3`, where the second search starts and finds nothing. -/
example :
    let c : StringConstraints := ⟨none, none, some ⟨fun s i =>
      if i = 0 ∧ s = jsString "abc" then some 3 else none, true, false, false, 0⟩, none⟩
    (validateString (jsString "abc") (jsString "code") c).1 = .ok (jsString "abc") ∧
      (validateString (jsString "abc") (jsString "code")
        (validateString (jsString "abc") (jsString "code") c).2).1 =
        .error ⟨.invalidFormat, jsString "code must match the required format", some (jsString "code")⟩ := by
  decide

end StellarCade.Forms
