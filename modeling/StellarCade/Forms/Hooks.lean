import StellarCade.Forms.Validators

/-!
# Validation hooks

Each hook of `hooks/v1/validation` keeps three pieces of React state, `value`, `error` and
`isDirty`, and offers the callbacks `setValue`, `validate`, `touch` and `reset`; `isValid`
is recomputed from the state on every render. The hooks differ only in the validator
`validate` runs: a hook is modelled once, `FieldHook.of check`, and each hook is that
applied to its validator. `useEnumValidation` keeps its own `validate`, whose extra branch
for the empty value gives the error `validateEnum` gives there anyway
(`validateEnumField_eq`). `useStringValidation` is modelled for constraints whose pattern
has neither the `g` nor the `y` flag, where `validateString` is a function of the value
(`validateString_stateless`).

## Callbacks and handlers

A callback is created by a render and reads the state of that render; it does not see the
updates queued before it in the same handler. So a call queues updates computed from the
rendered state (`FieldHook.updates`), and a handler, a list of calls, has React apply all
of them in order before the next render (`FieldHook.handle`). A handler that sets a value
and then validates commits the new value with the error of the old one
(`handle_setValue_validate`).

## What a hook shows

Over every run of handlers that make their `validate` and `touch` calls before their
`setValue` and `reset` calls (every handler that makes one call does), the error a hook
shows is its validator's error for the current value (`hook_shows_validator`). So
`isValid` is false only for a value the validator rejects. The converse fails on the empty
value: with no error shown it is valid, whatever the validator says of it
(`isValid_empty_of`).
-/

namespace StellarCade.Forms

open StellarCade.Js

/-! ## One field -/

/-- The state of a validation hook. -/
structure FieldState where
  value : JsString
  error : Option ValidationError
  isDirty : Bool
  deriving DecidableEq, Repr

/-- The first render: `useState(initialValue)`, no error, not dirty. -/
def FieldState.init (initialValue : JsString) : FieldState := ⟨initialValue, none, false⟩

/-- A state update a callback queues: `setValue`, `setError` or `setIsDirty`. -/
inductive FieldUpdate where
  | setValue (v : JsString)
  | setError (e : Option ValidationError)
  | setIsDirty (b : Bool)
  deriving DecidableEq, Repr

/-- The state once React applies an update. -/
def FieldState.apply (s : FieldState) : FieldUpdate → FieldState
  | .setValue v => { s with value := v }
  | .setError e => { s with error := e }
  | .setIsDirty b => { s with isDirty := b }

/-- `validate()` of a hook whose validator is `check`, created by a render whose value is
`value`: whether it passed, and the `setError` it queues. -/
def validateBy {β : Type} (check : JsString → ValidationResult β) (value : JsString) :
    Bool × FieldUpdate :=
  match check value with
  | .ok _ => (true, .setError none)
  | .error e => (false, .setError (some e))

/-- `isValid`: no error, and the value empty or accepted. -/
def isValidBy {β : Type} (check : JsString → ValidationResult β) (s : FieldState) : Bool :=
  s.error.isNone && (s.value.isEmpty || (check s.value).isOk)

/-- A hook: its initial value, what its `validate` computes from the rendered value, and
its `isValid`. -/
structure FieldHook where
  initialValue : JsString
  validate : JsString → Bool × FieldUpdate
  isValid : FieldState → Bool

/-- The hook for the validator `check`. -/
def FieldHook.of {β : Type} (check : JsString → ValidationResult β) (initialValue : JsString) :
    FieldHook :=
  ⟨initialValue, validateBy check, isValidBy check⟩

/-- `useWagerValidation(initialValue, bounds)`. -/
def useWagerValidation (initialValue : JsString) (bounds : WagerBounds) : FieldHook :=
  .of (validateWager · bounds) initialValue

/-- `useGameIdValidation(initialValue)`. -/
def useGameIdValidation (initialValue : JsString) : FieldHook := .of validateGameId initialValue

/-- `useAddressValidation(initialValue)`. -/
def useAddressValidation (initialValue : JsString) : FieldHook :=
  .of validateStellarAddress initialValue

/-- `useStringValidation(initialValue, fieldName, constraints)`, for constraints whose
pattern has neither the `g` nor the `y` flag. With one of them every `validate` and every
render's `isValid` moves the pattern's `lastIndex`, so the hook's verdict depends on how
often it has been asked. -/
def useStringValidation (initialValue fieldName : JsString)
    (constraints : {c : StringConstraints // c.stateless = true}) : FieldHook :=
  .of (fun v => (validateString v fieldName constraints.1).1) initialValue

/-- `validate()` of `useEnumValidation`: the empty value fails with a `REQUIRED` error of
its own before `validateEnum` is called. -/
def validateEnumField (allowedValues : List JsString) (fieldName : JsString) (value : JsString) :
    Bool × FieldUpdate :=
  if value = [] then
    (false, .setError (some ⟨.required, fieldName ++ jsString " is required", some fieldName⟩))
  else validateBy (validateEnum · allowedValues fieldName) value

/-- `useEnumValidation(initialValue, allowedValues, fieldName)`. -/
def useEnumValidation (initialValue : JsString) (allowedValues : List JsString)
    (fieldName : JsString) : FieldHook :=
  ⟨initialValue, validateEnumField allowedValues fieldName,
    isValidBy (validateEnum · allowedValues fieldName)⟩

/-- A hook validates with `check`. -/
structure FieldHook.ValidatesWith {β : Type} (h : FieldHook) (check : JsString → ValidationResult β) :
    Prop where
  validate_eq : h.validate = validateBy check
  isValid_eq : h.isValid = isValidBy check

theorem FieldHook.validatesWith_of {β : Type} (check : JsString → ValidationResult β)
    (initialValue : JsString) : (FieldHook.of check initialValue).ValidatesWith check :=
  ⟨rfl, rfl⟩

/-- The enum hook's own branch for the empty value changes nothing. -/
theorem validateEnumField_eq (allowedValues : List JsString) (fieldName : JsString) :
    validateEnumField allowedValues fieldName = validateBy (validateEnum · allowedValues fieldName) := by
  funext value
  unfold validateEnumField
  split_ifs with h
  · simp [validateBy, validateEnum, h]
  · rfl

theorem useEnumValidation_validatesWith (initialValue : JsString) (allowedValues : List JsString)
    (fieldName : JsString) :
    (useEnumValidation initialValue allowedValues fieldName).ValidatesWith
      (validateEnum · allowedValues fieldName) :=
  ⟨validateEnumField_eq allowedValues fieldName, rfl⟩

/-! ## Handlers -/

/-- A call of one of a hook's callbacks. -/
inductive FieldCall where
  | setValue (newValue : JsString)
  | validate
  | touch
  | reset (newValue : Option JsString)
  deriving DecidableEq, Repr

/-- `setValue` and `reset`, the callbacks that write the value. -/
def FieldCall.isWrite : FieldCall → Bool
  | .setValue _ | .reset _ => true
  | .validate | .touch => false

namespace FieldHook

/-- The updates a callback created by the render `s` queues. `handleSetValue` sets the
value, dirty, and no error until the next validation; `validate` sets the error of the
value of `s`; `touch` is dirty and then its render's `validate`; `reset(newValue =
initialValue)` is clean. -/
def updates (h : FieldHook) (s : FieldState) : FieldCall → List FieldUpdate
  | .setValue v => [.setValue v, .setIsDirty true, .setError none]
  | .validate => [(h.validate s.value).2]
  | .touch => [.setIsDirty true, (h.validate s.value).2]
  | .reset v => [.setValue (v.getD h.initialValue), .setError none, .setIsDirty false]

/-- An event handler that makes `calls` on the hook rendered as `s`: every call queues its
updates, and React applies them all, in order, before the next render. -/
def handle (h : FieldHook) (s : FieldState) (calls : List FieldCall) : FieldState :=
  (calls.flatMap (h.updates s)).foldl FieldState.apply s

/-- A run of handlers, each on the render the one before it left. -/
def run (h : FieldHook) : FieldState → List (List FieldCall) → FieldState
  | s, [] => s
  | s, calls :: rest => h.run (h.handle s calls) rest

end FieldHook

/-- A handler makes all its `validate` and `touch` calls before its first `setValue` or
`reset`. -/
def validatesFirst (calls : List FieldCall) : Bool :=
  (calls.dropWhile (!·.isWrite)).all (·.isWrite)

/-- The error `s` shows, if any, is `check`'s error for its value. -/
def Shows {β : Type} (check : JsString → ValidationResult β) (s : FieldState) : Prop :=
  ∀ e, s.error = some e → check s.value = .error e

section Validator

variable {β : Type} {check : JsString → ValidationResult β} {h : FieldHook}

theorem validateBy_fst (value : JsString) : (validateBy check value).1 = (check value).isOk := by
  unfold validateBy; split <;> next h => simp [h, Except.isOk, Except.toBool]

@[simp] theorem apply_validateBy_value (t : FieldState) (value : JsString) :
    (t.apply (validateBy check value).2).value = t.value := by
  unfold validateBy; split <;> rfl

theorem shows_apply_validateBy {t : FieldState} {value : JsString} (hv : t.value = value) :
    Shows check (t.apply (validateBy check value).2) := by
  subst hv
  unfold validateBy
  split
  · intro e he; cases he
  · next e' hc => intro e he; cases he; exact hc

theorem shows_init (value : JsString) : Shows check (FieldState.init value) :=
  fun _ he => by cases he

/-! ### One call, then one handler -/

/-- `validate` and `touch` keep the value and set the error of the rendered value. -/
theorem updates_of_validation (hc : h.ValidatesWith check) (s : FieldState) {t : FieldState}
    {c : FieldCall} (hw : (!c.isWrite) = true) (hv : t.value = s.value) :
    ((h.updates s c).foldl FieldState.apply t).value = s.value ∧
      Shows check ((h.updates s c).foldl FieldState.apply t) := by
  cases c with
  | setValue _ | reset _ => cases hw
  | validate =>
    simp only [FieldHook.updates, hc.validate_eq, List.foldl_cons, List.foldl_nil]
    exact ⟨by rw [apply_validateBy_value, hv], shows_apply_validateBy hv⟩
  | touch =>
    simp only [FieldHook.updates, hc.validate_eq, List.foldl_cons, List.foldl_nil]
    exact ⟨by rw [apply_validateBy_value, ← hv]; rfl, shows_apply_validateBy hv⟩

/-- `setValue` and `reset` leave no error. -/
theorem error_updates_of_write (s t : FieldState) {c : FieldCall} (hw : c.isWrite = true) :
    ((h.updates s c).foldl FieldState.apply t).error = none := by
  cases c with
  | setValue _ | reset _ => rfl
  | validate | touch => cases hw

theorem foldl_updates_validations (hc : h.ValidatesWith check) (s : FieldState) :
    ∀ {calls : List FieldCall}, calls.all (!·.isWrite) = true → ∀ {t : FieldState},
      t.value = s.value → Shows check t →
      ((calls.flatMap (h.updates s)).foldl FieldState.apply t).value = s.value ∧
        Shows check ((calls.flatMap (h.updates s)).foldl FieldState.apply t)
  | [], _, _, hv, hs => ⟨hv, hs⟩
  | c :: cs, hall, t, hv, _ => by
    rw [List.all_cons, Bool.and_eq_true] at hall
    rw [List.flatMap_cons, List.foldl_append]
    have hc' := updates_of_validation hc s hall.1 hv
    exact foldl_updates_validations hc s hall.2 hc'.1 hc'.2

theorem shows_foldl_writes (s : FieldState) :
    ∀ {calls : List FieldCall}, calls.all (·.isWrite) = true → ∀ {t : FieldState},
      Shows check t → Shows check ((calls.flatMap (h.updates s)).foldl FieldState.apply t)
  | [], _, _, hs => hs
  | c :: cs, hall, t, _ => by
    rw [List.all_cons, Bool.and_eq_true] at hall
    rw [List.flatMap_cons, List.foldl_append]
    refine shows_foldl_writes s hall.2 fun e he => ?_
    rw [error_updates_of_write s t hall.1] at he
    cases he

/-- A handler that validates first leaves the hook showing its validator's verdict: its
validations set the error of the rendered value, and a later write clears it. -/
theorem shows_handle (hc : h.ValidatesWith check) {s : FieldState} (hs : Shows check s)
    {calls : List FieldCall} (hv : validatesFirst calls = true) : Shows check (h.handle s calls) := by
  rw [FieldHook.handle, ← List.takeWhile_append_dropWhile (fun c : FieldCall => !c.isWrite) calls,
    List.flatMap_append, List.foldl_append]
  exact shows_foldl_writes s hv (foldl_updates_validations hc s List.all_takeWhile rfl hs).2

theorem shows_run (hc : h.ValidatesWith check) :
    ∀ {s : FieldState} (handlers : List (List FieldCall)), Shows check s →
      (∀ calls ∈ handlers, validatesFirst calls = true) → Shows check (h.run s handlers)
  | _, [], hs, _ => hs
  | _, calls :: rest, hs, hv =>
    shows_run hc rest (shows_handle hc hs (hv calls (List.mem_cons_self _ _)))
      fun c hm => hv c (List.mem_cons_of_mem _ hm)

/-- **Callbacks read the last render.** A handler that sets a value and then validates
commits the new value with the error of the value before it. -/
theorem handle_setValue_validate (hc : h.ValidatesWith check) (s : FieldState) (v : JsString) :
    h.handle s [.setValue v, .validate] =
      (⟨v, none, true⟩ : FieldState).apply (validateBy check s.value).2 := by
  simp only [FieldHook.handle, FieldHook.updates, hc.validate_eq, List.flatMap_cons,
    List.flatMap_nil, List.cons_append, List.nil_append, List.append_nil, List.foldl_cons,
    List.foldl_nil]
  rfl

/-! ### Every run -/

/-- **What a hook shows.** Over any run of handlers, each of which makes its `validate`
and `touch` calls before its `setValue` and `reset` calls, of a hook that validates with
`check`: the error it shows is `check`'s error for its current value; `isValid` is false
only for a value `check` rejects; and `validate()` returns whether `check` accepts the
value. -/
theorem hook_shows_validator (hc : h.ValidatesWith check) (handlers : List (List FieldCall))
    (hv : ∀ calls ∈ handlers, validatesFirst calls = true) :
    (∀ e, (h.run (.init h.initialValue) handlers).error = some e →
      check (h.run (.init h.initialValue) handlers).value = .error e) ∧
    (h.isValid (h.run (.init h.initialValue) handlers) = false →
      ∃ e, check (h.run (.init h.initialValue) handlers).value = .error e) ∧
    (h.validate (h.run (.init h.initialValue) handlers).value).1 =
      (check (h.run (.init h.initialValue) handlers).value).isOk := by
  have hsh := shows_run hc handlers (shows_init h.initialValue) hv
  generalize h.run (.init h.initialValue) handlers = s at hsh ⊢
  refine ⟨hsh, fun hv => ?_, by rw [hc.validate_eq, validateBy_fst]⟩
  rw [hc.isValid_eq] at hv
  cases he : s.error with
  | some e => exact ⟨e, hsh e he⟩
  | none =>
    cases hk : check s.value with
    | error e => exact ⟨e, rfl⟩
    | ok x => simp [isValidBy, he, hk, Except.isOk, Except.toBool] at hv

theorem isValidBy_eq_true {s : FieldState} :
    isValidBy check s = true ↔ s.error = none ∧ (s.value = [] ∨ (check s.value).isOk = true) := by
  simp [isValidBy, Option.isNone_iff_eq_none, List.isEmpty_iff]

/-- A hook on the empty value with no error is valid, whatever `validate()` says of it. -/
theorem isValid_empty_of (hc : h.ValidatesWith check) {s : FieldState}
    (he : s.error = none) (hv : s.value = []) :
    h.isValid s = true ∧ (h.validate s.value).1 = (check []).isOk := by
  rw [hc.isValid_eq, hc.validate_eq, isValidBy_eq_true, validateBy_fst, hv]
  exact ⟨⟨he, .inl rfl⟩, rfl⟩

end Validator

/-- The wager, game ID, address and enum hooks started empty are valid on their first
render, while `validate()` fails there: each validator rejects the empty value. -/
example :
    [(useWagerValidation [] defaultWagerBounds).isValid (.init []),
      (useGameIdValidation []).isValid (.init []), (useAddressValidation []).isValid (.init []),
      (useEnumValidation [] [jsString "heads", jsString "tails"] (jsString "side")).isValid (.init [])] =
      [true, true, true, true] ∧
    [((useWagerValidation [] defaultWagerBounds).validate []).1,
      ((useGameIdValidation []).validate []).1, ((useAddressValidation []).validate []).1,
      ((useEnumValidation [] [jsString "heads", jsString "tails"] (jsString "side")).validate []).1] =
      [false, false, false, false] := by
  decide

/-- A wager typed, and the field then left. -/
theorem wager_hook_after_touch :
    let h := useWagerValidation [] defaultWagerBounds
    let handlers := [[FieldCall.setValue (jsString "5")], [FieldCall.touch]]
    h.ValidatesWith (validateWager · defaultWagerBounds) ∧
    (∀ calls ∈ handlers, validatesFirst calls = true) ∧
    ((∀ e, (h.run (.init h.initialValue) handlers).error = some e →
        validateWager (h.run (.init h.initialValue) handlers).value defaultWagerBounds = .error e) ∧
      (h.isValid (h.run (.init h.initialValue) handlers) = false →
        ∃ e, validateWager (h.run (.init h.initialValue) handlers).value defaultWagerBounds = .error e) ∧
      (h.validate (h.run (.init h.initialValue) handlers).value).1 =
        (validateWager (h.run (.init h.initialValue) handlers).value defaultWagerBounds).isOk) :=
  have hc := FieldHook.validatesWith_of (validateWager · defaultWagerBounds) []
  ⟨hc, by decide, hook_shows_validator hc _ (by decide)⟩

end StellarCade.Forms
