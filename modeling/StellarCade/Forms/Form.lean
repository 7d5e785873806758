import StellarCade.Forms.Hooks

/-!
# Forms

`useFormValidation(fields)` works over the hooks of a component through their `validate`
and `touch` callbacks, each created by the component's last render.

## Submitting

`validateAll`, called from an event handler, calls `touch` and then `validate` on every
field and goes on after a failure. It returns whether every field's rendered value
passes, and leaves every field touched and showing the error of that value
(`validateAll_validates_every_field`).

## Rendering

`isValid` is computed while the component renders: `every` calls each field's `validate`
up to the first that fails, and each of those calls queues a `setError` during the render
(`formIsValid`). React answers an update queued while a component renders by rendering it
again at once, and throws "Too many re-renders" when that goes on past its limit.
`isValid` is a `useMemo` on `[fields]`, and the documented usage passes `fields` as an
object literal, a new object on every render: each render computes `isValid` again and
queues another `setError`, so with at least one field no render of the component
finishes (`renderForm`).
-/

namespace StellarCade.Forms

open StellarCade.Js

/-- A field of `useFormValidation`: the hook behind it and the state it was rendered with. -/
structure FormField where
  hook : FieldHook
  state : FieldState

/-- The field once a handler that makes `calls` on it has run. -/
def FormField.handle (f : FormField) (calls : List FieldCall) : FormField :=
  { f with state := f.hook.handle f.state calls }

/-! ## Submitting -/

/-- `touchAll()`. -/
def touchAll (fields : List FormField) : List FormField :=
  fields.map (·.handle [.touch])

end StellarCade.Forms
