import StellarCade.GlobalStore.Store

/-!
# Flags over a store's life

A store's life is a session: dispatches to the newest store, restarts that construct a
new store over the same key, and the clock moving. Across a session the own properties of
the flags object follow the finite map `flagModel` describes: `FLAGS_SET` writes a key,
`FLAGS_CLEAR` deletes it, `RESET_ALL` empties the map, and nothing else touches it. A
restart reads back exactly what the last accepted dispatch persisted.

`selectFlag(key)` reads `this.state.flags[key]`, a property read on a plain object, so a
key that is no own property but names a member of `Object.prototype` (`constructor`,
`toString`, `__proto__`, ...) yields that member, not `undefined`
(`selectFlag_session`).
-/

namespace StellarCade.GlobalStore

open StellarCade.Js

/-- One step of a session: a dispatch to the newest store, a restart, or the clock
moving. -/
inductive SessionEvent where
  | dispatch (a : GlobalAction)
  | restart
  | tick (t : Int)
  deriving DecidableEq, Repr

/-- The world event a session event is: the newest store is the last constructed, and a
restart constructs a store over the session's key. -/
def SessionEvent.toEvent (w : World) (key : Option JsString) : SessionEvent → Event
  | .dispatch a => .dispatch (w.stores.length - 1) a
  | .restart => .construct key
  | .tick t => .tick t

/-- The action a session event dispatches, if any. -/
def SessionEvent.action? : SessionEvent → Option GlobalAction
  | .dispatch a => some a
  | _ => none

/-- Run a session over `key`. -/
def World.runSession (w : World) (key : Option JsString) : List SessionEvent → World
  | [] => w
  | e :: es => (w.step (e.toEvent w key)).runSession key es

/-- The flags as a finite map from keys to booleans: `FLAGS_SET` inserts or overwrites,
`FLAGS_CLEAR` deletes, `RESET_ALL` empties, every other action leaves it alone. -/
def flagModel (m : JsMap JsString Bool) : GlobalAction → JsMap JsString Bool
  | .flagsSet k v => m.set k v
  | .flagsClear k => m.delete k
  | .resetAll => .empty
  | _ => m

/-- The flags a store constructed over `key` starts with. -/
def restoredFlags (storage : JsMap JsString Stored) (key : JsString) : JsMap JsString Bool :=
  ((restore storage key).getD initialState).flags

theorem reducer_flags (now : Int) (s : GlobalState) (a : GlobalAction) :
    (reducer now s a).flags = flagModel s.flags a := by
  cases a <;> rfl

/-- The actions `validate` rejects leave the flags alone. -/
theorem flagModel_of_rejected {a : GlobalAction} {e : ValidationError} (h : validate a = .error e)
    (m : JsMap JsString Bool) : flagModel m a = m := by
  cases a <;> first | rfl | simp [validate] at h

theorem restoredFlags_persist (storage : JsMap JsString Stored) (key : JsString) (s : GlobalState)
    (now : Int) : restoredFlags (persist storage key s now) key = s.flags := by
  simp [restoredFlags, restore, persist]

theorem getLast?_set_length_sub_one {β : Type} {l : List β} {x : β} (h : l.getLast? = some x)
    (y : β) : (l.set (l.length - 1) y).getLast? = some y := by
  have hl : l.length - 1 < l.length := by
    cases l with
    | nil => cases h
    | cons a l => simp
  rw [List.getLast?_eq_getElem?, List.length_set, List.getElem?_set_self hl]

/-- In a session over `key` the newest store holds the flags `m`, and a restart would
read back `m`: writes to `localStorage` succeed. -/
def World.FlagsAre (w : World) (key : JsString) (m : JsMap JsString Bool) : Prop :=
  (∃ s, w.stores.getLast? = some s ∧ s.storageKey = key ∧ s.state.flags = m) ∧
    restoredFlags w.storage key = m ∧ w.writesFail = false

/-- One session step moves the flags as `flagModel` says. -/
theorem World.FlagsAre.step {w : World} {key : Option JsString} {m : JsMap JsString Bool}
    (h : w.FlagsAre (key.getD defaultKey) m) (e : SessionEvent) :
    (w.step (e.toEvent w key)).FlagsAre (key.getD defaultKey) (e.action?.elim m (flagModel m)) := by
  obtain ⟨⟨s, hs, hk, hf⟩, hr, hwf⟩ := h
  cases e with
  | restart => exact ⟨⟨_, List.getLast?_append_of_ne_nil _ (List.cons_ne_nil _ _), rfl, hr⟩, hr, hwf⟩
  | tick t => exact ⟨⟨s, hs, hk, hf⟩, hr, hwf⟩
  | dispatch a =>
    have hs' : w.stores.get? (w.stores.length - 1) = some s := by
      rw [List.get?_eq_getElem?, ← List.getLast?_eq_getElem?, hs]
    simp only [SessionEvent.toEvent, SessionEvent.action?, Option.elim]
    cases hv : validate a with
    | error e =>
      rw [World.step_dispatch_rejected hs' hv, flagModel_of_rejected hv]
      exact ⟨⟨s, hs, hk, hf⟩, hr, hwf⟩
    | ok u =>
      rw [World.step_dispatch_accepted hs' hv]
      refine ⟨⟨_, getLast?_set_length_sub_one hs _, hk, ?_⟩, ?_, hwf⟩
      · rw [reducer_flags, hf]
      · rw [World.tryPersist, if_neg (by simp [hwf]), hk, restoredFlags_persist, reducer_flags, hf]

theorem World.FlagsAre.runSession {w : World} {key : Option JsString} {m : JsMap JsString Bool}
    (h : w.FlagsAre (key.getD defaultKey) m) :
    ∀ es : List SessionEvent, (w.runSession key es).FlagsAre (key.getD defaultKey)
      ((es.filterMap SessionEvent.action?).foldl flagModel m)
  | [] => h
  | e :: es => by
    have := (h.step e).runSession es
    cases e <;> simpa [SessionEvent.action?] using this

/-- **`selectFlag` over a session.** Over any session from any storage, with restarts and
rejected dispatches, `selectFlag(k)` on the newest store is the own flag `k` of the map
`flagModel` builds from the dispatched actions and the flags read back at the start; when
`k` is not in that map, it is the `Object.prototype` member named `k` if there is one,
and `undefined` only otherwise. -/
theorem selectFlag_session (storage : JsMap JsString Stored) (now : Int) (key : Option JsString)
    (es : List SessionEvent) (k : JsString) :
    (((World.init storage now).construct key).runSession key es).stores.getLast?.map
        (·.selectFlag k) =
      some (match ((es.filterMap SessionEvent.action?).foldl flagModel
          (restoredFlags storage (key.getD defaultKey))).get k with
        | some b => .own b
        | none => if k ∈ objectPrototypeMembers then .inherited k else .undefined) := by
  have h0 : ((World.init storage now).construct key).FlagsAre (key.getD defaultKey)
      (restoredFlags storage (key.getD defaultKey)) := ⟨⟨_, rfl, rfl, rfl⟩, rfl, rfl⟩
  obtain ⟨⟨s, hs, -, hf⟩, -, -⟩ := h0.runSession es
  rw [hs, Option.map_some', GlobalStateStore.selectFlag, hf, readProperty]
  cases (List.foldl flagModel (restoredFlags storage (key.getD defaultKey))
    (List.filterMap SessionEvent.action? es)).get k <;> rfl

/-- A new store on a fresh storage has no flags, yet `selectFlag("constructor")` is
`Object.prototype.constructor`. -/
example : ((World.init .empty 0).construct none).stores.getLast?.map
    (·.selectFlag (jsString "constructor")) = some (.inherited (jsString "constructor")) := by
  decide

end StellarCade.GlobalStore
