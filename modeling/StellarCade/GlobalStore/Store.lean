import StellarCade.Js.Map

/-!
# `GlobalStateStore`

The store holds three slices: `auth` and `flags`, which it writes to `localStorage` after
every accepted dispatch, and `wallet`, which it keeps in memory only. A new store reads
`auth` and `flags` back from its storage key. Nothing else ties two stores together:
each has its own state, and they share only what `localStorage` holds.

The model is a `World` of `localStorage`, the clock (`Date.now()`), every store
constructed so far in construction order (the hook `useGlobalState` constructs one for
each component that calls it without a store), the log of notifications, each with the
index of the store that sent it, and whether `localStorage.setItem` throws. `dispatch` validates, reduces, persists and then
notifies; a rejected action throws before any of that. `persist` swallows an error of
`localStorage.setItem` (a full quota, disabled storage): the store's state still changes
and its subscribers are still notified, but the storage keeps what it held.

`localStorage` is kept as the values `restore` reads back: `persist` writes
`JSON.stringify` of strings, booleans and finite numbers, which `JSON.parse` returns
unchanged.
-/

namespace StellarCade.GlobalStore

open StellarCade.Js

/-! ## State and actions -/

/-- Modelled from the spec: `types/wallet-session` is not among the sources; the store
reads only `address`, a string. -/
structure WalletSessionMeta where
  address : JsString
  deriving DecidableEq, Repr

/-- `AuthState`. An absent and a `null` `userId` or `token` are both `none`. -/
structure AuthState where
  isAuthenticated : Bool
  userId : Option JsString
  token : Option JsString
  updatedAt : Option Int
  deriving DecidableEq, Repr

/-- `WalletState`. -/
structure WalletState where
  connected : Bool
  meta : Option WalletSessionMeta
  lastSyncedAt : Option Int
  deriving DecidableEq, Repr

/-- `GlobalState`; `flags` holds the own properties of the flags object. -/
structure GlobalState where
  auth : AuthState
  wallet : WalletState
  flags : JsMap JsString Bool
  deriving DecidableEq

/-- `GlobalAction`, and an action of any other type, which only the reducer's `default`
branch sees. `WALLET_SET`'s `meta` is optional because `dispatch` checks that it is there. -/
inductive GlobalAction where
  | authSet (userId token : JsString)
  | authClear
  | walletSet (meta : Option WalletSessionMeta)
  | walletClear
  | flagsSet (key : JsString) (value : Bool)
  | flagsClear (key : JsString)
  | resetAll
  | other (name : JsString)
  deriving DecidableEq, Repr

/-- `ValidationError(message)`, of code `validation_error`. -/
structure ValidationError where
  message : String
  deriving DecidableEq, Repr

/-- `initialState`. -/
def initialState : GlobalState :=
  ⟨⟨false, none, none, none⟩, ⟨false, none, none⟩, .empty⟩

/-- `reducer(state, action)`, with `Date.now()` reading `now`. -/
def reducer (now : Int) (state : GlobalState) : GlobalAction → GlobalState
  | .authSet userId token => { state with auth := ⟨true, some userId, some token, some now⟩ }
  | .authClear => { state with auth := ⟨false, none, none, none⟩ }
  | .walletSet meta => { state with wallet := ⟨true, meta, some now⟩ }
  | .walletClear => { state with wallet := ⟨false, none, none⟩ }
  | .flagsSet key value => { state with flags := state.flags.set key value }
  | .flagsClear key => { state with flags := state.flags.delete key }
  | .resetAll => initialState
  | .other _ => state

/-- The checks `dispatch` makes before it reduces: `!userId || !token` and
`!meta || !meta.address` throw. -/
def validate : GlobalAction → Except ValidationError Unit
  | .authSet userId token =>
    if userId.isEmpty || token.isEmpty then .error ⟨"userId and token required"⟩ else .ok ()
  | .walletSet none => .error ⟨"wallet meta.address required"⟩
  | .walletSet (some meta) =>
    if meta.address.isEmpty then .error ⟨"wallet meta.address required"⟩ else .ok ()
  | _ => .ok ()

/-! ## Storage -/

/-- What `localStorage` holds under a key, as `restore` reads it. -/
inductive Stored where
  /-- A JSON value, with the `auth` and `flags` fields `restore` reads when present, and
  the `storedAt` that `persist` adds. -/
  | json (auth : Option AuthState) (flags : Option (JsMap JsString Bool)) (storedAt : Option Int)
  /-- Text that is empty, is not JSON, or is `null`: `restore` gets nothing from it. -/
  | unreadable
  deriving DecidableEq

/-- `DEFAULT_KEY`. -/
def defaultKey : JsString := jsString "stc_global_state_v1"

/-- `restore()`: the state read back from `storage` under `key`, if there is one. -/
def restore (storage : JsMap JsString Stored) (key : JsString) : Option GlobalState :=
  match storage.get key with
  | some (.json auth flags _) =>
    some { initialState with auth := auth.getD initialState.auth, flags := flags.getD initialState.flags }
  | _ => none

/-- The `setItem` of `persist()`: write `auth`, `flags` and the time under `key`. -/
def persist (storage : JsMap JsString Stored) (key : JsString) (state : GlobalState) (now : Int) :
    JsMap JsString Stored :=
  storage.set key (.json (some state.auth) (some state.flags) (some now))

/-! ## Stores -/

/-- A `GlobalStateStore` instance, subscribers aside. -/
structure GlobalStateStore where
  storageKey : JsString
  state : GlobalState
  deriving DecidableEq

namespace GlobalStateStore

/-- `new GlobalStateStore({ storageKey })`: `storageKey ?? DEFAULT_KEY`, then
`restore() ?? initialState`. -/
def new (storage : JsMap JsString Stored) (storageKey : Option JsString) : GlobalStateStore :=
  ⟨storageKey.getD defaultKey, (restore storage (storageKey.getD defaultKey)).getD initialState⟩

/-- `selectFlag(key)`: `this.state.flags[key]`, a property read on a plain object. -/
def selectFlag (s : GlobalStateStore) (key : JsString) : PropertyRead Bool :=
  readProperty s.state.flags key

end GlobalStateStore

/-- `localStorage`, the clock, the stores in construction order, the notifications sent,
each with the index of the store that sent it, and whether `localStorage.setItem` throws
(the quota is exceeded, or storage is disabled). -/
structure World where
  storage : JsMap JsString Stored
  now : Int
  stores : List GlobalStateStore
  log : List (Nat × GlobalState)
  writesFail : Bool

namespace World

/-- No store yet, and a `localStorage` that accepts writes. -/
def init (storage : JsMap JsString Stored) (now : Int) : World := ⟨storage, now, [], [], false⟩

/-- `persist()`: `setItem` inside a `try` whose `catch` ignores the error, so when writes
fail the storage keeps what it held. -/
def tryPersist (w : World) (key : JsString) (state : GlobalState) : JsMap JsString Stored :=
  if w.writesFail then w.storage else persist w.storage key state w.now

/-- Construct a store; it is the last of `stores`. -/
def construct (w : World) (storageKey : Option JsString) : World :=
  { w with stores := w.stores ++ [GlobalStateStore.new w.storage storageKey] }

/-- `dispatch(action)` on the `i`-th store: what it returns or throws, and the world after.
`none` if there is no such store. -/
def dispatch (w : World) (i : Nat) (a : GlobalAction) :
    Option (Except ValidationError GlobalState × World) :=
  match w.stores.get? i with
  | none => none
  | some s =>
    match validate a with
    | .error e => some (.error e, w)
    | .ok () =>
      let next := reducer w.now s.state a
      some (.ok next,
        { w with
          stores := w.stores.set i { s with state := next }
          storage := w.tryPersist s.storageKey next
          log := w.log ++ [(i, next)] })

end World

/-- One thing that happens: a store is constructed, a store is dispatched to, the clock
moves, or `localStorage` starts or stops refusing writes. -/
inductive Event where
  | construct (storageKey : Option JsString)
  | dispatch (i : Nat) (a : GlobalAction)
  | tick (t : Int)
  | writesFail (fail : Bool)
  deriving DecidableEq, Repr

namespace World

/-- Apply one event. A dispatch to a store that does not exist changes nothing. -/
def step (w : World) : Event → World
  | .construct k => w.construct k
  | .dispatch i a => ((w.dispatch i a).map Prod.snd).getD w
  | .tick t => { w with now := t }
  | .writesFail b => { w with writesFail := b }

/-- Apply events in order. -/
def run (w : World) (es : List Event) : World := es.foldl step w

@[simp] theorem run_nil (w : World) : w.run [] = w := rfl

@[simp] theorem run_cons (w : World) (e : Event) (es : List Event) :
    w.run (e :: es) = (w.step e).run es := rfl

/-- A dispatch is rejected with the world unchanged, or accepted: the store's state is
reduced, persisted under its key, and sent to the subscribers. -/
theorem dispatch_cases {w w' : World} {i : Nat} {a : GlobalAction}
    {r : Except ValidationError GlobalState} (h : w.dispatch i a = some (r, w')) :
    ∃ s, w.stores.get? i = some s ∧
      ((∃ e, validate a = .error e ∧ r = .error e ∧ w' = w) ∨
        (validate a = .ok () ∧ r = .ok (reducer w.now s.state a) ∧
          w' = { w with
            stores := w.stores.set i { s with state := reducer w.now s.state a }
            storage := w.tryPersist s.storageKey (reducer w.now s.state a)
            log := w.log ++ [(i, reducer w.now s.state a)] })) := by
  unfold dispatch at h
  split at h
  · cases h
  · next s hs =>
    refine ⟨s, hs, ?_⟩
    split at h <;> simp only [Option.some.injEq, Prod.mk.injEq] at h <;> obtain ⟨rfl, rfl⟩ := h
    · exact .inl ⟨_, ‹_›, rfl, rfl⟩
    · exact .inr ⟨‹_›, rfl, rfl⟩

/-- A dispatch to a store that does not exist changes nothing. -/
theorem step_dispatch_none {w : World} {i : Nat} {a : GlobalAction} (hs : w.stores.get? i = none) :
    w.step (.dispatch i a) = w := by
  simp only [step, dispatch, hs, Option.map_none', Option.getD_none]

/-- A rejected dispatch changes nothing. -/
theorem step_dispatch_rejected {w : World} {i : Nat} {s : GlobalStateStore} {a : GlobalAction}
    {e : ValidationError} (hs : w.stores.get? i = some s) (hv : validate a = .error e) :
    w.step (.dispatch i a) = w := by
  simp only [step, dispatch, hs, hv, Option.map_some', Option.getD_some]

/-- An accepted dispatch reduces the store's state, persists it under its key (unless
writes fail), and notifies. -/
theorem step_dispatch_accepted {w : World} {i : Nat} {s : GlobalStateStore} {a : GlobalAction}
    (hs : w.stores.get? i = some s) (hv : validate a = .ok ()) :
    w.step (.dispatch i a) = { w with
      stores := w.stores.set i { s with state := reducer w.now s.state a }
      storage := w.tryPersist s.storageKey (reducer w.now s.state a)
      log := w.log ++ [(i, reducer w.now s.state a)] } := by
  simp only [step, dispatch, hs, hv, Option.map_some', Option.getD_some]

end World

/-- The worlds reached from a fresh `localStorage`: what it holds was written by `persist`. -/
inductive Reachable : World → Prop
  | init (now : Int) : Reachable (World.init .empty now)
  | step {w : World} (e : Event) : Reachable w → Reachable (w.step e)

theorem Reachable.run {w : World} (hw : Reachable w) : ∀ es : List Event, Reachable (w.run es)
  | [] => hw
  | e :: es => (hw.step e).run es

end StellarCade.GlobalStore
