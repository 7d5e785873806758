import StellarCade.GlobalStore.Store

/-!
# Consistent slices

In every state a store reaches, `isAuthenticated` is `true` exactly when `userId` and
`token` are non-empty strings, and `connected` exactly when a wallet `meta` with a
non-empty `address` is there. Every way a slice is written keeps this: `initialState`,
the reducer once `validate` has accepted the action, and `restore` from what `persist`
wrote. A rejected dispatch throws before it changes anything.
-/

namespace StellarCade.GlobalStore

open StellarCade.Js

/-- `isAuthenticated` exactly when `userId` and `token` are non-empty. -/
def AuthState.Consistent (a : AuthState) : Prop :=
  a.isAuthenticated = true ↔ (∃ u, a.userId = some u ∧ u ≠ []) ∧ ∃ t, a.token = some t ∧ t ≠ []

/-- `connected` exactly when a `meta` with a non-empty `address` is there. -/
def WalletState.Consistent (w : WalletState) : Prop :=
  w.connected = true ↔ ∃ m, w.meta = some m ∧ m.address ≠ []

/-- Both slices are consistent. -/
structure GlobalState.Consistent (s : GlobalState) : Prop where
  auth : s.auth.Consistent
  wallet : s.wallet.Consistent

/-- Every `auth` stored by `persist` is consistent. -/
def StorageConsistent (storage : JsMap JsString Stored) : Prop :=
  ∀ k a flags t, storage.get k = some (.json (some a) flags t) → a.Consistent

theorem validate_authSet {u t : JsString} : validate (.authSet u t) = .ok () ↔ u ≠ [] ∧ t ≠ [] := by
  by_cases hu : u = [] <;> by_cases ht : t = [] <;> simp [validate, hu, ht]

theorem validate_walletSet {m : Option WalletSessionMeta} :
    validate (.walletSet m) = .ok () ↔ ∃ meta, m = some meta ∧ meta.address ≠ [] := by
  rcases m with _ | ⟨⟨address⟩⟩
  · simp [validate]
  · by_cases h : address = [] <;> simp [validate, h]

theorem initialState_consistent : initialState.Consistent :=
  ⟨by simp [AuthState.Consistent, initialState], by simp [WalletState.Consistent, initialState]⟩

/-- An accepted action keeps both slices consistent. -/
theorem reducer_consistent {a : GlobalAction} (ha : validate a = .ok ()) (now : Int)
    {s : GlobalState} (hs : s.Consistent) : (reducer now s a).Consistent := by
  cases a with
  | authSet u t =>
    obtain ⟨hu, ht⟩ := validate_authSet.1 ha
    exact ⟨by simp [AuthState.Consistent, reducer, hu, ht], hs.wallet⟩
  | walletSet m =>
    obtain ⟨meta, rfl, hm⟩ := validate_walletSet.1 ha
    exact ⟨hs.auth, by simp [WalletState.Consistent, reducer, hm]⟩
  | authClear => exact ⟨by simp [AuthState.Consistent, reducer], hs.wallet⟩
  | walletClear => exact ⟨hs.auth, by simp [WalletState.Consistent, reducer]⟩
  | flagsSet k v => exact ⟨hs.auth, hs.wallet⟩
  | flagsClear k => exact ⟨hs.auth, hs.wallet⟩
  | resetAll => exact initialState_consistent
  | other n => exact hs

theorem restore_consistent {storage : JsMap JsString Stored} (h : StorageConsistent storage)
    (k : JsString) : ∀ s, restore storage k = some s → s.Consistent := by
  unfold restore
  split
  · next auth flags t hk =>
    rintro s ⟨⟩
    refine ⟨?_, initialState_consistent.wallet⟩
    cases auth with
    | none => exact initialState_consistent.auth
    | some a => exact h k a flags t hk
  · rintro s ⟨⟩

theorem new_consistent {storage : JsMap JsString Stored} (h : StorageConsistent storage)
    (k : Option JsString) : (GlobalStateStore.new storage k).state.Consistent := by
  unfold GlobalStateStore.new
  cases hr : restore storage (k.getD defaultKey) with
  | none => exact initialState_consistent
  | some s => exact restore_consistent h _ s hr

theorem persist_consistent {storage : JsMap JsString Stored} (h : StorageConsistent storage)
    (k : JsString) {s : GlobalState} (hs : s.Consistent) (now : Int) :
    StorageConsistent (persist storage k s now) := by
  intro k' a flags t hk'
  rw [persist, JsMap.get_set] at hk'
  split at hk'
  · cases hk'; exact hs.auth
  · exact h k' a flags t hk'

theorem tryPersist_consistent {w : World} (h : StorageConsistent w.storage) (k : JsString)
    {s : GlobalState} (hs : s.Consistent) : StorageConsistent (w.tryPersist k s) := by
  unfold World.tryPersist
  split
  · exact h
  · exact persist_consistent h k hs w.now

/-! ## Over runs -/

/-- Every store's state and everything in storage is consistent. -/
structure World.Inv (w : World) : Prop where
  stores : ∀ s ∈ w.stores, s.state.Consistent
  storage : StorageConsistent w.storage

/-- A rejected dispatch returns its error and changes nothing: no state, no storage, no
notification. -/
theorem World.dispatch_rejected {w w' : World} {i : Nat} {a : GlobalAction} {e : ValidationError}
    (h : w.dispatch i a = some (.error e, w')) : w' = w := by
  obtain ⟨s, -, ⟨e', -, -, rfl⟩ | ⟨-, hr, -⟩⟩ := World.dispatch_cases h
  · rfl
  · cases hr

theorem World.inv_step {w : World} (hw : w.Inv) : ∀ e : Event, (w.step e).Inv
  | .construct k => ⟨fun s hs => (List.mem_append.1 hs).elim (hw.stores s)
      (fun hs => (List.mem_singleton.1 hs) ▸ new_consistent hw.storage k), hw.storage⟩
  | .tick t => ⟨hw.stores, hw.storage⟩
  | .writesFail b => ⟨hw.stores, hw.storage⟩
  | .dispatch i a => by
    simp only [step]
    cases h : w.dispatch i a with
    | none => exact hw
    | some p =>
      obtain ⟨s, hs, ⟨e, -, -, h'⟩ | ⟨ha, -, h'⟩⟩ := World.dispatch_cases (show w.dispatch i a = some (p.1, p.2) from h) <;>
        simp only [Option.map_some', Option.getD_some, h']
      · exact hw
      · have hn := reducer_consistent ha w.now (hw.stores s (List.get?_mem hs))
        refine ⟨fun s' hs' => ?_, tryPersist_consistent hw.storage _ hn⟩
        rcases List.mem_or_eq_of_mem_set hs' with hs' | rfl
        · exact hw.stores s' hs'
        · exact hn

theorem Reachable.inv {w : World} (hw : Reachable w) : w.Inv := by
  induction hw with
  | init now => exact ⟨fun s hs => by simp [World.init] at hs, fun k a f t h => by simp [World.init] at h⟩
  | step e _ ih => exact World.inv_step ih e

/-- **Consistent slices.** In every world reached from a fresh `localStorage`, through any
constructions (restarts included) and dispatches, every store is authenticated exactly
when it holds a non-empty `userId` and `token`, and connected exactly when it holds a
wallet `meta` with a non-empty `address`. A dispatch that throws `ValidationError` leaves
every state, the storage and the notifications as they were. -/
theorem states_consistent {w : World} (hw : Reachable w) :
    (∀ s ∈ w.stores,
      (s.state.auth.isAuthenticated = true ↔
        (∃ u, s.state.auth.userId = some u ∧ u ≠ []) ∧ ∃ t, s.state.auth.token = some t ∧ t ≠ []) ∧
      (s.state.wallet.connected = true ↔ ∃ m, s.state.wallet.meta = some m ∧ m.address ≠ [])) ∧
    ∀ i a e w', w.dispatch i a = some (.error e, w') → w' = w :=
  ⟨fun s hs => let h := hw.inv.stores s hs; ⟨h.auth, h.wallet⟩,
    fun _ _ _ _ h => World.dispatch_rejected h⟩

/-- A store logged in and connected, then restarted over the same key. -/
theorem states_consistent_restart :
    let w := (World.init .empty 0).run [.construct none,
      .dispatch 0 (.authSet (jsString "u1") (jsString "t1")),
      .dispatch 0 (.walletSet (some ⟨jsString "GABC"⟩)), .construct none]
    Reachable w ∧
    ((∀ s ∈ w.stores,
      (s.state.auth.isAuthenticated = true ↔
        (∃ u, s.state.auth.userId = some u ∧ u ≠ []) ∧ ∃ t, s.state.auth.token = some t ∧ t ≠ []) ∧
      (s.state.wallet.connected = true ↔ ∃ m, s.state.wallet.meta = some m ∧ m.address ≠ [])) ∧
    ∀ i a e w', w.dispatch i a = some (.error e, w') → w' = w) :=
  have hw := (Reachable.init 0).run [.construct none,
      .dispatch 0 (.authSet (jsString "u1") (jsString "t1")),
      .dispatch 0 (.walletSet (some ⟨jsString "GABC"⟩)), .construct none]
  ⟨hw, states_consistent hw⟩

end StellarCade.GlobalStore
