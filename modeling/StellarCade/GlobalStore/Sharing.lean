import StellarCade.GlobalStore.Store

/-!
# Stores that share a storage key

Two stores over one key share nothing but `localStorage`. Each applies only the actions
dispatched to it (`ownRun`), and each accepted dispatch persists the dispatching store's
whole `auth` and `flags`, overwriting the slot, unless `setItem` throws, which `persist`
ignores. So a store constructed later reads back what the last successful write put there
(`lastWrite`). When that write was made by a store constructed before some action of
another store, the action is lost: what later stores restore is what they would restore
had it never been dispatched (`restore_last_writer`).
-/

namespace StellarCade.GlobalStore

open StellarCade.Js

/-- The storage keys of the stores, in construction order. -/
def World.keys (w : World) : List JsString := w.stores.map (·.storageKey)

/-- The store an event writes to `localStorage` under `key`: an accepted dispatch to a
store over `key`, while writes succeed. -/
def Event.writer (w : World) (key : JsString) : Event → Option Nat
  | .dispatch i a =>
    match w.keys[i]?, validate a with
    | some k, .ok () => if k = key ∧ w.writesFail = false then some i else none
    | _, _ => none
  | _ => none

/-- The write an event makes under `key`: the store that makes it, and the state it writes. -/
def Event.written (w : World) (key : JsString) (e : Event) : Option (Nat × GlobalState) :=
  (e.writer w key).bind fun i => ((w.step e).stores.get? i).map fun s => (i, s.state)

/-- The last write under `key` in a run, if any. -/
def World.lastWrite (w : World) (key : JsString) : List Event → Option (Nat × GlobalState)
  | [] => none
  | e :: es => ((w.step e).lastWrite key es).or (e.written w key)

theorem Event.writer_dispatch_none {w : World} {key : JsString} {j : Nat} {a : GlobalAction}
    (hj : w.stores.get? j = none) : (Event.dispatch j a).writer w key = none := by
  rw [List.get?_eq_getElem?] at hj
  simp only [Event.writer, World.keys, List.getElem?_map, hj, Option.map_none']

theorem Event.writer_dispatch_rejected {w : World} {key : JsString} {j : Nat} {a : GlobalAction}
    {s : GlobalStateStore} {e : ValidationError} (hj : w.stores.get? j = some s)
    (hv : validate a = .error e) : (Event.dispatch j a).writer w key = none := by
  rw [List.get?_eq_getElem?] at hj
  simp only [Event.writer, World.keys, List.getElem?_map, hj, hv, Option.map_some']

theorem Event.writer_dispatch_accepted {w : World} {key : JsString} {j : Nat} {a : GlobalAction}
    {s : GlobalStateStore} (hj : w.stores.get? j = some s) (hv : validate a = .ok ()) :
    (Event.dispatch j a).writer w key =
      if s.storageKey = key ∧ w.writesFail = false then some j else none := by
  rw [List.get?_eq_getElem?] at hj
  simp only [Event.writer, World.keys, List.getElem?_map, hj, hv, Option.map_some']

/-- Which store writes depends only on the stores' keys and on whether writes fail. -/
theorem Event.writer_congr {w w' : World} (hk : w.keys = w'.keys)
    (hf : w.writesFail = w'.writesFail) (key : JsString) (e : Event) :
    e.writer w key = e.writer w' key := by
  cases e <;> simp only [Event.writer, hk, hf]

/-- What a store over a key reads back after `persist` wrote `s` there: `auth` and
`flags`, and the initial `wallet`. -/
def GlobalState.durable (s : GlobalState) : GlobalState :=
  { initialState with auth := s.auth, flags := s.flags }

theorem restore_persist (storage : JsMap JsString Stored) (key : JsString) (s : GlobalState)
    (now : Int) : restore (persist storage key s now) key = some s.durable := by
  simp [restore, persist, GlobalState.durable]

theorem restore_persist_ne (storage : JsMap JsString Stored) {key key' : JsString} (h : key' ≠ key)
    (s : GlobalState) (now : Int) : restore (persist storage key' s now) key = restore storage key := by
  simp only [restore, persist, JsMap.get_set, if_neg (Ne.symm h)]

/-- Store `i`'s state after one event, as the store itself sees it: only an accepted
dispatch to it changes it, by the reducer at the current time. -/
def ownStep (i : Nat) (now : Int) (st : GlobalState) : Event → GlobalState
  | .dispatch j a =>
    match validate a with
    | .ok () => if j = i then reducer now st a else st
    | .error _ => st
  | _ => st

/-- The clock after an event. -/
def Event.clockAfter (now : Int) : Event → Int
  | .tick t => t
  | _ => now

/-- Store `i`'s own view of a run: its state changes only by the accepted dispatches made
to it. -/
def ownRun (i : Nat) : Int → GlobalState → List Event → GlobalState
  | _, st, [] => st
  | now, st, e :: es => ownRun i (e.clockAfter now) (ownStep i now st e) es

namespace World

theorem now_step (w : World) : ∀ e : Event, (w.step e).now = e.clockAfter w.now
  | .tick _ | .construct _ | .writesFail _ => rfl
  | .dispatch i a => by
    cases hs : w.stores.get? i with
    | none => rw [step_dispatch_none hs]; rfl
    | some s =>
      cases hv : validate a with
      | error e => rw [step_dispatch_rejected hs hv]; rfl
      | ok u => rw [step_dispatch_accepted hs hv]; rfl

/-- A dispatch keeps the stores' keys and whether writes fail. -/
theorem dispatch_keeps_shape (w : World) (i : Nat) (a : GlobalAction) :
    (w.step (.dispatch i a)).keys = w.keys ∧ (w.step (.dispatch i a)).writesFail = w.writesFail := by
  cases hs : w.stores.get? i with
  | none => rw [step_dispatch_none hs]; exact ⟨rfl, rfl⟩
  | some s =>
    cases hv : validate a with
    | error e => rw [step_dispatch_rejected hs hv]; exact ⟨rfl, rfl⟩
    | ok u =>
      rw [step_dispatch_accepted hs hv]
      refine ⟨List.ext_getElem? fun n => ?_, rfl⟩
      simp only [keys, List.map_set, List.getElem?_set']
      split_ifs with h
      · subst h
        rw [List.getElem?_map, ← List.get?_eq_getElem?, hs]
        rfl
      · rfl

/-- The stores' keys and whether writes fail, after an event, depend only on what they
were before. -/
theorem shape_step {w w' : World} (hk : w.keys = w'.keys) (hf : w.writesFail = w'.writesFail) :
    ∀ e : Event, (w.step e).keys = (w'.step e).keys ∧ (w.step e).writesFail = (w'.step e).writesFail
  | .construct k => by
    simp only [keys, step, construct, List.map_append] at hk ⊢
    exact ⟨by rw [hk]; rfl, hf⟩
  | .dispatch i a => by
    rw [(dispatch_keeps_shape w i a).1, (dispatch_keeps_shape w' i a).1,
      (dispatch_keeps_shape w i a).2, (dispatch_keeps_shape w' i a).2]
    exact ⟨hk, hf⟩
  | .tick _ => ⟨hk, hf⟩
  | .writesFail _ => ⟨hk, rfl⟩

/-- A store keeps its place and key through every event, and its state moves by
`ownStep`. -/
theorem get?_step {w : World} {i : Nat} {s : GlobalStateStore} (hs : w.stores.get? i = some s)
    (e : Event) : ∃ s', (w.step e).stores.get? i = some s' ∧ s'.storageKey = s.storageKey ∧
      s'.state = ownStep i w.now s.state e := by
  cases e with
  | tick t => exact ⟨s, hs, rfl, rfl⟩
  | writesFail b => exact ⟨s, hs, rfl, rfl⟩
  | construct k =>
    refine ⟨s, ?_, rfl, rfl⟩
    simp only [step, construct, List.get?_eq_getElem?] at hs ⊢
    rw [List.getElem?_append_left (List.getElem?_eq_some.1 hs).1, hs]
  | dispatch j a =>
    cases hj : w.stores.get? j with
    | none =>
      have hji : j ≠ i := fun h => by rw [h, hs] at hj; cases hj
      refine ⟨s, by rw [step_dispatch_none hj]; exact hs, rfl, ?_⟩
      cases hv : validate a <;> simp [ownStep, hv, hji]
    | some sj =>
      cases hv : validate a with
      | error e => exact ⟨s, by rw [step_dispatch_rejected hj hv]; exact hs, rfl, by simp [ownStep, hv]⟩
      | ok u =>
        rw [step_dispatch_accepted hj hv]
        by_cases hji : j = i
        · subst hji
          rw [hj] at hs; cases hs
          refine ⟨{ s with state := reducer w.now s.state a }, ?_, rfl, by simp [ownStep, hv]⟩
          rw [List.get?_eq_getElem?, List.getElem?_set_self (List.get?_eq_some.1 hj).1]
        · refine ⟨s, ?_, rfl, by simp [ownStep, hv, hji]⟩
          rw [List.get?_eq_getElem?, List.getElem?_set_ne hji, ← List.get?_eq_getElem?, hs]

/-- Each store's state after a run is its own run from its state before. -/
theorem get?_run {w : World} {i : Nat} {s : GlobalStateStore} (hs : w.stores.get? i = some s) :
    ∀ es : List Event, ∃ s', (w.run es).stores.get? i = some s' ∧ s'.storageKey = s.storageKey ∧
      s'.state = ownRun i w.now s.state es
  | [] => ⟨s, hs, rfl, rfl⟩
  | e :: es => by
    obtain ⟨s₁, h₁, hk₁, hst₁⟩ := get?_step hs e
    obtain ⟨s₂, h₂, hk₂, hst₂⟩ := get?_run h₁ es
    exact ⟨s₂, h₂, hk₂.trans hk₁, by rw [hst₂, hst₁, now_step]; rfl⟩

/-- A dispatch to another store leaves store `j` as it is. -/
theorem get?_step_dispatch_ne {w : World} {i j : Nat} {s : GlobalStateStore}
    (hs : w.stores.get? j = some s) (hij : i ≠ j) (a : GlobalAction) :
    (w.step (.dispatch i a)).stores.get? j = some s := by
  obtain ⟨⟨k', st'⟩, h', rfl, hst' : st' = _⟩ := get?_step hs (.dispatch i a)
  rw [h', hst']
  cases hv : validate a <;> simp [ownStep, hv, hij]

/-! ## The slot under a key -/

/-- An event that writes no slot under `key` leaves what a restart reads there alone. -/
theorem restore_step_of_writer_none {w : World} {key : JsString} :
    ∀ e : Event, e.writer w key = none → restore (w.step e).storage key = restore w.storage key
  | .construct _, _ | .tick _, _ | .writesFail _, _ => rfl
  | .dispatch j a, he => by
    cases hj : w.stores.get? j with
    | none => rw [step_dispatch_none hj]
    | some s =>
      cases hv : validate a with
      | error e => rw [step_dispatch_rejected hj hv]
      | ok u =>
        rw [step_dispatch_accepted hj hv]
        show restore (w.tryPersist _ _) key = _
        unfold tryPersist
        split
        · rfl
        · have hk : s.storageKey ≠ key := fun hk => by
            simp_all [Event.writer_dispatch_accepted hj hv]
          exact restore_persist_ne _ hk _ _

/-- The store an event writes to is there afterwards, over `key`, and a restart reads its
state back. -/
theorem restore_step_of_writer {w : World} {key : JsString} {i : Nat} :
    ∀ e : Event, e.writer w key = some i → ∃ s, (w.step e).stores.get? i = some s ∧
      s.storageKey = key ∧ restore (w.step e).storage key = some s.state.durable
  | .construct _, he | .tick _, he | .writesFail _, he => by cases he
  | .dispatch j a, he => by
    cases hj : w.stores.get? j with
    | none => simp [Event.writer_dispatch_none hj] at he
    | some s =>
      cases hv : validate a with
      | error e => simp [Event.writer_dispatch_rejected hj hv] at he
      | ok u =>
        obtain ⟨⟨hk, hf⟩, rfl⟩ : (s.storageKey = key ∧ w.writesFail = false) ∧ j = i := by
          simpa [Event.writer_dispatch_accepted hj hv] using he
        rw [step_dispatch_accepted hj hv, List.get?_eq_getElem?,
          List.getElem?_set_self (List.get?_eq_some.1 hj).1]
        refine ⟨_, rfl, hk, ?_⟩
        show restore (w.tryPersist _ _) key = _
        rw [tryPersist, if_neg (by simp [hf]), hk]
        exact restore_persist _ _ _ _

/-- What an event writes is the state of the writing store right after it. -/
theorem written_fst {w : World} {key : JsString} (e : Event) :
    (e.written w key).map Prod.fst = e.writer w key := by
  cases he : e.writer w key with
  | none => simp [Event.written, he]
  | some i =>
    obtain ⟨s, hs, -, -⟩ := restore_step_of_writer e he
    simp only [Event.written, he, Option.some_bind, hs, Option.map_some']

/-- A run with no write under `key` leaves what a restart reads there alone. -/
theorem restore_run_of_lastWrite_none {key : JsString} :
    ∀ {w : World} (es : List Event), w.lastWrite key es = none →
      restore (w.run es).storage key = restore w.storage key
  | _, [], _ => rfl
  | w, e :: es, hl => by
    obtain ⟨hl, he⟩ := Option.or_eq_none.1 hl
    have hw : e.writer w key = none := by rw [← written_fst e, he]; rfl
    rw [run_cons, restore_run_of_lastWrite_none es hl, restore_step_of_writer_none e hw]

/-- **Last write wins.** After any run, a restart over `key` reads back the durable part
of the state the run's last write under `key` wrote, or what was there before if none. -/
theorem restore_run (w : World) (key : JsString) :
    ∀ es : List Event, restore (w.run es).storage key =
      match w.lastWrite key es with
      | some p => some p.2.durable
      | none => restore w.storage key
  | [] => rfl
  | e :: es => by
    rw [run_cons, restore_run (w.step e) key es, lastWrite]
    cases hl : (w.step e).lastWrite key es with
    | some p => rfl
    | none =>
      cases he : e.writer w key with
      | none =>
        have hw : e.written w key = none := by simp [Event.written, he]
        rw [Option.none_or, hw]
        exact restore_step_of_writer_none e he
      | some i =>
        obtain ⟨s, hs, -, hr⟩ := restore_step_of_writer e he
        simp only [Event.written, he, Option.some_bind, hs, Option.map_some', Option.none_or, hr]

/-! ## Lost updates -/

/-- Two worlds that may differ in their storage, their notifications and the states of
their stores, except store `j`, which both hold alike. -/
structure AgreeOn (j : Nat) (w₁ w₂ : World) : Prop where
  keys_eq : w₁.keys = w₂.keys
  writesFail_eq : w₁.writesFail = w₂.writesFail
  now_eq : w₁.now = w₂.now
  store_eq : ∃ s, w₁.stores.get? j = some s ∧ w₂.stores.get? j = some s

theorem AgreeOn.step {j : Nat} {w₁ w₂ : World} (h : AgreeOn j w₁ w₂) (e : Event) :
    AgreeOn j (w₁.step e) (w₂.step e) := by
  obtain ⟨hk, hf⟩ := shape_step h.keys_eq h.writesFail_eq e
  obtain ⟨s, h₁, h₂⟩ := h.store_eq
  obtain ⟨⟨k₁, st₁⟩, hs₁, hk₁ : k₁ = _, hst₁ : st₁ = _⟩ := get?_step h₁ e
  obtain ⟨⟨k₂, st₂⟩, hs₂, hk₂ : k₂ = _, hst₂ : st₂ = _⟩ := get?_step h₂ e
  refine ⟨hk, hf, by rw [now_step, now_step, h.now_eq], _, hs₁, ?_⟩
  rw [hs₂, hk₁, hk₂, hst₁, hst₂, h.now_eq]

/-- In two worlds that agree on store `j`, an event that writes store `j`'s state under
`key` in one writes the same in the other. -/
theorem written_agreeOn {j : Nat} {key : JsString} {w₁ w₂ : World} (h : AgreeOn j w₁ w₂)
    {e : Event} {st : GlobalState} (hwr : e.written w₁ key = some (j, st)) :
    e.written w₂ key = some (j, st) := by
  simp only [Event.written, Option.bind_eq_some, Option.map_eq_some'] at hwr ⊢
  obtain ⟨i, hi, s, hs, hp⟩ := hwr
  obtain ⟨rfl, rfl⟩ := Prod.mk.inj hp
  obtain ⟨s', h₁, h₂⟩ := (h.step e).store_eq
  rw [hs] at h₁
  cases h₁
  exact ⟨i, by rw [← Event.writer_congr h.keys_eq h.writesFail_eq, hi], s, h₂, rfl⟩

/-- In two worlds that agree on store `j`, every run writes under `key` by the same stores,
and a last write by `j` writes the same state. -/
theorem lastWrite_agreeOn {j : Nat} {key : JsString} :
    ∀ (es : List Event) {w₁ w₂ : World}, AgreeOn j w₁ w₂ →
      (w₁.lastWrite key es).map Prod.fst = (w₂.lastWrite key es).map Prod.fst ∧
        ∀ st, w₁.lastWrite key es = some (j, st) → w₂.lastWrite key es = some (j, st)
  | [], _, _, _ => ⟨rfl, fun _ h => by cases h⟩
  | e :: es, w₁, w₂, h => by
    obtain ⟨ih₁, ih₂⟩ := @lastWrite_agreeOn j key es _ _ (h.step e)
    have hw : (e.written w₁ key).map Prod.fst = (e.written w₂ key).map Prod.fst := by
      rw [written_fst, written_fst, Event.writer_congr h.keys_eq h.writesFail_eq]
    refine ⟨by simp only [lastWrite, Option.map_or', ih₁, hw], fun st hst => ?_⟩
    simp only [lastWrite, Option.or_eq_some] at hst ⊢
    rcases hst with hst | ⟨hnone, hwr⟩
    · exact .inl (ih₂ st hst)
    · exact .inr ⟨by simpa [hnone] using ih₁.symm, written_agreeOn h hwr⟩

/-- **Last writer wins, and what it did not see is lost.** After any run of stores that
share `localStorage`, a store constructed over `key` reads back the durable part of the
state that the run's last successful write under `key` wrote, or what was there before if
there was none. Each store's state is its own run: only the actions dispatched to it. So
an action dispatched to store `i` is lost when the last write under `key` is made by a
store `j` constructed before that action: a later store restores what it would have
restored had the action never been dispatched. -/
theorem restore_last_writer (w : World) (key : JsString) (es : List Event) :
    restore (w.run es).storage key =
      (match w.lastWrite key es with
        | some p => some p.2.durable
        | none => restore w.storage key) ∧
    (∀ i s, w.stores.get? i = some s →
      ((w.run es).stores.get? i).map (·.state) = some (ownRun i w.now s.state es)) ∧
    ∀ i a j s st, w.stores.get? j = some s → i ≠ j →
      (w.step (.dispatch i a)).lastWrite key es = some (j, st) →
        restore ((w.step (.dispatch i a)).run es).storage key = restore (w.run es).storage key := by
  refine ⟨restore_run w key es, fun i s hs => ?_, fun i a j s st hs hij hl => ?_⟩
  · obtain ⟨s', h', -, hst⟩ := get?_run hs es
    rw [h', Option.map_some', hst]
  · have hA : AgreeOn j (w.step (.dispatch i a)) w :=
      ⟨(dispatch_keeps_shape w i a).1, (dispatch_keeps_shape w i a).2, now_step w _,
        s, get?_step_dispatch_ne hs hij a, hs⟩
    rw [restore_run, restore_run, hl, (lastWrite_agreeOn es hA).2 st hl]

end World

/-- Two stores over the default key, as two components calling `useGlobalState()` make.
The first sets flag `x`, the second flag `y`: a third store then has `y` but not `x`,
though the two actions applied in order to the state both stores started from set `x`. -/
theorem second_store_drops_first_flag :
    ((restore (((World.init .empty 0).run [.construct none, .construct none]).run
        [.dispatch 0 (.flagsSet (jsString "x") true),
          .dispatch 1 (.flagsSet (jsString "y") true)]).storage defaultKey).map
        fun s => (s.flags.get (jsString "x"), s.flags.get (jsString "y"))) = some (none, some true) ∧
    ((reducer 0 (reducer 0 initialState (.flagsSet (jsString "x") true))
        (.flagsSet (jsString "y") true)).flags.get (jsString "x")) = some true := by
  decide

end StellarCade.GlobalStore
