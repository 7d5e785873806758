import StellarCade.GlobalStore.Sharing

/-!
# What a store and its subscribers see

`subscribe(fn)` calls `fn(this.state)` at once and then on every `notify()` of that store,
which `dispatch` makes after each accepted action. `useGlobalState` subscribes React's
`setState`, so a component holds the last state its store handed to it.

A store is a reducer over its own actions. Over any run of constructions, dispatches to any
store (rejected ones included) and clock moves, store `i` ends in the state its own accepted
actions give, reduced in order at the clock of each dispatch (`replay`), and the
notifications it sends are exactly the states it passes through, one per accepted action
(`replayStates`). A subscriber of store `i` therefore holds store `i`'s state
(`subscriberView`): every state change reaches it, and nothing else does
(`store_replays_own_actions`).
-/

namespace StellarCade.GlobalStore

open StellarCade.Js

/-- What a subscriber of store `i` holds after the notifications `sent`, starting from
the state it was called with when it subscribed. -/
def subscriberView (i : Nat) (initial : GlobalState) (sent : List (Nat × GlobalState)) :
    GlobalState :=
  sent.foldl (fun v n => if n.1 = i then n.2 else v) initial

/-- The actions an event makes store `i` accept, with the clock each is reduced at. -/
def Event.acceptedBy (i : Nat) (now : Int) : Event → List (Int × GlobalAction)
  | .dispatch j a =>
    match validate a with
    | .ok () => if j = i then [(now, a)] else []
    | .error _ => []
  | _ => []

/-- The actions store `i` accepts over a run started at clock `now`. -/
def acceptedActions (i : Nat) : Int → List Event → List (Int × GlobalAction)
  | _, [] => []
  | now, e :: es => e.acceptedBy i now ++ acceptedActions i (e.clockAfter now) es

/-- Reduce timed actions in order. -/
def replay (st : GlobalState) (acts : List (Int × GlobalAction)) : GlobalState :=
  acts.foldl (fun st p => reducer p.1 st p.2) st

/-- The states `replay` passes through, one after each action. -/
def replayStates (st : GlobalState) : List (Int × GlobalAction) → List GlobalState
  | [] => []
  | p :: ps => reducer p.1 st p.2 :: replayStates (reducer p.1 st p.2) ps

/-! ## Replaying -/

theorem replay_append (st : GlobalState) (a b : List (Int × GlobalAction)) :
    replay st (a ++ b) = replay (replay st a) b :=
  List.foldl_append _ _ _ _

theorem replayStates_append :
    ∀ (st : GlobalState) (a b : List (Int × GlobalAction)),
      replayStates st (a ++ b) = replayStates st a ++ replayStates (replay st a) b
  | _, [], _ => rfl
  | st, p :: ps, b => congrArg (reducer p.1 st p.2 :: ·) (replayStates_append _ ps b)

/-- The last state `replay` passes through is where it ends. -/
theorem getLastD_replayStates :
    ∀ (st : GlobalState) (acts : List (Int × GlobalAction)),
      (replayStates st acts).getLastD st = replay st acts
  | _, [] => rfl
  | st, p :: ps => by
    rw [replayStates, List.getLastD_cons, getLastD_replayStates]
    rfl

/-- A subscriber holds the last state its store sent, or the one it started from. -/
theorem subscriberView_eq_getLastD (i : Nat) :
    ∀ (v : GlobalState) (sent : List (Nat × GlobalState)),
      subscriberView i v sent = ((sent.filter (·.1 = i)).map Prod.snd).getLastD v
  | _, [] => rfl
  | v, n :: ns => by
    unfold subscriberView
    rw [List.foldl_cons]
    by_cases h : n.1 = i
    · rw [if_pos h, List.filter_cons_of_pos (by simpa using h), List.map_cons, List.getLastD_cons]
      exact subscriberView_eq_getLastD i n.2 ns
    · rw [if_neg h, List.filter_cons_of_neg (by simpa using h)]
      exact subscriberView_eq_getLastD i v ns

/-- A store's own step is the replay of what the event makes it accept. -/
theorem ownStep_eq_replay (i : Nat) (now : Int) (st : GlobalState) :
    ∀ e : Event, ownStep i now st e = replay st (e.acceptedBy i now)
  | .construct _ | .tick _ | .writesFail _ => rfl
  | .dispatch j a => by
    cases hv : validate a <;> by_cases h : j = i <;> simp [ownStep, Event.acceptedBy, hv, h, replay]

theorem ownRun_eq_replay (i : Nat) :
    ∀ (now : Int) (st : GlobalState) (es : List Event),
      ownRun i now st es = replay st (acceptedActions i now es)
  | _, _, [] => rfl
  | now, st, e :: es => by
    rw [ownRun, ownRun_eq_replay, ownStep_eq_replay, acceptedActions, replay_append]

namespace World

/-- **One step.** An event appends to the log, for each store, exactly the states that the
actions it makes that store accept lead through. -/
theorem log_step (w : World) (e : Event) :
    ∃ sent, (w.step e).log = w.log ++ sent ∧ ∀ i s, w.stores.get? i = some s →
      (sent.filter (·.1 = i)).map Prod.snd = replayStates s.state (e.acceptedBy i w.now) := by
  cases e with
  | construct k => exact ⟨[], (List.append_nil _).symm, fun _ _ _ => rfl⟩
  | tick t => exact ⟨[], (List.append_nil _).symm, fun _ _ _ => rfl⟩
  | writesFail b => exact ⟨[], (List.append_nil _).symm, fun _ _ _ => rfl⟩
  | dispatch j a =>
    cases hj : w.stores.get? j with
    | none =>
      refine ⟨[], by rw [step_dispatch_none hj, List.append_nil], fun i s hs => ?_⟩
      have hji : j ≠ i := fun h => by rw [h, hs] at hj; cases hj
      cases hv : validate a <;> simp [Event.acceptedBy, hv, hji, replayStates]
    | some sj =>
      cases hv : validate a with
      | error x =>
        exact ⟨[], by rw [step_dispatch_rejected hj hv, List.append_nil],
          fun _ _ _ => by simp [Event.acceptedBy, hv, replayStates]⟩
      | ok u =>
        refine ⟨[(j, reducer w.now sj.state a)], by rw [step_dispatch_accepted hj hv],
          fun i s hs => ?_⟩
        by_cases hji : j = i
        · subst hji
          rw [hj] at hs; cases hs
          simp [Event.acceptedBy, hv, replayStates]
        · simp [Event.acceptedBy, hv, hji, replayStates]

/-- **Run.** Over a run, the log grows, for each store, by exactly the states its accepted
actions lead through. -/
theorem log_run (w : World) :
    ∀ es : List Event, ∃ sent, (w.run es).log = w.log ++ sent ∧ ∀ i s, w.stores.get? i = some s →
      (sent.filter (·.1 = i)).map Prod.snd = replayStates s.state (acceptedActions i w.now es)
  | [] => ⟨[], (List.append_nil _).symm, fun _ _ _ => rfl⟩
  | e :: es => by
    obtain ⟨sent₁, hl₁, hv₁⟩ := log_step w e
    obtain ⟨sent₂, hl₂, hv₂⟩ := log_run (w.step e) es
    refine ⟨sent₁ ++ sent₂, by rw [run_cons, hl₂, hl₁, List.append_assoc], fun i s hs => ?_⟩
    obtain ⟨s₁, h₁, -, hst₁⟩ := get?_step hs e
    rw [List.filter_append, List.map_append, hv₁ i s hs, hv₂ i s₁ h₁, hst₁, now_step,
      ownStep_eq_replay, acceptedActions, replayStates_append]

end World

/-- **A store replays its own actions.** Take store `i` of a world. Over any run of
constructions, dispatches to any store (rejected ones included) and clock moves, store `i`
ends in the state that the actions it accepted, reduced in order at the clock of each
dispatch, lead to from its state before; the notifications it sends are exactly the states
it passes through, one per accepted action; and a subscriber that subscribes to it at the
start holds its state at the end. -/
theorem store_replays_own_actions {w : World} {i : Nat} {s : GlobalStateStore}
    (hs : w.stores.get? i = some s) (es : List Event) :
    ∃ sent s', (w.run es).log = w.log ++ sent ∧ (w.run es).stores.get? i = some s' ∧
      s'.state = replay s.state (acceptedActions i w.now es) ∧
      (sent.filter (·.1 = i)).map Prod.snd = replayStates s.state (acceptedActions i w.now es) ∧
      subscriberView i s.state sent = s'.state := by
  obtain ⟨sent, hl, hv⟩ := World.log_run w es
  obtain ⟨s', h', -, hst⟩ := World.get?_run hs es
  rw [ownRun_eq_replay] at hst
  refine ⟨sent, s', hl, h', hst, hv i s hs, ?_⟩
  rw [subscriberView_eq_getLastD, hv i s hs, getLastD_replayStates, hst]

/-- Two stores over the default key; store `0` through a flag set on it, a flag set on
store `1`, and a rejected sign-in on store `0`. -/
theorem store_replays_own_actions_two_stores :
    let w := (World.init .empty 0).run [.construct none, .construct none]
    let es : List Event := [.dispatch 0 (.flagsSet (jsString "x") true),
      .dispatch 1 (.flagsSet (jsString "y") true), .dispatch 0 (.authSet [] (jsString "t"))]
    w.stores.get? 0 = some (GlobalStateStore.new .empty none) ∧
    ∃ sent s', (w.run es).log = w.log ++ sent ∧ (w.run es).stores.get? 0 = some s' ∧
      s'.state = replay (GlobalStateStore.new .empty none).state (acceptedActions 0 w.now es) ∧
      (sent.filter (·.1 = 0)).map Prod.snd =
        replayStates (GlobalStateStore.new .empty none).state (acceptedActions 0 w.now es) ∧
      subscriberView 0 (GlobalStateStore.new .empty none).state sent = s'.state :=
  ⟨by decide, store_replays_own_actions (by decide) _⟩

/-- Of the three dispatches, store `0` accepts only the first. -/
example :
    acceptedActions 0 0 [.dispatch 0 (.flagsSet (jsString "x") true),
      .dispatch 1 (.flagsSet (jsString "y") true), .dispatch 0 (.authSet [] (jsString "t"))] =
      [(0, .flagsSet (jsString "x") true)] := by
  decide

end StellarCade.GlobalStore
