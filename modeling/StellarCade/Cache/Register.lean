import StellarCade.Cache.Eviction

/-!
# Each slot is a register

When `enforceMaxEntries` evicts nothing (no `maxEntries`, or `0`), the data the cache
holds at a slot behaves as a register. `set` and each resolved fetch write it, `remove`
and `clear` empty it, and no other operation changes it: invalidations only mark
(`slotData_step`, `slotData_run`).

Writes take effect in the order they happen, and nothing compares timestamps. So a fetch
that started before a `set` of the same key but settles after it overwrites the newer
data with what the fetcher returned (`fetch_settled_after_set_wins`).
-/

namespace StellarCade.Cache

open StellarCade.Js

variable {α : Type}

/-- The data stored at slot `s`. -/
def World.slotData (w : World α) (s : JsString) : Option α := (w.cache.entries.get s).map (·.data)

/-- What an event does to the register of slot `s`: `some v` writes `v` there (`none`
empties it); `none` leaves it alone. -/
def Event.slotWrite (w : World α) (s : JsString) : Event α → Option (Option α)
  | .set k d _ => if s = keyToString k then some (some d) else none
  | .remove k => if s = keyToString k then some none else none
  | .clear => some none
  | .settle i (.resolved d) =>
    match w.inflight.get? i with
    | some c => if s = keyToString c.key then some (some d) else none
    | none => none
  | _ => none

/-- The register of slot `s` along a run, from the value `r`. -/
def World.register (w : World α) (s : JsString) (r : Option α) : List (Event α) → Option α
  | [] => r
  | e :: es => (w.step e).register s ((e.slotWrite w s).getD r) es

/-- `enforceMaxEntries` never evicts: `!this.maxEntries` holds. -/
def World.Unbounded (w : World α) : Prop :=
  w.cache.maxEntries = none ∨ w.cache.maxEntries = some 0

namespace World

theorem Marks.slotData_eq {w w' : World α} (h : w.Marks w') (s : JsString) :
    w'.slotData s = w.slotData s := by
  have := congrArg (Option.map CacheEntry.data) (h.get_eq s)
  simpa only [Option.map_map] using this

theorem Unbounded.enforceMaxEntries {w : World α} (hu : w.Unbounded) : w.enforceMaxEntries = w := by
  have hv : evictionVictims w.cache.entries w.cache.maxEntries = [] := by
    rcases hu with h | h <;> rw [h] <;> rfl
  simp only [World.enforceMaxEntries, hv, List.map_nil, List.foldl_nil]
  rfl

theorem slotData_set {w : World α} (hu : w.Unbounded) (k : QueryKey) (d : α) (p : Option QueryPolicy)
    (s : JsString) : (w.set k d p).slotData s = if s = keyToString k then some d else w.slotData s := by
  have hu' : (w.withEntries (w.cache.entries.set (keyToString k)
      (writtenEntry (w.get k) w.now k d (effectivePolicy k p)))).Unbounded := hu
  simp only [set, hu'.enforceMaxEntries, slotData, notify_cache, withEntries_entries, JsMap.get_set]
  split <;> rfl

/-- **One step.** Every event changes the data of a slot as its register says. -/
theorem slotData_step {w : World α} (hu : w.Unbounded) (s : JsString) :
    ∀ e : Event α, (w.step e).slotData s = (e.slotWrite w s).getD (w.slotData s)
  | .set k d p => by
    rw [step, slotData_set hu, Event.slotWrite]; split <;> rfl
  | .remove k => by
    simp only [step, slotData, remove_entries, JsMap.get_delete, Event.slotWrite]; split <;> rfl
  | .clear => rfl
  | .tick _ => rfl
  | .invalidate k => (marks_invalidate w k).slotData_eq s
  | .invalidatePrefix p => (marks_invalidatePrefix w p).slotData_eq s
  | .applyRules evt => (marks_applyRules w evt).slotData_eq s
  | .ensureDependencies p ds => (marks_ensureDependencies w p ds).slotData_eq s
  | .registerFetcher k f => (marks_step_fetch w (.registerFetcher k f) trivial).slotData_eq s
  | .unregisterFetcher k => (marks_step_fetch w (.unregisterFetcher k) trivial).slotData_eq s
  | .getOrFetch k => (marks_step_fetch w (.getOrFetch k) trivial).slotData_eq s
  | .refetch k => (marks_step_fetch w (.refetch k) trivial).slotData_eq s
  | .settle i st => by
    simp only [step]
    cases h : w.settle i st with
    | none =>
      have hc : w.inflight.get? i = none := by
        unfold settle at h; split at h
        · assumption
        · split at h <;> cases h
      cases st <;> simp only [Event.slotWrite, hc, Option.getD_none, Option.map_none']
    | some r =>
      obtain ⟨c, hc, ⟨d, rfl, -, h'⟩ | ⟨x, rfl, -, -, h'⟩ | ⟨x, rfl, -, -, h'⟩⟩ :=
        settle_cases w (show w.settle i st = some (r.1, r.2) from h) <;>
        simp only [Option.map_some', Option.getD_some, h']
      · rw [slotData_set (show ({ w with inflight := w.inflight.eraseIdx i } : World α).Unbounded from hu)]
        simp only [Event.slotWrite, hc]
        split <;> rfl
      · rfl
      · exact (marks_invalidate _ c.key).slotData_eq s

/-- **Each slot is a register.** In a cache that never evicts, over any run of
operations, fetch completions and clock ticks, the data at every slot is what the last
write there left: the data of the last `set` or resolved fetch of a key stored there, in
the order they happened, or nothing after a `remove` or `clear`. -/
theorem slotData_run (s : JsString) :
    ∀ {w : World α} (es : List (Event α)), w.Unbounded →
      (w.run es).slotData s = w.register s (w.slotData s) es
  | _, [], _ => rfl
  | w, e :: es, hu => by
    have hu' : (w.step e).Unbounded := by
      rw [Unbounded, (step_keysStep w e).1]; exact hu
    rw [run_cons, slotData_run s es hu', slotData_step hu s e]
    rfl

end World

/-- A balance fetch starts at time `0`; at time `5` the app writes a newer balance `2`
with `set`; at time `9` the fetch resolves with `1`, which replaces it. -/
theorem fetch_settled_after_set_wins :
    let k := QueryKeys.balances.account (jsString "GA")
    let es : List (Event Nat) := [.registerFetcher k 0, .getOrFetch k, .tick 5, .set k 2 none,
      .tick 9, .settle 0 (.resolved 1)]
    (World.init none 0 : World Nat).Unbounded ∧
    ((World.init none 0 : World Nat).run es).slotData (keyToString k) =
      (World.init none 0 : World Nat).register (keyToString k)
        ((World.init none 0 : World Nat).slotData (keyToString k)) es ∧
    ((World.init none 0 : World Nat).run (es.take 4)).slotData (keyToString k) = some 2 ∧
    ((World.init none 0 : World Nat).run es).slotData (keyToString k) = some 1 :=
  ⟨.inl rfl, World.slotData_run _ _ (.inl rfl), by decide, by decide⟩

end StellarCade.Cache
