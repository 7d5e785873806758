import StellarCade.Cache.Fetch

/-!
# What a subscriber sees

`subscribe(fn)` registers a callback that `notify` calls with `{ key, entry }`, where
`entry` is `null` for a deletion; a callback that throws is ignored. A subscriber can
keep a mirror of the store from these events alone: store `entry` at `keyToString(key)`,
delete the slot on `null` (`replay`).

Every operation but eviction announces what it changes, so the mirror follows the store
as long as nothing is evicted (`mirror_follows_store`). `enforceMaxEntries` deletes
without notifying: after an evicting `set` the mirror still holds every evicted entry
(`set_announces_before_eviction`).
-/

namespace StellarCade.Cache

open StellarCade.Js

variable {α : Type}

/-- A mirroring subscriber's handling of one event: store an announced entry, delete on
`null`. Fetcher calls are not announced. -/
def replay (m : JsMap JsString (CacheEntry α)) : Effect α → JsMap JsString (CacheEntry α)
  | .notify key (some e) => m.set (keyToString key) e
  | .notify key none => m.delete (keyToString key)
  | .call _ _ => m

/-- The mirror `m` holds at every slot what the store of `w` holds. -/
def Agrees (m : JsMap JsString (CacheEntry α)) (w : World α) : Prop :=
  ∀ s, m.get s = w.cache.entries.get s

theorem foldl_replay_notify_none (l : List (CacheEntry α)) (m : JsMap JsString (CacheEntry α)) :
    (l.map fun e => Effect.notify e.key none).foldl replay m =
      (l.map fun e => keyToString e.key).foldl JsMap.delete m := by
  induction l generalizing m with
  | nil => rfl
  | cons e l ih => exact ih _

theorem foldl_replay_calls (cs : List (QueryKey × FetcherId)) (m : JsMap JsString (CacheEntry α)) :
    (cs.map fun c => (Effect.call c.1 c.2 : Effect α)).foldl replay m = m := by
  induction cs generalizing m with
  | nil => rfl
  | cons c cs ih => exact ih m

/-- `w'` only appends to `w`'s log, and replaying what it appends turns a mirror of `w`
into a mirror of `w'`. -/
def World.Announces (w w' : World α) : Prop :=
  ∃ δ, w'.log = w.log ++ δ ∧ ∀ m, Agrees m w → Agrees (δ.foldl replay m) w'

namespace World.Announces

theorem refl (w : World α) : w.Announces w := ⟨[], by simp, fun _ h => h⟩

theorem trans {w₁ w₂ w₃ : World α} (h₁ : w₁.Announces w₂) (h₂ : w₂.Announces w₃) :
    w₁.Announces w₃ := by
  obtain ⟨δ₁, hl₁, ha₁⟩ := h₁
  obtain ⟨δ₂, hl₂, ha₂⟩ := h₂
  exact ⟨δ₁ ++ δ₂, by rw [hl₂, hl₁, List.append_assoc],
    fun m hm => by rw [List.foldl_append]; exact ha₂ _ (ha₁ m hm)⟩

/-- Same entries, and the log grows only by fetcher calls. -/
theorem of_calls {w w' : World α} (he : w'.cache.entries = w.cache.entries)
    (hl : ∃ cs : List (QueryKey × FetcherId), w'.log = w.log ++ cs.map fun c => .call c.1 c.2) :
    w.Announces w' := by
  obtain ⟨cs, hl⟩ := hl
  exact ⟨_, hl, fun m hm s => by rw [foldl_replay_calls, hm s, he]⟩

/-- A loop whose every iteration announces what it changes. -/
theorem foldl {β : Type} (f : World α → β → World α) (hf : ∀ (w : World α) (b : β), w.Announces (f w b)) :
    ∀ (l : List β) (w : World α), w.Announces (l.foldl f w)
  | [], w => refl w
  | b :: l, w => (hf w b).trans (foldl f hf l _)

theorem ite_self {w w' : World α} (c : Bool) (h : w.Announces w') :
    w.Announces (if c then w' else w) := by
  cases c
  · exact refl w
  · exact h

end World.Announces

namespace World

variable (w : World α)

theorem announces_write (k : QueryKey) (e : CacheEntry α) :
    w.Announces ((w.withEntries (w.cache.entries.set (keyToString k) e)).notify k (some e)) :=
  ⟨[.notify k (some e)], rfl, fun m hm s => by simp [replay, hm s]⟩

theorem announces_refetch (k : QueryKey) : w.Announces (w.refetch k).2 := by
  refine .of_calls (by simp) ?_
  unfold refetch
  split
  · exact ⟨[], by simp⟩
  · next f _ => exact ⟨[(k, f)], rfl⟩

theorem announces_invalidate (k : QueryKey) : w.Announces (w.invalidate k) := by
  rcases invalidate_cases w k with ⟨-, h⟩ | ⟨e, -, h | h⟩ <;> rw [h]
  · exact .refl w
  · exact announces_write w k _
  · exact (announces_write w k _).trans (announces_refetch _ k)

theorem announces_invalidatePrefix (pfx : QueryKey) : w.Announces (w.invalidatePrefix pfx) := by
  refine Announces.foldl _ (fun w e => ?_) _ w
  split
  · exact announces_invalidate w _
  · exact .refl w

theorem announces_invalidateEach (keysOf : JsString → List QueryKey) (addresses : List JsString) :
    w.Announces (w.invalidateEach keysOf addresses) :=
  Announces.foldl _ (fun w a => Announces.foldl _ announces_invalidate (keysOf a) w) _ w

theorem announces_invalidateCoinFlip (addresses : List JsString) (gameId : Option GameId) :
    w.Announces (w.invalidateCoinFlip addresses gameId) := by
  refine .trans ?_ (announces_invalidateEach _ _ _)
  split
  · exact announces_invalidate w _
  · exact .refl w

theorem announces_applyRules (evt : CacheInvalidationEvent) : w.Announces (w.applyRules evt) :=
  (announces_invalidateEach _ _ _).trans <| (Announces.ite_self _ (announces_invalidatePrefix _ _)).trans <|
    (Announces.ite_self _ (announces_invalidateCoinFlip _ _ _)).trans
      (Announces.ite_self _ (announces_invalidateEach _ _ _))

theorem announces_ensureDependencies (parent : QueryKey) (deps : List QueryKey) :
    w.Announces (w.ensureDependencies parent deps).2 := by
  unfold ensureDependencies; split
  · exact announces_invalidate w _
  · exact .refl w

theorem announces_remove (k : QueryKey) : w.Announces (w.remove k) :=
  ⟨[.notify k none], rfl, fun m hm s => by simp [replay, hm s]⟩

theorem announces_clear (hw : w.Inv) : w.Announces w.clear := by
  refine ⟨_, rfl, fun m hm s => ?_⟩
  rw [foldl_replay_notify_none, JsMap.values_map_eq_keys hw.slotsConsistent, JsMap.get_foldl_delete,
    hm s, clear_entries, JsMap.get_empty]
  split
  · rfl
  · exact JsMap.get_eq_none_iff.2 ‹_›

theorem announces_getOrFetch (k : QueryKey) : w.Announces (w.getOrFetch k).2 := by
  refine .of_calls (by simp) ?_
  unfold getOrFetch
  split
  · exact ⟨[], by simp⟩
  · split
    · exact ⟨[], by simp⟩
    · next f _ => exact ⟨[(k, f)], rfl⟩

/-- A `set` that evicts nothing announces what it writes. -/
theorem announces_set_of_unbounded (hmax : w.cache.maxEntries = none) (k : QueryKey) (d : α)
    (p : Option QueryPolicy) : w.Announces (w.set k d p) := by
  refine ⟨_, rfl, fun m hm s => ?_⟩
  simp only [set, notify_cache, enforceMaxEntries, withEntries_entries, withEntries_maxEntries, hmax,
    evictionVictims, List.map_nil, List.foldl_nil]
  simp [replay, hm s]

/-- Without a bound, every event announces what it changes. -/
theorem announces_step {w : World α} (hw : w.Inv) (hmax : w.cache.maxEntries = none) (e : Event α) :
    w.Announces (w.step e) := by
  cases e with
  | set k d p => exact announces_set_of_unbounded w hmax k d p
  | invalidate k => exact announces_invalidate w k
  | invalidatePrefix p => exact announces_invalidatePrefix w p
  | remove k => exact announces_remove w k
  | clear => exact announces_clear w hw
  | registerFetcher k f => exact .of_calls rfl ⟨[], by simp [step, registerFetcher]⟩
  | unregisterFetcher k => exact .of_calls rfl ⟨[], by simp [step, unregisterFetcher]⟩
  | getOrFetch k => exact announces_getOrFetch w k
  | refetch k => exact announces_refetch w k
  | ensureDependencies p ds => exact announces_ensureDependencies w p ds
  | applyRules evt => exact announces_applyRules w evt
  | tick t => exact .of_calls rfl ⟨[], by simp [step]⟩
  | settle i s =>
    simp only [step]
    cases h : w.settle i s with
    | none => exact .refl w
    | some p =>
      simp only [Option.map_some', Option.getD_some]
      obtain ⟨c, -, ⟨d, -, -, h'⟩ | ⟨x, -, -, -, h'⟩ | ⟨x, -, -, -, h'⟩⟩ :=
        settle_cases w (show w.settle i s = some (p.1, p.2) from h) <;> rw [h']
      · exact announces_set_of_unbounded { w with inflight := w.inflight.eraseIdx i } hmax c.key d none
      · exact .refl w
      · exact announces_invalidate { w with inflight := w.inflight.eraseIdx i } c.key

theorem Announces.log_grows {w w' : World α} (h : w.Announces w') : w.log <+: w'.log :=
  let ⟨δ, hl, _⟩ := h
  ⟨δ, hl.symm⟩

/-- With any bound, every event only appends to the log: eviction deletes entries without
a notification, but it takes nothing out of the log. -/
theorem log_grows_step (w : World α) : ∀ e : Event α, w.log <+: (w.step e).log
  | .set _ _ _ | .clear => ⟨_, rfl⟩
  | .registerFetcher _ _ | .unregisterFetcher _ | .tick _ => List.prefix_refl _
  | .invalidate k => (announces_invalidate w k).log_grows
  | .invalidatePrefix p => (announces_invalidatePrefix w p).log_grows
  | .remove k => (announces_remove w k).log_grows
  | .getOrFetch k => (announces_getOrFetch w k).log_grows
  | .refetch k => (announces_refetch w k).log_grows
  | .ensureDependencies p ds => (announces_ensureDependencies w p ds).log_grows
  | .applyRules evt => (announces_applyRules w evt).log_grows
  | .settle i s => by
    simp only [step]
    cases h : w.settle i s with
    | none => exact List.prefix_refl _
    | some p =>
      obtain ⟨c, -, ⟨d, -, -, h'⟩ | ⟨x, -, -, -, h'⟩ | ⟨x, -, -, -, h'⟩⟩ :=
        settle_cases w (show w.settle i s = some (p.1, p.2) from h) <;>
        simp only [Option.map_some', Option.getD_some, h']
      · exact ⟨_, rfl⟩
      · exact List.prefix_refl _
      · exact (announces_invalidate { w with inflight := w.inflight.eraseIdx i } c.key).log_grows

end World

theorem Reachable.announces_run {w : World α} (hw : Reachable w) (hmax : w.cache.maxEntries = none) :
    ∀ {es : List (Event α)}, w.monotoneRun es → w.Announces (w.run es)
  | [], _ => .refl w
  | e :: _, h => by
    simp only [World.monotoneRun_cons, Bool.and_eq_true] at h
    exact (World.announces_step hw.inv hmax e).trans
      ((hw.step e h.1).announces_run ((World.step_keysStep w e).1.trans hmax) h.2)

/-- **Without a bound, a subscriber's mirror follows the store.** From a reachable store
without `maxEntries`, over every run, the log only grows, and a mirror that agreed with
the store agrees with it again once it has replayed what the log gained. -/
theorem mirror_follows_store {w : World α} (hw : Reachable w) (hmax : w.cache.maxEntries = none)
    {es : List (Event α)} (hes : w.monotoneRun es) (m : JsMap JsString (CacheEntry α))
    (hm : ∀ s, m.get s = w.cache.entries.get s) :
    ∃ δ, (w.run es).log = w.log ++ δ ∧
      ∀ s, (δ.foldl replay m).get s = (w.run es).cache.entries.get s :=
  let ⟨δ, hl, ha⟩ := hw.announces_run hmax hes
  ⟨δ, hl, ha m hm⟩

/-- A subscriber registered on a new cache, over writes, an invalidation and a removal. -/
theorem mirror_follows_store_new_cache :
    let a := QueryKeys.balances.account (jsString "GA")
    let b := QueryKeys.games.recentByAddress (jsString "GA")
    let es : List (Event Nat) := [.set a 1 none, .set b 2 none, .tick 4, .invalidate a, .remove b]
    Reachable (World.init (α := Nat) none 0) ∧ (World.init (α := Nat) none 0).cache.maxEntries = none ∧
    (World.init none 0).monotoneRun es ∧ (∀ s, (JsMap.empty).get s = (World.init (α := Nat) none 0).cache.entries.get s) ∧
    ∃ δ, ((World.init none 0).run es).log = (World.init none 0).log ++ δ ∧
      ∀ s, (δ.foldl replay .empty).get s = ((World.init none 0).run es).cache.entries.get s :=
  ⟨.init none 0, rfl, by decide, fun _ => rfl,
    mirror_follows_store (.init none 0) rfl (by decide) _ fun _ => rfl⟩

/-- **Eviction is not announced.** After `set`, a mirror that agreed with the store holds
the store as it was before eviction: every entry `enforceMaxEntries` deleted is still in
the mirror. -/
theorem set_announces_before_eviction {w : World α} {m : JsMap JsString (CacheEntry α)}
    (hm : ∀ s, m.get s = w.cache.entries.get s) (k : QueryKey) (d : α) (p : Option QueryPolicy) :
    ∃ δ, (w.set k d p).log = w.log ++ δ ∧ ∀ s,
      (δ.foldl replay m).get s = (w.writtenMap k d p).get s ∧
      (w.set k d p).cache.entries.get s =
        if s ∈ (evictionVictims (w.writtenMap k d p) w.cache.maxEntries).map fun v => keyToString v.key
        then none else (w.writtenMap k d p).get s :=
  ⟨_, rfl, fun s => ⟨by simp [replay, World.writtenMap, hm s],
    by simp [World.set, World.enforceMaxEntries, JsMap.get_foldl_delete, World.writtenMap]⟩⟩

/-- Two balances under `maxEntries = 1`, and a mirror that holds the first: the second
`set` evicts it and announces only itself, so the mirror still holds the evicted entry. -/
theorem eviction_leaves_mirror_stale :
    let a := QueryKeys.balances.account (jsString "GA")
    let b := QueryKeys.balances.account (jsString "GB")
    let w : World Nat := (World.init (some 1) 0).run [.set a 1 none, .tick 1]
    (∃ δ, (w.set b 2 none).log = w.log ++ δ ∧ ∀ s,
      (δ.foldl replay w.cache.entries).get s = (w.writtenMap b 2 none).get s ∧
      (w.set b 2 none).cache.entries.get s =
        if s ∈ (evictionVictims (w.writtenMap b 2 none) w.cache.maxEntries).map fun v => keyToString v.key
        then none else (w.writtenMap b 2 none).get s) ∧
    (w.writtenMap b 2 none).get (keyToString a) ≠ none ∧ (w.set b 2 none).cache.entries.get (keyToString a) = none :=
  ⟨set_announces_before_eviction (fun _ => rfl) _ _ _, by decide, by decide⟩

end StellarCade.Cache
