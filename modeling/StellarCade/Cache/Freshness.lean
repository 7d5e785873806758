import StellarCade.Cache.Rules
import StellarCade.Cache.Subscription

/-!
# Freshness: when the cache answers from memory

`getOrFetch` answers from the store only while the key's entry is fresh: not invalidated,
and before its `staleAt`. This file follows freshness over whole runs.

Every event does one of five things to the store (`step_cases`): it marks entries, writes
one slot through `set`, deletes through `remove` or `clear`, or moves the clock. From that:

* a mark stays while the slot stays occupied, since `set` copies `invalidatedAt` from the
  entry it replaces (`invalidation_sticks`): once invalidated, a key is not served from
  memory again until its entry is removed, cleared or evicted. Every stored key a
  transaction event names is in that state after `applyRules` (`rule_keys_stay_stale`);
* with a clock that does not go back, a stale key stays stale until an event writes its
  slot, and `getOrFetch` of it calls the fetcher or fails (`stale_until_written`);
* so reads of such a key are not coalesced: in any interleaving, each `getOrFetch` calls
  the fetcher again (`stale_reads_not_coalesced`).

The invalidations whose marks depend on the stored keys alone (`invalidate`,
`invalidatePrefix`, `applyRules`) commute, and each is idempotent on the entries
(`invalidations_commute`); `ensureDependencies`, which reads staleness, does not commute
with them (`ensureDependencies_invalidate_not_commute`).
-/

namespace StellarCade.Cache

open StellarCade.Js

variable {α : Type}

namespace World

/-- Whether some event of a run writes slot `s`: a `set` of a key stored there, or a fetch
for one that resolves. -/
def writes (w : World α) (s : JsString) : List (Event α) → Bool
  | [] => false
  | e :: es =>
    (match e.slotWrite w s with
      | some (some _) => true
      | _ => false) || (w.step e).writes s es

/-! ## What one event does to the store -/

theorem marksWhere_invalidatePrefix_some (w : World α) (pfx : QueryKey) :
    ∃ p, w.MarksWhere p (w.invalidatePrefix pfx) := by
  rw [invalidatePrefix_eq_foldl]
  exact ⟨_, marksWhere_foldl_invalidate w _⟩

theorem marksWhere_applyRules_some (w : World α) (evt : CacheInvalidationEvent) :
    ∃ p, w.MarksWhere p (w.applyRules evt) := by
  obtain ⟨p, hp⟩ := marksWhere_invalidatePrefix_some
    (w.invalidateBalances evt.addresses) QueryKeys.balances.root
  exact ⟨_, (marksWhere_invalidateEach w _ _).trans ((MarksWhere.ite _ hp).trans
    ((MarksWhere.ite _ (marksWhere_invalidateCoinFlip _ _ _)).trans
      (MarksWhere.ite _ (marksWhere_invalidateEach _ _ _))))⟩

/-- **One step.** An event marks entries, with the clock and the bound unchanged; or
writes one slot, through `set` from a world with the same cache and clock; or is a
`remove` or a `clear`; or moves the clock. -/
theorem step_cases (w : World α) : ∀ ev : Event α,
    (∃ p, w.MarksWhere p (w.step ev)) ∨
    (∃ (w₀ : World α) (k : QueryKey) (d : α) (pol : Option QueryPolicy), w₀.cache = w.cache ∧ w₀.now = w.now ∧
      w.step ev = w₀.set k d pol ∧ ev.slotWrite w (keyToString k) = some (some d)) ∨
    (∃ k, ev = .remove k ∧ w.step ev = w.remove k) ∨ (ev = .clear ∧ w.step ev = w.clear) ∨
    ∃ t, ev = .tick t ∧ w.step ev = { w with now := t }
  | .set k d p => .inr (.inl ⟨w, k, d, p, rfl, rfl, rfl, by simp [Event.slotWrite]⟩)
  | .remove k => .inr (.inr (.inl ⟨k, rfl, rfl⟩))
  | .clear => .inr (.inr (.inr (.inl ⟨rfl, rfl⟩)))
  | .tick t => .inr (.inr (.inr (.inr ⟨t, rfl, rfl⟩)))
  | .invalidate k => .inl ⟨_, marksWhere_invalidate w k⟩
  | .invalidatePrefix p => .inl (marksWhere_invalidatePrefix_some w p)
  | .applyRules evt => .inl (marksWhere_applyRules_some w evt)
  | .ensureDependencies p ds => .inl <| by
    simp only [step, ensureDependencies]
    split
    · exact ⟨_, marksWhere_invalidate w p⟩
    · exact ⟨_, .none w⟩
  | .registerFetcher k f => .inl ⟨_, .of_entries rfl rfl rfl⟩
  | .unregisterFetcher k => .inl ⟨_, .of_entries rfl rfl rfl⟩
  | .getOrFetch k => .inl ⟨_, .of_entries (by simp [step]) (by simp [step]) (by simp [step])⟩
  | .refetch k => .inl ⟨_, .of_entries (by simp [step]) (by simp [step]) (by simp [step])⟩
  | .settle i st => by
    cases h : w.settle i st with
    | none => exact .inl ⟨_, by simpa only [step, h, Option.map_none'] using MarksWhere.none w⟩
    | some r =>
      obtain ⟨c, hc, ⟨d, rfl, -, h'⟩ | ⟨x, rfl, -, -, h'⟩ | ⟨x, rfl, -, -, h'⟩⟩ :=
        settle_cases w (show w.settle i st = some (r.1, r.2) from h)
      · refine .inr (.inl ⟨{ w with inflight := w.inflight.eraseIdx i }, c.key, d, none, rfl, rfl,
          ?_, by simp only [Event.slotWrite, hc, if_pos]⟩)
        simp only [step, h, Option.map_some', Option.getD_some, h']
      · have hw : w.step (.settle i (.rejected x)) = { w with inflight := w.inflight.eraseIdx i } := by
          simp only [step, h, Option.map_some', Option.getD_some, h']
        exact .inl ⟨_, by rw [hw]; exact .of_entries rfl rfl rfl⟩
      · have hw : w.step (.settle i (.rejected x)) =
            { w with inflight := w.inflight.eraseIdx i }.invalidate c.key := by
          simp only [step, h, Option.map_some', Option.getD_some, h']
        have hm := marksWhere_invalidate { w with inflight := w.inflight.eraseIdx i } c.key
        exact .inl ⟨fun s _ => decide (s = keyToString c.key), by
          rw [hw]; exact ⟨hm.1, hm.2, hm.3, hm.4⟩⟩

/-- A step that keeps the clock from going back does not move it back. -/
theorem now_le_step {w : World α} {ev : Event α} (hmono : ev.monotone w = true) :
    w.now ≤ (w.step ev).now := by
  rcases step_cases w ev with ⟨p, hp⟩ | ⟨w₀, k, d, pol, -, hn, hw, -⟩ | ⟨k, -, hw⟩ | ⟨-, hw⟩ |
      ⟨t, rfl, hw⟩
  · exact hp.now_eq.ge
  · rw [hw, set_now, hn]
  · rw [hw, remove_now]
  · rw [hw, clear_now]
  · rw [hw]; simpa [Event.monotone] using hmono

/-- **Frame.** After an event that does not write slot `s`, what is stored there was stored
there before, perhaps marked invalidated at the current time. -/
theorem get_step_of_unwritten {w : World α} {s : JsString} (ev : Event α)
    (hnw : ∀ d, ev.slotWrite w s ≠ some (some d)) {b : CacheEntry α}
    (hb : (w.step ev).cache.entries.get s = some b) :
    ∃ a, w.cache.entries.get s = some a ∧ (b = a ∨ b = a.invalidated w.now) := by
  rcases step_cases w ev with ⟨p, hp⟩ | ⟨w₀, k, d, pol, hc, -, hw, hwr⟩ | ⟨k, -, hw⟩ | ⟨-, hw⟩ |
      ⟨t, -, hw⟩
  · rw [hp.get_eq] at hb
    obtain ⟨a, ha, rfl⟩ := Option.map_eq_some'.1 hb
    exact ⟨a, ha, by split <;> simp⟩
  · rw [hw] at hb
    rcases get_set_of_some w₀ k hb with ⟨rfl, -⟩ | ⟨-, h⟩
    · exact absurd hwr (hnw d)
    · exact ⟨b, hc ▸ h, .inl rfl⟩
  · rw [hw, remove_entries, JsMap.get_delete] at hb
    split at hb
    · cases hb
    · exact ⟨b, hb, .inl rfl⟩
  · rw [hw, clear_entries, JsMap.get_empty] at hb
    cases hb
  · rw [hw] at hb
    exact ⟨b, hb, .inl rfl⟩

/-! ## Staleness -/

theorem isStale_of_invalidated {w : World α} {k : QueryKey}
    (h : ((w.get k).bind (·.meta.invalidatedAt)).isSome) : w.isStale k = true := by
  cases he : w.get k with
  | none => simp [isStale, he]
  | some e => simp_all [isStale]

/-- A stale key is never answered from memory. -/
theorem getOrFetch_ne_data {w : World α} {k : QueryKey} (h : w.isStale k = true) (d : α) :
    (w.getOrFetch k).1 ≠ .data d := by
  rw [getOrFetch_of_isStale w k h]
  split <;> simp

/-! ## Invalidation sticks -/

/-- **One step.** An invalidated entry whose slot is still occupied after an event is
still invalidated: marking only sets `invalidatedAt`, and `set` copies it. -/
theorem invalidated_step {w : World α} {s : JsString}
    (h : ((w.cache.entries.get s).bind (·.meta.invalidatedAt)).isSome) (ev : Event α)
    (hs : ((w.step ev).cache.entries.get s).isSome) :
    (((w.step ev).cache.entries.get s).bind (·.meta.invalidatedAt)).isSome := by
  obtain ⟨b, hb⟩ := Option.isSome_iff_exists.1 hs
  rw [hb]
  obtain ⟨a, ha, hinv⟩ : ∃ a, w.cache.entries.get s = some a ∧ a.meta.invalidatedAt.isSome := by
    cases ha : w.cache.entries.get s <;> simp_all
  have kept (hk : w.cache.entries.get s = some b) : (b.meta.invalidatedAt).isSome := by
    rw [ha] at hk; cases hk; exact hinv
  rcases step_cases w ev with ⟨p, hp⟩ | ⟨w₀, k, d, pol, hc, -, hw, -⟩ | ⟨k, -, hw⟩ | ⟨-, hw⟩ |
      ⟨t, -, hw⟩
  · rw [hp.get_eq, ha, Option.map_some', Option.some.injEq] at hb
    subst hb
    split <;> simp [CacheEntry.invalidated, hinv]
  · rw [hw] at hb
    rcases get_set_of_some w₀ k hb with ⟨rfl, rfl⟩ | ⟨-, h'⟩
    · simpa [writtenEntry, get, hc, ha] using hinv
    · exact kept (hc ▸ h')
  · rw [hw, remove_entries, JsMap.get_delete] at hb
    split at hb
    · cases hb
    · exact kept hb
  · rw [hw, clear_entries, JsMap.get_empty] at hb
    cases hb
  · rw [hw] at hb
    exact kept hb

/-- **Run.** An invalidated entry stays invalidated as long as its slot stays occupied. -/
theorem invalidated_run {s : JsString} :
    ∀ {w : World α} {es : List (Event α)},
      ((w.cache.entries.get s).bind (·.meta.invalidatedAt)).isSome →
      (∀ n ≤ es.length, ((w.run (es.take n)).cache.entries.get s).isSome) →
      (((w.run es).cache.entries.get s).bind (·.meta.invalidatedAt)).isSome
  | _, [], h, _ => h
  | w, ev :: es, h, hs => by
    have h1 := hs 1 (by simp)
    simp only [List.take_succ_cons, List.take_zero, run_cons, run_nil] at h1
    exact invalidated_run (w := w.step ev) (invalidated_step h ev h1)
      fun n hn => by simpa using hs (n + 1) (by simpa using hn)

/-- **Invalidation sticks.** Once a key's entry is invalidated, over any run that keeps the
key's slot occupied throughout (no `remove` or `clear` of it, no eviction), the entry stays
invalidated, the key stays stale whatever the clock does, and `getOrFetch` never answers it
from memory. Rewrites do not help: `set`, and so every fetch that resolves, copies
`invalidatedAt` from the entry it replaces. -/
theorem invalidation_sticks {w : World α} {k : QueryKey}
    (hinv : ((w.get k).bind (·.meta.invalidatedAt)).isSome) {es : List (Event α)}
    (hs : ∀ n ≤ es.length, ((w.run (es.take n)).get k).isSome) :
    (((w.run es).get k).bind (·.meta.invalidatedAt)).isSome ∧ (w.run es).isStale k = true ∧
      ∀ d, ((w.run es).getOrFetch k).1 ≠ .data d :=
  have h := invalidated_run hinv hs
  ⟨h, isStale_of_invalidated h, getOrFetch_ne_data (isStale_of_invalidated h)⟩

/-- A rewards entry invalidated at `5`, then written again at `10` and refetched through a
fetcher that resolves: at `20` it is still invalidated and stale. -/
theorem invalidation_sticks_through_refetch :
    let k := QueryKeys.rewards.byAddress (jsString "GAAA")
    let w : World Nat := (World.init none 0).run [.set k 1 none, .tick 5, .invalidate k]
    let es : List (Event Nat) :=
      [.tick 10, .set k 2 none, .registerFetcher k 0, .getOrFetch k, .settle 0 (.resolved 3),
        .tick 20]
    ((w.get k).bind (·.meta.invalidatedAt)).isSome ∧
      (∀ n ≤ es.length, ((w.run (es.take n)).get k).isSome) ∧
      (((w.run es).get k).bind (·.meta.invalidatedAt)).isSome ∧ (w.run es).isStale k = true ∧
      ∀ d, ((w.run es).getOrFetch k).1 ≠ .data d :=
  ⟨by decide, by decide, invalidation_sticks (by decide) (by decide)⟩

/-- **A transaction's keys stay stale.** From a world whose entries sit at their keys'
slots, `applyRules` marks every stored key it names, and by `invalidation_sticks` that
key is stale from then on, over any run that keeps its entry stored: `getOrFetch` never
answers it from memory again, whatever is written to it. -/
theorem rule_keys_stay_stale {w : World α} (hw : SlotsConsistent w.cache.entries)
    (evt : CacheInvalidationEvent) {k : QueryKey} (hk : k ∈ evt.ruleKeys)
    (hstored : (w.get k).isSome) {es : List (Event α)}
    (hs : ∀ n ≤ es.length, (((w.applyRules evt).run (es.take n)).get k).isSome) :
    ((w.applyRules evt).run es).isStale k = true ∧
      ∀ d, (((w.applyRules evt).run es).getOrFetch k).1 ≠ .data d := by
  obtain ⟨e, he⟩ := Option.isSome_iff_exists.1 hstored
  have hm : decide (keyToString k ∈ evt.ruleKeys.map keyToString) = true :=
    decide_eq_true (List.mem_map_of_mem _ hk)
  have hg := (marksWhere_applyRules hw evt).get_eq (keyToString k)
  simp only [show w.cache.entries.get (keyToString k) = some e from he, Option.map_some', hm,
    Bool.or_true, if_true] at hg
  have hmark : (((w.applyRules evt).get k).bind (·.meta.invalidatedAt)).isSome := by
    simp [get, hg, CacheEntry.invalidated]
  have h := invalidated_run hmark hs
  exact ⟨isStale_of_invalidated h, getOrFetch_ne_data (isStale_of_invalidated h)⟩

/-- A game settled by a coin-flip transaction, then written again by a fetch that
resolves: still stale. -/
theorem rule_keys_stay_stale_coinFlip :
    let k := QueryKeys.games.byId (.str (jsString "7"))
    let w : World Nat := (World.init none 0).run [.set k 1 none, .registerFetcher k 0]
    let evt : CacheInvalidationEvent :=
      ⟨some ⟨jsString "coinFlip", none, some (.str (jsString "7"))⟩, none⟩
    let es : List (Event Nat) := [.settle 0 (.resolved 2), .tick 5, .set k 3 none]
    SlotsConsistent w.cache.entries ∧ k ∈ evt.ruleKeys ∧ (w.get k).isSome ∧
      (∀ n ≤ es.length, (((w.applyRules evt).run (es.take n)).get k).isSome) ∧
      ((w.applyRules evt).run es).isStale k = true ∧
      ∀ d, (((w.applyRules evt).run es).getOrFetch k).1 ≠ .data d :=
  have hw : SlotsConsistent ((World.init (α := Nat) none 0).run
      [.set (QueryKeys.games.byId (.str (jsString "7"))) 1 none,
        .registerFetcher (QueryKeys.games.byId (.str (jsString "7"))) 0]).cache.entries :=
    slotsConsistent_run _ fun _ _ h => by simp [World.init] at h
  ⟨hw, by decide, by decide, by decide, rule_keys_stay_stale hw _ (by decide) (by decide) (by decide)⟩

/-! ## Staleness lasts until the slot is written -/

/-- **One step.** A stale key stays stale across an event that does not write its slot and
does not move the clock back. -/
theorem isStale_step {w : World α} {k : QueryKey} (hst : w.isStale k = true) (ev : Event α)
    (hmono : ev.monotone w = true)
    (hnw : ∀ d, ev.slotWrite w (keyToString k) ≠ some (some d)) :
    (w.step ev).isStale k = true := by
  cases hb : (w.step ev).get k with
  | none => simp [isStale, hb]
  | some b =>
    obtain ⟨a, ha, rfl | rfl⟩ := get_step_of_unwritten ev hnw hb
    · simp only [isStale, hb, show w.get k = some b from ha, Bool.or_eq_true,
        decide_eq_true_eq] at hst ⊢
      exact hst.imp_right fun h => h.trans (now_le_step hmono)
    · simp [isStale, hb, CacheEntry.invalidated]

/-- **Run.** With a clock that does not go back, a stale key stays stale over any run in
which no event writes its slot. -/
theorem isStale_run {k : QueryKey} :
    ∀ {w : World α} {es : List (Event α)}, w.isStale k = true → w.monotoneRun es = true →
      w.writes (keyToString k) es = false → (w.run es).isStale k = true
  | _, [], hst, _, _ => hst
  | w, ev :: es, hst, hmono, hwr => by
    simp only [monotoneRun_cons, writes, Bool.and_eq_true, Bool.or_eq_false_iff] at hmono hwr
    refine isStale_run (w := w.step ev) (isStale_step hst ev hmono.1 fun d h => ?_) hmono.2 hwr.2
    simp [h] at hwr

/-- **Stale until written.** With a clock that does not go back, a stale key stays stale
over any run in which no event writes its slot: no `set` of it and no fetch of it that
resolves. At the end of such a run `getOrFetch` does not answer it from memory: it calls
the registered fetcher, or returns the missing-fetcher error when none is registered. -/
theorem stale_until_written {w : World α} {k : QueryKey} {es : List (Event α)}
    (hst : w.isStale k = true) (hmono : w.monotoneRun es = true)
    (hwr : w.writes (keyToString k) es = false) :
    (w.run es).isStale k = true ∧ (∀ d, ((w.run es).getOrFetch k).1 ≠ .data d) ∧
      ((w.run es).cache.fetchers.get (keyToString k) = none →
        (w.run es).getOrFetch k = (.error (missingFetcher k), w.run es)) ∧
      ∀ f, (w.run es).cache.fetchers.get (keyToString k) = some f →
        (w.run es).getOrFetch k = (.pending, (w.run es).await .getOrFetch k f) :=
  have h := isStale_run hst hmono hwr
  ⟨h, getOrFetch_ne_data h, fun hf => by simp only [getOrFetch_of_isStale _ k h, hf],
    fun f hf => by simp only [getOrFetch_of_isStale _ k h, hf]⟩

/-- A balances key written at `0` is stale at `3000`; a fetch of it that fails and a later
`set` of another key leave it stale at `4000`, and the next read calls the fetcher. -/
theorem stale_until_written_after_failed_fetch :
    let k := QueryKeys.balances.account (jsString "GAAA")
    let w : World Nat := (World.init none 0).run [.set k 1 none, .tick 3000]
    let es : List (Event Nat) :=
      [.registerFetcher k 0, .getOrFetch k, .settle 0 (.rejected 7),
        .set (QueryKeys.profile.byAddress (jsString "GAAA")) 2 none, .tick 4000]
    w.isStale k = true ∧ w.monotoneRun es = true ∧ w.writes (keyToString k) es = false ∧
      (w.run es).isStale k = true ∧ (∀ d, ((w.run es).getOrFetch k).1 ≠ .data d) ∧
      ((w.run es).cache.fetchers.get (keyToString k) = none →
        (w.run es).getOrFetch k = (.error (missingFetcher k), w.run es)) ∧
      ∀ f, (w.run es).cache.fetchers.get (keyToString k) = some f →
        (w.run es).getOrFetch k = (.pending, (w.run es).await .getOrFetch k f) :=
  ⟨by decide, by decide, by decide, stale_until_written (by decide) (by decide) (by decide)⟩

end World

/-! ## Reads of a stale key are not coalesced -/

/-- Whether a log entry is a call of fetcher `f` for `k`. -/
def Effect.isCallOf (k : QueryKey) (f : FetcherId) : Effect α → Bool
  | .call k' f' => k' == k && f' == f
  | .notify _ _ => false

/-- Whether an event is a `getOrFetch` of `k`. -/
def Event.isGetOrFetchOf (k : QueryKey) : Event α → Bool
  | .getOrFetch k' => k' == k
  | _ => false

namespace World

/-- **One step.** While `k` is stale with fetcher `f` registered, a `getOrFetch` of `k`
logs one more call of `f`, and no event takes a call out of the log. -/
theorem calls_step {w : World α} {k : QueryKey} {f : FetcherId} (hst : w.isStale k = true)
    (hf : w.cache.fetchers.get (keyToString k) = some f) (ev : Event α) :
    w.log.countP (Effect.isCallOf k f) + (if ev.isGetOrFetchOf k then 1 else 0) ≤
      (w.step ev).log.countP (Effect.isCallOf k f) := by
  by_cases hev : ev = .getOrFetch k
  · subst hev
    simp [step, getOrFetch_of_isStale w k hst, hf, await, Effect.isCallOf, Event.isGetOrFetchOf]
  · have : ev.isGetOrFetchOf k = false := by
      cases ev <;> simp_all [Event.isGetOrFetchOf]
    rw [this, if_neg Bool.false_ne_true, Nat.add_zero]
    exact (log_grows_step w ev).sublist.countP_le _

/-- **Reads of a stale key are not coalesced.** With a clock that does not go back, take a
stale key whose slot no event of a run writes and whose fetcher stays `f` throughout.
Whatever else the run interleaves (other reads and writes, invalidations, fetches that
settle or fail), every `getOrFetch` of the key calls `f` again: the log gains at least one
call of `f` for the key per read. No read shares a fetch already in flight. -/
theorem stale_reads_not_coalesced {k : QueryKey} {f : FetcherId} :
    ∀ {w : World α} {es : List (Event α)}, w.isStale k = true → w.monotoneRun es = true →
      w.writes (keyToString k) es = false →
      (∀ n ≤ es.length, (w.run (es.take n)).cache.fetchers.get (keyToString k) = some f) →
      w.log.countP (Effect.isCallOf k f) + es.countP (Event.isGetOrFetchOf k) ≤
        (w.run es).log.countP (Effect.isCallOf k f)
  | _, [], _, _, _, _ => by simp
  | w, ev :: es, hst, hmono, hwr, hf => by
    simp only [monotoneRun_cons, writes, Bool.and_eq_true, Bool.or_eq_false_iff] at hmono hwr
    have hst' := isStale_step hst ev hmono.1 fun d h => by simp [h] at hwr
    have ih := stale_reads_not_coalesced (w := w.step ev) hst' hmono.2 hwr.2
      fun n hn => by simpa using hf (n + 1) (by simpa using hn)
    have h1 := calls_step hst (by simpa using hf 0 (Nat.zero_le _)) ev
    rw [List.countP_cons, run_cons]
    omega

/-- A stale balances key read three times, with a failed fetch, an invalidation and a
write of another key interleaved: three calls. -/
theorem stale_reads_not_coalesced_interleaved :
    let k := QueryKeys.balances.account (jsString "GAAA")
    let w : World Nat := (World.init none 0).run [.set k 1 none, .tick 3000, .registerFetcher k 4]
    let es : List (Event Nat) :=
      [.getOrFetch k, .invalidate QueryKeys.games.root, .getOrFetch k, .settle 0 (.rejected 1),
        .set (QueryKeys.profile.byAddress (jsString "GAAA")) 2 none, .tick 4000, .getOrFetch k]
    w.isStale k = true ∧ w.monotoneRun es = true ∧ w.writes (keyToString k) es = false ∧
      (∀ n ≤ es.length, (w.run (es.take n)).cache.fetchers.get (keyToString k) = some 4) ∧
      w.log.countP (Effect.isCallOf k 4) + es.countP (Event.isGetOrFetchOf k) ≤
        (w.run es).log.countP (Effect.isCallOf k 4) :=
  ⟨by decide, by decide, by decide, by decide,
    stale_reads_not_coalesced (by decide) (by decide) (by decide) (by decide)⟩

end World

/-! ## Invalidations commute -/

/-- The invalidations whose marks are fixed by the stored keys alone: `invalidate`,
`invalidatePrefix` and `applyRules`. `ensureDependencies` is not one of them: whether it
marks depends on whether its dependencies are stale. -/
def Event.isInvalidation : Event α → Bool
  | .invalidate _ | .invalidatePrefix _ | .applyRules _ => true
  | _ => false

namespace World

/-- Two markings from one world that mark where the same predicate holds leave the same
entries. -/
theorem MarksWhere.entries_eq {p q : JsString → QueryKey → Bool} {w w₁ w₂ : World α}
    (h₁ : w.MarksWhere p w₁) (h₂ : w.MarksWhere q w₂) (hpq : ∀ s k, p s k = q s k) :
    w₁.cache.entries = w₂.cache.entries :=
  JsMap.ext_get (h₁.keys_eq.trans h₂.keys_eq.symm) fun s => by
    rw [h₁.get_eq, h₂.get_eq]
    simp only [hpq]

/-- Each invalidation marks where one predicate of the slot and the key holds, the same
from every world whose entries sit at their keys' slots. -/
theorem marksWhere_of_isInvalidation {e : Event α} (he : e.isInvalidation = true) :
    ∃ p, ∀ w : World α, SlotsConsistent w.cache.entries → w.MarksWhere p (w.step e) := by
  cases e <;> try cases he
  case invalidate k => exact ⟨_, fun w _ => marksWhere_invalidate w k⟩
  case invalidatePrefix pfx => exact ⟨_, fun _ hw => marksWhere_invalidatePrefix hw pfx⟩
  case applyRules evt => exact ⟨_, fun _ hw => marksWhere_applyRules hw evt⟩

/-- **Invalidations commute.** From a world whose entries sit at their keys' slots (every
world a run from `new QueryCache()` reaches), two invalidations made at one clock instant
leave the same entries in either order, and making one twice leaves the entries it left
the first time. A transaction event delivered twice, or two delivered out of order, mark
the same entries; only the notifications and the fetcher calls repeat. -/
theorem invalidations_commute {w : World α} (hw : SlotsConsistent w.cache.entries)
    {e₁ e₂ : Event α} (h₁ : e₁.isInvalidation = true) (h₂ : e₂.isInvalidation = true) :
    ((w.step e₁).step e₂).cache.entries = ((w.step e₂).step e₁).cache.entries ∧
      ((w.step e₁).step e₁).cache.entries = (w.step e₁).cache.entries := by
  obtain ⟨p, hp⟩ := marksWhere_of_isInvalidation h₁
  obtain ⟨q, hq⟩ := marksWhere_of_isInvalidation h₂
  have h₁₂ := (hp w hw).trans (hq _ (hw.step e₁))
  have h₂₁ := (hq w hw).trans (hp _ (hw.step e₂))
  have h₁₁ := (hp w hw).trans (hp _ (hw.step e₁))
  exact ⟨h₁₂.entries_eq h₂₁ fun _ _ => Bool.or_comm _ _,
    h₁₁.entries_eq (hp w hw) fun _ _ => Bool.or_self _⟩

/-- A coin-flip settlement for one player and an `invalidatePrefix` of the games, over two
stored games. -/
theorem invalidations_commute_coinFlip :
    let w : World Nat := (World.init none 0).run
      [.set (QueryKeys.games.byId (.str (jsString "7"))) 1 none,
        .set (QueryKeys.games.recentByAddress (jsString "GAAA")) 2 none]
    let e₁ : Event Nat := .applyRules ⟨some ⟨jsString "coinFlip", some [jsString "GAAA"], none⟩, none⟩
    let e₂ : Event Nat := .invalidatePrefix QueryKeys.games.root
    SlotsConsistent w.cache.entries ∧ e₁.isInvalidation = true ∧ e₂.isInvalidation = true ∧
      ((w.step e₁).step e₂).cache.entries = ((w.step e₂).step e₁).cache.entries ∧
      ((w.step e₁).step e₁).cache.entries = (w.step e₁).cache.entries :=
  have hw : SlotsConsistent ((World.init (α := Nat) none 0).run
      [.set (QueryKeys.games.byId (.str (jsString "7"))) 1 none,
        .set (QueryKeys.games.recentByAddress (jsString "GAAA")) 2 none]).cache.entries :=
    slotsConsistent_run _ fun _ _ h => by simp [World.init] at h
  ⟨hw, rfl, rfl, invalidations_commute hw rfl rfl⟩

/-- **`ensureDependencies` does not commute with `invalidate`.** Take a fresh dependency
and a stored parent at another slot. Checked before the dependency is invalidated,
`ensureDependencies` leaves the parent as it is; checked after, it marks the parent. -/
theorem ensureDependencies_invalidate_not_commute {w : World α} {parent dep : QueryKey}
    {e : CacheEntry α} (hdep : w.isStale dep = false) (hparent : w.get parent = some e)
    (hne : keyToString parent ≠ keyToString dep) :
    ((w.step (.ensureDependencies parent [dep])).step (.invalidate dep)).get parent = some e ∧
      ((w.step (.invalidate dep)).step (.ensureDependencies parent [dep])).get parent =
        some (e.invalidated w.now) := by
  have hkeep : (w.invalidate dep).get parent = some e := by
    simpa [get, hne] using hparent
  have hstale : (w.invalidate dep).isStale dep = true := by
    obtain ⟨ed, hed⟩ : ∃ ed, w.get dep = some ed := by
      cases h : w.get dep <;> simp_all [isStale]
    exact isStale_of_invalidated (by simp_all [get, CacheEntry.invalidated])
  constructor
  · simpa [step, ensureDependencies, hdep] using hkeep
  · simp_all [step, ensureDependencies, get]

/-- A profile that depends on a balance, both written at `0`. -/
example :
    let parent := QueryKeys.profile.byAddress (jsString "GAAA")
    let dep := QueryKeys.balances.account (jsString "GAAA")
    let w : World Nat := (World.init none 0).run [.set parent 1 none, .set dep 2 none]
    (((w.step (.ensureDependencies parent [dep])).step (.invalidate dep)).get parent).map
        (·.meta.invalidatedAt) = some none ∧
      (((w.step (.invalidate dep)).step (.ensureDependencies parent [dep])).get parent).map
        (·.meta.invalidatedAt) = some (some 0) := by
  decide

end World

end StellarCade.Cache
