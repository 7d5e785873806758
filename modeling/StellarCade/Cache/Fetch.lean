import StellarCade.Cache.Eviction

/-!
# Fetches: failures, writes, and the refetch loop

`getOrFetch` and `refetch` await their fetcher; what they do once it settles is
`settle`, run in whatever world the other operations have left by then. This file says
what each outcome does to the store:

* with no fetcher registered neither method changes anything, and `getOrFetch` still
  returns the data of a fresh entry, since it reads the cache before it looks for a
  fetcher;
* a rejection changes no entry for `getOrFetch`, and for `refetch` only marks the entry
  at the key's slot invalidated (`fetch_failure_frames`);
* a write keeps the `invalidatedAt` of the entry it replaces, so a key that was
  invalidated stays stale through every later write (`set_keeps_invalidatedAt`);
* a rejected `refetch` calls `invalidate`, which starts the next `refetch` when the
  entry's policy asks for one: with a fetcher that always rejects, the loop never ends
  (`refetch_loop_calls`).
-/

namespace StellarCade.Cache

open StellarCade.Js

variable {α : Type}

namespace World

/-! ## Failures -/

/-- **A failed fetch leaves the data alone.** With no fetcher registered for `k`,
`refetch` returns the missing-fetcher error; `getOrFetch` returns the data of a fresh
entry, and the missing-fetcher error when the key is stale or has no entry; neither
changes anything. When the `i`-th fetch in flight rejects, whatever the other operations
did meanwhile, the call returns the error; a `getOrFetch` changes nothing but the fetches
in flight, and a `refetch` keeps the fetchers, the bound and the stored keys, and changes
no entry except by marking the one at its key's slot invalidated. -/
theorem fetch_failure_frames (w : World α) (k : QueryKey) :
    (w.cache.fetchers.get (keyToString k) = none →
      w.refetch k = (.error (missingFetcher k), w) ∧
      (∀ e, w.get k = some e → w.isStale k = false → w.getOrFetch k = (.data e.data, w)) ∧
      (w.isStale k = true → w.getOrFetch k = (.error (missingFetcher k), w))) ∧
    (∀ i c x, w.inflight.get? i = some c →
      ∃ w', w.settle i (.rejected x) = some (.error ⟨.thrown x, none, .key c.key⟩, w') ∧
        (c.op = .getOrFetch → w' = { w with inflight := w.inflight.eraseIdx i }) ∧
        (c.op = .refetch → w'.cache.fetchers = w.cache.fetchers ∧
          w'.cache.maxEntries = w.cache.maxEntries ∧
          w'.cache.entries.keys = w.cache.entries.keys ∧
          ∀ s, w'.cache.entries.get s = if s = keyToString c.key then
            (w.cache.entries.get s).map (·.invalidated w.now) else w.cache.entries.get s)) := by
  refine ⟨fun hf => ⟨by simp [refetch, hf], fun e he hst => getOrFetch_of_fresh w k he hst,
    fun hst => by simp only [getOrFetch_of_isStale w k hst, hf]⟩, fun i ⟨op, key, f⟩ x hc => ?_⟩
  cases op with
  | getOrFetch => exact ⟨_, by unfold settle; rw [hc], fun _ => rfl, fun h => nomatch h⟩
  | refetch =>
    refine ⟨_, by unfold settle; rw [hc], (fun h => nomatch h), fun _ => ⟨by simp, by simp, by simp, ?_⟩⟩
    intro s
    split_ifs with h <;> simp [h]

/-- A getOrFetch started, then the fetcher unregistered: both parts of
`fetch_failure_frames` apply. -/
theorem fetch_failure_frames_unregistered :
    let k := QueryKeys.games.byId (.str (jsString "1"))
    let w : World Nat := (World.init none 0).run [.registerFetcher k 3, .getOrFetch k, .unregisterFetcher k]
    w.cache.fetchers.get (keyToString k) = none ∧ w.inflight.get? 0 = some ⟨.getOrFetch, k, 3⟩ ∧
    ((w.cache.fetchers.get (keyToString k) = none →
      w.refetch k = (.error (missingFetcher k), w) ∧
      (∀ e, w.get k = some e → w.isStale k = false → w.getOrFetch k = (.data e.data, w)) ∧
      (w.isStale k = true → w.getOrFetch k = (.error (missingFetcher k), w))) ∧
    (∀ i c x, w.inflight.get? i = some c →
      ∃ w', w.settle i (.rejected x) = some (.error ⟨.thrown x, none, .key c.key⟩, w') ∧
        (c.op = .getOrFetch → w' = { w with inflight := w.inflight.eraseIdx i }) ∧
        (c.op = .refetch → w'.cache.fetchers = w.cache.fetchers ∧
          w'.cache.maxEntries = w.cache.maxEntries ∧
          w'.cache.entries.keys = w.cache.entries.keys ∧
          ∀ s, w'.cache.entries.get s = if s = keyToString c.key then
            (w.cache.entries.get s).map (·.invalidated w.now) else w.cache.entries.get s))) :=
  ⟨by decide, by decide, fetch_failure_frames _ _⟩

/-- With no fetcher registered, `getOrFetch` of a fresh entry returns its data, not an
error. -/
theorem getOrFetch_fresh_without_fetcher :
    let k := QueryKeys.profile.byAddress (jsString "GA")
    let w : World Nat := (World.init none 0).run [.set k 7 none]
    w.cache.fetchers.get (keyToString k) = none ∧ (w.getOrFetch k).1 = .data 7 := by
  decide

/-! ## Writes keep `invalidatedAt` -/

/-- Unbounded, or within a positive bound, `set` keeps the entry it writes. -/
theorem get_set_of_bound {w : World α} (hw : Reachable w)
    (hmax : w.cache.maxEntries = none ∨ ∃ N, 0 < N ∧ w.cache.maxEntries = some N)
    (k : QueryKey) (d : α) (p : Option QueryPolicy) :
    (w.set k d p).get k = some (writtenEntry (w.get k) w.now k d (effectivePolicy k p)) := by
  rcases hmax with hmax | ⟨N, hN, hmax⟩
  · simp [World.get, set, enforceMaxEntries, hmax, evictionVictims]
  · exact get_set_self k d p hN hw.inv hmax (hw.size_le hN hmax)

/-- `set` copies `invalidatedAt` from the entry it replaces: after a write to a key whose
entry is invalidated, the entry holds the new data but is still invalidated, and `isStale`
is `true` at once. -/
theorem set_keeps_invalidatedAt {w : World α} (hw : Reachable w)
    (hmax : w.cache.maxEntries = none ∨ ∃ N, 0 < N ∧ w.cache.maxEntries = some N)
    (k : QueryKey) (d : α) (p : Option QueryPolicy)
    (hinv : ((w.get k).bind (·.meta.invalidatedAt)).isSome) :
    ∃ e', (w.set k d p).get k = some e' ∧ e'.data = d ∧
      e'.meta.invalidatedAt = (w.get k).bind (·.meta.invalidatedAt) ∧ (w.set k d p).isStale k = true :=
  ⟨_, get_set_of_bound hw hmax k d p, rfl, rfl, by
    simp [isStale, get_set_of_bound hw hmax k d p, writtenEntry, hinv]⟩

/-- A rewards entry written with a one-minute policy and invalidated at `5`, written again at
`10`: the new entry still has `invalidatedAt = 5`, and the key is stale at once. -/
theorem rewrite_after_invalidate_stays_stale :
    let k := QueryKeys.rewards.byAddress (jsString "GAAA")
    let p : Option QueryPolicy := some ⟨60000, false⟩
    let w : World Nat := (World.init none 0).run [.set k 1 p, .tick 5, .invalidate k, .tick 10]
    Reachable w ∧ (w.cache.maxEntries = none ∨ ∃ N, 0 < N ∧ w.cache.maxEntries = some N) ∧
    ((w.get k).bind (·.meta.invalidatedAt)).isSome ∧
    (∃ e', (w.set k 2 p).get k = some e' ∧ e'.data = 2 ∧
      e'.meta.invalidatedAt = (w.get k).bind (·.meta.invalidatedAt) ∧ (w.set k 2 p).isStale k = true) ∧
    (w.get k).bind (·.meta.invalidatedAt) = some 5 :=
  have hw : Reachable ((World.init (α := Nat) none 0).run
      [.set (QueryKeys.rewards.byAddress (jsString "GAAA")) 1 (some ⟨60000, false⟩), .tick 5,
        .invalidate (QueryKeys.rewards.byAddress (jsString "GAAA")), .tick 10]) :=
    (Reachable.init none 0).run (by decide)
  ⟨hw, .inl rfl, by decide, set_keeps_invalidatedAt hw (.inl rfl) _ 2 _ (by decide), by decide⟩

/-! ## The refetch loop -/

theorem exists_of_any {β : Type} {p : β → Bool} :
    ∀ {o : Option β}, o.any p = true → ∃ y, o = some y ∧ p y = true
  | some y, h => ⟨y, rfl, h⟩

/-- `invalidate` of an entry whose policy refetches, with a fetcher registered: mark the
entry, notify, and call the fetcher. -/
theorem invalidate_refetches {w : World α} {k : QueryKey} {e : CacheEntry α} {f : FetcherId}
    (he : w.cache.entries.get (keyToString k) = some e) (hp : e.policy.refetchOnInvalidate = true)
    (hf : w.cache.fetchers.get (keyToString k) = some f) :
    w.invalidate k = { w with
      cache := { w.cache with
        entries := w.cache.entries.set (keyToString k) (e.invalidated w.now) }
      inflight := w.inflight ++ [⟨.refetch, k, f⟩]
      log := w.log ++ [.notify k (some (e.invalidated w.now)), .call k f] } := by
  simp [invalidate, he, CacheEntry.invalidated, hp, refetch, hf, await, notify, withEntries]

/-- The one fetch in flight is a refetch of `k` by `f`, `f` is `k`'s fetcher, and the entry
at `k`'s slot asks for a refetch on invalidation. -/
def Refetching (w : World α) (k : QueryKey) (f : FetcherId) : Prop :=
  (w.cache.entries.get (keyToString k)).any (·.policy.refetchOnInvalidate) = true ∧
    w.cache.fetchers.get (keyToString k) = some f ∧ w.inflight = [⟨.refetch, k, f⟩]

/-- A rejection of the refetch in flight starts the next one: one more fetcher call, and
`Refetching` again. -/
theorem Refetching.settle_rejected {w : World α} {k : QueryKey} {f : FetcherId}
    (h : w.Refetching k f) (x : Nat) :
    ∃ w', w.settle 0 (.rejected x) = some (.error ⟨.thrown x, none, .key k⟩, w') ∧
      w'.Refetching k f ∧ ∃ e, w'.log = w.log ++ [.notify k (some e), .call k f] := by
  obtain ⟨hp, hf, hi⟩ := h
  obtain ⟨e, he, hp⟩ := exists_of_any hp
  refine ⟨_, by unfold settle; rw [hi]; rfl, ?_⟩
  change ({ w with inflight := [] }.invalidate k).Refetching k f ∧
    ∃ e, ({ w with inflight := [] }.invalidate k).log = _
  rw [invalidate_refetches (w := { w with inflight := [] }) he hp hf]
  exact ⟨⟨by simpa using hp, hf, rfl⟩, _, rfl⟩

theorem Refetching.run_rejected [DecidableEq α] {w : World α} {k : QueryKey} {f : FetcherId}
    (h : w.Refetching k f) (x n : Nat) :
    (w.run (List.replicate n (.settle 0 (.rejected x)))).Refetching k f ∧
      (w.run (List.replicate n (.settle 0 (.rejected x)))).log.count (.call k f) =
        w.log.count (.call k f) + n := by
  induction n generalizing w with
  | zero => exact ⟨h, rfl⟩
  | succ n ih =>
    obtain ⟨w', hs, h', e, hlog⟩ := h.settle_rejected x
    rw [List.replicate_succ, run_cons, step, hs, Option.map_some', Option.getD_some]
    obtain ⟨h1, h2⟩ := ih h'
    refine ⟨h1, ?_⟩
    rw [h2, hlog, List.count_append]
    simp
    omega

/-- **A failing refetch never stops.** When the entry at `k`'s slot asks for a refetch on
invalidation, `f` is `k`'s fetcher and no fetch is in flight: after `invalidate k` and then
`n` rejections of the fetch in flight, with no other operation, `f` has been called
`n + 1` times and a refetch of `k` is in flight again. -/
theorem refetch_loop_calls [DecidableEq α] {w : World α} {k : QueryKey} {f : FetcherId}
    (hp : (w.cache.entries.get (keyToString k)).any (·.policy.refetchOnInvalidate) = true)
    (hf : w.cache.fetchers.get (keyToString k) = some f) (hi : w.inflight = []) (x n : Nat) :
    ((w.invalidate k).run (List.replicate n (.settle 0 (.rejected x)))).log.count (.call k f) =
        w.log.count (.call k f) + n + 1 ∧
      ((w.invalidate k).run (List.replicate n (.settle 0 (.rejected x)))).inflight =
        [⟨.refetch, k, f⟩] := by
  obtain ⟨e, he, hp'⟩ := exists_of_any hp
  have hinv := invalidate_refetches he hp' hf
  have hstart : (w.invalidate k).Refetching k f :=
    ⟨by simpa [hinv] using hp', by rw [hinv]; exact hf, by rw [hinv, hi]; rfl⟩
  obtain ⟨h1, h2⟩ := hstart.run_rejected x n
  refine ⟨?_, h1.2.2⟩
  rw [h2, hinv, List.count_append]
  simp
  omega

/-- A rewards entry with its namespace's policy and a fetcher that always rejects: after
`invalidate`, three rejections leave the fetcher called four times and a refetch in flight. -/
theorem rewards_refetch_loop :
    let k := QueryKeys.rewards.byAddress (jsString "GAAA")
    let w : World Nat := (World.init none 0).run [.set k 1 none, .registerFetcher k 0]
    (w.cache.entries.get (keyToString k)).any (·.policy.refetchOnInvalidate) = true ∧
    w.cache.fetchers.get (keyToString k) = some 0 ∧ w.inflight = [] ∧
    (((w.invalidate k).run (List.replicate 3 (.settle 0 (.rejected 0)))).log.count (.call k 0) =
        w.log.count (.call k 0) + 3 + 1 ∧
      ((w.invalidate k).run (List.replicate 3 (.settle 0 (.rejected 0)))).inflight =
        [⟨.refetch, k, 0⟩]) ∧
    w.log.count (.call k 0) = 0 :=
  ⟨by decide, by decide, by decide, refetch_loop_calls (by decide) (by decide) (by decide) 0 3,
    by decide⟩

end World

end StellarCade.Cache
