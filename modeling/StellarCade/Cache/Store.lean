import StellarCade.Cache.Key
import StellarCade.Js.Map
import Mathlib.Data.List.Sort

/-!
# The `QueryCache` store

`QueryCache` keeps three maps: `entries` and `fetchers`, both keyed by `keyToString`, and
the set of subscribers. Its operations are synchronous except for the two that await a
fetcher, `getOrFetch` and `refetch`. The model splits each of those at its `await`:

* the part before the `await` runs when the method is called; it may call the fetcher,
  and the cache then waits on the promise (`InFlight`);
* the part after it runs later, when that promise settles (`settle`), in whatever state
  the other operations have left the cache by then.

The cache lives in a `World` that also holds the clock (`Date.now()`), the fetches in
flight, and the log of what the outside has seen: each subscriber notification and
each fetcher call, in order. Subscribers are not kept: `notify` calls every subscriber
registered at that moment with the same event, so one log serves them all.

`invalidate` does not wait for the `refetch` it starts (`void this.refetch(key)`): only
the synchronous part of `refetch` runs inside it.
-/

namespace StellarCade.Cache

open StellarCade.Js

/-- `CacheEntryMeta`. -/
structure CacheEntryMeta where
  createdAt : Int
  updatedAt : Int
  staleAt : Int
  invalidatedAt : Option Int
  deriving DecidableEq, Repr

/-- `CacheEntry<T>`. -/
structure CacheEntry (α : Type) where
  key : QueryKey
  data : α
  meta : CacheEntryMeta
  policy : QueryPolicy
  deriving DecidableEq, Repr

/-- A registered fetcher, by identity: what it returns is up to the outside world. -/
abbrev FetcherId := Nat

/-- What `toAppError` is handed as the failure. -/
inductive Failure where
  /-- `new Error(message)` raised by the cache itself. -/
  | message (text : String)
  /-- The value a fetcher's promise rejected with, by identity. -/
  | thrown (reason : Nat)
  deriving DecidableEq, Repr

/-- What `toAppError` is handed as the diagnostic context. -/
inductive ErrorContext where
  | key (key : QueryKey)
  | dependency (parent dep : QueryKey)
  deriving DecidableEq, Repr

/-- An `AppError`, as the arguments of the `toAppError` call that builds it. -/
structure AppError where
  failure : Failure
  kind : Option String
  context : ErrorContext
  deriving DecidableEq, Repr

/-- The error both fetch paths return when no fetcher is registered. -/
def missingFetcher (key : QueryKey) : AppError := ⟨.message "Missing fetcher", none, .key key⟩

/-- How an awaited fetcher promise settles. -/
inductive Settled (α : Type) where
  | resolved (data : α)
  | rejected (reason : Nat)
  deriving DecidableEq, Repr

/-- What a fetch method has returned so far: `{ data }`, `{ error }`, or nothing yet
because it awaits its fetcher. -/
inductive Reply (α : Type) where
  | data (d : α)
  | error (e : AppError)
  | pending
  deriving DecidableEq, Repr

/-- Which method awaits a fetch. -/
inductive FetchOp where
  | getOrFetch
  | refetch
  deriving DecidableEq, Repr

/-- A fetcher call the cache is waiting on. -/
structure InFlight where
  op : FetchOp
  key : QueryKey
  fetcher : FetcherId
  deriving DecidableEq, Repr

/-- What the outside sees: a subscriber notification `(key, entry | null)`, or a call
of a fetcher. -/
inductive Effect (α : Type) where
  | notify (key : QueryKey) (entry : Option (CacheEntry α))
  | call (key : QueryKey) (fetcher : FetcherId)
  deriving DecidableEq, Repr

/-- The fields of a `QueryCache` instance, subscribers aside. -/
structure QueryCache (α : Type) where
  entries : JsMap JsString (CacheEntry α)
  fetchers : JsMap JsString FetcherId
  maxEntries : Option Int

/-- A cache with its surroundings. -/
structure World (α : Type) where
  cache : QueryCache α
  now : Int
  inflight : List InFlight
  log : List (Effect α)

variable {α : Type}

/-- `new QueryCache({ maxEntries })`, with the clock at `now`. -/
def World.init (maxEntries : Option Int) (now : Int) : World α :=
  ⟨⟨.empty, .empty, maxEntries⟩, now, [], []⟩

/-! ## Entries -/

/-- The entry `set(key, data, policy)` writes over `existing`, at time `ts`. Note that
`invalidatedAt` is copied from the entry it replaces. -/
def writtenEntry (existing : Option (CacheEntry α)) (ts : Int) (key : QueryKey) (data : α)
    (policy : QueryPolicy) : CacheEntry α where
  key := key
  data := data
  policy := policy
  meta :=
    { createdAt := (existing.map (·.meta.createdAt)).getD ts
      updatedAt := ts
      staleAt := ts + policy.staleTimeMs
      invalidatedAt := existing.bind (·.meta.invalidatedAt) }

/-- The entry `invalidate` stores: `{ ...e, meta: { ...e.meta, invalidatedAt: ts } }`. -/
def CacheEntry.invalidated (e : CacheEntry α) (ts : Int) : CacheEntry α :=
  { e with meta := { e.meta with invalidatedAt := some ts } }

/-- Stable ascending order on `updatedAt`, the comparator `a.meta.updatedAt - b.meta.updatedAt`. -/
def updatedBefore (a b : CacheEntry α) : Prop := a.meta.updatedAt ≤ b.meta.updatedAt

instance : DecidableRel (updatedBefore (α := α)) := fun a b =>
  inferInstanceAs (Decidable (a.meta.updatedAt ≤ b.meta.updatedAt))

/-- The entries `enforceMaxEntries` deletes: none if `!this.maxEntries` or the bound holds;
otherwise the first `size - maxEntries` of the values sorted by `updatedAt`.
`Array.prototype.sort` is stable, and every stable sort gives `insertionSort`'s order. -/
def evictionVictims (entries : JsMap JsString (CacheEntry α)) : Option Int → List (CacheEntry α)
  | none => []
  | some m =>
    if m = 0 then []
    else if (entries.size : Int) ≤ m then []
    else (entries.values.insertionSort updatedBefore).take ((entries.size : Int) - m).toNat

namespace World

/-- `get(key)`. -/
def get (w : World α) (key : QueryKey) : Option (CacheEntry α) :=
  w.cache.entries.get (keyToString key)

/-- Replace the entries map. -/
def withEntries (w : World α) (m : JsMap JsString (CacheEntry α)) : World α :=
  { w with cache := { w.cache with entries := m } }

/-- `notify(key, entry)`. -/
def notify (w : World α) (key : QueryKey) (entry : Option (CacheEntry α)) : World α :=
  { w with log := w.log ++ [.notify key entry] }

/-- `enforceMaxEntries()`. -/
def enforceMaxEntries (w : World α) : World α :=
  w.withEntries (((evictionVictims w.cache.entries w.cache.maxEntries).map
    fun victim => keyToString victim.key).foldl JsMap.delete w.cache.entries)

/-- `set(key, data, policy)`: write, evict, then notify. -/
def set (w : World α) (key : QueryKey) (data : α) (policy : Option QueryPolicy) : World α :=
  let entry := writtenEntry (w.get key) w.now key data (effectivePolicy key policy)
  ((w.withEntries (w.cache.entries.set (keyToString key) entry)).enforceMaxEntries).notify key
    (some entry)

/-- `isStale(key)`. -/
def isStale (w : World α) (key : QueryKey) : Bool :=
  match w.get key with
  | none => true
  | some e => e.meta.invalidatedAt.isSome || decide (e.meta.staleAt ≤ w.now)

/-- Call fetcher `f` for `key` and wait on its promise. -/
def await (w : World α) (op : FetchOp) (key : QueryKey) (f : FetcherId) : World α :=
  { w with inflight := w.inflight ++ [⟨op, key, f⟩], log := w.log ++ [.call key f] }

/-- `refetch(key)` up to its `await`. -/
def refetch (w : World α) (key : QueryKey) : Reply α × World α :=
  match w.cache.fetchers.get (keyToString key) with
  | none => (.error (missingFetcher key), w)
  | some f => (.pending, w.await .refetch key f)

/-- `getOrFetch(key)` up to its `await`. -/
def getOrFetch (w : World α) (key : QueryKey) : Reply α × World α :=
  match w.get key, w.isStale key with
  | some e, false => (.data e.data, w)
  | _, _ =>
    match w.cache.fetchers.get (keyToString key) with
    | none => (.error (missingFetcher key), w)
    | some f => (.pending, w.await .getOrFetch key f)

/-- `invalidate(key)`: mark the entry, notify, and start a refetch without waiting for it
when the entry's policy asks for one. -/
def invalidate (w : World α) (key : QueryKey) : World α :=
  match w.cache.entries.get (keyToString key) with
  | none => w
  | some e =>
    let updated := e.invalidated w.now
    let w' := (w.withEntries (w.cache.entries.set (keyToString key) updated)).notify key
      (some updated)
    if updated.policy.refetchOnInvalidate then (w'.refetch key).2 else w'

/-- `invalidatePrefix(prefix)`: invalidate each stored entry under the prefix. The loop
walks the values live, but `invalidate` only overwrites slots that exist, so it sees the
values it started with. -/
def invalidatePrefix (w : World α) (pfx : QueryKey) : World α :=
  w.cache.entries.values.foldl (fun w e => if hasPrefix e.key pfx then w.invalidate e.key else w) w

/-- `remove(key)`. -/
def remove (w : World α) (key : QueryKey) : World α :=
  (w.withEntries (w.cache.entries.delete (keyToString key))).notify key none

/-- `clear()`: notify `null` for each stored entry, then empty the map. -/
def clear (w : World α) : World α :=
  { w.withEntries .empty with log := w.log ++ w.cache.entries.values.map fun e => .notify e.key none }

/-- `registerFetcher(key, fetcher)`. -/
def registerFetcher (w : World α) (key : QueryKey) (f : FetcherId) : World α :=
  { w with cache := { w.cache with fetchers := w.cache.fetchers.set (keyToString key) f } }

/-- `unregisterFetcher(key)`. -/
def unregisterFetcher (w : World α) (key : QueryKey) : World α :=
  { w with cache := { w.cache with fetchers := w.cache.fetchers.delete (keyToString key) } }

/-- The rest of `getOrFetch`/`refetch` once the `i`-th awaited fetch settles: a resolved
value is written with `set` and returned; a rejection is returned as an error, and
`refetch` first invalidates the key. -/
def settle (w : World α) (i : Nat) (s : Settled α) : Option (Reply α × World α) :=
  match w.inflight.get? i with
  | none => none
  | some c =>
    let w := { w with inflight := w.inflight.eraseIdx i }
    match s, c.op with
    | .resolved d, _ => some (.data d, w.set c.key d none)
    | .rejected r, .getOrFetch => some (.error ⟨.thrown r, none, .key c.key⟩, w)
    | .rejected r, .refetch => some (.error ⟨.thrown r, none, .key c.key⟩, w.invalidate c.key)

/-- `ensureDependencies(parent, deps)`: at the first stale dependency, invalidate the
parent and report that dependency. -/
def ensureDependencies (w : World α) (parent : QueryKey) (deps : List QueryKey) :
    Except AppError Unit × World α :=
  match deps.find? (w.isStale ·) with
  | some dep =>
    (.error ⟨.message "Dependency stale", some "unknown", .dependency parent dep⟩, w.invalidate parent)
  | none => (.ok (), w)

/-! ## What each operation does to the store -/

section Lemmas

variable (w : World α) (k : QueryKey)

@[simp] theorem withEntries_entries (m : JsMap JsString (CacheEntry α)) :
    (w.withEntries m).cache.entries = m := rfl
@[simp] theorem withEntries_fetchers (m : JsMap JsString (CacheEntry α)) :
    (w.withEntries m).cache.fetchers = w.cache.fetchers := rfl
@[simp] theorem withEntries_maxEntries (m : JsMap JsString (CacheEntry α)) :
    (w.withEntries m).cache.maxEntries = w.cache.maxEntries := rfl
@[simp] theorem withEntries_now (m : JsMap JsString (CacheEntry α)) :
    (w.withEntries m).now = w.now := rfl
@[simp] theorem withEntries_inflight (m : JsMap JsString (CacheEntry α)) :
    (w.withEntries m).inflight = w.inflight := rfl
@[simp] theorem withEntries_log (m : JsMap JsString (CacheEntry α)) :
    (w.withEntries m).log = w.log := rfl

@[simp] theorem notify_cache (e : Option (CacheEntry α)) : (w.notify k e).cache = w.cache := rfl
@[simp] theorem notify_now (e : Option (CacheEntry α)) : (w.notify k e).now = w.now := rfl
@[simp] theorem notify_inflight (e : Option (CacheEntry α)) :
    (w.notify k e).inflight = w.inflight := rfl
@[simp] theorem notify_log (e : Option (CacheEntry α)) :
    (w.notify k e).log = w.log ++ [.notify k e] := rfl

@[simp] theorem await_cache (op : FetchOp) (f : FetcherId) : (w.await op k f).cache = w.cache := rfl
@[simp] theorem await_now (op : FetchOp) (f : FetcherId) : (w.await op k f).now = w.now := rfl

@[simp] theorem enforceMaxEntries_fetchers : w.enforceMaxEntries.cache.fetchers = w.cache.fetchers :=
  rfl
@[simp] theorem enforceMaxEntries_maxEntries :
    w.enforceMaxEntries.cache.maxEntries = w.cache.maxEntries := rfl
@[simp] theorem enforceMaxEntries_now : w.enforceMaxEntries.now = w.now := rfl

@[simp] theorem refetch_cache : (w.refetch k).2.cache = w.cache := by
  unfold refetch; split <;> rfl
@[simp] theorem refetch_now : (w.refetch k).2.now = w.now := by
  unfold refetch; split <;> rfl

@[simp] theorem getOrFetch_cache : (w.getOrFetch k).2.cache = w.cache := by
  unfold getOrFetch; split <;> (try split) <;> rfl
@[simp] theorem getOrFetch_now : (w.getOrFetch k).2.now = w.now := by
  unfold getOrFetch; split <;> (try split) <;> rfl

/-- `getOrFetch` of a fresh entry returns its data and changes nothing. -/
theorem getOrFetch_of_fresh {e : CacheEntry α} (he : w.get k = some e) (hst : w.isStale k = false) :
    w.getOrFetch k = (.data e.data, w) := by
  simp only [getOrFetch, he, hst]

/-- `getOrFetch` of a stale or missing key calls the registered fetcher, or returns the
missing-fetcher error without one. -/
theorem getOrFetch_of_isStale (hst : w.isStale k = true) :
    w.getOrFetch k = match w.cache.fetchers.get (keyToString k) with
      | none => (.error (missingFetcher k), w)
      | some f => (.pending, w.await .getOrFetch k f) := by
  unfold getOrFetch
  split
  · simp_all
  · rfl

/-- `invalidate` leaves a missing key alone; otherwise it stores the marked entry,
notifies, and starts a refetch or not. -/
theorem invalidate_cases :
    (w.cache.entries.get (keyToString k) = none ∧ w.invalidate k = w) ∨
    ∃ e, w.cache.entries.get (keyToString k) = some e ∧
      (w.invalidate k = (w.withEntries (w.cache.entries.set (keyToString k) (e.invalidated w.now))).notify
          k (some (e.invalidated w.now)) ∨
       w.invalidate k = (((w.withEntries (w.cache.entries.set (keyToString k)
          (e.invalidated w.now))).notify k (some (e.invalidated w.now))).refetch k).2) := by
  cases h : w.cache.entries.get (keyToString k) with
  | none => exact .inl ⟨rfl, by simp only [invalidate, h]⟩
  | some e =>
    refine .inr ⟨e, rfl, ?_⟩
    simp only [invalidate, h]
    split
    · exact .inr rfl
    · exact .inl rfl

@[simp] theorem invalidate_entries :
    (w.invalidate k).cache.entries = w.cache.entries.modify (keyToString k) (·.invalidated w.now) := by
  rcases invalidate_cases w k with ⟨h, h'⟩ | ⟨e, h, h' | h'⟩ <;>
    simp [h', JsMap.modify, h]

@[simp] theorem invalidate_fetchers : (w.invalidate k).cache.fetchers = w.cache.fetchers := by
  rcases invalidate_cases w k with ⟨h, h'⟩ | ⟨e, h, h' | h'⟩ <;> simp [h']

@[simp] theorem invalidate_maxEntries : (w.invalidate k).cache.maxEntries = w.cache.maxEntries := by
  rcases invalidate_cases w k with ⟨h, h'⟩ | ⟨e, h, h' | h'⟩ <;> simp [h']

@[simp] theorem invalidate_now : (w.invalidate k).now = w.now := by
  rcases invalidate_cases w k with ⟨h, h'⟩ | ⟨e, h, h' | h'⟩ <;> simp [h']

@[simp] theorem set_now (d : α) (p : Option QueryPolicy) : (w.set k d p).now = w.now := rfl
@[simp] theorem set_fetchers (d : α) (p : Option QueryPolicy) :
    (w.set k d p).cache.fetchers = w.cache.fetchers := rfl
@[simp] theorem set_maxEntries (d : α) (p : Option QueryPolicy) :
    (w.set k d p).cache.maxEntries = w.cache.maxEntries := rfl

/-- After `set`, a stored entry is the one just written or one that was there before. -/
theorem get_set_of_some {d : α} {p : Option QueryPolicy} {s : JsString} {b : CacheEntry α}
    (h : (w.set k d p).cache.entries.get s = some b) :
    (s = keyToString k ∧ b = writtenEntry (w.get k) w.now k d (effectivePolicy k p)) ∨
      (s ≠ keyToString k ∧ w.cache.entries.get s = some b) := by
  simp only [set, notify_cache, enforceMaxEntries, withEntries_entries, JsMap.get_foldl_delete,
    JsMap.get_set] at h
  split_ifs at h with h1 h2
  · exact .inl ⟨h2, (Option.some.inj h).symm⟩
  · exact .inr ⟨h2, h⟩

@[simp] theorem remove_now : (w.remove k).now = w.now := rfl
@[simp] theorem remove_maxEntries : (w.remove k).cache.maxEntries = w.cache.maxEntries := rfl
@[simp] theorem remove_entries :
    (w.remove k).cache.entries = w.cache.entries.delete (keyToString k) := rfl

@[simp] theorem clear_now : w.clear.now = w.now := rfl
@[simp] theorem clear_maxEntries : w.clear.cache.maxEntries = w.cache.maxEntries := rfl
@[simp] theorem clear_entries : w.clear.cache.entries = .empty := rfl

@[simp] theorem registerFetcher_now (f : FetcherId) : (w.registerFetcher k f).now = w.now := rfl
@[simp] theorem registerFetcher_entries (f : FetcherId) :
    (w.registerFetcher k f).cache.entries = w.cache.entries := rfl
@[simp] theorem registerFetcher_maxEntries (f : FetcherId) :
    (w.registerFetcher k f).cache.maxEntries = w.cache.maxEntries := rfl
@[simp] theorem unregisterFetcher_now : (w.unregisterFetcher k).now = w.now := rfl
@[simp] theorem unregisterFetcher_entries :
    (w.unregisterFetcher k).cache.entries = w.cache.entries := rfl
@[simp] theorem unregisterFetcher_maxEntries :
    (w.unregisterFetcher k).cache.maxEntries = w.cache.maxEntries := rfl

/-- What settling the `i`-th fetch can do: write the value, return the error, or return it
after invalidating the key. -/
theorem settle_cases {i : Nat} {s : Settled α} {r : Reply α} {w' : World α}
    (h : w.settle i s = some (r, w')) :
    ∃ c, w.inflight.get? i = some c ∧
      ((∃ d, s = .resolved d ∧ r = .data d ∧
          w' = { w with inflight := w.inflight.eraseIdx i }.set c.key d none) ∨
        (∃ x, s = .rejected x ∧ c.op = .getOrFetch ∧ r = .error ⟨.thrown x, none, .key c.key⟩ ∧
          w' = { w with inflight := w.inflight.eraseIdx i }) ∨
        (∃ x, s = .rejected x ∧ c.op = .refetch ∧ r = .error ⟨.thrown x, none, .key c.key⟩ ∧
          w' = { w with inflight := w.inflight.eraseIdx i }.invalidate c.key)) := by
  unfold settle at h
  split at h
  · cases h
  · next c hc =>
    refine ⟨c, hc, ?_⟩
    split at h <;> simp only [Option.some.injEq, Prod.mk.injEq] at h <;> obtain ⟨rfl, rfl⟩ := h
    · exact .inl ⟨_, rfl, rfl, rfl⟩
    · exact .inr (.inl ⟨_, rfl, ‹_›, rfl, rfl⟩)
    · exact .inr (.inr ⟨_, rfl, ‹_›, rfl, rfl⟩)

end Lemmas

end World

end StellarCade.Cache
