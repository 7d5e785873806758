import StellarCade.Cache.Invalidator

/-!
# Runs of the cache

Everything that can happen to a cache is an `Event`: a call of one of its methods, a
fetch promise settling, or the clock moving. `step` applies one event, `run` a list of
them in order. The interleavings the code allows are exactly the orders of such a list:
a fetch in flight settles whenever its `settle` event comes, with any other events
before it.

`Reachable` is the set of worlds a cache reaches from its construction with a clock that
never goes back, the assumption under which the code's timestamps are ordered.
-/

namespace StellarCade.Cache

open StellarCade.Js

/-- One thing that happens to a cache. -/
inductive Event (α : Type) where
  | set (key : QueryKey) (data : α) (policy : Option QueryPolicy)
  | invalidate (key : QueryKey)
  | invalidatePrefix (pfx : QueryKey)
  | remove (key : QueryKey)
  | clear
  | registerFetcher (key : QueryKey) (f : FetcherId)
  | unregisterFetcher (key : QueryKey)
  | getOrFetch (key : QueryKey)
  | refetch (key : QueryKey)
  /-- The `i`-th fetch in flight settles. -/
  | settle (i : Nat) (s : Settled α)
  | ensureDependencies (parent : QueryKey) (deps : List QueryKey)
  | applyRules (evt : CacheInvalidationEvent)
  /-- `Date.now()` reads `t` from now on. -/
  | tick (t : Int)

variable {α : Type}

namespace World

/-- Apply one event. Settling a fetch that is not in flight changes nothing. -/
def step (w : World α) : Event α → World α
  | .set k d p => w.set k d p
  | .invalidate k => w.invalidate k
  | .invalidatePrefix p => w.invalidatePrefix p
  | .remove k => w.remove k
  | .clear => w.clear
  | .registerFetcher k f => w.registerFetcher k f
  | .unregisterFetcher k => w.unregisterFetcher k
  | .getOrFetch k => (w.getOrFetch k).2
  | .refetch k => (w.refetch k).2
  | .settle i s => ((w.settle i s).map Prod.snd).getD w
  | .ensureDependencies p ds => (w.ensureDependencies p ds).2
  | .applyRules evt => w.applyRules evt
  | .tick t => { w with now := t }

/-- Apply events in order. -/
def run (w : World α) (es : List (Event α)) : World α := es.foldl step w

@[simp] theorem run_nil (w : World α) : w.run [] = w := rfl

@[simp] theorem run_cons (w : World α) (e : Event α) (es : List (Event α)) :
    w.run (e :: es) = (w.step e).run es := rfl

theorem run_append (w : World α) (es es' : List (Event α)) :
    w.run (es ++ es') = (w.run es).run es' := List.foldl_append _ _ _ _

end World

/-- The clock does not go back. -/
def Event.monotone (w : World α) : Event α → Bool
  | .tick t => decide (w.now ≤ t)
  | _ => true

/-- The worlds a cache reaches from `new QueryCache({ maxEntries })` with a clock that does
not go back. -/
inductive Reachable : World α → Prop
  | init (maxEntries : Option Int) (now : Int) : Reachable (World.init maxEntries now)
  | step {w : World α} (e : Event α) : Reachable w → e.monotone w → Reachable (w.step e)

/-- Every event of a run keeps the clock from going back. -/
def World.monotoneRun : World α → List (Event α) → Bool
  | _, [] => true
  | w, e :: es => e.monotone w && (w.step e).monotoneRun es

@[simp] theorem World.monotoneRun_cons (w : World α) (e : Event α) (es : List (Event α)) :
    w.monotoneRun (e :: es) = (e.monotone w && (w.step e).monotoneRun es) := rfl

theorem Reachable.run {w : World α} (hw : Reachable w) :
    ∀ {es : List (Event α)}, w.monotoneRun es → Reachable (w.run es)
  | [], _ => hw
  | e :: _, h => by
    simp only [World.monotoneRun_cons, Bool.and_eq_true] at h
    exact (hw.step e h.1).run h.2

end StellarCade.Cache
