import StellarCade.Cache.Invariant
import Mathlib.Data.List.Dedup

/-!
# Eviction under `maxEntries`

`enforceMaxEntries` sorts the stored values by `updatedAt`, stably, and deletes the slots
of the first `size - maxEntries` of them. Three facts make this behave:

* every stored entry sits at the slot of its own key (`SlotsConsistent`, part of the
  entry invariant), so the victims' slots are distinct stored slots, and eviction leaves
  exactly `min size maxEntries` entries;
* the victims are a prefix of a sorted list, so none is newer than a survivor;
* a new key is written last and newest, so the stable sort keeps it last and it is
  never its own victim.

Hence, for `maxEntries = N > 0`: a reachable store holds at most `N` entries, and a run
without `remove` or `clear` that writes more than `N` distinct slots, by `set` or by
fetches that resolve, ends with exactly `N`. Distinct keys are not enough for the last
fact: keys that differ only in segments JSON writes as `null` (`null`, `NaN`,
`Infinity`, `-Infinity`) share one slot (`keyToString_eq_iff`), so writing more than `N`
of them can leave fewer entries (`null_like_keys_share_one_entry`).
-/

namespace StellarCade.Cache

open StellarCade.Js

variable {α : Type}

instance : IsTotal (CacheEntry α) updatedBefore := ⟨fun a b => Int.le_total a.meta.updatedAt b.meta.updatedAt⟩

instance : IsTrans (CacheEntry α) updatedBefore := ⟨fun _ _ _ => Int.le_trans⟩

/-! ## A stable sort keeps a greatest last element last -/

section Sorting

variable {β : Type} (r : β → β → Prop) [DecidableRel r]

theorem orderedInsert_append_singleton {a x : β} (h : r a x) :
    ∀ l : List β, (l ++ [x]).orderedInsert r a = l.orderedInsert r a ++ [x]
  | [] => by simp [h]
  | b :: l => by
    simp only [List.cons_append, List.orderedInsert]
    split <;> simp [orderedInsert_append_singleton h l]

theorem insertionSort_append_singleton {x : β} :
    ∀ {l : List β}, (∀ y ∈ l, r y x) → (l ++ [x]).insertionSort r = l.insertionSort r ++ [x]
  | [], _ => rfl
  | a :: l, h => by
    rw [List.forall_mem_cons] at h
    change ((l ++ [x]).insertionSort r).orderedInsert r a = (l.insertionSort r).orderedInsert r a ++ [x]
    rw [insertionSort_append_singleton h.2]
    exact orderedInsert_append_singleton r h.1 _

end Sorting

/-! ## Victims -/

/-- Every stored entry sits at the slot of its own key. -/
def SlotsConsistent (m : JsMap JsString (CacheEntry α)) : Prop :=
  ∀ s e, m.get s = some e → keyToString e.key = s

/-- The slots of the first `n` values in `updatedAt` order. -/
def victimSlots (m : JsMap JsString (CacheEntry α)) (n : Nat) : List JsString :=
  ((m.values.insertionSort updatedBefore).take n).map fun v => keyToString v.key

/-- Delete the slots of the first `n` values in `updatedAt` order. -/
def evictOldest (m : JsMap JsString (CacheEntry α)) (n : Nat) : JsMap JsString (CacheEntry α) :=
  (victimSlots m n).foldl JsMap.delete m

theorem evictionVictims_some {N : Int} (hN : 0 < N) (m : JsMap JsString (CacheEntry α)) :
    evictionVictims m (some N) = (m.values.insertionSort updatedBefore).take ((m.size : Int) - N).toNat := by
  simp only [evictionVictims, hN.ne', if_false]
  split_ifs with h
  · rw [show ((m.size : Int) - N).toNat = 0 by omega, List.take_zero]
  · rfl

/-- With a positive bound, `enforceMaxEntries` evicts the `size - N` oldest. -/
theorem enforceMaxEntries_entries {N : Int} (hN : 0 < N) {w : World α}
    (hmax : w.cache.maxEntries = some N) :
    w.enforceMaxEntries.cache.entries =
      evictOldest w.cache.entries ((w.cache.entries.size : Int) - N).toNat := by
  simp only [World.enforceMaxEntries, World.withEntries_entries, hmax, evictionVictims_some hN]
  rfl

@[simp] theorem get_evictOldest (m : JsMap JsString (CacheEntry α)) (n : Nat) (s : JsString) :
    (evictOldest m n).get s = if s ∈ victimSlots m n then none else m.get s := by
  simp [evictOldest, JsMap.get_foldl_delete]

@[simp] theorem victimSlots_zero (m : JsMap JsString (CacheEntry α)) : victimSlots m 0 = [] := rfl

theorem World.Inv.slotsConsistent {w : World α} (hw : w.Inv) : SlotsConsistent w.cache.entries :=
  fun s e he => (hw s e he).slot_eq

namespace SlotsConsistent

variable {m : JsMap JsString (CacheEntry α)}

theorem set (hm : SlotsConsistent m) {k : QueryKey} {e : CacheEntry α} (he : e.key = k) :
    SlotsConsistent (m.set (keyToString k) e) := by
  intro s b hb
  rw [JsMap.get_set] at hb
  split at hb
  · cases hb; rw [he]; exact (‹s = _›).symm
  · exact hm s b hb

/-- A stored value is found at its own key's slot. -/
theorem get_of_mem (hm : SlotsConsistent m) {v : CacheEntry α} (hv : v ∈ m.values) :
    m.get (keyToString v.key) = some v := by
  obtain ⟨s, hs⟩ := JsMap.mem_values_iff.1 hv
  rwa [hm s v hs]

theorem sortedSlots_perm (hm : SlotsConsistent m) :
    ((m.values.insertionSort updatedBefore).map fun v => keyToString v.key).Perm m.keys :=
  ((List.perm_insertionSort _ _).map _).trans (.of_eq (JsMap.values_map_eq_keys hm))

theorem mem_keys_of_victim (hm : SlotsConsistent m) {n : Nat} {s : JsString}
    (hs : s ∈ victimSlots m n) : s ∈ m.keys := by
  rw [victimSlots, List.map_take] at hs
  exact hm.sortedSlots_perm.subset (List.mem_of_mem_take hs)

/-- Eviction deletes `n` distinct stored slots, or all of them. -/
theorem size_evictOldest (hm : SlotsConsistent m) (n : Nat) :
    (evictOldest m n).size = m.size - n := by
  have hp := hm.sortedSlots_perm
  have hnd : (victimSlots m n).Nodup := by
    rw [victimSlots, List.map_take]
    exact (hp.nodup_iff.2 m.nodup_keys).sublist (List.take_sublist _ _)
  rw [evictOldest, JsMap.size_foldl_delete m hnd fun s => hm.mem_keys_of_victim, victimSlots,
    List.length_map, List.length_take, List.length_insertionSort, JsMap.size_eq_length_keys,
    ← hp.length_eq, List.length_map, List.length_insertionSort]
  omega

/-- **Oldest first**: an evicted entry is no newer than any entry that stays. -/
theorem victim_le_survivor (hm : SlotsConsistent m) {n : Nat} {s t : JsString} {v e : CacheEntry α}
    (hv : m.get s = some v) (hs : s ∈ victimSlots m n) (he : m.get t = some e)
    (ht : t ∉ victimSlots m n) : v.meta.updatedAt ≤ e.meta.updatedAt := by
  obtain ⟨v', hv', rfl⟩ := List.mem_map.1 hs
  rw [hm.get_of_mem ((List.perm_insertionSort _ _).subset (List.mem_of_mem_take hv'))] at hv
  cases hv
  have he' : e ∈ m.values.insertionSort updatedBefore :=
    (List.perm_insertionSort _ _).symm.subset (JsMap.mem_values_iff.2 ⟨t, he⟩)
  rw [← List.take_append_drop n (m.values.insertionSort updatedBefore), List.mem_append] at he'
  rcases he' with he' | he'
  · exact absurd (List.mem_map.2 ⟨e, he', hm t e he⟩) ht
  · exact (List.sorted_insertionSort updatedBefore m.values).rel_of_mem_take_of_mem_drop hv' he'

end SlotsConsistent

/-- Writing a new slot with the newest entry leaves the first `n ≤ size` victims as they were. -/
theorem victimSlots_set_of_not_mem {m : JsMap JsString (CacheEntry α)} {s : JsString}
    (hs : s ∉ m.keys) {e : CacheEntry α} (he : ∀ y ∈ m.values, updatedBefore y e) {n : Nat}
    (hn : n ≤ m.size) : victimSlots (m.set s e) n = victimSlots m n := by
  have hlen : n ≤ (m.values.insertionSort updatedBefore).length := by
    rwa [List.length_insertionSort, JsMap.values, List.length_map]
  rw [victimSlots, JsMap.values_set_of_not_mem hs, insertionSort_append_singleton _ he,
    List.take_append_of_le_length hlen, victimSlots]

/-! ## One `set` under the bound -/

namespace World

/-- The entries right after `set(key, data, policy)` writes, before it evicts. -/
def writtenMap (w : World α) (k : QueryKey) (d : α) (p : Option QueryPolicy) :
    JsMap JsString (CacheEntry α) :=
  w.cache.entries.set (keyToString k) (writtenEntry (w.get k) w.now k d (effectivePolicy k p))

section Bounded

variable {N : Int} {w : World α} (k : QueryKey) (d : α) (p : Option QueryPolicy)

theorem Inv.writtenMap_consistent (hw : w.Inv) : SlotsConsistent (w.writtenMap k d p) :=
  hw.slotsConsistent.set rfl

/-- `set` writes the entry, then evicts the `size - N` oldest. -/
theorem set_entries_eq (hN : 0 < N) (hmax : w.cache.maxEntries = some N) :
    (w.set k d p).cache.entries =
      evictOldest (w.writtenMap k d p) (((w.writtenMap k d p).size : Int) - N).toNat :=
  enforceMaxEntries_entries (w := w.withEntries _) hN hmax

theorem size_set_le (hN : 0 < N) (hw : w.Inv) (hmax : w.cache.maxEntries = some N) :
    ((w.set k d p).cache.entries.size : Int) ≤ N := by
  rw [set_entries_eq k d p hN hmax, (hw.writtenMap_consistent k d p).size_evictOldest]
  omega

/-- Within the bound, `set` keeps the entry it writes. -/
theorem get_set_self (hN : 0 < N) (hw : w.Inv) (hmax : w.cache.maxEntries = some N)
    (hsize : (w.cache.entries.size : Int) ≤ N) :
    (w.set k d p).get k = some (writtenEntry (w.get k) w.now k d (effectivePolicy k p)) := by
  rw [World.get, set_entries_eq k d p hN hmax, get_evictOldest, writtenMap, JsMap.get_set,
    if_pos rfl, if_neg]
  intro hv
  by_cases hk : keyToString k ∈ w.cache.entries.keys
  · rw [JsMap.size_set, if_pos hk, show ((w.cache.entries.size : Int) - N).toNat = 0 by omega] at hv
    exact List.not_mem_nil _ hv
  · rw [JsMap.size_set, if_neg hk, victimSlots_set_of_not_mem hk (fun y hy => ?_) (by omega)] at hv
    · exact hk (hw.slotsConsistent.mem_keys_of_victim hv)
    · obtain ⟨s, hs⟩ := JsMap.mem_values_iff.1 hy
      exact (hw s y hs).updated_le

variable {k d p}

/-- An entry that `set` evicts is no newer than any entry it keeps. -/
theorem evicted_le_kept (hN : 0 < N) (hw : w.Inv) (hmax : w.cache.maxEntries = some N)
    (hsize : (w.cache.entries.size : Int) ≤ N) {s t : JsString} {v e : CacheEntry α}
    (hv : w.cache.entries.get s = some v) (hgone : (w.set k d p).cache.entries.get s = none)
    (he : (w.set k d p).cache.entries.get t = some e) : v.meta.updatedAt ≤ e.meta.updatedAt := by
  have hs : s ≠ keyToString k := by
    rintro rfl
    have := get_set_self k d p hN hw hmax hsize
    rw [World.get, hgone] at this
    cases this
  have hvm : (w.writtenMap k d p).get s = some v := by
    rw [writtenMap, JsMap.get_set, if_neg hs, hv]
  rw [set_entries_eq k d p hN hmax, get_evictOldest] at hgone he
  have hsV : s ∈ victimSlots (w.writtenMap k d p) (((w.writtenMap k d p).size : Int) - N).toNat := by
    by_contra h
    rw [if_neg h, hvm] at hgone
    cases hgone
  have htV : t ∉ victimSlots (w.writtenMap k d p) (((w.writtenMap k d p).size : Int) - N).toNat :=
    fun h => by rw [if_pos h] at he; cases he
  rw [if_neg htV] at he
  exact (hw.writtenMap_consistent k d p).victim_le_survivor hvm hsV he htV

variable (k d p)

/-- After `set`, the store is full, or it still holds every slot it held. -/
theorem set_full_or_keeps_keys (hN : 0 < N) (hw : w.Inv) (hmax : w.cache.maxEntries = some N) :
    ((w.set k d p).cache.entries.size : Int) = N ∨
      ∀ s ∈ w.cache.entries.keys, s ∈ (w.set k d p).cache.entries.keys := by
  rw [set_entries_eq k d p hN hmax]
  by_cases hr : (((w.writtenMap k d p).size : Int) - N).toNat = 0
  · refine .inr fun s hs => ?_
    rw [hr, evictOldest, victimSlots_zero, List.foldl_nil, writtenMap, JsMap.keys_set]
    split <;> simp [hs]
  · rw [(hw.writtenMap_consistent k d p).size_evictOldest]
    omega

end Bounded

end World

/-! ## What one event does to the stored keys -/

/-- The events that delete entries on request. -/
def Event.isRemoval : Event α → Bool
  | .remove _ | .clear => true
  | _ => false

/-- The slot an event writes through `set`: its key's for a `set`, the fetched key's for a
fetch that resolves. -/
def Event.writtenSlot (w : World α) : Event α → Option JsString
  | .set k _ _ => some (keyToString k)
  | .settle i (.resolved _) => (w.inflight.get? i).map fun c => keyToString c.key
  | _ => none

/-- The slots a run writes, in order. -/
def World.writtenSlots (w : World α) : List (Event α) → List JsString
  | [] => []
  | e :: es => (e.writtenSlot w).toList ++ (w.step e).writtenSlots es

/-- A step keeps the stored keys, is a `set`, or is a removal and drops some keys. -/
inductive KeysStep (removal : Bool) (w w' : World α) : Prop
  | same : w'.cache.entries.keys = w.cache.entries.keys → KeysStep removal w w'
  | set (k : QueryKey) (d : α) (p : Option QueryPolicy) :
      w'.cache.entries = (w.set k d p).cache.entries → KeysStep removal w w'
  | shrink : removal = true → w'.cache.entries.keys.Sublist w.cache.entries.keys →
      KeysStep removal w w'

theorem KeysStep.of_marks {b : Bool} {w w' : World α} (h : w.Marks w') :
    w'.cache.maxEntries = w.cache.maxEntries ∧ KeysStep b w w' :=
  ⟨h.maxEntries_eq, .same h.keys_eq⟩

namespace World

/-- Every event keeps `maxEntries`, and does to the keys one of the things `KeysStep` names. -/
theorem step_keysStep (w : World α) (e : Event α) :
    (w.step e).cache.maxEntries = w.cache.maxEntries ∧ KeysStep e.isRemoval w (w.step e) := by
  cases e with
  | set k d p => exact ⟨rfl, .set k d p rfl⟩
  | remove k =>
    refine ⟨rfl, .shrink rfl ?_⟩
    show (w.remove k).cache.entries.keys.Sublist _
    rw [remove_entries, JsMap.keys_delete]
    exact @List.erase_sublist _ instBEqOfDecidableEq _ _
  | clear => exact ⟨rfl, .shrink rfl (by simp [step])⟩
  | tick t => exact ⟨rfl, .same rfl⟩
  | settle i s =>
    simp only [step]
    cases h : w.settle i s with
    | none => exact ⟨rfl, .same rfl⟩
    | some p =>
      simp only [Option.map_some', Option.getD_some]
      obtain ⟨c, -, ⟨d, -, -, h'⟩ | ⟨x, -, -, -, h'⟩ | ⟨x, -, -, -, h'⟩⟩ :=
        settle_cases w (show w.settle i s = some (p.1, p.2) from h) <;> rw [h']
      · exact ⟨rfl, .set c.key d none rfl⟩
      · exact ⟨rfl, .same rfl⟩
      · have hm := marks_invalidate { w with inflight := w.inflight.eraseIdx i } c.key
        exact ⟨hm.maxEntries_eq, .same hm.keys_eq⟩
  | invalidate k => exact KeysStep.of_marks (marks_invalidate w k)
  | invalidatePrefix p => exact KeysStep.of_marks (marks_invalidatePrefix w p)
  | ensureDependencies p ds => exact KeysStep.of_marks (marks_ensureDependencies w p ds)
  | applyRules evt => exact KeysStep.of_marks (marks_applyRules w evt)
  | registerFetcher k f => exact KeysStep.of_marks (marks_step_fetch w (.registerFetcher k f) trivial)
  | unregisterFetcher k => exact KeysStep.of_marks (marks_step_fetch w (.unregisterFetcher k) trivial)
  | getOrFetch k => exact KeysStep.of_marks (marks_step_fetch w (.getOrFetch k) trivial)
  | refetch k => exact KeysStep.of_marks (marks_step_fetch w (.refetch k) trivial)

/-- A fetch that resolves writes its key through `set`. -/
theorem step_settle_resolved {w : World α} {i : Nat} {c : InFlight} (hc : w.inflight.get? i = some c)
    (d : α) : w.step (.settle i (.resolved d)) = { w with inflight := w.inflight.eraseIdx i }.set c.key d none := by
  simp only [step, settle, hc, Option.map_some', Option.getD_some]

theorem maxEntries_run (w : World α) (es : List (Event α)) :
    (w.run es).cache.maxEntries = w.cache.maxEntries := by
  induction es generalizing w with
  | nil => rfl
  | cons e es ih => rw [run_cons, ih, (step_keysStep w e).1]

end World

/-! ## Over runs -/

/-- **Bounded size**: with `maxEntries = N > 0`, a reachable store holds at most `N` entries. -/
theorem Reachable.size_le {N : Int} (hN : 0 < N) {w : World α} (hw : Reachable w)
    (hmax : w.cache.maxEntries = some N) : (w.cache.entries.size : Int) ≤ N := by
  induction hw with
  | init m t => simp only [World.init, JsMap.size_empty]; omega
  | step e hw _ ih =>
    obtain ⟨hme, hk⟩ := World.step_keysStep _ e
    rw [hme] at hmax
    cases hk with
    | same h => rw [JsMap.size_eq_length_keys, h, ← JsMap.size_eq_length_keys]; exact ih hmax
    | set k d p h => rw [h]; exact World.size_set_le k d p hN hw.inv hmax
    | shrink _ h =>
      have := ih hmax
      rw [JsMap.size_eq_length_keys] at this ⊢
      exact le_trans (by exact_mod_cast h.length_le) this

theorem filterMap_cons_eq_toList_append {β γ : Type} (f : β → Option γ) (a : β) (l : List β) :
    (a :: l).filterMap f = (f a).toList ++ l.filterMap f := by
  cases h : f a <;> simp [List.filterMap_cons, h]

/-- Within the bound, the slot an event writes is stored after it. -/
theorem Reachable.mem_keys_of_writtenSlot {N : Int} (hN : 0 < N) {w : World α} (hw : Reachable w)
    (hmax : w.cache.maxEntries = some N) {e : Event α} {s : JsString} (hs : e.writtenSlot w = some s) :
    s ∈ (w.step e).cache.entries.keys := by
  have hset (w' : World α) (hc : w'.cache = w.cache) (hn : w'.now = w.now) (k : QueryKey) (d : α)
      (p : Option QueryPolicy) : keyToString k ∈ (w'.set k d p).cache.entries.keys := by
    have hinv : w'.Inv := fun s e h => by rw [hn]; exact hw.inv s e (hc ▸ h)
    refine JsMap.mem_keys_iff.2 ?_
    rw [show (w'.set k d p).cache.entries.get (keyToString k) = (w'.set k d p).get k from rfl,
      World.get_set_self k d p hN hinv (hc ▸ hmax) (hc ▸ hw.size_le hN hmax)]
    rfl
  cases e with
  | set k d p =>
    obtain rfl : keyToString k = s := Option.some.inj hs
    exact hset w rfl rfl k d p
  | settle i st =>
    rcases st with d | x
    · obtain ⟨c, hc, rfl⟩ := Option.map_eq_some'.1 hs
      rw [World.step_settle_resolved hc]
      exact hset _ rfl rfl c.key d none
    · cases hs
  | _ => cases hs

/-- One step of a run without removals: the store is full, or it holds every slot of
`touched` and the slot the step writes. -/
theorem Reachable.full_or_holds_step {N : Int} (hN : 0 < N) {w : World α} (hw : Reachable w)
    (hmax : w.cache.maxEntries = some N) {e : Event α} (he : e.monotone w)
    (hrem : e.isRemoval = false) {touched : List JsString}
    (h : (w.cache.entries.size : Int) = N ∨ ∀ s ∈ touched, s ∈ w.cache.entries.keys) :
    ((w.step e).cache.entries.size : Int) = N ∨
      ∀ s ∈ touched ++ (e.writtenSlot w).toList, s ∈ (w.step e).cache.entries.keys := by
  obtain ⟨hme, hk⟩ := World.step_keysStep w e
  have hle := (hw.step e he).size_le hN (hme.trans hmax)
  have hgrow : ((w.step e).cache.entries.size : Int) = N ∨
      ∀ s ∈ w.cache.entries.keys, s ∈ (w.step e).cache.entries.keys := by
    cases hk with
    | same h' => exact .inr fun s hs => h' ▸ hs
    | set k d p h' => rw [h']; exact World.set_full_or_keeps_keys k d p hN hw.inv hmax
    | shrink h' => rw [hrem] at h'; cases h'
  have hslot : ∀ s ∈ (e.writtenSlot w).toList, s ∈ (w.step e).cache.entries.keys :=
    fun s hs => hw.mem_keys_of_writtenSlot hN hmax (by simpa using hs)
  rcases hgrow with hgrow | hsub
  · exact .inl hgrow
  have hge : w.cache.entries.size ≤ (w.step e).cache.entries.size := by
    rw [JsMap.size_eq_length_keys, JsMap.size_eq_length_keys]
    exact (List.subperm_of_subset w.cache.entries.nodup_keys hsub).length_le
  rcases h with h | h
  · exact .inl (by omega)
  · exact .inr fun s hs => (List.mem_append.1 hs).elim (fun hs => hsub s (h s hs)) (hslot s)

/-- Over a run without removals, the store ends full, or holding every slot of `touched`
and every slot the run writes. -/
theorem Reachable.full_or_holds_run {N : Int} (hN : 0 < N) :
    ∀ {es : List (Event α)} {w : World α} (touched : List JsString), Reachable w →
      w.cache.maxEntries = some N → w.monotoneRun es → (∀ e ∈ es, e.isRemoval = false) →
      ((w.cache.entries.size : Int) = N ∨ ∀ s ∈ touched, s ∈ w.cache.entries.keys) →
      (((w.run es).cache.entries.size : Int) = N ∨
        ∀ s ∈ touched ++ w.writtenSlots es, s ∈ (w.run es).cache.entries.keys)
  | [], _, _, _, _, _, _, h => by simpa [World.writtenSlots] using h
  | e :: _, w, touched, hw, hmax, hes, hrem, h => by
    simp only [World.monotoneRun_cons, Bool.and_eq_true] at hes
    have := (hw.step e hes.1).full_or_holds_run hN (touched ++ (e.writtenSlot w).toList)
      ((World.step_keysStep w e).1.trans hmax) hes.2
      (fun e' he' => hrem e' (List.mem_cons_of_mem _ he'))
      (hw.full_or_holds_step hN hmax hes.1 (hrem e (List.mem_cons_self _ _)) h)
    rwa [List.append_assoc] at this

/-- A run without removals that writes more than `N` distinct slots ends with exactly `N`
entries. -/
theorem Reachable.size_eq_of_slots {N : Int} (hN : 0 < N) {w : World α} (hw : Reachable w)
    (hmax : w.cache.maxEntries = some N) {es : List (Event α)} (hes : w.monotoneRun es)
    (hrem : ∀ e ∈ es, e.isRemoval = false)
    (hmany : N < ((w.writtenSlots es).dedup.length : Int)) :
    ((w.run es).cache.entries.size : Int) = N := by
  rcases hw.full_or_holds_run hN [] hmax hes hrem (.inr fun _ h => absurd h (List.not_mem_nil _))
    with h | h
  · exact h
  have hle := (hw.run hes).size_le hN ((World.maxEntries_run w es).trans hmax)
  have : (w.writtenSlots es).dedup.length ≤ (w.run es).cache.entries.size := by
    rw [JsMap.size_eq_length_keys]
    exact (List.subperm_of_subset (List.nodup_dedup _) fun s hs => h s (by simpa using hs)).length_le
  omega

/-- **`maxEntries` is enforced, oldest first.** With `maxEntries = N > 0`: a reachable store
holds at most `N` entries; a `set` keeps the entry it writes and evicts only entries no
newer than every entry it keeps; and a run without `remove` or `clear` that writes more
than `N` distinct slots, by `set` or by fetches that resolve, ends with exactly `N`
entries. -/
theorem maxEntries_enforced {N : Int} (hN : 0 < N) {w : World α} (hw : Reachable w)
    (hmax : w.cache.maxEntries = some N) :
    (w.cache.entries.size : Int) ≤ N ∧
    (∀ k d p, (w.set k d p).get k = some (writtenEntry (w.get k) w.now k d (effectivePolicy k p)) ∧
      ∀ s v, w.cache.entries.get s = some v → (w.set k d p).cache.entries.get s = none →
        ∀ t e, (w.set k d p).cache.entries.get t = some e → v.meta.updatedAt ≤ e.meta.updatedAt) ∧
    (∀ es : List (Event α), w.monotoneRun es → (∀ e ∈ es, e.isRemoval = false) →
      N < ((w.writtenSlots es).dedup.length : Int) → ((w.run es).cache.entries.size : Int) = N) :=
  have hsize := hw.size_le hN hmax
  ⟨hsize, fun k d p => ⟨World.get_set_self k d p hN hw.inv hmax hsize,
      fun _ _ hv hgone _ _ he => World.evicted_le_kept hN hw.inv hmax hsize hv hgone he⟩,
    fun _ hes hrem hmany => hw.size_eq_of_slots hN hmax hes hrem hmany⟩

/-- Three distinct keys whose last segments JSON writes as `null`, written under
`maxEntries = 2`: the bound holds, but the three writes fill one slot, and one entry is
left, not two. -/
theorem null_like_keys_share_one_entry :
    let ks : List QueryKey := [⟨.balances, jsString "x", [.null]⟩,
      ⟨.balances, jsString "x", [.num .infinity]⟩, ⟨.balances, jsString "x", [.num .negInfinity]⟩]
    let es : List (Event Nat) := ks.map fun k => .set k 0 none
    let w : World Nat := World.init (some 2) 0
    0 < (2 : Int) ∧ Reachable w ∧ w.cache.maxEntries = some 2 ∧
    ((w.cache.entries.size : Int) ≤ 2 ∧
    (∀ k d p, (w.set k d p).get k = some (writtenEntry (w.get k) w.now k d (effectivePolicy k p)) ∧
      ∀ s v, w.cache.entries.get s = some v → (w.set k d p).cache.entries.get s = none →
        ∀ t e, (w.set k d p).cache.entries.get t = some e → v.meta.updatedAt ≤ e.meta.updatedAt) ∧
    (∀ es : List (Event Nat), w.monotoneRun es → (∀ e ∈ es, e.isRemoval = false) →
      2 < ((w.writtenSlots es).dedup.length : Int) → ((w.run es).cache.entries.size : Int) = 2)) ∧
    ks.Nodup ∧ w.monotoneRun es ∧ (∀ e ∈ es, e.isRemoval = false) ∧
    (w.writtenSlots es).dedup.length = 1 ∧ (w.run es).cache.entries.size = 1 :=
  ⟨by decide, .init _ _, rfl, maxEntries_enforced (by decide) (.init _ _) rfl, by decide, by decide,
    by decide, by decide, by decide⟩

end StellarCade.Cache
