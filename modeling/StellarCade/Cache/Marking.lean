import StellarCade.Cache.Register

/-!
# Which entries an invalidation marks

`invalidate`, `invalidatePrefix`, `ensureDependencies` and the invalidator's rules change
the store only by marking entries: they set `meta.invalidatedAt` to the current time and
leave the rest of every entry, and the stored keys, as they were. `MarksWhere p` says
which entries: those whose slot and key satisfy `p`. Each operation gets its predicate
once, and a sequence of them marks where any of them does (`MarksWhere.trans`): they all
run at one clock reading, and marking twice at one time is marking once.

Every state the cache's operations reach keeps each entry at the slot of its own key,
whatever the clock does (`slotsConsistent_run`). In such a state `invalidatePrefix p`
marks exactly the entries whose key has `p` as a prefix, and notifies each of them once,
in the map's order (`invalidatePrefix_marks_prefixed`). `ensureDependencies` needs no
invariant: it succeeds, changing nothing, exactly when no dependency is stale, and
otherwise reports the first stale one and invalidates the parent
(`ensureDependencies_reports_first_stale`).
-/

namespace StellarCade.Cache

open StellarCade.Js

variable {α : Type}

@[simp] theorem CacheEntry.invalidated_key (e : CacheEntry α) (t : Int) :
    (e.invalidated t).key = e.key := rfl

@[simp] theorem CacheEntry.invalidated_invalidated (e : CacheEntry α) (t : Int) :
    (e.invalidated t).invalidated t = e.invalidated t := rfl

/-- `w'` is `w` with the entries whose slot and key satisfy `p` marked invalidated at
`w.now`, and every other entry as it was. The clock, the bound and the order of the
stored keys do not change. -/
structure World.MarksWhere (p : JsString → QueryKey → Bool) (w w' : World α) : Prop where
  now_eq : w'.now = w.now
  maxEntries_eq : w'.cache.maxEntries = w.cache.maxEntries
  keys_eq : w'.cache.entries.keys = w.cache.entries.keys
  get_eq : ∀ s, w'.cache.entries.get s =
    (w.cache.entries.get s).map fun e => if p s e.key then e.invalidated w.now else e

namespace World.MarksWhere

variable {p q : JsString → QueryKey → Bool} {w₁ w₂ w₃ : World α}

theorem none (w : World α) : w.MarksWhere (fun _ _ => false) w :=
  ⟨rfl, rfl, rfl, fun s => by simp⟩

/-- An operation that leaves the entries, the bound and the clock alone marks nothing. -/
theorem of_entries (he : w₂.cache.entries = w₁.cache.entries)
    (hm : w₂.cache.maxEntries = w₁.cache.maxEntries) (hn : w₂.now = w₁.now) :
    w₁.MarksWhere (fun _ _ => false) w₂ :=
  ⟨hn, hm, by rw [he], fun s => by simp [he]⟩

/-- A marking changes nothing but `invalidatedAt`. -/
theorem marks (h : w₁.MarksWhere p w₂) : w₁.Marks w₂ := by
  refine ⟨h.now_eq, h.maxEntries_eq, h.keys_eq, fun s => ?_⟩
  rw [h.get_eq, Option.map_map]
  congr 1
  funext e
  by_cases hp : p s e.key <;> simp [hp]

/-- Two markings in a row mark where either does. -/
theorem trans (h₁ : w₁.MarksWhere p w₂) (h₂ : w₂.MarksWhere q w₃) :
    w₁.MarksWhere (fun s k => p s k || q s k) w₃ := by
  refine ⟨h₂.now_eq.trans h₁.now_eq, h₂.maxEntries_eq.trans h₁.maxEntries_eq,
    h₂.keys_eq.trans h₁.keys_eq, fun s => ?_⟩
  rw [h₂.get_eq, h₁.get_eq, Option.map_map, h₁.now_eq]
  congr 1
  funext e
  by_cases hp : p s e.key <;> by_cases hq : q s e.key <;> simp [hp, hq]

/-- Only what a marking does to stored entries matters. -/
theorem congr (h : w₁.MarksWhere p w₂)
    (hpq : ∀ s e, w₁.cache.entries.get s = some e → p s e.key = q s e.key) :
    w₁.MarksWhere q w₂ := by
  refine ⟨h.now_eq, h.maxEntries_eq, h.keys_eq, fun s => ?_⟩
  rw [h.get_eq]
  cases he : w₁.cache.entries.get s with
  | none => rfl
  | some e => simp only [Option.map_some', hpq s e he]

/-- A marking done only when `c` holds. -/
theorem ite (c : Bool) (h : w₁.MarksWhere p w₂) :
    w₁.MarksWhere (fun s k => c && p s k) (if c then w₂ else w₁) := by
  cases c
  · exact (none w₁).congr fun _ _ _ => rfl
  · exact h

end World.MarksWhere

/-- The subscriber notification an effect is, if it is one. -/
def Effect.notification : Effect α → Option (QueryKey × Option (CacheEntry α))
  | .notify k e => some (k, e)
  | .call _ _ => none

/-- The subscriber notifications of a log, in order. -/
def notifications (log : List (Effect α)) : List (QueryKey × Option (CacheEntry α)) :=
  log.filterMap Effect.notification

/-! ## What each invalidation marks -/

namespace World

variable (w : World α)

theorem marksWhere_invalidate (k : QueryKey) :
    w.MarksWhere (fun s _ => decide (s = keyToString k)) (w.invalidate k) := by
  refine ⟨by simp, by simp, by simp, fun s => ?_⟩
  by_cases h : s = keyToString k <;> simp [h]

/-- Invalidating keys in turn marks the slots of those keys. -/
theorem marksWhere_foldl_invalidate (ks : List QueryKey) :
    w.MarksWhere (fun s _ => decide (s ∈ ks.map keyToString)) (ks.foldl invalidate w) := by
  induction ks generalizing w with
  | nil => exact (MarksWhere.none w).congr fun _ _ _ => by simp
  | cons k ks ih =>
    exact ((marksWhere_invalidate w k).trans (ih _)).congr fun _ _ _ => by simp

theorem marksWhere_invalidateEach (keysOf : JsString → List QueryKey)
    (addresses : List JsString) :
    w.MarksWhere (fun s _ => decide (s ∈ (addresses.flatMap keysOf).map keyToString))
      (w.invalidateEach keysOf addresses) := by
  induction addresses generalizing w with
  | nil => exact (MarksWhere.none w).congr fun _ _ _ => by simp
  | cons a as ih =>
    exact ((marksWhere_foldl_invalidate w (keysOf a)).trans (ih _)).congr fun _ _ _ => by
      simp only [List.flatMap_cons, List.map_append, List.mem_append, Bool.decide_or]

/-- `invalidatePrefix` is `invalidate` on the key of each stored entry under the prefix, in
the map's order. -/
theorem invalidatePrefix_eq_foldl (pfx : QueryKey) :
    w.invalidatePrefix pfx = ((w.cache.entries.values.filter fun e => hasPrefix e.key pfx).map
      (·.key)).foldl invalidate w := by
  unfold invalidatePrefix
  generalize w.cache.entries.values = l
  induction l generalizing w with
  | nil => rfl
  | cons e l ih =>
    by_cases h : hasPrefix e.key pfx <;> simp [h, ih]

/-! ## Notifications -/

theorem notifications_refetch (k : QueryKey) :
    notifications (w.refetch k).2.log = notifications w.log := by
  unfold refetch; split
  · rfl
  · simp [await, notifications, Effect.notification]

/-- What `invalidate` tells the subscribers: the marked entry, when the key's slot holds one. -/
theorem notifications_invalidate (k : QueryKey) :
    notifications (w.invalidate k).log =
      notifications w.log ++ ((w.get k).map fun e => (k, some (e.invalidated w.now))).toList := by
  rcases invalidate_cases w k with ⟨h, h'⟩ | ⟨e, h, h' | h'⟩ <;> rw [h']
  · simp [get, h]
  · simp [get, h, notifications, Effect.notification]
  · rw [notifications_refetch]; simp [get, h, notifications, Effect.notification]

/-- Invalidating keys of distinct slots in turn notifies once for each stored one, in order. -/
theorem notifications_foldl_invalidate (ks : List QueryKey) (hks : (ks.map keyToString).Nodup) :
    notifications (ks.foldl invalidate w).log = notifications w.log ++
      ks.filterMap fun k => (w.get k).map fun e => (k, some (e.invalidated w.now)) := by
  induction ks generalizing w with
  | nil => simp
  | cons k ks ih =>
    rw [List.map_cons, List.nodup_cons] at hks
    have hget : ∀ k' ∈ ks, (w.invalidate k).get k' = w.get k' := fun k' hk' => by
      simp only [get, invalidate_entries, JsMap.get_modify]
      exact if_neg fun h => hks.1 (by rw [← h]; exact List.mem_map_of_mem _ hk')
    rw [List.foldl_cons, ih _ hks.2, notifications_invalidate, filterMap_cons_eq_toList_append,
      invalidate_now, List.append_assoc]
    exact congrArg _ (congrArg _ (List.filterMap_congr fun k' hk' => by rw [hget k' hk']))

end World

/-! ## Every entry stays at its key's slot -/

namespace SlotsConsistent

theorem of_marks {w w' : World α} (hw : SlotsConsistent w.cache.entries) (h : w.Marks w') :
    SlotsConsistent w'.cache.entries := by
  intro s e he
  obtain ⟨e₀, he₀, hu⟩ := Option.map_eq_some'.1 ((h.get_eq s).symm.trans (by rw [he]; rfl))
  exact (congrArg (fun e : CacheEntry α => keyToString e.unmarked.key) hu).symm.trans
    (hw s e₀ he₀)

theorem world_set {w : World α} (hw : SlotsConsistent w.cache.entries) (k : QueryKey) (d : α)
    (p : Option QueryPolicy) : SlotsConsistent (w.set k d p).cache.entries := by
  intro s b hb
  rcases World.get_set_of_some w k hb with ⟨rfl, rfl⟩ | ⟨-, h⟩
  · rfl
  · exact hw s b h

/-- **One step.** No event moves an entry away from its key's slot. -/
theorem step {w : World α} (hw : SlotsConsistent w.cache.entries) :
    ∀ e : Event α, SlotsConsistent (w.step e).cache.entries
  | .set k d p => hw.world_set k d p
  | .remove k => fun s b hb => by
    simp only [World.step, World.remove_entries, JsMap.get_delete] at hb
    split at hb
    · cases hb
    · exact hw s b hb
  | .clear => fun s b hb => by simp [World.step] at hb
  | .tick _ => hw
  | .settle i st => by
    simp only [World.step]
    cases h : w.settle i st with
    | none => exact hw
    | some r =>
      obtain ⟨c, -, ⟨d, -, -, h'⟩ | ⟨x, -, -, -, h'⟩ | ⟨x, -, -, -, h'⟩⟩ :=
        World.settle_cases w (show w.settle i st = some (r.1, r.2) from h) <;> rw [Option.map_some',
          Option.getD_some, h']
      · exact world_set (w := { w with inflight := w.inflight.eraseIdx i }) hw _ _ _
      · exact hw
      · exact of_marks (w := { w with inflight := w.inflight.eraseIdx i }) hw
          (World.marks_invalidate _ _)
  | .invalidate k => hw.of_marks (World.marks_invalidate w k)
  | .invalidatePrefix p => hw.of_marks (World.marks_invalidatePrefix w p)
  | .applyRules evt => hw.of_marks (World.marks_applyRules w evt)
  | .ensureDependencies p ds => hw.of_marks (World.marks_ensureDependencies w p ds)
  | .registerFetcher k f => hw.of_marks (World.marks_step_fetch w (.registerFetcher k f) trivial)
  | .unregisterFetcher k => hw.of_marks (World.marks_step_fetch w (.unregisterFetcher k) trivial)
  | .getOrFetch k => hw.of_marks (World.marks_step_fetch w (.getOrFetch k) trivial)
  | .refetch k => hw.of_marks (World.marks_step_fetch w (.refetch k) trivial)

end SlotsConsistent

/-- **Every run.** From a store whose entries sit at their keys' slots (a new cache's empty
one, say), every run of operations, fetch completions and clock moves, in any order and
whether or not the clock goes back, keeps them there. -/
theorem slotsConsistent_run :
    ∀ {w : World α} (es : List (Event α)), SlotsConsistent w.cache.entries →
      SlotsConsistent (w.run es).cache.entries
  | _, [], hw => hw
  | _, e :: es, hw => slotsConsistent_run es (hw.step e)

/-! ## `invalidatePrefix` -/

namespace World

theorem marksWhere_invalidatePrefix {w : World α} (hw : SlotsConsistent w.cache.entries)
    (pfx : QueryKey) : w.MarksWhere (fun _ k => hasPrefix k pfx) (w.invalidatePrefix pfx) := by
  rw [invalidatePrefix_eq_foldl]
  refine (marksWhere_foldl_invalidate w _).congr fun s e he => ?_
  obtain rfl := hw s e he
  refine Bool.eq_iff_iff.2 ⟨fun h => ?_, fun h => ?_⟩
  · simp only [List.map_map, decide_eq_true_eq, List.mem_map, List.mem_filter,
      Function.comp_apply] at h
    obtain ⟨e', ⟨hv, hp⟩, hs⟩ := h
    rw [← hs, hw.get_of_mem hv, Option.some.injEq] at he
    exact he ▸ hp
  · simp only [List.map_map, decide_eq_true_eq, List.mem_map, List.mem_filter,
      Function.comp_apply]
    exact ⟨e, ⟨JsMap.mem_values_iff.2 ⟨_, he⟩, h⟩, rfl⟩

/-- **`invalidatePrefix`.** In a store whose entries sit at their keys' slots, invalidating
under `pfx` keeps the stored keys in their order; it marks at the current time exactly the
entries whose key has `pfx` as a prefix (`hasPrefix_iff`) and leaves every other entry as
it was, among them every entry of another namespace; and it notifies the subscribers once
for each marked entry, in the map's order. -/
theorem invalidatePrefix_marks_prefixed {w : World α} (hw : SlotsConsistent w.cache.entries)
    (pfx : QueryKey) :
    (w.invalidatePrefix pfx).cache.entries.keys = w.cache.entries.keys ∧
    (∀ s, (w.invalidatePrefix pfx).cache.entries.get s =
      (w.cache.entries.get s).map fun e => if hasPrefix e.key pfx then e.invalidated w.now else e) ∧
    (∀ s e, w.cache.entries.get s = some e → e.key.ns ≠ pfx.ns →
      (w.invalidatePrefix pfx).cache.entries.get s = some e) ∧
    notifications (w.invalidatePrefix pfx).log = notifications w.log ++
      (w.cache.entries.values.filter fun e => hasPrefix e.key pfx).map
        fun e => (e.key, some (e.invalidated w.now)) := by
  have hm := marksWhere_invalidatePrefix hw pfx
  refine ⟨hm.keys_eq, hm.get_eq, fun s e he hns => ?_, ?_⟩
  · rw [hm.get_eq, he, Option.map_some', if_neg (mt hasPrefix_ns hns)]
  have hnd : (((w.cache.entries.values.filter fun e => hasPrefix e.key pfx).map (·.key)).map
      keyToString).Nodup := by
    rw [List.map_map]
    refine List.Nodup.sublist ((List.filter_sublist _).map _) ?_
    simpa only [Function.comp_def, JsMap.values_map_eq_keys hw] using w.cache.entries.nodup_keys
  rw [invalidatePrefix_eq_foldl, notifications_foldl_invalidate _ _ hnd, List.filterMap_map,
    ← List.filterMap_eq_map]
  exact congrArg _ (List.filterMap_congr fun e he => by
    simp [get, hw.get_of_mem (List.mem_of_mem_filter he)])

/-- A stored entry under `["games", "byId"]` is marked and announced; a balance entry is not. -/
theorem invalidatePrefix_games_byId :
    let w : World Nat := (World.init none 0).run
      [.set (QueryKeys.games.byId (.str (jsString "7"))) 1 none,
        .set (QueryKeys.balances.account (jsString "GA")) 2 none, .tick 4]
    let pfx : QueryKey := ⟨.games, jsString "byId", []⟩
    SlotsConsistent w.cache.entries ∧
    ((w.invalidatePrefix pfx).cache.entries.keys = w.cache.entries.keys ∧
    (∀ s, (w.invalidatePrefix pfx).cache.entries.get s =
      (w.cache.entries.get s).map fun e => if hasPrefix e.key pfx then e.invalidated w.now else e) ∧
    (∀ s e, w.cache.entries.get s = some e → e.key.ns ≠ pfx.ns →
      (w.invalidatePrefix pfx).cache.entries.get s = some e) ∧
    notifications (w.invalidatePrefix pfx).log = notifications w.log ++
      (w.cache.entries.values.filter fun e => hasPrefix e.key pfx).map
        fun e => (e.key, some (e.invalidated w.now))) :=
  have hw := slotsConsistent_run (w := (World.init none 0 : World Nat)) _ fun s e h => by
    simp [World.init] at h
  ⟨hw, invalidatePrefix_marks_prefixed hw _⟩

/-! ## `ensureDependencies` -/

theorem invalidate_of_get_none {w : World α} {k : QueryKey} (h : w.get k = none) :
    w.invalidate k = w := by
  unfold invalidate
  rw [show w.cache.entries.get (keyToString k) = none from h]

/-- **`ensureDependencies`.** It returns `ok` exactly when no dependency is stale, and then
changes nothing. Otherwise its error names the first stale dependency in list order, and
its only effect is `invalidate(parent)`, which changes nothing when the parent has no
entry. -/
theorem ensureDependencies_reports_first_stale (w : World α) (parent : QueryKey)
    (deps : List QueryKey) :
    ((w.ensureDependencies parent deps).1 = .ok () ↔ ∀ dep ∈ deps, w.isStale dep = false) ∧
    ((∀ dep ∈ deps, w.isStale dep = false) → (w.ensureDependencies parent deps).2 = w) ∧
    ((∃ dep ∈ deps, w.isStale dep = true) → ∃ pre dep post, deps = pre ++ dep :: post ∧
      (∀ d ∈ pre, w.isStale d = false) ∧ w.isStale dep = true ∧
      w.ensureDependencies parent deps =
        (.error ⟨.message "Dependency stale", some "unknown", .dependency parent dep⟩,
          w.invalidate parent)) ∧
    (w.get parent = none → w.invalidate parent = w) := by
  cases h : deps.find? (w.isStale ·) with
  | none =>
    have hfresh : ∀ dep ∈ deps, w.isStale dep = false := fun d hd => by
      simpa using List.find?_eq_none.1 h d hd
    have hok : w.ensureDependencies parent deps = (.ok (), w) := by
      simp only [ensureDependencies, h]
    refine ⟨⟨fun _ => hfresh, fun _ => by rw [hok]⟩, fun _ => by rw [hok],
      fun ⟨d, hd, hs⟩ => absurd ((hfresh d hd).symm.trans hs) Bool.false_ne_true,
      invalidate_of_get_none⟩
  | some dep =>
    obtain ⟨hdep, pre, post, rfl, hpre⟩ := List.find?_eq_some.1 h
    have hstale : ¬ ∀ d ∈ pre ++ dep :: post, w.isStale d = false := fun hall =>
      Bool.false_ne_true ((hall dep (by simp)).symm.trans hdep)
    have herr : w.ensureDependencies parent (pre ++ dep :: post) =
        (.error ⟨.message "Dependency stale", some "unknown", .dependency parent dep⟩,
          w.invalidate parent) := by
      simp only [ensureDependencies, h]
    refine ⟨⟨fun hok => (by rw [herr] at hok; cases hok), fun hall => absurd hall hstale⟩,
      fun hall => absurd hall hstale,
      fun _ => ⟨pre, dep, post, rfl, fun d hd => by simpa using hpre d hd, hdep, herr⟩,
      invalidate_of_get_none⟩

end World

end StellarCade.Cache
