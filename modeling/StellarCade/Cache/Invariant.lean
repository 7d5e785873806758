import StellarCade.Cache.Step

/-!
# The entry invariant

What every stored entry satisfies in every reachable world (`EntryInv`): it sits at the
slot of its own key, it was created no later than it was last updated, its `staleAt` is
`updatedAt + staleTimeMs`, and it was updated no later than the clock reads.

Most operations only mark entries (`Marks`: nothing but `invalidatedAt` changes). Writes
go through `set`, deletions through `remove`, `clear` and eviction. Each kind is handled
once, and `Reachable.inv` follows by induction over the run.
-/

namespace StellarCade.Cache

open StellarCade.Js

variable {α : Type}

/-- What holds of an entry stored at `slot` when the clock reads `now`. -/
structure EntryInv (now : Int) (slot : JsString) (e : CacheEntry α) : Prop where
  slot_eq : keyToString e.key = slot
  created_le : e.meta.createdAt ≤ e.meta.updatedAt
  staleAt_eq : e.meta.staleAt = e.meta.updatedAt + e.policy.staleTimeMs
  updated_le : e.meta.updatedAt ≤ now

/-- Every stored entry satisfies `EntryInv`. -/
def World.Inv (w : World α) : Prop :=
  ∀ s e, w.cache.entries.get s = some e → EntryInv w.now s e

/-- An entry with its `invalidatedAt` forgotten. -/
def CacheEntry.unmarked (e : CacheEntry α) : CacheEntry α :=
  { e with meta := { e.meta with invalidatedAt := none } }

@[simp] theorem CacheEntry.unmarked_invalidated (e : CacheEntry α) (t : Int) :
    (e.invalidated t).unmarked = e.unmarked := rfl

theorem entryInv_of_unmarked {now : Int} {s : JsString} {e e' : CacheEntry α}
    (h : e.unmarked = e'.unmarked) (he : EntryInv now s e) : EntryInv now s e' := by
  have hk : e.key = e'.key := congrArg (·.key) h
  have hc : e.meta.createdAt = e'.meta.createdAt := congrArg (·.meta.createdAt) h
  have hu : e.meta.updatedAt = e'.meta.updatedAt := congrArg (·.meta.updatedAt) h
  have hs : e.meta.staleAt = e'.meta.staleAt := congrArg (·.meta.staleAt) h
  have hp : e.policy = e'.policy := congrArg (·.policy) h
  obtain ⟨h1, h2, h3, h4⟩ := he
  exact ⟨hk ▸ h1, hc ▸ hu ▸ h2, hs ▸ hu ▸ hp ▸ h3, hu ▸ h4⟩

/-! ## Operations that only mark -/

/-- `w'` is `w` with at most the `invalidatedAt` of some entries changed. -/
structure World.Marks (w w' : World α) : Prop where
  now_eq : w'.now = w.now
  maxEntries_eq : w'.cache.maxEntries = w.cache.maxEntries
  keys_eq : w'.cache.entries.keys = w.cache.entries.keys
  get_eq : ∀ s, (w'.cache.entries.get s).map CacheEntry.unmarked =
    (w.cache.entries.get s).map CacheEntry.unmarked

namespace World.Marks

theorem refl (w : World α) : w.Marks w := ⟨rfl, rfl, rfl, fun _ => rfl⟩

theorem trans {w₁ w₂ w₃ : World α} (h₁ : w₁.Marks w₂) (h₂ : w₂.Marks w₃) : w₁.Marks w₃ :=
  ⟨h₂.now_eq.trans h₁.now_eq, h₂.maxEntries_eq.trans h₁.maxEntries_eq, h₂.keys_eq.trans h₁.keys_eq,
    fun s => (h₂.get_eq s).trans (h₁.get_eq s)⟩

theorem of_entries {w w' : World α} (he : w'.cache.entries = w.cache.entries)
    (hm : w'.cache.maxEntries = w.cache.maxEntries) (hn : w'.now = w.now) : w.Marks w' :=
  ⟨hn, hm, by rw [he], fun _ => by rw [he]⟩

/-- A loop whose every iteration only marks, only marks. -/
theorem foldl {β : Type} (f : World α → β → World α) (hf : ∀ (w : World α) (b : β), w.Marks (f w b)) :
    ∀ (l : List β) (w : World α), w.Marks (l.foldl f w)
  | [], w => refl w
  | b :: l, w => (hf w b).trans (foldl f hf l _)

theorem ite_self {w w' : World α} (c : Bool) (h : w.Marks w') : w.Marks (if c then w' else w) := by
  cases c
  · exact refl w
  · exact h

/-- A stored entry keeps what `EntryInv` speaks of. -/
theorem inv {w w' : World α} (h : w.Marks w') (hw : w.Inv) : w'.Inv := by
  intro s e' he'
  have := h.get_eq s
  rw [he', h.now_eq] at *
  obtain ⟨e, he, hu⟩ := Option.map_eq_some'.1 this.symm
  exact entryInv_of_unmarked hu (hw s e he)

end World.Marks

/-- The events that touch only fetchers: registration, and the start of a fetch. -/
def Event.touchesOnlyFetchers : Event α → Prop
  | .registerFetcher _ _ | .unregisterFetcher _ | .getOrFetch _ | .refetch _ => True
  | _ => False

namespace World

variable (w : World α)

theorem marks_invalidate (k : QueryKey) : w.Marks (w.invalidate k) := by
  refine ⟨by simp, by simp, by simp, fun s => ?_⟩
  by_cases h : s = keyToString k <;> simp [h, Option.map_map, Function.comp_def]

theorem marks_invalidatePrefix (pfx : QueryKey) : w.Marks (w.invalidatePrefix pfx) := by
  refine Marks.foldl _ (fun w e => ?_) _ w
  split
  · exact marks_invalidate w _
  · exact .refl w

theorem marks_invalidateEach (keysOf : JsString → List QueryKey) (addresses : List JsString) :
    w.Marks (w.invalidateEach keysOf addresses) :=
  Marks.foldl _ (fun w a => Marks.foldl _ marks_invalidate (keysOf a) w) _ w

theorem marks_invalidateCoinFlip (addresses : List JsString) (gameId : Option GameId) :
    w.Marks (w.invalidateCoinFlip addresses gameId) := by
  refine .trans ?_ (marks_invalidateEach _ _ _)
  split
  · exact marks_invalidate w _
  · exact .refl w

theorem marks_applyRules (evt : CacheInvalidationEvent) : w.Marks (w.applyRules evt) :=
  (marks_invalidateEach _ _ _).trans <| (Marks.ite_self _ (marks_invalidatePrefix _ _)).trans <|
    (Marks.ite_self _ (marks_invalidateCoinFlip _ _ _)).trans
      (Marks.ite_self _ (marks_invalidateEach _ _ _))

theorem marks_ensureDependencies (parent : QueryKey) (deps : List QueryKey) :
    w.Marks (w.ensureDependencies parent deps).2 := by
  unfold ensureDependencies; split
  · exact marks_invalidate w _
  · exact .refl w

theorem marks_step_fetch (e : Event α) (he : e.touchesOnlyFetchers) : w.Marks (w.step e) := by
  cases e <;> simp only [Event.touchesOnlyFetchers] at he <;>
    exact Marks.of_entries (by simp [step]) (by simp [step]) (by simp [step])

/-! ## Writes and deletions -/

theorem inv_set {w : World α} (hw : w.Inv) (k : QueryKey) (d : α) (p : Option QueryPolicy) :
    (w.set k d p).Inv := by
  intro s b hb
  rcases get_set_of_some w k hb with ⟨rfl, rfl⟩ | ⟨-, h⟩
  · refine ⟨rfl, ?_, rfl, le_refl _⟩
    cases he : w.get k with
    | none => exact le_refl _
    | some e =>
      have := hw _ e he
      exact this.created_le.trans this.updated_le
  · exact hw s b h

theorem inv_remove {w : World α} (hw : w.Inv) (k : QueryKey) : (w.remove k).Inv := by
  intro s b hb
  simp only [remove_entries, JsMap.get_delete] at hb
  split at hb
  · cases hb
  · exact hw s b hb

theorem inv_clear (w : World α) : w.clear.Inv := by
  intro s b hb; simp at hb

theorem inv_settle {w : World α} (hw : w.Inv) {i : Nat} {s : Settled α} {r : Reply α}
    {w' : World α} (h : w.settle i s = some (r, w')) : w'.Inv := by
  obtain ⟨c, -, ⟨d, -, -, rfl⟩ | ⟨x, -, -, -, rfl⟩ | ⟨x, -, -, -, rfl⟩⟩ := settle_cases w h
  · exact inv_set hw _ _ _
  · exact hw
  · exact (marks_invalidate _ _).inv hw

theorem inv_step {w : World α} (hw : w.Inv) (e : Event α) (he : e.monotone w) : (w.step e).Inv := by
  cases e with
  | set k d p => exact inv_set hw k d p
  | remove k => exact inv_remove hw k
  | clear => exact inv_clear w
  | settle i s =>
    simp only [step]
    cases h : w.settle i s with
    | none => exact hw
    | some p => exact inv_settle hw (show w.settle i s = some (p.1, p.2) from h)
  | tick t =>
    intro s b hb
    obtain ⟨h1, h2, h3, h4⟩ := hw s b hb
    exact ⟨h1, h2, h3, h4.trans (of_decide_eq_true he)⟩
  | invalidate k => exact (marks_invalidate w k).inv hw
  | invalidatePrefix p => exact (marks_invalidatePrefix w p).inv hw
  | registerFetcher k f => exact (marks_step_fetch w (.registerFetcher k f) trivial).inv hw
  | unregisterFetcher k => exact (marks_step_fetch w (.unregisterFetcher k) trivial).inv hw
  | getOrFetch k => exact (marks_step_fetch w (.getOrFetch k) trivial).inv hw
  | refetch k => exact (marks_step_fetch w (.refetch k) trivial).inv hw
  | ensureDependencies p ds => exact (marks_ensureDependencies w p ds).inv hw
  | applyRules evt => exact (marks_applyRules w evt).inv hw

end World

/-- Every reachable world satisfies the entry invariant. -/
theorem Reachable.inv {w : World α} (hw : Reachable w) : w.Inv := by
  induction hw with
  | init m t => intro s e he; simp [World.init] at he
  | step e _ he ih => exact World.inv_step ih e he

/-! ## What a stored entry keeps -/

/-- Every entry stored in both `w` and `w'` kept its `createdAt`, and its `updatedAt` did
not go back. -/
def World.Keeps (w w' : World α) : Prop :=
  ∀ s a b, w.cache.entries.get s = some a → w'.cache.entries.get s = some b →
    b.meta.createdAt = a.meta.createdAt ∧ a.meta.updatedAt ≤ b.meta.updatedAt

namespace World

theorem Marks.keeps {w w' : World α} (h : w.Marks w') : w.Keeps w' := by
  intro s a b ha hb
  have hu := h.get_eq s
  rw [ha, hb, Option.map_some', Option.map_some', Option.some.injEq] at hu
  exact ⟨congrArg (·.meta.createdAt) hu, (congrArg (·.meta.updatedAt) hu).ge⟩

theorem keeps_set {w : World α} (hw : w.Inv) (k : QueryKey) (d : α) (p : Option QueryPolicy) :
    w.Keeps (w.set k d p) := by
  intro s a b ha hb
  rcases get_set_of_some w k hb with ⟨rfl, rfl⟩ | ⟨-, h⟩
  · have hk : w.get k = some a := ha
    exact ⟨by simp [writtenEntry, hk], by simpa [writtenEntry] using (hw _ a ha).updated_le⟩
  · rw [ha] at h; cases h; exact ⟨rfl, le_refl _⟩

theorem keeps_of_get {w w' : World α}
    (h : ∀ s b, w'.cache.entries.get s = some b → w.cache.entries.get s = some b) : w.Keeps w' := by
  intro s a b ha hb
  rw [h s b hb] at ha; cases ha; exact ⟨rfl, le_refl _⟩

theorem keeps_step {w : World α} (hw : w.Inv) (e : Event α) : w.Keeps (w.step e) := by
  cases e with
  | set k d p => exact keeps_set hw k d p
  | remove k =>
    refine keeps_of_get fun s b hb => ?_
    simp only [step, remove_entries, JsMap.get_delete] at hb
    split at hb
    · cases hb
    · exact hb
  | clear => exact keeps_of_get fun s b hb => by simp [step] at hb
  | settle i s =>
    simp only [step]
    cases h : w.settle i s with
    | none => exact (Marks.refl w).keeps
    | some p =>
      simp only [Option.map_some', Option.getD_some]
      obtain ⟨c, -, ⟨d, -, -, h'⟩ | ⟨x, -, -, -, h'⟩ | ⟨x, -, -, -, h'⟩⟩ := settle_cases w h <;>
        rw [h']
      · exact keeps_set (w := { w with inflight := w.inflight.eraseIdx i }) hw _ _ _
      · exact (Marks.refl w).keeps
      · exact (marks_invalidate { w with inflight := w.inflight.eraseIdx i } _).keeps
  | tick t => exact keeps_of_get fun s b hb => hb
  | invalidate k => exact (marks_invalidate w k).keeps
  | invalidatePrefix p => exact (marks_invalidatePrefix w p).keeps
  | registerFetcher k f => exact (marks_step_fetch w (.registerFetcher k f) trivial).keeps
  | unregisterFetcher k => exact (marks_step_fetch w (.unregisterFetcher k) trivial).keeps
  | getOrFetch k => exact (marks_step_fetch w (.getOrFetch k) trivial).keeps
  | refetch k => exact (marks_step_fetch w (.refetch k) trivial).keeps
  | ensureDependencies p ds => exact (marks_ensureDependencies w p ds).keeps
  | applyRules evt => exact (marks_applyRules w evt).keeps

end World

/-- Over a run from a reachable world, an entry that stays stored keeps its `createdAt`,
and its `updatedAt` does not go back. -/
theorem Reachable.keeps_run {w : World α} (hw : Reachable w) {es : List (Event α)}
    (hes : w.monotoneRun es) (s : JsString)
    (hs : ∀ n ≤ es.length, ((w.run (es.take n)).cache.entries.get s).isSome) :
    ∀ a b, w.cache.entries.get s = some a → (w.run es).cache.entries.get s = some b →
      b.meta.createdAt = a.meta.createdAt ∧ a.meta.updatedAt ≤ b.meta.updatedAt := by
  induction es generalizing w with
  | nil =>
    intro a b ha hb
    rw [World.run_nil, ha] at hb; cases hb; exact ⟨rfl, le_refl _⟩
  | cons e es ih =>
    intro a b ha hb
    simp only [World.monotoneRun_cons, Bool.and_eq_true] at hes
    obtain ⟨m, hm⟩ := Option.isSome_iff_exists.1 (hs 1 (by simp))
    simp only [List.take_succ_cons, List.take_zero, World.run_cons, World.run_nil] at hm
    have h1 := World.keeps_step hw.inv e s a m ha hm
    have h2 := ih (hw.step e hes.1) hes.2
      (fun n hn => by simpa using hs (n + 1) (by simpa using hn)) m b hm hb
    exact ⟨h2.1.trans h1.1, h1.2.trans h2.2⟩

/-- **Entries stay consistent.** In every reachable world, each slot holds an entry of the
slot's own key, created no later than last updated, and stale at `updatedAt +
staleTimeMs`. Over any further run with the clock not going back, an entry that stays
stored throughout keeps its `createdAt`, and its `updatedAt` does not decrease. -/
theorem entries_consistent {w : World α} (hw : Reachable w) {es : List (Event α)}
    (hes : w.monotoneRun es) :
    (∀ s e, w.cache.entries.get s = some e →
      keyToString e.key = s ∧ e.meta.createdAt ≤ e.meta.updatedAt ∧
        e.meta.staleAt = e.meta.updatedAt + e.policy.staleTimeMs) ∧
    (∀ s, (∀ n ≤ es.length, ((w.run (es.take n)).cache.entries.get s).isSome) →
      ∀ a b, w.cache.entries.get s = some a → (w.run es).cache.entries.get s = some b →
        b.meta.createdAt = a.meta.createdAt ∧ a.meta.updatedAt ≤ b.meta.updatedAt) :=
  ⟨fun s e he => let h := hw.inv s e he; ⟨h.slot_eq, h.created_le, h.staleAt_eq⟩,
    fun s hs => hw.keeps_run hes s hs⟩

/-- The invariant after one write, over a run that moves the clock and writes the key again. -/
theorem entries_consistent_rewrite :
    let w : World Nat := (World.init none 0).run [.set (QueryKeys.profile.byAddress (jsString "GAAA")) 1 none]
    let es : List (Event Nat) := [.tick 5, .set (QueryKeys.profile.byAddress (jsString "GAAA")) 2 none]
    Reachable w ∧ w.monotoneRun es ∧
    (∀ s e, w.cache.entries.get s = some e →
      keyToString e.key = s ∧ e.meta.createdAt ≤ e.meta.updatedAt ∧
        e.meta.staleAt = e.meta.updatedAt + e.policy.staleTimeMs) ∧
    (∀ s, (∀ n ≤ es.length, ((w.run (es.take n)).cache.entries.get s).isSome) →
      ∀ a b, w.cache.entries.get s = some a → (w.run es).cache.entries.get s = some b →
        b.meta.createdAt = a.meta.createdAt ∧ a.meta.updatedAt ≤ b.meta.updatedAt) :=
  have hw : Reachable ((World.init (α := Nat) none 0).run
      [.set (QueryKeys.profile.byAddress (jsString "GAAA")) 1 none]) :=
    (Reachable.init none 0).run (by decide)
  have hes : ((World.init (α := Nat) none 0).run
      [.set (QueryKeys.profile.byAddress (jsString "GAAA")) 1 none]).monotoneRun
      [.tick 5, .set (QueryKeys.profile.byAddress (jsString "GAAA")) 2 none] := by decide
  ⟨hw, hes, entries_consistent hw hes⟩

end StellarCade.Cache
