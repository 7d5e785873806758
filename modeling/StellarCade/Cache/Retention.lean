import StellarCade.Cache.Freshness

/-!
# Which entries a cache keeps

Only writes change an entry. Over any run, a slot that no event writes is never filled,
and its entry changes only in `invalidatedAt` (`unwritten_slot_run`, from the frame lemma
`get_step_of_unwritten`).

In a bounded cache, `enforceMaxEntries` evicts the entries written longest ago
(`evicted_le_kept`). Over a run this orders what survives by write time: an entry written
earlier than another is never kept while the other is evicted, as long as neither is
written again and nothing removes them (`eviction_keeps_newer`).
-/

namespace StellarCade.Cache

open StellarCade.Js

variable {α : Type}

namespace World

/-- An event that does not write slot `s` leaves the `updatedAt` of what is stored there. -/
theorem updatedAt_step_of_unwritten {w : World α} {s : JsString} (ev : Event α)
    (hnw : ∀ d, ev.slotWrite w s ≠ some (some d)) {b : CacheEntry α}
    (hb : (w.step ev).cache.entries.get s = some b) :
    ∃ a, w.cache.entries.get s = some a ∧ b.meta.updatedAt = a.meta.updatedAt :=
  let ⟨a, ha, h⟩ := get_step_of_unwritten ev hnw hb
  ⟨a, ha, by rcases h with rfl | rfl <;> rfl⟩

/-- **Only writes change an entry.** Over any run, with any bound and any clock, a slot that
no event writes (no `set` of a key stored there, no fetch of one that resolves) is never
filled; while it holds an entry, that entry is the one it started with, `invalidatedAt`
aside. Invalidations, failed fetches, eviction, `remove` and `clear` at most mark or
delete. -/
theorem unwritten_slot_run {s : JsString} :
    ∀ {w : World α} {es : List (Event α)}, w.writes s es = false →
      ∀ b, (w.run es).cache.entries.get s = some b →
        ∃ a, w.cache.entries.get s = some a ∧ b.unmarked = a.unmarked
  | _, [], _, b, hb => ⟨b, hb, rfl⟩
  | w, ev :: es, hwr, b, hb => by
    simp only [writes, Bool.or_eq_false_iff] at hwr
    obtain ⟨m, hm, hmb⟩ := unwritten_slot_run (w := w.step ev) hwr.2 b hb
    obtain ⟨a, ha, rfl | rfl⟩ := get_step_of_unwritten ev (fun d hd => by simp [hd] at hwr) hm
    · exact ⟨m, ha, hmb⟩
    · exact ⟨a, ha, hmb.trans (CacheEntry.unmarked_invalidated a w.now)⟩

/-- A games entry through an `applyRules`, a failed refetch and a write of another key. -/
theorem unwritten_slot_run_games :
    let k := QueryKeys.games.byId (.str (jsString "7"))
    let w : World Nat := (World.init none 0).run [.set k 1 none, .registerFetcher k 0]
    let es : List (Event Nat) :=
      [.tick 5, .applyRules ⟨some ⟨jsString "coinFlip", none, some (.str (jsString "7"))⟩, none⟩,
        .settle 0 (.rejected 1), .set (QueryKeys.games.root) 2 none]
    w.writes (keyToString k) es = false ∧
      ∀ b, (w.run es).cache.entries.get (keyToString k) = some b →
        ∃ a, w.cache.entries.get (keyToString k) = some a ∧ b.unmarked = a.unmarked :=
  ⟨by decide, unwritten_slot_run (by decide)⟩

/-- **One step.** In a reachable cache bounded by `N`, an event that removes nothing does
not keep an entry while evicting one written later. -/
theorem isSome_step_of_newer {N : Int} (hN : 0 < N) {w : World α} (hw : Reachable w)
    (hmax : w.cache.maxEntries = some N) {ev : Event α} (hrem : ev.isRemoval = false)
    {a b : JsString} {ea eb : CacheEntry α}
    (ha : (w.step ev).cache.entries.get a = some ea) (hb : w.cache.entries.get b = some eb)
    (hlt : ea.meta.updatedAt < eb.meta.updatedAt) :
    ((w.step ev).cache.entries.get b).isSome := by
  rcases step_cases w ev with ⟨p, hp⟩ | ⟨w₀, k, d, pol, hc, hn, hw', -⟩ | ⟨k, rfl, -⟩ | ⟨rfl, -⟩ |
      ⟨t, -, hw'⟩
  · simp [hp.get_eq, hb]
  · cases hb' : (w.step ev).cache.entries.get b with
    | some _ => rfl
    | none =>
      rw [hw'] at ha hb'
      have hinv : w₀.Inv := fun s e h => by rw [hn]; exact hw.inv s e (hc ▸ h)
      have hsize : (w₀.cache.entries.size : Int) ≤ N := hc ▸ hw.size_le hN hmax
      have := evicted_le_kept hN hinv (hc ▸ hmax) hsize (hc.symm ▸ hb) hb' ha
      omega
  · cases hrem
  · cases hrem
  · rw [hw']
    exact Option.isSome_iff_exists.2 ⟨eb, hb⟩

/-- **Run.** Over a run that removes nothing, writes neither slot and keeps the clock from
going back: while an entry is stored at `a` it keeps its write time `ta`, and the entry at
`b`, written at `tb`, stays stored with it. -/
theorem newer_kept_run {N : Int} (hN : 0 < N) {a b : JsString} {ta tb : Int} (hlt : ta < tb) :
    ∀ {w : World α} {es : List (Event α)}, Reachable w → w.cache.maxEntries = some N →
      w.monotoneRun es = true → (∀ e ∈ es, e.isRemoval = false) →
      w.writes a es = false → w.writes b es = false →
      (∀ ea, w.cache.entries.get a = some ea → ea.meta.updatedAt = ta ∧
        ∃ eb, w.cache.entries.get b = some eb ∧ eb.meta.updatedAt = tb) →
      ∀ ea, (w.run es).cache.entries.get a = some ea → ea.meta.updatedAt = ta ∧
        ∃ eb, (w.run es).cache.entries.get b = some eb ∧ eb.meta.updatedAt = tb
  | _, [], _, _, _, _, _, _, h => h
  | w, ev :: es, hw, hmax, hmono, hrem, hwa, hwb, h => by
    simp only [monotoneRun_cons, writes, Bool.and_eq_true, Bool.or_eq_false_iff] at hmono hwa hwb
    have hnw {s : JsString}
        (hs : (match ev.slotWrite w s with | some (some _) => true | _ => false) = false) :
        ∀ d, ev.slotWrite w s ≠ some (some d) := fun d hd => by simp [hd] at hs
    refine newer_kept_run hN hlt (w := w.step ev) (hw.step ev hmono.1)
      ((step_keysStep w ev).1.trans hmax) hmono.2 (fun e he => hrem e (List.mem_cons_of_mem _ he))
      hwa.2 hwb.2 fun ea' ha' => ?_
    obtain ⟨ea, ha, hua⟩ := updatedAt_step_of_unwritten ev (hnw hwa.1) ha'
    obtain ⟨hta, eb, hb, htb⟩ := h ea ha
    obtain ⟨eb', hb'⟩ := Option.isSome_iff_exists.1
      (isSome_step_of_newer hN hw hmax (hrem ev (List.mem_cons_self _ _)) ha' hb (by omega))
    obtain ⟨eb'', hb'', hub⟩ := updatedAt_step_of_unwritten ev (hnw hwb.1) hb'
    rw [hb] at hb''
    cases hb''
    exact ⟨hua.trans hta, eb', hb', hub.trans htb⟩

/-- **Eviction keeps the newer entry.** In a reachable cache bounded by `maxEntries = N > 0`,
take two stored entries, the one at slot `a` written before the one at slot `b`. Over any
run with a clock that does not go back, no `remove` or `clear`, and no write to either
slot, the entry at `b` is never evicted while the one at `a` is kept. -/
theorem eviction_keeps_newer {N : Int} (hN : 0 < N) {w : World α} (hw : Reachable w)
    (hmax : w.cache.maxEntries = some N) {a b : JsString} {ta tb : Int}
    (ha : (w.cache.entries.get a).map (·.meta.updatedAt) = some ta)
    (hb : (w.cache.entries.get b).map (·.meta.updatedAt) = some tb) (hlt : ta < tb)
    {es : List (Event α)} (hes : w.monotoneRun es = true) (hrem : ∀ e ∈ es, e.isRemoval = false)
    (hwa : w.writes a es = false) (hwb : w.writes b es = false) :
    ((w.run es).cache.entries.get a).isSome → ((w.run es).cache.entries.get b).isSome := by
  intro h
  obtain ⟨ea', ha'⟩ := Option.isSome_iff_exists.1 h
  obtain ⟨eb, hb₀, rfl⟩ := Option.map_eq_some'.1 hb
  have hinit : ∀ ea, w.cache.entries.get a = some ea → ea.meta.updatedAt = ta ∧
      ∃ eb', w.cache.entries.get b = some eb' ∧ eb'.meta.updatedAt = eb.meta.updatedAt :=
    fun ea he => ⟨by simpa [he] using ha, eb, hb₀, rfl⟩
  obtain ⟨-, eb', hb', -⟩ := newer_kept_run hN hlt hw hmax hes hrem hwa hwb hinit ea' ha'
  exact Option.isSome_iff_exists.2 ⟨eb', hb'⟩

/-- Two profiles written at `0` and `5` under `maxEntries: 2`; a third key written at `10`
evicts the older. -/
theorem eviction_keeps_newer_profiles :
    let k₁ := QueryKeys.profile.byAddress (jsString "GAAA")
    let k₂ := QueryKeys.profile.byAddress (jsString "GBBB")
    let w : World Nat := (World.init (some 2) 0).run [.set k₁ 1 none, .tick 5, .set k₂ 2 none]
    let es : List (Event Nat) := [.tick 10, .invalidate k₁, .set QueryKeys.games.root 3 none]
    Reachable w ∧ w.cache.maxEntries = some 2 ∧
      (w.cache.entries.get (keyToString k₁)).map (·.meta.updatedAt) = some 0 ∧
      (w.cache.entries.get (keyToString k₂)).map (·.meta.updatedAt) = some 5 ∧
      w.monotoneRun es = true ∧ (∀ e ∈ es, e.isRemoval = false) ∧
      w.writes (keyToString k₁) es = false ∧ w.writes (keyToString k₂) es = false ∧
      (((w.run es).cache.entries.get (keyToString k₁)).isSome →
        ((w.run es).cache.entries.get (keyToString k₂)).isSome) ∧
      (w.run es).cache.entries.get (keyToString k₁) = none :=
  have hw : Reachable ((World.init (α := Nat) (some 2) 0).run
      [.set (QueryKeys.profile.byAddress (jsString "GAAA")) 1 none, .tick 5,
        .set (QueryKeys.profile.byAddress (jsString "GBBB")) 2 none]) :=
    (Reachable.init (some 2) 0).run (by decide)
  ⟨hw, rfl, by decide, by decide, by decide, by decide, by decide, by decide,
    eviction_keeps_newer (by decide) hw rfl (show _ = some (0 : Int) by decide)
      (show _ = some (5 : Int) by decide) (by decide) (by decide) (by decide) (by decide)
      (by decide), by decide⟩

end World

end StellarCade.Cache
