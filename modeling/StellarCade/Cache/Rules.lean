import StellarCade.Cache.Marking

/-!
# What `applyRules` invalidates

The rules invalidate a fixed list of keys built from the event (`ruleKeys`): the balance
of each affected address; for `coinFlip`, the game and each address's recent games; for
`achievementBadge`, each address's rewards and profile. For `prizePool` they also
invalidate under the prefix `QueryKeys.balances.root()`. `marksWhere_applyRules` says
exactly which entries that marks, and `applyRules_marks_rule_keys` reads it as a frame
result: the rule keys are marked, and nothing outside them is, but for `prizePool`
balances.

The prefix is `["balances", "root"]`, and `hasPrefix` compares the second segment too: of
the balance entries, `prizePool` reaches only those whose second segment is `"root"`, not
the `["balances", "account", a]` entries of the addresses the event does not list
(`prizePool_marks_root_and_listed`).
-/

namespace StellarCade.Cache

open StellarCade.Js

variable {α : Type}

/-- The keys `applyRules` hands to `invalidate`, in order. -/
def CacheInvalidationEvent.ruleKeys (evt : CacheInvalidationEvent) : List QueryKey :=
  evt.addresses.map QueryKeys.balances.account ++
  (if evt.isContract "coinFlip" then
    ((evt.contractTx.bind (·.gameId)).map fun g => QueryKeys.games.byId (.str g.toJsString)).toList ++
      evt.addresses.map QueryKeys.games.recentByAddress
  else []) ++
  (if evt.isContract "achievementBadge" then
    evt.addresses.flatMap fun a => [QueryKeys.rewards.byAddress a, QueryKeys.profile.byAddress a]
  else [])

namespace CacheInvalidationEvent

variable (evt : CacheInvalidationEvent)

/-- Every rule key is a namespace, a name and one string. -/
theorem ruleKeys_path {k : QueryKey} (hk : k ∈ evt.ruleKeys) : ∃ a, k.path = [.str a] := by
  simp only [ruleKeys, List.mem_append, List.mem_map, List.mem_ite_nil_right, Option.mem_toList,
    Option.mem_def, Option.map_eq_some', List.mem_flatMap, List.mem_pair] at hk
  rcases hk with (⟨a, -, rfl⟩ | ⟨-, ⟨g, -, rfl⟩ | ⟨a, -, rfl⟩⟩) | ⟨-, a, -, rfl | rfl⟩ <;>
    exact ⟨_, rfl⟩

/-- The event names one contract at most. -/
theorem isContract_eq_false {a b : String} (ha : evt.isContract a = true)
    (hab : jsString a ≠ jsString b) : evt.isContract b = false := by
  simp only [isContract, beq_iff_eq] at ha ⊢
  rw [ha]
  simpa using hab

end CacheInvalidationEvent

namespace World

variable (w : World α)

theorem marksWhere_invalidateCoinFlip (addresses : List JsString) (gameId : Option GameId) :
    w.MarksWhere (fun s _ => decide (s ∈ ((gameId.map fun g =>
        QueryKeys.games.byId (.str g.toJsString)).toList ++
        addresses.map QueryKeys.games.recentByAddress).map keyToString))
      (w.invalidateCoinFlip addresses gameId) := by
  cases gameId with
  | none =>
    exact (marksWhere_invalidateEach w _ addresses).congr fun _ _ _ => by
      simp [← List.map_eq_flatMap]
  | some g =>
    exact ((marksWhere_invalidate w _).trans (marksWhere_invalidateEach _ _ addresses)).congr
      fun _ _ _ => by simp [← List.map_eq_flatMap]

/-- **Which entries the rules mark**: those at the slot of a rule key and, for
`prizePool`, those under `QueryKeys.balances.root()`. -/
theorem marksWhere_applyRules {w : World α} (hw : SlotsConsistent w.cache.entries)
    (evt : CacheInvalidationEvent) :
    w.MarksWhere (fun s k =>
      (evt.isContract "prizePool" && hasPrefix k QueryKeys.balances.root) ||
        decide (s ∈ evt.ruleKeys.map keyToString)) (w.applyRules evt) := by
  have hbal := marksWhere_invalidateEach w (fun a => [QueryKeys.balances.account a]) evt.addresses
  have hpre := marksWhere_invalidatePrefix (hw.of_marks hbal.marks) QueryKeys.balances.root
  refine (hbal.trans ((MarksWhere.ite _ hpre).trans ((MarksWhere.ite _
    (marksWhere_invalidateCoinFlip _ _ _)).trans (MarksWhere.ite _
      (marksWhere_invalidateEach _ _ _))))).congr fun s _ _ => Bool.eq_iff_iff.2 ?_
  simp only [Bool.or_eq_true, Bool.and_eq_true, decide_eq_true_eq,
    CacheInvalidationEvent.ruleKeys, List.map_append, List.mem_append,
    apply_ite (List.map keyToString), List.map_nil, List.mem_ite_nil_right, ← List.map_eq_flatMap]
  exact or_left_comm.trans (or_congr_right or_assoc.symm)

/-- **What the rules invalidate.** In a store whose entries sit at their keys' slots,
`applyRules` adds, removes and reorders no entry and changes nothing in an entry but
`invalidatedAt`. It marks at the current time every stored entry of a rule key, and leaves
every entry of any other key as it was, unless the contract is `prizePool` and the entry is
a balance. -/
theorem applyRules_marks_rule_keys {w : World α} (hw : SlotsConsistent w.cache.entries)
    (evt : CacheInvalidationEvent) :
    (w.applyRules evt).cache.entries.keys = w.cache.entries.keys ∧
    (∀ s, ((w.applyRules evt).cache.entries.get s).map CacheEntry.unmarked =
      (w.cache.entries.get s).map CacheEntry.unmarked) ∧
    (∀ k ∈ evt.ruleKeys, ∀ e, w.get k = some e →
      (w.applyRules evt).get k = some (e.invalidated w.now)) ∧
    (∀ s e, w.cache.entries.get s = some e → e.key ∉ evt.ruleKeys →
      (evt.isContract "prizePool" = true → e.key.ns ≠ .balances) →
      (w.applyRules evt).cache.entries.get s = some e) := by
  have hm := marksWhere_applyRules hw evt
  refine ⟨hm.keys_eq, hm.marks.get_eq, fun k hk e he => ?_, fun s e he hk hp => ?_⟩
  · rw [get, hm.get_eq, show w.cache.entries.get (keyToString k) = some e from he,
      Option.map_some', if_pos (by simp [List.mem_map_of_mem _ hk])]
  · obtain rfl := hw s e he
    rw [hm.get_eq, he, Option.map_some', if_neg]
    simp only [Bool.or_eq_true, Bool.and_eq_true, decide_eq_true_eq, not_or, not_and]
    refine ⟨fun hpz hpre => hp hpz (hasPrefix_ns hpre), fun hmem => ?_⟩
    obtain ⟨k, hk', hkk⟩ := List.mem_map.1 hmem
    obtain ⟨a, ha⟩ := evt.ruleKeys_path hk'
    have hs : ∀ x ∈ k.path, ∃ a, x = .str a := fun x hx => ⟨a, by simpa [ha] using hx⟩
    exact hk ((keyToString_eq_iff_of_strings hs e.key).1 hkk.symm ▸ hk')

/-- A `coinFlip` outcome of game `7` (a `bigint`) for `GA`, over a store holding the balances
of `GA` and `GB` and game `7`. -/
theorem applyRules_coinFlip_game :
    let w : World Nat := (World.init none 0).run
      [.set (QueryKeys.balances.account (jsString "GA")) 1 none,
        .set (QueryKeys.balances.account (jsString "GB")) 2 none,
        .set (QueryKeys.games.byId (.str (jsString "7"))) 3 none, .tick 5]
    let evt : CacheInvalidationEvent :=
      ⟨some ⟨jsString "coinFlip", some [jsString "GA"], some (.bigint 7)⟩, none⟩
    SlotsConsistent w.cache.entries ∧
    ((w.applyRules evt).cache.entries.keys = w.cache.entries.keys ∧
    (∀ s, ((w.applyRules evt).cache.entries.get s).map CacheEntry.unmarked =
      (w.cache.entries.get s).map CacheEntry.unmarked) ∧
    (∀ k ∈ evt.ruleKeys, ∀ e, w.get k = some e →
      (w.applyRules evt).get k = some (e.invalidated w.now)) ∧
    (∀ s e, w.cache.entries.get s = some e → e.key ∉ evt.ruleKeys →
      (evt.isContract "prizePool" = true → e.key.ns ≠ .balances) →
      (w.applyRules evt).cache.entries.get s = some e)) :=
  have hw := slotsConsistent_run (w := (World.init none 0 : World Nat)) _ fun s e h => by
    simp [World.init] at h
  ⟨hw, applyRules_marks_rule_keys hw _⟩

/-- **`prizePool` and the balances.** When the contract is `prizePool`, `applyRules` marks a
stored balance entry exactly when it is the balance of an affected address or its second
segment is `"root"`: the prefix `["balances", "root"]` does not reach
`["balances", "account", a]` for an address `a` the event does not list. -/
theorem prizePool_marks_root_and_listed {w : World α} (hw : SlotsConsistent w.cache.entries)
    {evt : CacheInvalidationEvent} (hp : evt.isContract "prizePool" = true) {s : JsString}
    {e : CacheEntry α} (he : w.cache.entries.get s = some e) (hb : e.key.ns = .balances) :
    (w.applyRules evt).cache.entries.get s =
      some (if (∃ a ∈ evt.addresses, e.key = QueryKeys.balances.account a) ∨
          e.key.sub = jsString "root"
        then e.invalidated w.now else e) := by
  have hc := evt.isContract_eq_false hp (b := "coinFlip") (by decide)
  have hbadge := evt.isContract_eq_false hp (b := "achievementBadge") (by decide)
  obtain rfl := hw s e he
  have key : ((evt.isContract "prizePool" && hasPrefix e.key QueryKeys.balances.root) ||
      decide (keyToString e.key ∈ evt.ruleKeys.map keyToString)) = true ↔
      (∃ a ∈ evt.addresses, e.key = QueryKeys.balances.account a) ∨
        e.key.sub = jsString "root" := by
    simp only [CacheInvalidationEvent.ruleKeys, hc, hbadge, hp, Bool.false_eq_true, ite_false,
      List.append_nil, Bool.true_and, Bool.or_eq_true, decide_eq_true_eq, List.map_map,
      List.mem_map, Function.comp_apply, hasPrefix_balances_root, hb, true_and]
    refine or_comm.trans (or_congr_left (exists_congr fun a => and_congr_right fun _ => ?_))
    exact eq_comm.trans (keyToString_eq_iff_of_strings (by simp [QueryKeys.balances.account]) e.key)
  rw [(marksWhere_applyRules hw evt).get_eq, he, Option.map_some']
  simp only [key]

/-- The failing input: the balance of `GB`, written at time `0`, and a `prizePool` event that
lists no address. The entry is left unmarked, and `isStale` still calls it fresh. -/
theorem prizePool_leaves_unlisted_balance_fresh :
    let k := QueryKeys.balances.account (jsString "GB")
    let w : World Nat := (World.init none 0).run [.set k 1 none]
    let evt : CacheInvalidationEvent := ⟨some ⟨jsString "prizePool", some [], none⟩, none⟩
    let e : CacheEntry Nat := ⟨k, 1, ⟨0, 0, 3000, none⟩, ⟨3000, true⟩⟩
    SlotsConsistent w.cache.entries ∧ evt.isContract "prizePool" = true ∧
    w.cache.entries.get (keyToString k) = some e ∧ e.key.ns = .balances ∧
    (w.applyRules evt).cache.entries.get (keyToString k) =
      some (if (∃ a ∈ evt.addresses, e.key = QueryKeys.balances.account a) ∨
          e.key.sub = jsString "root"
        then e.invalidated w.now else e) ∧
    (w.applyRules evt).get k = some e ∧ (w.applyRules evt).isStale k = false :=
  have hw := slotsConsistent_run (w := (World.init none 0 : World Nat)) _ fun s e h => by
    simp [World.init] at h
  have he : ((World.init none 0 : World Nat).run
      [.set (QueryKeys.balances.account (jsString "GB")) 1 none]).cache.entries.get
        (keyToString (QueryKeys.balances.account (jsString "GB"))) =
      some ⟨QueryKeys.balances.account (jsString "GB"), 1, ⟨0, 0, 3000, none⟩, ⟨3000, true⟩⟩ := by
    decide
  have hp : CacheInvalidationEvent.isContract ⟨some ⟨jsString "prizePool", some [], none⟩, none⟩
      "prizePool" = true := rfl
  ⟨hw, hp, he, rfl, prizePool_marks_root_and_listed hw hp he rfl, by decide, by decide⟩

end World

end StellarCade.Cache
