import StellarCade.Js.Json

/-!
# Query keys, their storage slot, and the default policies

`query-cache-invalidation.ts` names every cached resource by a `QueryKey`: a namespace,
a string, and further scalar segments. Two functions compare keys:

* `keyToString` turns a key into the string that is its slot in the `entries` and
  `fetchers` maps (`JSON.stringify`);
* `hasPrefix` compares segments with `===` (used by `invalidatePrefix`).

`keyToString_eq_iff` says when two keys share a slot: exactly when they have the same
length and, segment by segment, are `===` or are both written as `null` by JSON (`null`,
`NaN`, `Infinity`, `-Infinity`). So keys that are `===` segment by segment, or `NaN`
where they are not, share a slot; and keys without a non-finite number share a slot
exactly when they are `===` segment by segment (`keyToString_eq_iff_strictEquals`).
Distinct keys collide only through the four values JSON writes as `null`.
-/

namespace StellarCade.Cache

open StellarCade.Js

/-- `QueryNamespace`. -/
inductive QueryNamespace where
  | balances
  | games
  | rewards
  | profile
  deriving DecidableEq, Repr

/-- The namespace tag, as the string that stands first in a key. -/
def QueryNamespace.name : QueryNamespace → JsString
  | .balances => jsString "balances"
  | .games => jsString "games"
  | .rewards => jsString "rewards"
  | .profile => jsString "profile"

/-- `QueryKey`: `readonly [QueryNamespace, string, ...Array<string | number | boolean | null>]`.
The first two segments are fields, so a key of the wrong shape cannot be built. -/
structure QueryKey where
  ns : QueryNamespace
  sub : JsString
  path : List Segment
  deriving DecidableEq, Repr

/-- The key as the JS array it is. -/
def QueryKey.toList (k : QueryKey) : List Segment := .str k.ns.name :: .str k.sub :: k.path

/-- `keyToString(key)`: `JSON.stringify(key)`. -/
def keyToString (key : QueryKey) : JsString := serializeArray key.toList

/-- `hasPrefix(key, prefix)`: the prefix is no longer than the key, and
`key[i] === prefix[i]` for every index of the prefix. -/
def hasPrefix (key pfx : QueryKey) : Bool :=
  if pfx.toList.length > key.toList.length then false
  else (List.range pfx.toList.length).all fun i =>
    match key.toList[i]?, pfx.toList[i]? with
    | some a, some b => a.strictEquals b
    | _, _ => false

/-! ## Key constructors and policies -/

/-- A `string | number | bigint` value, as `ContractTxContext.gameId` holds. -/
inductive GameId where
  | str (s : JsString)
  | num (n : JsNumber)
  | bigint (i : Int)
  deriving DecidableEq, Repr

/-- `String(gameId)`. -/
def GameId.toJsString : GameId → JsString
  | .str s => s
  | .num n => n.toJsString
  | .bigint i => jsString (toString i)

/-- `QueryKeys.balances.root()`. -/
def QueryKeys.balances.root : QueryKey := ⟨.balances, jsString "root", []⟩

/-- `QueryKeys.balances.account(address)`. -/
def QueryKeys.balances.account (address : JsString) : QueryKey :=
  ⟨.balances, jsString "account", [.str address]⟩

/-- `QueryKeys.games.root()`. -/
def QueryKeys.games.root : QueryKey := ⟨.games, jsString "root", []⟩

/-- `QueryKeys.games.byId(gameId)`. -/
def QueryKeys.games.byId (gameId : GameId) : QueryKey :=
  ⟨.games, jsString "byId", [.str gameId.toJsString]⟩

/-- `QueryKeys.games.recentByAddress(address)`. -/
def QueryKeys.games.recentByAddress (address : JsString) : QueryKey :=
  ⟨.games, jsString "recentByAddress", [.str address]⟩

/-- `QueryKeys.rewards.root()`. -/
def QueryKeys.rewards.root : QueryKey := ⟨.rewards, jsString "root", []⟩

/-- `QueryKeys.rewards.byAddress(address)`. -/
def QueryKeys.rewards.byAddress (address : JsString) : QueryKey :=
  ⟨.rewards, jsString "byAddress", [.str address]⟩

/-- `QueryKeys.profile.root()`. -/
def QueryKeys.profile.root : QueryKey := ⟨.profile, jsString "root", []⟩

/-- `QueryKeys.profile.byAddress(address)`. -/
def QueryKeys.profile.byAddress (address : JsString) : QueryKey :=
  ⟨.profile, jsString "byAddress", [.str address]⟩

/-- `QueryPolicy`. Times are whole milliseconds. -/
structure QueryPolicy where
  staleTimeMs : Int
  refetchOnInvalidate : Bool
  deriving DecidableEq, Repr

/-- `QueryPolicies[String(key[0])]`: the registered policy of a namespace. -/
def queryPolicies : QueryNamespace → Option QueryPolicy
  | .balances => some ⟨3000, true⟩
  | .games => some ⟨10000, true⟩
  | .rewards => some ⟨5000, true⟩
  | .profile => some ⟨60000, true⟩

/-- The policy `set` falls back on when a namespace has none registered. -/
def fallbackPolicy : QueryPolicy := ⟨30000, true⟩

/-- `policy ?? QueryPolicies[String(key[0])] ?? { staleTimeMs: 30_000, ... }`. -/
def effectivePolicy (key : QueryKey) (policy : Option QueryPolicy) : QueryPolicy :=
  policy.getD ((queryPolicies key.ns).getD fallbackPolicy)

/-! ## When two keys share a slot -/

theorem jsonValue_eq_iff (a b : Segment) :
    a.jsonValue = b.jsonValue ↔
      a.strictEquals b = true ∨ (a.isJsonNull = true ∧ b.isJsonNull = true) := by
  rcases a with _ | (_ | _ | _ | _) | _ | _ <;> rcases b with _ | (_ | _ | _ | _) | _ | _ <;>
    simp [Segment.jsonValue, Segment.strictEquals, JsNumber.strictEquals, Segment.isJsonNull,
      JsNumber.isFinite, FiniteNumber.ext_iff]

/-- **Slot equality**: two keys have the same `keyToString` exactly when they have the same
length and each pair of segments is `===` or is written as `null` on both sides. -/
theorem keyToString_eq_iff (k1 k2 : QueryKey) :
    keyToString k1 = keyToString k2 ↔
      k1.toList.length = k2.toList.length ∧
      ∀ i (h1 : i < k1.toList.length) (h2 : i < k2.toList.length),
        k1.toList[i].strictEquals k2.toList[i] = true ∨
          (k1.toList[i].isJsonNull = true ∧ k2.toList[i].isJsonNull = true) := by
  rw [keyToString, keyToString, serializeArray_eq_iff, List.ext_get_iff]
  simp only [List.length_map, List.get_eq_getElem, List.getElem_map, jsonValue_eq_iff]

/-- Segments `SameValueZero` relates are written alike. -/
theorem jsonValue_eq_of_sameValueZero {a b : Segment} (h : a.sameValueZero b = true) :
    a.strictEquals b = true ∨ (a.isJsonNull = true ∧ b.isJsonNull = true) := by
  rcases Bool.or_eq_true_iff.1 h with h | h
  · exact .inl h
  · simp only [Bool.and_eq_true, beq_iff_eq] at h
    obtain ⟨rfl, rfl⟩ := h
    exact .inr ⟨rfl, rfl⟩

/-- The only finite segment JSON writes as `null` is `null`. -/
theorem eq_null_of_isJsonNull {a : Segment} (ha : a.isNonFinite = false) (h : a.isJsonNull = true) :
    a = .null := by
  rcases a with _ | (_ | _ | _ | _) | _ | _ <;>
    simp_all [Segment.isNonFinite, Segment.isJsonNull, JsNumber.isFinite]

/-- Two finite segments that JSON writes as `null` are both `null`, so they are `===`. -/
theorem strictEquals_of_isJsonNull {a b : Segment} (ha : a.isNonFinite = false)
    (hb : b.isNonFinite = false) (h : a.isJsonNull = true ∧ b.isJsonNull = true) :
    a.strictEquals b = true := by
  rw [eq_null_of_isJsonNull ha h.1, eq_null_of_isJsonNull hb h.2]
  rfl

/-- **Slots and `===`.** Keys of the same length whose segments are `===`, or both `NaN`,
share a slot. Keys without `NaN`, `Infinity` or `-Infinity` share a slot exactly when they
have the same length and their segments are `===`. -/
theorem keyToString_eq_iff_strictEquals (k1 k2 : QueryKey) :
    ((k1.toList.length = k2.toList.length ∧
      ∀ i (h1 : i < k1.toList.length) (h2 : i < k2.toList.length),
        k1.toList[i].sameValueZero k2.toList[i] = true) → keyToString k1 = keyToString k2) ∧
    ((∀ x ∈ k1.toList ++ k2.toList, x.isNonFinite = false) →
      (keyToString k1 = keyToString k2 ↔ k1.toList.length = k2.toList.length ∧
        ∀ i (h1 : i < k1.toList.length) (h2 : i < k2.toList.length),
          k1.toList[i].strictEquals k2.toList[i] = true)) := by
  refine ⟨fun ⟨hlen, h⟩ => (keyToString_eq_iff k1 k2).2
    ⟨hlen, fun i h1 h2 => jsonValue_eq_of_sameValueZero (h i h1 h2)⟩, fun hfin => ?_⟩
  rw [keyToString_eq_iff]
  refine ⟨fun ⟨hlen, h⟩ => ⟨hlen, fun i h1 h2 => (h i h1 h2).elim id ?_⟩,
    fun ⟨hlen, h⟩ => ⟨hlen, fun i h1 h2 => .inl (h i h1 h2)⟩⟩
  exact strictEquals_of_isJsonNull (hfin _ (List.mem_append_left _ (List.getElem_mem _)))
    (hfin _ (List.mem_append_right _ (List.getElem_mem _)))

/-- A key with a `NaN` segment shares its slot with itself, and a key with a `null`
segment shares its slot exactly with the keys `===` to it. -/
theorem keyToString_eq_iff_strictEquals_nan_null :
    let k : QueryKey := ⟨.balances, jsString "account", [.num .nan]⟩
    let k' : QueryKey := ⟨.games, jsString "byId", [.null]⟩
    (k.toList.length = k.toList.length ∧ ∀ i (h1 : i < k.toList.length) (h2 : i < k.toList.length),
      k.toList[i].sameValueZero k.toList[i] = true) ∧ keyToString k = keyToString k ∧
    (∀ x ∈ k'.toList ++ k'.toList, x.isNonFinite = false) ∧
      (keyToString k' = keyToString k' ↔ k'.toList.length = k'.toList.length ∧
        ∀ i (h1 : i < k'.toList.length) (h2 : i < k'.toList.length),
          k'.toList[i].strictEquals k'.toList[i] = true) :=
  ⟨by decide, (keyToString_eq_iff_strictEquals _ _).1 (by decide), by decide,
    (keyToString_eq_iff_strictEquals _ _).2 (by decide)⟩

/-- `null` and `Infinity` are not `===`, yet share a slot. -/
example : keyToString ⟨.balances, jsString "x", [.null]⟩ =
    keyToString ⟨.balances, jsString "x", [.num .infinity]⟩ := by decide

/-- Slot equality is not element-wise `===`: the key `["balances", "account", NaN]` shares
its slot with itself, but `NaN === NaN` is false. -/
theorem keyToString_eq_not_strictEquals :
    ¬ ∀ k1 k2 : QueryKey, (keyToString k1 = keyToString k2 ↔
      k1.toList.length = k2.toList.length ∧
      ∀ i (h1 : i < k1.toList.length) (h2 : i < k2.toList.length),
        k1.toList[i].strictEquals k2.toList[i] = true) := by
  intro h
  have := ((h ⟨.balances, jsString "account", [.num .nan]⟩
    ⟨.balances, jsString "account", [.num .nan]⟩).1 rfl).2 2 (by decide) (by decide)
  exact absurd this (by decide)

/-! ## Keys of strings, and prefixes -/

theorem QueryNamespace.name_inj {a b : QueryNamespace} (h : a.name = b.name) : a = b := by
  cases a <;> cases b <;> first | rfl | exact absurd h (by decide)

theorem QueryKey.toList_inj {k k' : QueryKey} (h : k.toList = k'.toList) : k = k' := by
  obtain ⟨ns, sub, path⟩ := k
  obtain ⟨ns', sub', path'⟩ := k'
  simp only [QueryKey.toList, List.cons.injEq, Segment.str.injEq] at h
  obtain ⟨hn, rfl, rfl⟩ := h
  rw [QueryNamespace.name_inj hn]

/-- A key whose further segments are all strings shares its slot with itself only: strings
are neither written as `null` nor `===` to anything but themselves. -/
theorem keyToString_eq_iff_of_strings {k' : QueryKey} (hs : ∀ x ∈ k'.path, ∃ a, x = .str a)
    (k : QueryKey) : keyToString k = keyToString k' ↔ k = k' := by
  refine ⟨fun h => QueryKey.toList_inj ?_, fun h => h ▸ rfl⟩
  obtain ⟨hlen, hseg⟩ := (keyToString_eq_iff k k').1 h
  refine List.ext_getElem hlen fun i h1 h2 => ?_
  have hstr : ∃ a, k'.toList[i] = .str a := by
    match i, h2 with
    | 0, _ => exact ⟨_, rfl⟩
    | 1, _ => exact ⟨_, rfl⟩
    | j + 2, h2 => exact hs _ (List.getElem_mem _)
  obtain ⟨a, ha⟩ := hstr
  rcases hseg i h1 h2 with h | ⟨-, h⟩ <;> rw [ha] at h ⊢
  · revert h; cases k.toList[i] <;> simp [Segment.strictEquals]
  · cases h

/-- `hasPrefix(key, prefix)`: the prefix is no longer than the key, and each of its
segments is `===` to the key's segment at the same index. -/
theorem hasPrefix_iff (k pfx : QueryKey) :
    hasPrefix k pfx = true ↔ pfx.toList.length ≤ k.toList.length ∧
      ∀ i (hp : i < pfx.toList.length) (hk : i < k.toList.length),
        k.toList[i].strictEquals pfx.toList[i] = true := by
  rw [hasPrefix]
  split_ifs with h
  · simp only [Bool.false_eq_true, false_iff, not_and]
    intro h'; omega
  · simp only [List.all_eq_true, List.mem_range]
    constructor
    · intro hall
      refine ⟨by omega, fun i hp hk => ?_⟩
      have := hall i hp
      rwa [List.getElem?_eq_getElem hk, List.getElem?_eq_getElem hp] at this
    · rintro ⟨-, hall⟩ i hp
      rw [List.getElem?_eq_getElem (by omega), List.getElem?_eq_getElem hp]
      exact hall i hp _

/-- A key under a prefix is in the prefix's namespace. -/
theorem hasPrefix_ns {k pfx : QueryKey} (h : hasPrefix k pfx = true) : k.ns = pfx.ns := by
  have := ((hasPrefix_iff k pfx).1 h).2 0 (by simp [QueryKey.toList]) (by simp [QueryKey.toList])
  simp only [QueryKey.toList, List.getElem_cons_zero, Segment.strictEquals, beq_iff_eq] at this
  exact QueryNamespace.name_inj this

/-- The keys under `QueryKeys.balances.root()` are the balance keys whose second segment is
`"root"`: not `balances.account(a)`. -/
theorem hasPrefix_balances_root (k : QueryKey) :
    hasPrefix k QueryKeys.balances.root = true ↔ k.ns = .balances ∧ k.sub = jsString "root" := by
  rw [hasPrefix_iff]
  constructor
  · rintro ⟨-, h⟩
    have h0 := h 0 (by decide) (by simp [QueryKey.toList])
    have h1 := h 1 (by decide) (by simp [QueryKey.toList])
    simp only [QueryKey.toList, List.getElem_cons_zero, List.getElem_cons_succ, Segment.strictEquals,
      beq_iff_eq, QueryKeys.balances.root] at h0 h1
    exact ⟨QueryNamespace.name_inj h0, h1⟩
  · rintro ⟨hn, hs⟩
    refine ⟨by simp [QueryKey.toList, QueryKeys.balances.root], fun i hp hk => ?_⟩
    match i, hp with
    | 0, _ => simp [QueryKey.toList, QueryKeys.balances.root, Segment.strictEquals, hn]
    | 1, _ => simp [QueryKey.toList, QueryKeys.balances.root, Segment.strictEquals, hs]

end StellarCade.Cache
