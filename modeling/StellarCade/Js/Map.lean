import StellarCade.Js.Value
import Mathlib.Data.List.Nodup

/-!
# ECMAScript `Map`

The cache keeps its entries and fetchers in `Map<string, _>`, and a plain object of
flags behaves the same way for own properties. What the code relies on is the
insertion order: `entries.values()` enumerates in it, eviction breaks ties by it, and
`Map.prototype.set` on a key that is already present keeps the key where it was.

`JsMap` carries the fact that every key occurs once, so `size` is the number of keys.
Everything later is stated through `get`, with the `@[simp]` lemmas of this file.
-/

namespace StellarCade.Js

/-- An ECMAScript `Map`: its entries in insertion order, each key at most once. -/
structure JsMap (κ β : Type) where
  pairs : List (κ × β)
  nodup : (pairs.map Prod.fst).Nodup

namespace JsMap

variable {κ β : Type}

/-- `new Map()`. -/
def empty : JsMap κ β := ⟨[], List.nodup_nil⟩

/-- The keys, in insertion order (`m.keys()`). -/
def keys (m : JsMap κ β) : List κ := m.pairs.map Prod.fst

/-- The values, in insertion order (`m.values()`). -/
def values (m : JsMap κ β) : List β := m.pairs.map Prod.snd

/-- `m.size`. -/
def size (m : JsMap κ β) : Nat := m.pairs.length

theorem ext {m m' : JsMap κ β} (h : m.pairs = m'.pairs) : m = m' := by
  cases m; cases m'; cases h; rfl

instance [DecidableEq κ] [DecidableEq β] : DecidableEq (JsMap κ β) := fun m m' =>
  decidable_of_iff (m.pairs = m'.pairs) ⟨ext, fun h => h ▸ rfl⟩

@[simp] theorem size_empty : (empty : JsMap κ β).size = 0 := rfl

@[simp] theorem keys_empty : (empty : JsMap κ β).keys = [] := rfl

theorem nodup_keys (m : JsMap κ β) : m.keys.Nodup := m.nodup

theorem size_eq_length_keys (m : JsMap κ β) : m.size = m.keys.length := by
  simp [size, keys]

section Ops

variable [DecidableEq κ]

/-- `m.get(k)`. -/
def get (m : JsMap κ β) (k : κ) : Option β := m.pairs.lookup k

/-- Overwrite the value of `k` where it stands. -/
def overwrite (k : κ) (v : β) (p : κ × β) : κ × β := if p.1 = k then (k, v) else p

theorem map_fst_overwrite (k : κ) (v : β) (ps : List (κ × β)) :
    (ps.map (overwrite k v)).map Prod.fst = ps.map Prod.fst := by
  induction ps with
  | nil => rfl
  | cons p ps ih =>
    simp only [List.map_cons, ih, overwrite]
    split <;> simp_all

/-- `m.set(k, v)`: a key already present keeps its position, a new key goes last. -/
def set (m : JsMap κ β) (k : κ) (v : β) : JsMap κ β :=
  if h : k ∈ m.keys then
    ⟨m.pairs.map (overwrite k v), by rw [map_fst_overwrite]; exact m.nodup⟩
  else
    ⟨m.pairs ++ [(k, v)], by
      rw [List.map_append, List.nodup_append]
      exact ⟨m.nodup, List.nodup_singleton _, by simpa [keys] using h⟩⟩

/-- `m.delete(k)`. -/
def delete (m : JsMap κ β) (k : κ) : JsMap κ β :=
  ⟨m.pairs.filter (·.1 ≠ k), m.nodup.sublist ((List.filter_sublist _).map _)⟩

/-! ## Reading back -/

theorem lookup_cons_eq_ite (a k : κ) (b : β) (ps : List (κ × β)) :
    ((a, b) :: ps).lookup k = if k = a then some b else ps.lookup k := by
  rw [List.lookup_cons]; split <;> simp_all

@[simp] theorem get_empty (k : κ) : (empty : JsMap κ β).get k = none := rfl

theorem mem_keys_iff {m : JsMap κ β} {k : κ} : k ∈ m.keys ↔ (m.get k).isSome := by
  simp only [keys, get, List.lookup_isSome_iff, List.mem_map, beq_iff_eq]
  exact exists_congr fun _ => and_congr_right fun _ => eq_comm

theorem get_eq_none_iff {m : JsMap κ β} {k : κ} : m.get k = none ↔ k ∉ m.keys := by
  rw [mem_keys_iff, Option.not_isSome_iff_eq_none]

theorem lookup_of_mem {k : κ} {v : β} : ∀ {ps : List (κ × β)}, (ps.map Prod.fst).Nodup →
    (k, v) ∈ ps → ps.lookup k = some v
  | (a, b) :: ps, hnd, hmem => by
    rw [List.map_cons, List.nodup_cons] at hnd
    rw [lookup_cons_eq_ite]
    rcases List.mem_cons.1 hmem with h | h
    · cases h; exact if_pos rfl
    · have hk : k ∈ ps.map Prod.fst := List.mem_map_of_mem Prod.fst h
      rw [if_neg fun (e : k = a) => hnd.1 (e ▸ hk)]
      exact lookup_of_mem hnd.2 h

theorem get_eq_some_iff {m : JsMap κ β} {k : κ} {v : β} : m.get k = some v ↔ (k, v) ∈ m.pairs := by
  refine ⟨fun h => ?_, lookup_of_mem m.nodup⟩
  obtain ⟨l₁, l₂, hl, -⟩ := List.lookup_eq_some_iff.1 h
  exact hl ▸ List.mem_append_right _ (List.mem_cons_self _ _)

theorem mem_values_iff {m : JsMap κ β} {v : β} : v ∈ m.values ↔ ∃ k, m.get k = some v := by
  simp only [values, List.mem_map, get_eq_some_iff]
  exact ⟨fun ⟨p, hp, h⟩ => ⟨p.1, h ▸ hp⟩, fun ⟨k, hk⟩ => ⟨_, hk, rfl⟩⟩

/-- Values that name their own key list the keys. -/
theorem values_map_eq_keys {m : JsMap κ β} {f : β → κ} (h : ∀ k v, m.get k = some v → f v = k) :
    m.values.map f = m.keys := by
  simp only [values, keys, List.map_map]
  exact List.map_congr_left fun p hp => h p.1 p.2 (lookup_of_mem m.nodup hp)

theorem eq_filterMap_lookup : ∀ {ps : List (κ × β)}, (ps.map Prod.fst).Nodup →
    ps = (ps.map Prod.fst).filterMap fun k => (ps.lookup k).map (k, ·)
  | [], _ => rfl
  | (a, b) :: ps, hnd => by
    rw [List.map_cons, List.nodup_cons] at hnd
    rw [List.map_cons, List.filterMap_cons, lookup_cons_eq_ite, if_pos rfl, Option.map_some']
    refine congrArg _ ((eq_filterMap_lookup hnd.2).trans (List.filterMap_congr fun k hk => ?_))
    rw [lookup_cons_eq_ite, if_neg fun (h : k = a) => hnd.1 (h ▸ hk)]

/-- A map is determined by its keys, in order, and what `get` reads at each. -/
theorem ext_get {m m' : JsMap κ β} (hk : m.keys = m'.keys) (hg : ∀ k, m.get k = m'.get k) :
    m = m' := by
  refine ext ((eq_filterMap_lookup m.nodup).trans ((?_ : _ = _).trans
    (eq_filterMap_lookup m'.nodup).symm))
  change List.filterMap _ m.keys = List.filterMap _ m'.keys
  rw [← hk]
  exact List.filterMap_congr fun k _ => congrArg (Option.map _) (hg k)

theorem lookup_map_overwrite (k k' : κ) (v : β) : ∀ ps : List (κ × β),
    (ps.map (overwrite k v)).lookup k' =
      if k' = k then (ps.lookup k').map fun _ => v else ps.lookup k'
  | [] => by split <;> rfl
  | (a, b) :: ps => by
    have ih := lookup_map_overwrite k k' v ps
    by_cases hak : a = k
    · subst hak
      by_cases hk : k' = a <;> simp [overwrite, lookup_cons_eq_ite, hk, ih]
    · by_cases hk : k' = k
      · subst hk; simp [overwrite, lookup_cons_eq_ite, hak, Ne.symm hak, ih]
      · simp [overwrite, lookup_cons_eq_ite, hak, hk, ih]

theorem lookup_filter_ne (k k' : κ) : ∀ ps : List (κ × β),
    (ps.filter (·.1 ≠ k)).lookup k' = if k' = k then none else ps.lookup k'
  | [] => by split <;> rfl
  | (a, b) :: ps => by
    have ih := lookup_filter_ne k k' ps
    by_cases hak : a = k
    · subst hak
      rw [List.filter_cons_of_neg (by simp), ih, lookup_cons_eq_ite]
      by_cases hk : k' = a <;> simp [hk]
    · rw [List.filter_cons_of_pos (by simpa using hak), lookup_cons_eq_ite, lookup_cons_eq_ite, ih]
      by_cases hk : k' = k
      · subst hk; simp [Ne.symm hak]
      · simp [hk]

@[simp] theorem get_set (m : JsMap κ β) (k k' : κ) (v : β) :
    (m.set k v).get k' = if k' = k then some v else m.get k' := by
  unfold set
  split
  · next h =>
    obtain ⟨w, hw⟩ := Option.isSome_iff_exists.1 (mem_keys_iff.1 h)
    simp only [get, lookup_map_overwrite]
    split <;> simp_all [get]
  · next h =>
    have hk : m.pairs.lookup k = none := get_eq_none_iff.2 h
    simp only [get, List.lookup_append, lookup_cons_eq_ite, List.lookup_nil]
    by_cases hk' : k' = k
    · subst hk'; simp [hk]
    · simp [hk']

@[simp] theorem get_delete (m : JsMap κ β) (k k' : κ) :
    (m.delete k).get k' = if k' = k then none else m.get k' :=
  lookup_filter_ne k k' m.pairs

@[simp] theorem keys_set (m : JsMap κ β) (k : κ) (v : β) :
    (m.set k v).keys = if k ∈ m.keys then m.keys else m.keys ++ [k] := by
  unfold set
  split
  · exact map_fst_overwrite k v m.pairs
  · simp [keys]

theorem values_set_of_not_mem {m : JsMap κ β} {k : κ} (h : k ∉ m.keys) (v : β) :
    (m.set k v).values = m.values ++ [v] := by
  simp [set, h, values]

theorem keys_delete (m : JsMap κ β) (k : κ) : (m.delete k).keys = m.keys.erase k := by
  show _ = (m.pairs.map Prod.fst).erase k
  rw [m.nodup.erase_eq_filter, List.filter_map]
  exact congrArg _ (List.filter_congr fun x _ => by simp [Function.comp_def, bne, beq_eq_decide])

theorem size_set (m : JsMap κ β) (k : κ) (v : β) :
    (m.set k v).size = if k ∈ m.keys then m.size else m.size + 1 := by
  simp only [size_eq_length_keys, keys_set]
  split <;> simp

theorem size_delete (m : JsMap κ β) (k : κ) :
    (m.delete k).size = if k ∈ m.keys then m.size - 1 else m.size := by
  simp only [size_eq_length_keys, keys_delete, List.length_erase]

theorem get_foldl_delete (m : JsMap κ β) (ks : List κ) (k : κ) :
    (ks.foldl delete m).get k = if k ∈ ks then none else m.get k := by
  induction ks generalizing m with
  | nil => simp
  | cons k' ks ih =>
    simp only [List.foldl_cons, ih, get_delete, List.mem_cons]
    by_cases h1 : k ∈ ks <;> by_cases h2 : k = k' <;> simp [h1, h2]

theorem keys_foldl_delete (m : JsMap κ β) (ks : List κ) :
    (ks.foldl delete m).keys = m.keys.filter (· ∉ ks) := by
  induction ks generalizing m with
  | nil => simp
  | cons k' ks ih =>
    rw [List.foldl_cons, ih, keys_delete, m.nodup_keys.erase_eq_filter, List.filter_filter]
    exact List.filter_congr fun k _ => by by_cases h1 : k = k' <;> by_cases h2 : k ∈ ks <;> simp [h1, h2]

theorem size_foldl_delete (m : JsMap κ β) {ks : List κ} (hks : ks.Nodup)
    (hsub : ∀ k ∈ ks, k ∈ m.keys) : (ks.foldl delete m).size = m.size - ks.length := by
  induction ks generalizing m with
  | nil => simp
  | cons k' ks ih =>
    rw [List.nodup_cons] at hks
    have hk' := hsub k' (List.mem_cons_self _ _)
    rw [List.foldl_cons, ih _ hks.2 fun k hk => ?_, size_delete, if_pos hk', List.length_cons]
    · omega
    · rw [keys_delete, m.nodup_keys.mem_erase_iff]
      exact ⟨fun e => hks.1 (e ▸ hk), hsub k (List.mem_cons_of_mem _ hk)⟩

/-- Apply `f` to the value of `k`, if there is one: `m.get(k)` followed by `m.set(k, _)`. -/
def modify (m : JsMap κ β) (k : κ) (f : β → β) : JsMap κ β :=
  match m.get k with
  | none => m
  | some v => m.set k (f v)

@[simp] theorem get_modify (m : JsMap κ β) (k k' : κ) (f : β → β) :
    (m.modify k f).get k' = if k' = k then (m.get k).map f else m.get k' := by
  unfold modify
  split <;> by_cases hk : k' = k <;> simp_all

@[simp] theorem keys_modify (m : JsMap κ β) (k : κ) (f : β → β) : (m.modify k f).keys = m.keys := by
  unfold modify
  split
  · rfl
  · next h => rw [keys_set, if_pos (mem_keys_iff.2 (by simp [h]))]

theorem size_modify (m : JsMap κ β) (k : κ) (f : β → β) : (m.modify k f).size = m.size := by
  simp [size_eq_length_keys]

end Ops

end JsMap

/-! ## Plain objects

A plain object such as `{}` has own properties, kept here as a `JsMap`, and inherits the
members of `Object.prototype`. Reading `obj[key]` finds an own property first, then an
inherited member, and yields `undefined` only when neither exists. -/

/-- The names of the members every plain object inherits from `Object.prototype`. -/
def objectPrototypeMembers : List JsString :=
  ["constructor", "__defineGetter__", "__defineSetter__", "hasOwnProperty", "__lookupGetter__",
    "__lookupSetter__", "isPrototypeOf", "propertyIsEnumerable", "toString", "valueOf",
    "__proto__", "toLocaleString"].map jsString

/-- What `obj[key]` yields on a plain object. -/
inductive PropertyRead (β : Type) where
  /-- The value of an own property. -/
  | own (v : β)
  /-- The member `Object.prototype` has under that name: a function, or for `__proto__`
  the prototype itself. -/
  | inherited (name : JsString)
  | undefined
  deriving DecidableEq, Repr

/-- `obj[key]`, for a plain object with own properties `own`. -/
def readProperty {β : Type} (own : JsMap JsString β) (key : JsString) : PropertyRead β :=
  match own.get key with
  | some v => .own v
  | none => if key ∈ objectPrototypeMembers then .inherited key else .undefined

end StellarCade.Js
