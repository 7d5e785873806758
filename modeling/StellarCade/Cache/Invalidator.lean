import StellarCade.Cache.Store

/-!
# `QueryCacheInvalidator.applyRules`

The rule engine turns the outcome of a transaction into `invalidate` and
`invalidatePrefix` calls. It also stamps the event with a time, a `reason` and a
`txHash`, but the cache ignores the event it is handed (`invalidate(key, _evt)`), so the
model keeps only what decides which keys are invalidated: the contract name, the
affected addresses and the game id.

The three private helpers are one loop each over the addresses; `invalidateEach` is that
loop, and each helper is it applied to the helper's own keys.
-/

namespace StellarCade.Cache

open StellarCade.Js

/-- `ContractTxContext`: the fields the rules read. -/
structure ContractTxContext where
  contract : JsString
  addresses : Option (List JsString)
  gameId : Option GameId
  deriving DecidableEq, Repr

/-- The generic mutation context: the field the rules read. -/
structure MutationContext where
  addresses : Option (List JsString)
  deriving DecidableEq, Repr

/-- `CacheInvalidationEvent`: the fields the rules read. -/
structure CacheInvalidationEvent where
  contractTx : Option ContractTxContext
  mutation : Option MutationContext
  deriving DecidableEq, Repr

/-- `evt.contractTx?.addresses ?? evt.mutation?.addresses ?? []`. -/
def CacheInvalidationEvent.addresses (evt : CacheInvalidationEvent) : List JsString :=
  ((evt.contractTx.bind (·.addresses)) <|> (evt.mutation.bind (·.addresses))).getD []

/-- `evt.contractTx?.contract === name`. -/
def CacheInvalidationEvent.isContract (evt : CacheInvalidationEvent) (name : String) : Bool :=
  evt.contractTx.map (·.contract) == some (jsString name)

variable {α : Type}

namespace World

/-- Invalidate the keys `keysOf a` of each address `a`, in order. -/
def invalidateEach (w : World α) (keysOf : JsString → List QueryKey)
    (addresses : List JsString) : World α :=
  addresses.foldl (fun w a => (keysOf a).foldl invalidate w) w

/-- `invalidateBalances(addresses, evt)`. -/
def invalidateBalances (w : World α) (addresses : List JsString) : World α :=
  w.invalidateEach (fun a => [QueryKeys.balances.account a]) addresses

/-- `invalidateCoinFlip(addresses, gameId, evt)`. -/
def invalidateCoinFlip (w : World α) (addresses : List JsString) (gameId : Option GameId) :
    World α :=
  let w := match gameId with
    | some g => w.invalidate (QueryKeys.games.byId (.str g.toJsString))
    | none => w
  w.invalidateEach (fun a => [QueryKeys.games.recentByAddress a]) addresses

/-- `invalidateAchievementBadge(addresses, evt)`. -/
def invalidateAchievementBadge (w : World α) (addresses : List JsString) : World α :=
  w.invalidateEach (fun a => [QueryKeys.rewards.byAddress a, QueryKeys.profile.byAddress a])
    addresses

/-- `applyRules({ outcome, event })`. -/
def applyRules (w : World α) (evt : CacheInvalidationEvent) : World α :=
  let w := w.invalidateBalances evt.addresses
  let w := if evt.isContract "prizePool" then w.invalidatePrefix QueryKeys.balances.root else w
  let w := if evt.isContract "coinFlip" then
      w.invalidateCoinFlip evt.addresses (evt.contractTx.bind (·.gameId))
    else w
  if evt.isContract "achievementBadge" then w.invalidateAchievementBadge evt.addresses else w

end World

end StellarCade.Cache
