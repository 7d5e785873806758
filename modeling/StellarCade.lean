import StellarCade.Js.Value
import StellarCade.Js.Map
import StellarCade.Js.Json
import StellarCade.Cache.Key
import StellarCade.Cache.Store
import StellarCade.Cache.Invalidator
import StellarCade.Cache.Step
import StellarCade.Cache.Invariant
import StellarCade.Cache.Eviction
import StellarCade.Cache.Fetch
import StellarCade.Cache.Subscription
import StellarCade.Cache.Register
import StellarCade.Cache.Marking
import StellarCade.Cache.Rules
import StellarCade.Cache.Freshness
import StellarCade.Cache.Retention
import StellarCade.GlobalStore.Store
import StellarCade.GlobalStore.Invariant
import StellarCade.GlobalStore.Flags
import StellarCade.GlobalStore.Sharing
import StellarCade.GlobalStore.Subscribers
import StellarCade.Forms.Validators
import StellarCade.Forms.Hooks
import StellarCade.Forms.Form
