import GreenchClaw.Js.Number
import GreenchClaw.Routing.ChannelRoute

/-!
# Follow-up messages

A message that arrives while the agent is busy, `FollowupRun`, with the two keys that decide
what it may be batched with: the authorization key of its sender and the key of its route.
-/

namespace GreenchClaw.AutoReply

open GreenchClaw.Js GreenchClaw.Routing

inductive QueueMode where
  | steer
  | followup
  | collect
  | steerBacklog
  | interrupt
  | queue
  deriving DecidableEq

inductive QueueDropPolicy where
  | old
  | new
  | summarize
  deriving DecidableEq

structure QueueSettings where
  mode : QueueMode
  cap : Option JsNumber := none
  dropPolicy : Option QueueDropPolicy := none
  deriving DecidableEq

structure ExecOverrides where
  host : Option JsString := none
  security : Option JsString := none
  ask : Option JsString := none
  node : Option JsString := none
  deriving DecidableEq

structure BashElevated where
  enabled : Bool
  allowed : Bool
  defaultLevel : JsString
  deriving DecidableEq

/-- `FollowupRun["run"]`, as far as the authorization key reads it. -/
structure RunContext where
  senderId : Option JsString := none
  senderE164 : Option JsString := none
  senderIsOwner : Bool := false
  execOverrides : Option ExecOverrides := none
  bashElevated : Option BashElevated := none
  deriving DecidableEq

structure OriginRouting where
  originatingChannel : Option JsString := none
  originatingTo : Option JsString := none
  originatingAccountId : Option JsString := none
  originatingThreadId : Option ThreadId := none
  deriving DecidableEq

structure FollowupRun extends OriginRouting where
  prompt : JsString
  messageId : Option JsString := none
  summaryLine : Option JsString := none
  run : RunContext := {}
  deriving DecidableEq

/-! ## Authorization -/

/-- The tuple that `resolveFollowupAuthorizationKey` writes as JSON. -/
structure AuthorizationKey where
  senderId : JsString
  senderE164 : JsString
  senderIsOwner : Bool
  host : JsString
  security : JsString
  ask : JsString
  node : JsString
  elevatedEnabled : Bool
  elevatedAllowed : Bool
  elevatedLevel : JsString
  deriving DecidableEq

def resolveFollowupAuthorizationKey (run : RunContext) : AuthorizationKey where
  senderId := run.senderId.getD []
  senderE164 := run.senderE164.getD []
  senderIsOwner := run.senderIsOwner
  host := (run.execOverrides.bind ExecOverrides.host).getD []
  security := (run.execOverrides.bind ExecOverrides.security).getD []
  ask := (run.execOverrides.bind ExecOverrides.ask).getD []
  node := (run.execOverrides.bind ExecOverrides.node).getD []
  elevatedEnabled := run.bashElevated.any BashElevated.enabled
  elevatedAllowed := run.bashElevated.any BashElevated.allowed
  elevatedLevel := (run.bashElevated.map BashElevated.defaultLevel).getD []

/-! ## Routes -/

variable [UnicodeCase]

@[ext]
structure RouteKey where
  channel : JsString
  target : JsString
  accountId : JsString
  threadId : JsString
  deriving DecidableEq

/-- The tuple that `channelRouteDedupeKey` writes as JSON. -/
def channelRouteDedupeKey (route : OriginRouting) : RouteKey where
  channel := normalizeLowercaseStringOrEmpty route.originatingChannel
  target := (normalizeOptionalString route.originatingTo).getD []
  accountId := (normalizeOptionalAccountId route.originatingAccountId).getD []
  threadId := (stringifyRouteThreadId route.originatingThreadId).getD []

/-- `channelRouteCompactKey`: the four parts joined with bars. -/
def channelRouteCompactKey (route : OriginRouting) : Option JsString :=
  let key := channelRouteDedupeKey route
  if key.channel = [] ∨ key.target = [] then none
  else
    some
      (List.intercalate [unit '|'] [key.channel, key.target, key.accountId, key.threadId])

/-- The channels that a plugin is registered for. -/
class ChannelRegistry where
  isKnown : JsString → Bool

@[reducible] def noPlugins : ChannelRegistry := ⟨fun _ => false⟩

variable [ChannelRegistry]

def isRoutableChannel (channel : Option JsString) : Bool :=
  match truthy channel with
  | none => false
  | some name => name ≠ INTERNAL_MESSAGE_CHANNEL && ChannelRegistry.isKnown name

inductive CrossChannelKey where
  /-- No part of a route is set. -/
  | unkeyed
  | cross
  | key (key : JsString)
  deriving DecidableEq

def resolveCrossChannelKey (item : FollowupRun) : CrossChannelKey :=
  if truthy item.originatingChannel = none ∧ truthy item.originatingTo = none ∧
      truthy item.originatingAccountId = none ∧
      presentThreadId item.originatingThreadId = none then
    .unkeyed
  else if !isRoutableChannel item.originatingChannel ∨ truthy item.originatingTo = none then
    .cross
  else
    match channelRouteCompactKey item.toOriginRouting with
    | some key => .key key
    | none => .cross

/-- The loop of `hasCrossChannelItems`, with the keys and the unkeyed items met so far. -/
def hasCrossChannelFrom (keys : List JsString) (hasUnkeyed : Bool) : List FollowupRun → Bool
  | [] => decide (keys ≠ []) && (hasUnkeyed || decide (1 < keys.length))
  | item :: rest =>
      match resolveCrossChannelKey item with
      | .cross => true
      | .unkeyed => hasCrossChannelFrom keys true rest
      | .key key =>
          if keys.contains key then hasCrossChannelFrom keys hasUnkeyed rest
          else hasCrossChannelFrom (keys ++ [key]) hasUnkeyed rest

def hasCrossChannelItems (items : List FollowupRun) : Bool :=
  hasCrossChannelFrom [] false items

/-! ## What a batch carries -/

omit [UnicodeCase] [ChannelRegistry] in
/-- The parts that a later item fills in where the earlier ones left them empty. -/
def OriginRouting.fill (metadata item : OriginRouting) : OriginRouting where
  originatingChannel := metadata.originatingChannel <|> truthy item.originatingChannel
  originatingTo := metadata.originatingTo <|> truthy item.originatingTo
  originatingAccountId := metadata.originatingAccountId <|> truthy item.originatingAccountId
  originatingThreadId := metadata.originatingThreadId <|> presentThreadId item.originatingThreadId

omit [UnicodeCase] [ChannelRegistry] in
def resolveOriginRoutingMetadata (items : List FollowupRun) : OriginRouting :=
  items.foldl (fun metadata item => metadata.fill item.toOriginRouting) {}

end GreenchClaw.AutoReply
