import GreenchClaw.Lib.Transition
import GreenchClaw.Routing.ChannelRoute

/-!
# Delivery contexts

`src/utils/delivery-context.shared.ts` with the parts of `src/plugin-sdk/channel-route.ts` and
`src/utils/message-channel-core.ts` that it uses: a route is a channel, a target, an account and a
thread, each of them optional.
-/

namespace GreenchClaw.Sessions

open GreenchClaw.Js GreenchClaw.Routing

structure DeliveryContext where
  channel : Option JsString := none
  /-- The field `to`. -/
  target : Option JsString := none
  accountId : Option JsString := none
  threadId : Option ThreadId := none
  deriving DecidableEq

/-- The names of channels: what `normalizeChatChannelId` and then `normalizeAnyChannelId` find for a
name in lower case, from the bundled catalog and the plugins that are registered. -/
class ChannelNames where
  channelId : JsString → Option JsString

@[reducible] def noChannelNames : ChannelNames := ⟨fun _ => none⟩

section Contexts

variable [UnicodeCase]

variable [ChannelNames]

def normalizeMessageChannel (raw : Option JsString) : Option JsString :=
  match normalizeOptionalLowercaseString raw with
  | none => none
  | some normalized =>
      if normalized = [] then none
      else if normalized = INTERNAL_MESSAGE_CHANNEL then some INTERNAL_MESSAGE_CHANNEL
      else some ((ChannelNames.channelId normalized).getD normalized)

def routeChannel (channel : Option JsString) : Option JsString :=
  match channel with
  | none => none
  | some channel =>
      let name :=
        normalizeLowercaseStringOrEmpty
          (some ((normalizeMessageChannel (some channel)).getD (trim channel)))
      if name = [] then none else some name

def normalizeDeliveryContext (context : Option DeliveryContext) : Option DeliveryContext :=
  match context with
  | none => none
  | some context =>
      let channel := routeChannel context.channel
      let accountId := normalizeOptionalAccountId context.accountId
      let target := normalizeOptionalString context.target
      let threadId := normalizeOptionalThreadValue context.threadId
      if channel = none ∧ target = none ∧ accountId = none ∧ threadId = none then none
      else some { channel, target, accountId := normalizeOptionalAccountId accountId, threadId }

def mergeDeliveryContext (primary fallback : Option DeliveryContext) : Option DeliveryContext :=
  match normalizeDeliveryContext primary, normalizeDeliveryContext fallback with
  | none, none => none
  | normalizedPrimary, normalizedFallback =>
      let p := normalizedPrimary.getD {}
      let f := normalizedFallback.getD {}
      let channelsConflict := p.channel.isSome ∧ f.channel.isSome ∧ p.channel ≠ f.channel
      normalizeDeliveryContext
        (some
          { channel := p.channel.or f.channel
            target := if channelsConflict then p.target else p.target.or f.target
            accountId := if channelsConflict then p.accountId else p.accountId.or f.accountId
            threadId := if channelsConflict then p.threadId else p.threadId.or f.threadId })

structure SessionOrigin where
  label : Option JsString := none
  provider : Option JsString := none
  surface : Option JsString := none
  chatType : Option JsString := none
  fromAddress : Option JsString := none
  target : Option JsString := none
  nativeChannelId : Option JsString := none
  nativeDirectUserId : Option JsString := none
  accountId : Option JsString := none
  threadId : Option ThreadId := none
  deriving DecidableEq

/-- The fields of a session entry that its route depends on, `DeliveryContextSessionSource`. -/
structure SessionEntry where
  channel : Option JsString := none
  lastChannel : Option JsString := none
  lastTo : Option JsString := none
  lastAccountId : Option JsString := none
  lastThreadId : Option ThreadId := none
  origin : Option SessionOrigin := none
  deliveryContext : Option DeliveryContext := none
  deriving DecidableEq

def normalizeSessionDeliveryFields (source : SessionEntry) : Option DeliveryContext :=
  mergeDeliveryContext
    (normalizeDeliveryContext
      (some
        { channel := source.lastChannel.or source.channel
          target := source.lastTo
          accountId := source.lastAccountId
          threadId := source.lastThreadId }))
    (normalizeDeliveryContext source.deliveryContext)

def deliveryContextFromSession (entry : Option SessionEntry) : Option DeliveryContext :=
  match entry with
  | none => none
  | some entry =>
      normalizeSessionDeliveryFields
        { channel := entry.channel.or (entry.origin.bind SessionOrigin.provider)
          lastChannel := entry.lastChannel
          lastTo := entry.lastTo
          lastAccountId := entry.lastAccountId.or (entry.origin.bind SessionOrigin.accountId)
          lastThreadId :=
            (entry.lastThreadId.or (entry.deliveryContext.bind DeliveryContext.threadId)).or
              (entry.origin.bind SessionOrigin.threadId)
          origin := entry.origin
          deliveryContext := entry.deliveryContext }

end Contexts

/-!
## The last route of a session

`src/config/sessions/store.ts`, `store-load.ts` and `metadata.ts`: what `updateLastRoute` and
`recordSessionMetaFromInbound` make of the entry of a session, with the normalisation at every load
and save.  The label and the chat type of a message and the channel of its group resolution are
inputs; fields of an entry that no route depends on are left out.
-/

structure MsgContext where
  /-- What `resolveConversationLabel` returns. -/
  conversationLabel : Option JsString := none
  /-- What `normalizeChatType` returns. -/
  chatType : Option JsString := none
  originatingChannel : Option JsString := none
  surface : Option JsString := none
  provider : Option JsString := none
  fromAddress : Option JsString := none
  originatingTo : Option JsString := none
  /-- The field `To`. -/
  target : Option JsString := none
  nativeChannelId : Option JsString := none
  nativeDirectUserId : Option JsString := none
  accountId : Option JsString := none
  messageThreadId : Option ThreadId := none
  /-- The channel of the group resolution that is passed along or found for the message. -/
  groupChannel : Option JsString := none
  deriving DecidableEq

def mergeOrigin (existing next : Option SessionOrigin) : Option SessionOrigin :=
  if existing = none ∧ next = none then none
  else
    let e := existing.getD {}
    let n := next.getD {}
    let merged : SessionOrigin :=
      { label := (truthy n.label).or e.label
        provider := (truthy n.provider).or e.provider
        surface := (truthy n.surface).or e.surface
        chatType := (truthy n.chatType).or e.chatType
        fromAddress := (truthy n.fromAddress).or e.fromAddress
        target := (truthy n.target).or e.target
        nativeChannelId := (truthy n.nativeChannelId).or e.nativeChannelId
        nativeDirectUserId := (truthy n.nativeDirectUserId).or e.nativeDirectUserId
        accountId := (truthy n.accountId).or e.accountId
        threadId := (presentThreadId n.threadId).or e.threadId }
    if merged = {} then none else some merged

variable [UnicodeCase] [ChannelNames]

def deriveSessionOrigin (ctx : MsgContext) : Option SessionOrigin :=
  let providerRaw := ((truthy ctx.originatingChannel).or (truthy ctx.surface)).or ctx.provider
  let origin : SessionOrigin :=
    { label := truthy (normalizeOptionalString ctx.conversationLabel)
      provider := truthy (normalizeMessageChannel providerRaw)
      surface := truthy (normalizeOptionalLowercaseString ctx.surface)
      chatType := truthy ctx.chatType
      fromAddress := truthy (normalizeOptionalString ctx.fromAddress)
      target := truthy (normalizeOptionalString (ctx.originatingTo.or ctx.target))
      nativeChannelId := truthy (normalizeOptionalString ctx.nativeChannelId)
      nativeDirectUserId := truthy (normalizeOptionalString ctx.nativeDirectUserId)
      accountId := truthy (normalizeOptionalString ctx.accountId)
      threadId := presentThreadId ctx.messageThreadId }
  if origin = {} then none else some origin

structure SessionMetaPatch where
  channel : Option JsString := none
  origin : Option SessionOrigin := none
  deriving DecidableEq

def deriveSessionMetaPatch (ctx : MsgContext) (existing : Option SessionEntry) :
    Option SessionMetaPatch :=
  let groupChannel := truthy ctx.groupChannel
  let origin := deriveSessionOrigin ctx
  if groupChannel = none ∧ origin = none then none
  else some
    { channel := groupChannel
      origin := mergeOrigin (existing.bind SessionEntry.origin) origin }

def applyMetaPatch (entry : SessionEntry) (patch : Option SessionMetaPatch) : SessionEntry :=
  match patch with
  | none => entry
  | some patch =>
      { entry with
        channel := patch.channel.or entry.channel
        origin := patch.origin.or entry.origin }

def normalizeSessionEntryDelivery (entry : SessionEntry) : SessionEntry :=
  let nextDelivery := normalizeSessionDeliveryFields
    { channel := entry.channel
      lastChannel := entry.lastChannel
      lastTo := entry.lastTo
      lastAccountId := entry.lastAccountId
      lastThreadId :=
        (entry.lastThreadId.or (entry.deliveryContext.bind DeliveryContext.threadId)).or
          (entry.origin.bind SessionOrigin.threadId)
      deliveryContext := entry.deliveryContext }
  let next := nextDelivery.getD {}
  let sameDelivery := entry.deliveryContext.getD {} = next
  let sameLast := entry.lastChannel = next.channel ∧ entry.lastTo = next.target ∧
    entry.lastAccountId = next.accountId ∧ entry.lastThreadId = next.threadId
  if sameDelivery ∧ sameLast then entry
  else
    { entry with
      deliveryContext := nextDelivery
      lastChannel := next.channel
      lastTo := next.target
      lastAccountId := next.accountId
      lastThreadId := next.threadId }

def removeThreadFromDeliveryContext (context : Option DeliveryContext) : Option DeliveryContext :=
  context.map fun context => { context with threadId := none }

structure LastRouteParams where
  channel : Option JsString := none
  /-- The field `to`. -/
  target : Option JsString := none
  accountId : Option JsString := none
  threadId : Option ThreadId := none
  deliveryContext : Option DeliveryContext := none
  ctx : Option MsgContext := none
  createIfMissing : Bool := true
  deriving DecidableEq

namespace LastRouteParams

variable (params : LastRouteParams)

def explicitContext : Option DeliveryContext := normalizeDeliveryContext params.deliveryContext

def inlineContext : Option DeliveryContext :=
  normalizeDeliveryContext
    (some
      { channel := params.channel
        target := params.target
        accountId := params.accountId
        threadId := params.threadId })

def mergedInput : Option DeliveryContext :=
  mergeDeliveryContext params.explicitContext params.inlineContext

def explicitThreadValue : Option ThreadId :=
  (params.deliveryContext.bind DeliveryContext.threadId).or (presentThreadId params.threadId)

def explicitRouteProvided : Bool :=
  (params.explicitContext.bind DeliveryContext.channel).isSome ||
    (params.explicitContext.bind DeliveryContext.target).isSome ||
    (params.inlineContext.bind DeliveryContext.channel).isSome ||
    (params.inlineContext.bind DeliveryContext.target).isSome

def clearThreadFromFallback : Bool :=
  params.explicitRouteProvided && params.explicitThreadValue.isNone

def metaPatch (existing : Option SessionEntry) : Option SessionMetaPatch :=
  params.ctx.bind fun ctx => deriveSessionMetaPatch ctx existing

end LastRouteParams

def updateLastRoute (existing : Option SessionEntry) (params : LastRouteParams) :
    Option SessionEntry :=
  if existing = none ∧ params.createIfMissing = false then none
  else
    let fallbackContext :=
      if params.clearThreadFromFallback = true then
        removeThreadFromDeliveryContext (deliveryContextFromSession existing)
      else deliveryContextFromSession existing
    let merged := (mergeDeliveryContext params.mergedInput fallbackContext).getD {}
    let normalized := normalizeSessionDeliveryFields { deliveryContext := some merged }
    let route := normalized.getD {}
    let base : SessionEntry :=
      { existing.getD {} with
        deliveryContext := normalized
        lastChannel := route.channel
        lastTo := route.target
        lastAccountId := route.accountId
        lastThreadId := route.threadId }
    some (applyMetaPatch base (params.metaPatch existing))

def recordSessionMetaFromInbound (existing : Option SessionEntry) (ctx : MsgContext)
    (createIfMissing : Bool) : Option SessionEntry :=
  match deriveSessionMetaPatch ctx existing with
  | none => existing
  | some patch =>
      if existing = none ∧ createIfMissing = false then none
      else some (applyMetaPatch (existing.getD {}) (some patch))

inductive Action where
  | updateLastRoute (params : LastRouteParams)
  | recordSessionMetaFromInbound (ctx : MsgContext) (createIfMissing : Bool)
  deriving DecidableEq

/-- A call on the stored entry of the session: it is loaded, changed and saved. -/
def perform (stored : Option SessionEntry) (action : Action) : Option SessionEntry :=
  let existing := stored.map normalizeSessionEntryDelivery
  let next :=
    match action with
    | .updateLastRoute params => updateLastRoute existing params
    | .recordSessionMetaFromInbound ctx createIfMissing =>
        recordSessionMetaFromInbound existing ctx createIfMissing
  next.map normalizeSessionEntryDelivery

def step (stored : Option SessionEntry) (action : Action) : Option (Option SessionEntry) :=
  some (perform stored action)

end GreenchClaw.Sessions
