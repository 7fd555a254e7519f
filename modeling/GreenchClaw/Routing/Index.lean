import GreenchClaw.Lib.FirstMatch
import GreenchClaw.Routing.SessionKey
import Mathlib.Data.List.AList

/-!
# Routing configuration

The part of the configuration object that `resolveAgentRoute` reads (`agents.list`,
`bindings` and `session`), the agent lookup and the identifiers of a binding's scope.
-/

namespace GreenchClaw.Routing

open GreenchClaw.Js

/-- A value where an id is expected: a string, a number by its decimal rendering, or anything
else. -/
inductive RawId where
  | text (value : JsString)
  | number (rendered : JsString)
  | other
  deriving DecidableEq, Repr

structure BindingPeer where
  kind : Option JsString
  id : Option RawId
  deriving DecidableEq, Repr

structure AgentBindingMatch where
  channel : Option JsString
  accountId : Option JsString
  peer : Option BindingPeer
  guildId : Option RawId
  teamId : Option RawId
  roles : Option (List JsString)
  deriving DecidableEq, Repr

inductive BindingType where
  | route
  | acp
  deriving DecidableEq, Repr

/-- An entry of `bindings`.  The `session` of an entry is given by its `dmScope`. -/
structure AgentBinding where
  type : Option BindingType
  agentId : JsString
  bindingMatch : AgentBindingMatch
  sessionDmScope : Option DmScope
  deriving DecidableEq, Repr

structure AgentEntry where
  id : Option JsString
  default : Bool
  deriving DecidableEq, Repr

structure SessionConfig where
  dmScope : Option DmScope
  identityLinks : Option IdentityLinks
  deriving DecidableEq, Repr

structure RoutingConfig where
  agents : List AgentEntry
  bindings : List AgentBinding
  session : Option SessionConfig
  deriving DecidableEq, Repr

structure RoutePeer where
  kind : ChatType
  id : RawId
  deriving DecidableEq, Repr

structure ResolveAgentRouteInput where
  channel : JsString
  accountId : Option JsString
  peer : Option RoutePeer
  parentPeer : Option RoutePeer
  guildId : Option RawId
  teamId : Option RawId
  memberRoleIds : Option (List JsString)
  deriving DecidableEq, Repr

/-! ## Bindings -/

def normalizeBindingType (binding : AgentBinding) : BindingType :=
  if binding.type = some .acp then .acp else .route

def isRouteBinding (binding : AgentBinding) : Bool :=
  normalizeBindingType binding = .route

def listBindings (cfg : RoutingConfig) : List AgentBinding :=
  cfg.bindings.filter isRouteBinding

def normalizeRouteBindingId (value : Option RawId) : JsString :=
  match value with
  | some (.text value) => trim value
  | some (.number rendered) => trim rendered
  | _ => []

def normalizeRouteBindingRoles (value : Option (List JsString)) : Option (List JsString) :=
  match value with
  | some [] => none
  | roles => roles

def peerKindMatches (bindingKind scopeKind : ChatType) : Bool :=
  bindingKind = scopeKind ||
    (bindingKind = .group && scopeKind = .channel) ||
    (bindingKind = .channel && scopeKind = .group)

@[simp] theorem trim_normalizeRouteBindingId (value : Option RawId) :
    trim (normalizeRouteBindingId value) = normalizeRouteBindingId value := by
  unfold normalizeRouteBindingId
  split <;> simp

/-! ## Agents -/

section Agents

variable [UnicodeCase]

def resolveDefaultAgentId (cfg : RoutingConfig) : JsString :=
  match cfg.agents with
  | [] => DEFAULT_AGENT_ID
  | first :: _ =>
      let defaults := cfg.agents.filter fun agent => agent.default
      let chosen := (((defaults.head?).getD first).id).map trim
      normalizeAgentId (some (if chosen.getD [] = [] then DEFAULT_AGENT_ID else chosen.getD []))

/-- `AgentLookupCache`, without the reference that keeps it fresh. -/
structure AgentLookup where
  byNormalizedId : AList fun _ : JsString => JsString
  fallbackDefaultAgentId : JsString

def resolveAgentLookup (cfg : RoutingConfig) : AgentLookup where
  byNormalizedId := cfg.agents.foldl
    (fun byNormalizedId agent =>
      let rawId := trim (agent.id.getD [])
      if rawId = [] then byNormalizedId
      else byNormalizedId.insert (normalizeAgentId (some rawId)) (sanitizeAgentId (some rawId)))
    ∅
  fallbackDefaultAgentId := sanitizeAgentId (some (resolveDefaultAgentId cfg))

def pickFirstExistingAgentId (cfg : RoutingConfig) (agentId : JsString) : JsString :=
  let lookup := resolveAgentLookup cfg
  let trimmed := trim agentId
  if trimmed = [] then lookup.fallbackDefaultAgentId
  else if lookup.byNormalizedId.entries = [] then sanitizeAgentId (some trimmed)
  else
    match lookup.byNormalizedId.lookup (normalizeAgentId (some trimmed)) with
    | some resolved => if resolved = [] then lookup.fallbackDefaultAgentId else resolved
    | none => lookup.fallbackDefaultAgentId

end Agents

/-!
## The index of evaluated bindings

The bindings of a channel are kept by account and merged back in the order of the
configuration; the merged list is then split into one bucket for each kind of constraint.
A JavaScript `Map` is a finite map here, and an evaluated binding is told apart from all
others by its `order`.
-/

open FirstMatch

inductive NormalizedPeerConstraint where
  | none
  | invalid
  | wildcardKind (kind : ChatType)
  | valid (kind : ChatType) (id : JsString)
  deriving DecidableEq, Repr

structure NormalizedBindingMatch where
  accountPattern : JsString
  peer : NormalizedPeerConstraint
  guildId : Option JsString
  teamId : Option JsString
  roles : Option (List JsString)
  deriving DecidableEq, Repr

def isValidPeer (bindingMatch : NormalizedBindingMatch) : Bool :=
  match bindingMatch.peer with
  | .valid _ _ => true
  | _ => false

def isWildcardPeer (bindingMatch : NormalizedBindingMatch) : Bool :=
  match bindingMatch.peer with
  | .wildcardKind _ => true
  | _ => false

structure EvaluatedBinding where
  binding : AgentBinding
  bindingMatch : NormalizedBindingMatch
  order : Nat
  deriving DecidableEq, Repr

abbrev BindingMap := AList fun _ : JsString => List EvaluatedBinding

structure EvaluatedBindingsByChannel where
  byAccount : BindingMap
  byAnyAccount : List EvaluatedBinding

structure EvaluatedBindingsIndex where
  byPeer : BindingMap
  byPeerWildcard : List EvaluatedBinding
  byGuildWithRoles : BindingMap
  byGuild : BindingMap
  byTeam : BindingMap
  byAccount : List EvaluatedBinding
  byChannel : List EvaluatedBinding

def orNull (value : JsString) : Option JsString :=
  if value = [] then none else some value

/-! ## Evaluating the bindings -/

section Evaluate

variable [UnicodeCase]

def normalizePeerConstraint (peer : Option BindingPeer) : NormalizedPeerConstraint :=
  match peer with
  | none => .none
  | some peer =>
      match normalizeChatType peer.kind, orNull (normalizeRouteBindingId peer.id) with
      | some kind, some id => if id = js "*" then .wildcardKind kind else .valid kind id
      | _, _ => .invalid

def normalizeBindingMatch (bindingMatch : AgentBindingMatch) : NormalizedBindingMatch where
  accountPattern := trim (bindingMatch.accountId.getD [])
  peer := normalizePeerConstraint bindingMatch.peer
  guildId := orNull (normalizeRouteBindingId bindingMatch.guildId)
  teamId := orNull (normalizeRouteBindingId bindingMatch.teamId)
  roles := normalizeRouteBindingRoles bindingMatch.roles

def resolveAccountPatternKey (accountPattern : JsString) : JsString :=
  if trim accountPattern = [] then DEFAULT_ACCOUNT_ID
  else normalizeAccountId (some accountPattern)

/-- One round of the loop of `buildEvaluatedBindingsByChannel`; the number is `order`. -/
def addEvaluatedBinding (binding : AgentBinding)
    (acc : Nat × AList fun _ : JsString => EvaluatedBindingsByChannel) :
    Nat × AList fun _ : JsString => EvaluatedBindingsByChannel :=
  let channel := normalizeToken binding.bindingMatch.channel
  if channel = [] then acc
  else
    let evaluated : EvaluatedBinding :=
      { binding := binding
        bindingMatch := normalizeBindingMatch binding.bindingMatch
        order := acc.1 }
    let bucket := (acc.2.lookup channel).getD { byAccount := ∅, byAnyAccount := [] }
    let bucket :=
      if evaluated.bindingMatch.accountPattern = js "*" then
        { bucket with byAnyAccount := bucket.byAnyAccount ++ [evaluated] }
      else
        let accountKey := resolveAccountPatternKey evaluated.bindingMatch.accountPattern
        { bucket with byAccount := push bucket.byAccount accountKey evaluated }
    (acc.1 + 1, acc.2.insert channel bucket)

def buildEvaluatedBindingsByChannel (cfg : RoutingConfig) :
    AList fun _ : JsString => EvaluatedBindingsByChannel :=
  ((listBindings cfg).foldl (fun acc binding => addEvaluatedBinding binding acc) (0, ∅)).2

end Evaluate

def mergeEvaluatedBindingsInSourceOrder (accountScoped anyAccount : List EvaluatedBinding) :
    List EvaluatedBinding :=
  List.merge accountScoped anyAccount fun accountBinding anyBinding =>
    accountBinding.order ≤ anyBinding.order

/-! ## The buckets -/

def peerKey (kind : ChatType) (id : JsString) : JsString :=
  kind.text ++ js ":" ++ id

def peerLookupKeys (kind : ChatType) (id : JsString) : List JsString :=
  match kind with
  | .group => [peerKey .group id, peerKey .channel id]
  | .channel => [peerKey .channel id, peerKey .group id]
  | .direct => [peerKey .direct id]

def pushToIndexMap (map : BindingMap) (key : Option JsString) (binding : EvaluatedBinding) :
    BindingMap :=
  match key with
  | none => map
  | some key => if key = [] then map else push map key binding

/-- One round of the loop of `buildEvaluatedBindingsIndex`. -/
def addToIndex (index : EvaluatedBindingsIndex) (binding : EvaluatedBinding) :
    EvaluatedBindingsIndex :=
  match binding.bindingMatch.peer with
  | .valid kind id =>
      { index with
        byPeer := (peerLookupKeys kind id).foldl
          (fun byPeer key => pushToIndexMap byPeer (some key) binding) index.byPeer }
  | .wildcardKind _ => { index with byPeerWildcard := index.byPeerWildcard ++ [binding] }
  | _ =>
      if binding.bindingMatch.guildId.isSome ∧ binding.bindingMatch.roles.isSome then
        { index with
          byGuildWithRoles :=
            pushToIndexMap index.byGuildWithRoles binding.bindingMatch.guildId binding }
      else if binding.bindingMatch.guildId.isSome then
        { index with
          byGuild := pushToIndexMap index.byGuild binding.bindingMatch.guildId binding }
      else if binding.bindingMatch.teamId.isSome then
        { index with
          byTeam := pushToIndexMap index.byTeam binding.bindingMatch.teamId binding }
      else if binding.bindingMatch.accountPattern ≠ js "*" then
        { index with byAccount := index.byAccount ++ [binding] }
      else { index with byChannel := index.byChannel ++ [binding] }

def EvaluatedBindingsIndex.empty : EvaluatedBindingsIndex where
  byPeer := ∅
  byPeerWildcard := []
  byGuildWithRoles := ∅
  byGuild := ∅
  byTeam := ∅
  byAccount := []
  byChannel := []

def buildEvaluatedBindingsIndex (bindings : List EvaluatedBinding) : EvaluatedBindingsIndex :=
  bindings.foldl addToIndex EvaluatedBindingsIndex.empty

/-- A peer of the input after `normalizeChatType` and `normalizeId`. -/
structure ScopePeer where
  kind : ChatType
  id : JsString
  deriving DecidableEq, Repr

def appendUnseen (out bucket : List EvaluatedBinding) : List EvaluatedBinding :=
  bucket.foldl (fun out binding => if binding ∈ out then out else out ++ [binding]) out

def collectPeerIndexedBindings (index : EvaluatedBindingsIndex) (peer : Option ScopePeer) :
    List EvaluatedBinding :=
  match peer with
  | none => []
  | some peer =>
      (peerLookupKeys peer.kind peer.id).foldl
        (fun out key => appendUnseen out (group index.byPeer key)) []

/-! ## The lists in configuration order -/

section Plain

variable [UnicodeCase]

def evaluateBindings (order : Nat) : List AgentBinding → List EvaluatedBinding
  | [] => []
  | binding :: rest =>
      if normalizeToken binding.bindingMatch.channel = [] then evaluateBindings order rest
      else
        { binding := binding
          bindingMatch := normalizeBindingMatch binding.bindingMatch
          order := order } :: evaluateBindings (order + 1) rest

def bindingChannel (evaluated : EvaluatedBinding) : JsString :=
  normalizeToken evaluated.binding.bindingMatch.channel

def inChannelAccount (channel accountId : JsString) (evaluated : EvaluatedBinding) : Bool :=
  bindingChannel evaluated = channel &&
    (evaluated.bindingMatch.accountPattern = js "*" ||
      resolveAccountPatternKey evaluated.bindingMatch.accountPattern = accountId)

def scopedBindings (cfg : RoutingConfig) (channel accountId : JsString) :
    List EvaluatedBinding :=
  (evaluateBindings 0 (listBindings cfg)).filter (inChannelAccount channel accountId)

end Plain

end GreenchClaw.Routing
