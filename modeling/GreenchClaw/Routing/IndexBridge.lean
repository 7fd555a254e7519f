import GreenchClaw.Routing.Index

/-!
# The index holds the configured bindings

Each bucket of the index is the sublist of the scoped bindings that belongs there, and the
merged list behind it is the list of the scoped bindings in configuration order.
-/

namespace GreenchClaw.Routing

open GreenchClaw.Js FirstMatch

/-! ## The buckets -/

def peerKeysOf (bindingMatch : NormalizedBindingMatch) : List JsString :=
  match bindingMatch.peer with
  | .valid kind id => peerLookupKeys kind id
  | _ => []

def isPeerless (bindingMatch : NormalizedBindingMatch) : Bool :=
  bindingMatch.peer = .none || bindingMatch.peer = .invalid

def isUnscoped (bindingMatch : NormalizedBindingMatch) : Bool :=
  isPeerless bindingMatch && bindingMatch.guildId.isNone && bindingMatch.teamId.isNone

structure EvaluatedBindingsIndex.Describes (index : EvaluatedBindingsIndex)
    (bindings : List EvaluatedBinding) : Prop where
  byPeer : ∀ key, group index.byPeer key =
    bindings.filter fun b => key ∈ peerKeysOf b.bindingMatch
  byPeerWildcard : index.byPeerWildcard = bindings.filter fun b => isWildcardPeer b.bindingMatch
  byGuildWithRoles : ∀ key, key ≠ [] → group index.byGuildWithRoles key =
    bindings.filter fun b => isPeerless b.bindingMatch &&
      (b.bindingMatch.guildId = some key && b.bindingMatch.roles.isSome)
  byGuild : ∀ key, key ≠ [] → group index.byGuild key =
    bindings.filter fun b => isPeerless b.bindingMatch &&
      (b.bindingMatch.guildId = some key && b.bindingMatch.roles.isNone)
  byTeam : ∀ key, key ≠ [] → group index.byTeam key =
    bindings.filter fun b => isPeerless b.bindingMatch &&
      (b.bindingMatch.guildId.isNone && b.bindingMatch.teamId = some key)
  byAccount : index.byAccount =
    bindings.filter fun b => isUnscoped b.bindingMatch && b.bindingMatch.accountPattern ≠ js "*"
  byChannel : index.byChannel =
    bindings.filter fun b => isUnscoped b.bindingMatch && b.bindingMatch.accountPattern = js "*"

theorem describes_empty : EvaluatedBindingsIndex.empty.Describes [] := by
  constructor <;> simp [EvaluatedBindingsIndex.empty]

theorem peerKey_ne_nil (kind : ChatType) (id : JsString) : peerKey kind id ≠ [] := by
  cases kind <;> simp [peerKey, ChatType.text, js]

theorem peerKey_injective {kind kind' : ChatType} {id id' : JsString}
    (h : peerKey kind id = peerKey kind' id') : kind = kind' ∧ id = id' := by
  cases kind <;> cases kind' <;> simp_all [peerKey, ChatType.text, js, unit]

theorem nodup_peerLookupKeys (kind : ChatType) (id : JsString) :
    (peerLookupKeys kind id).Nodup := by
  have hne : ∀ kind', kind ≠ kind' → peerKey kind id ≠ peerKey kind' id := by
    intro kind' hkind hkey
    exact hkind (peerKey_injective hkey).1
  cases kind with
  | direct => simp [peerLookupKeys]
  | group => simpa [peerLookupKeys] using hne .channel (by decide)
  | channel => simpa [peerLookupKeys] using hne .group (by decide)

theorem foldl_pushToIndexMap (map : BindingMap) (kind : ChatType) (id : JsString)
    (binding : EvaluatedBinding) :
    (peerLookupKeys kind id).foldl (fun byPeer key => pushToIndexMap byPeer (some key) binding)
      map = pushAll map (peerLookupKeys kind id) binding := by
  cases kind <;> simp [peerLookupKeys, pushToIndexMap, pushAll, peerKey_ne_nil]

theorem group_pushToIndexMap (map : BindingMap) (key : JsString) (wanted : Option JsString)
    (binding : EvaluatedBinding) (hkey : key ≠ []) :
    group (pushToIndexMap map wanted binding) key =
      if wanted = some key then group map key ++ [binding] else group map key := by
  unfold pushToIndexMap
  cases wanted with
  | none => simp
  | some wanted =>
      by_cases hnil : wanted = []
      · simp [hnil, Ne.symm hkey]
      · simp only [hnil, if_false, group_push, Option.some.injEq, eq_comm]

theorem addToIndex_peerless (index : EvaluatedBindingsIndex) {binding : EvaluatedBinding}
    (hpeer : isPeerless binding.bindingMatch = true) :
    addToIndex index binding =
      if binding.bindingMatch.guildId.isSome ∧ binding.bindingMatch.roles.isSome then
        { index with
          byGuildWithRoles :=
            pushToIndexMap index.byGuildWithRoles binding.bindingMatch.guildId binding }
      else if binding.bindingMatch.guildId.isSome then
        { index with
          byGuild := pushToIndexMap index.byGuild binding.bindingMatch.guildId binding }
      else if binding.bindingMatch.teamId.isSome then
        { index with
          byTeam := pushToIndexMap index.byTeam binding.bindingMatch.teamId binding }
      else if binding.bindingMatch.accountPattern ≠ js "*" then
        { index with byAccount := index.byAccount ++ [binding] }
      else { index with byChannel := index.byChannel ++ [binding] } := by
  unfold addToIndex
  cases hstate : binding.bindingMatch.peer with
  | none => rfl
  | invalid => rfl
  | wildcardKind kind => simp [isPeerless, hstate] at hpeer
  | valid kind id => simp [isPeerless, hstate] at hpeer

theorem describes_addToIndex_peerless {index : EvaluatedBindingsIndex}
    {bindings : List EvaluatedBinding} (h : index.Describes bindings)
    {binding : EvaluatedBinding} (hpeerless : isPeerless binding.bindingMatch = true) :
    (addToIndex index binding).Describes (bindings ++ [binding]) := by
  obtain ⟨hpeer, hwild, hroles, hguild, hteam, haccount, hchannel⟩ := h
  have hkeys : peerKeysOf binding.bindingMatch = [] := by
    cases hstate : binding.bindingMatch.peer <;> simp_all [isPeerless, peerKeysOf]
  have hnotWild : isWildcardPeer binding.bindingMatch = false := by
    cases hstate : binding.bindingMatch.peer <;> simp_all [isPeerless, isWildcardPeer]
  rw [addToIndex_peerless index hpeerless]
  cases hg : binding.bindingMatch.guildId with
  | some guildId =>
      cases hr : binding.bindingMatch.roles with
      | some roles =>
          constructor <;> simp_all [isUnscoped, group_pushToIndexMap]
          intro key hkey
          split <;> simp_all
      | none =>
          constructor <;> simp_all [isUnscoped, group_pushToIndexMap]
          intro key hkey
          split <;> simp_all
  | none =>
      cases ht : binding.bindingMatch.teamId with
      | some teamId =>
          constructor <;> simp_all [isUnscoped, group_pushToIndexMap]
          intro key hkey
          split <;> simp_all
      | none =>
          by_cases ha : binding.bindingMatch.accountPattern = js "*"
          · constructor <;> simp_all [isUnscoped]
          · constructor <;> simp_all [isUnscoped]

theorem describes_addToIndex {index : EvaluatedBindingsIndex}
    {bindings : List EvaluatedBinding} (h : index.Describes bindings)
    (binding : EvaluatedBinding) :
    (addToIndex index binding).Describes (bindings ++ [binding]) := by
  cases hbinding : binding.bindingMatch.peer with
  | none => exact describes_addToIndex_peerless h (by simp [isPeerless, hbinding])
  | invalid => exact describes_addToIndex_peerless h (by simp [isPeerless, hbinding])
  | wildcardKind kind =>
      obtain ⟨hpeer, hwild, hroles, hguild, hteam, haccount, hchannel⟩ := h
      constructor <;>
        simp_all [addToIndex, isWildcardPeer, isPeerless, isUnscoped, peerKeysOf]
  | valid kind id =>
      obtain ⟨hpeer, hwild, hroles, hguild, hteam, haccount, hchannel⟩ := h
      have hkeys : peerKeysOf binding.bindingMatch = peerLookupKeys kind id := by
        simp [peerKeysOf, hbinding]
      constructor <;>
        simp_all [addToIndex, isWildcardPeer, isPeerless, isUnscoped, foldl_pushToIndexMap]
      intro key
      rw [group_pushAll _ _ _ _ (nodup_peerLookupKeys kind id), hpeer]
      split <;> simp_all

theorem describes_foldl_addToIndex {index : EvaluatedBindingsIndex}
    {before : List EvaluatedBinding} (h : index.Describes before)
    (bindings : List EvaluatedBinding) :
    (bindings.foldl addToIndex index).Describes (before ++ bindings) := by
  induction bindings generalizing index before with
  | nil => simpa using h
  | cons binding rest ih =>
      have hrest := ih (describes_addToIndex h binding)
      rw [List.append_assoc, List.singleton_append] at hrest
      exact hrest

theorem describes_buildEvaluatedBindingsIndex (bindings : List EvaluatedBinding) :
    (buildEvaluatedBindingsIndex bindings).Describes bindings := by
  unfold buildEvaluatedBindingsIndex
  simpa using describes_foldl_addToIndex describes_empty bindings

/-! ## The two lists of a channel and account -/

section ByChannel

variable [UnicodeCase]

def accountScopedOf (byChannel : AList fun _ : JsString => EvaluatedBindingsByChannel)
    (channel accountId : JsString) : List EvaluatedBinding :=
  ((byChannel.lookup channel).map fun bucket => group bucket.byAccount accountId).getD []

def anyAccountOf (byChannel : AList fun _ : JsString => EvaluatedBindingsByChannel)
    (channel : JsString) : List EvaluatedBinding :=
  ((byChannel.lookup channel).map fun bucket => bucket.byAnyAccount).getD []

def isAnyAccount (channel : JsString) (evaluated : EvaluatedBinding) : Bool :=
  bindingChannel evaluated = channel && evaluated.bindingMatch.accountPattern = js "*"

def isAccountScoped (channel accountId : JsString) (evaluated : EvaluatedBinding) : Bool :=
  bindingChannel evaluated = channel && evaluated.bindingMatch.accountPattern ≠ js "*" &&
    resolveAccountPatternKey evaluated.bindingMatch.accountPattern = accountId

theorem byChannel_addEvaluatedBinding (binding : AgentBinding) (order : Nat)
    (byChannel : AList fun _ : JsString => EvaluatedBindingsByChannel)
    (channel accountId : JsString) :
    let next := addEvaluatedBinding binding (order, byChannel)
    let added := evaluateBindings order [binding]
    next.1 = order + added.length ∧
      accountScopedOf next.2 channel accountId =
        accountScopedOf byChannel channel accountId ++
          added.filter (isAccountScoped channel accountId) ∧
      anyAccountOf next.2 channel =
        anyAccountOf byChannel channel ++ added.filter (isAnyAccount channel) := by
  by_cases hempty : normalizeToken binding.bindingMatch.channel = []
  · simp [addEvaluatedBinding, evaluateBindings, hempty]
  · by_cases hchannel : normalizeToken binding.bindingMatch.channel = channel
    · subst hchannel
      by_cases hany : (normalizeBindingMatch binding.bindingMatch).accountPattern = js "*"
      · cases hbucket : byChannel.lookup (normalizeToken binding.bindingMatch.channel) <;>
          simp [addEvaluatedBinding, evaluateBindings, hempty, hany, accountScopedOf,
            anyAccountOf, isAccountScoped, isAnyAccount, bindingChannel, hbucket]
      · cases hbucket : byChannel.lookup (normalizeToken binding.bindingMatch.channel) <;>
          simp [addEvaluatedBinding, evaluateBindings, hempty, hany, accountScopedOf,
            anyAccountOf, isAccountScoped, isAnyAccount, bindingChannel, hbucket, group_push,
            List.filter_cons, eq_comm]
        all_goals split <;> simp_all
    · have hlookup : ∀ bucket : EvaluatedBindingsByChannel,
          (byChannel.insert (normalizeToken binding.bindingMatch.channel) bucket).lookup channel
            = byChannel.lookup channel := by
        intro bucket
        exact AList.lookup_insert_ne (Ne.symm hchannel)
      simp [addEvaluatedBinding, evaluateBindings, hempty, hlookup, accountScopedOf,
        anyAccountOf, isAccountScoped, isAnyAccount, bindingChannel, hchannel]

theorem evaluateBindings_cons (order : Nat) (binding : AgentBinding)
    (rest : List AgentBinding) :
    evaluateBindings order (binding :: rest) = evaluateBindings order [binding] ++
      evaluateBindings (order + (evaluateBindings order [binding]).length) rest := by
  by_cases h : normalizeToken binding.bindingMatch.channel = []
  · simp [evaluateBindings, h]
  · simp [evaluateBindings, h]

theorem byChannel_foldl_addEvaluatedBinding (bindings : List AgentBinding) (order : Nat)
    (byChannel : AList fun _ : JsString => EvaluatedBindingsByChannel)
    (channel accountId : JsString) :
    let final := bindings.foldl (fun acc binding => addEvaluatedBinding binding acc)
      (order, byChannel)
    accountScopedOf final.2 channel accountId =
        accountScopedOf byChannel channel accountId ++
          (evaluateBindings order bindings).filter (isAccountScoped channel accountId) ∧
      anyAccountOf final.2 channel =
        anyAccountOf byChannel channel ++
          (evaluateBindings order bindings).filter (isAnyAccount channel) := by
  induction bindings generalizing order byChannel with
  | nil => simp [evaluateBindings]
  | cons binding rest ih =>
      obtain ⟨horder, haccount, hany⟩ :=
        byChannel_addEvaluatedBinding binding order byChannel channel accountId
      have hrest := ih (addEvaluatedBinding binding (order, byChannel)).1
        (addEvaluatedBinding binding (order, byChannel)).2
      rw [haccount, hany, horder] at hrest
      rw [evaluateBindings_cons, List.filter_append, List.filter_append, ← List.append_assoc,
        ← List.append_assoc]
      simpa [← horder] using hrest

theorem order_lt_of_mem_evaluateBindings {bindings : List AgentBinding} {order : Nat}
    {evaluated : EvaluatedBinding} (h : evaluated ∈ evaluateBindings order bindings) :
    order ≤ evaluated.order := by
  induction bindings generalizing order with
  | nil => simp [evaluateBindings] at h
  | cons binding rest ih =>
      rw [evaluateBindings] at h
      split at h
      · exact ih h
      · rcases List.mem_cons.mp h with rfl | hrest
        · exact Nat.le_refl order
        · have := ih hrest
          omega

theorem pairwise_order_evaluateBindings (bindings : List AgentBinding) (order : Nat) :
    (evaluateBindings order bindings).Pairwise fun a b => a.order < b.order := by
  induction bindings generalizing order with
  | nil => simp [evaluateBindings]
  | cons binding rest ih =>
      rw [evaluateBindings]
      split
      · exact ih order
      · rw [List.pairwise_cons]
        refine ⟨?_, ih (order + 1)⟩
        intro later hlater
        have := order_lt_of_mem_evaluateBindings hlater
        show order < later.order
        omega

theorem merge_byChannel (cfg : RoutingConfig) (channel accountId : JsString) :
    mergeEvaluatedBindingsInSourceOrder
        (accountScopedOf (buildEvaluatedBindingsByChannel cfg) channel accountId)
        (anyAccountOf (buildEvaluatedBindingsByChannel cfg) channel) =
      scopedBindings cfg channel accountId := by
  obtain ⟨haccount, hany⟩ := byChannel_foldl_addEvaluatedBinding (listBindings cfg) 0 ∅
    channel accountId
  have hempty : accountScopedOf (∅ : AList fun _ : JsString => EvaluatedBindingsByChannel)
      channel accountId = [] := rfl
  have hemptyAny : anyAccountOf (∅ : AList fun _ : JsString => EvaluatedBindingsByChannel)
      channel = [] := rfl
  rw [hempty, List.nil_append] at haccount
  rw [hemptyAny, List.nil_append] at hany
  unfold buildEvaluatedBindingsByChannel mergeEvaluatedBindingsInSourceOrder scopedBindings
  rw [haccount, hany, merge_filter_filter EvaluatedBinding.order]
  · apply List.filter_congr
    intro evaluated _
    cases hchannel : decide (bindingChannel evaluated = channel) <;>
      cases hstar : decide (evaluated.bindingMatch.accountPattern = js "*") <;>
      simp_all [inChannelAccount, isAccountScoped, isAnyAccount]
  · exact pairwise_order_evaluateBindings (listBindings cfg) 0
  · intro evaluated _ hscoped
    simp_all [isAccountScoped, isAnyAccount]

end ByChannel

/-! ## The bindings of a peer -/

theorem appendUnseen_of_subset {out bucket : List EvaluatedBinding} (h : bucket ⊆ out) :
    appendUnseen out bucket = out := by
  unfold appendUnseen
  induction bucket with
  | nil => rfl
  | cons binding rest ih =>
      obtain ⟨hbinding, hrest⟩ := List.cons_subset.mp h
      simp only [List.foldl_cons, hbinding, if_true]
      exact ih hrest

theorem appendUnseen_of_nodup (out bucket : List EvaluatedBinding)
    (h : (out ++ bucket).Nodup) : appendUnseen out bucket = out ++ bucket := by
  unfold appendUnseen
  induction bucket generalizing out with
  | nil => simp
  | cons binding rest ih =>
      have hnew : binding ∉ out := by
        intro hmem
        exact (List.nodup_append.mp h).2.2 binding hmem binding List.mem_cons_self rfl
      rw [List.append_cons] at h ⊢
      simp only [List.foldl_cons, hnew, if_false]
      exact ih (out ++ [binding]) h

theorem mem_peerLookupKeys_comm (kind kind' : ChatType) (id id' : JsString) :
    peerKey kind id ∈ peerLookupKeys kind' id' ↔
      id = id' ∧ peerKindMatches kind' kind = true := by
  have hkey : ∀ k, peerKey kind id = peerKey k id' ↔ kind = k ∧ id = id' := by
    intro k
    constructor
    · exact peerKey_injective
    · rintro ⟨rfl, rfl⟩
      rfl
  cases kind' <;> cases kind <;> simp [peerLookupKeys, hkey, peerKindMatches]

def indexedForPeer (peer : Option ScopePeer) (evaluated : EvaluatedBinding) : Bool :=
  match peer, evaluated.bindingMatch.peer with
  | some peer, .valid kind id => peer.id = id && peerKindMatches kind peer.kind
  | _, _ => false

theorem mem_peerKeysOf (peer : ScopePeer) (kind : ChatType) (evaluated : EvaluatedBinding)
    (hkind : peerKindMatches kind peer.kind = true) :
    peerKey kind peer.id ∈ peerKeysOf evaluated.bindingMatch ↔
      indexedForPeer (some peer) evaluated = true := by
  unfold peerKeysOf indexedForPeer
  cases hstate : evaluated.bindingMatch.peer with
  | valid kind' id =>
      have hclass : peerKindMatches kind' kind = peerKindMatches kind' peer.kind := by
        cases kind <;> cases hk : peer.kind <;> cases kind' <;> simp_all [peerKindMatches]
      simp [mem_peerLookupKeys_comm, hclass]
  | _ => simp

theorem collectPeerIndexedBindings_eq {index : EvaluatedBindingsIndex}
    {bindings : List EvaluatedBinding} (h : index.Describes bindings)
    (hnodup : bindings.Nodup) (peer : Option ScopePeer) :
    collectPeerIndexedBindings index peer = bindings.filter (indexedForPeer peer) := by
  cases peer with
  | none => simp [collectPeerIndexedBindings, indexedForPeer]
  | some peer =>
      have hbucket : ∀ kind, peerKindMatches kind peer.kind = true →
          group index.byPeer (peerKey kind peer.id) =
            bindings.filter (indexedForPeer (some peer)) := by
        intro kind hkind
        rw [h.byPeer]
        apply List.filter_congr
        intro evaluated _
        simp [mem_peerKeysOf peer kind evaluated hkind]
      have hfirst := appendUnseen_of_nodup [] (bindings.filter (indexedForPeer (some peer)))
        (by simpa using hnodup.filter _)
      rw [List.nil_append] at hfirst
      unfold collectPeerIndexedBindings
      obtain ⟨kind, id⟩ := peer
      cases kind with
      | direct =>
          simp only [peerLookupKeys, List.foldl_cons, List.foldl_nil, hbucket .direct rfl, hfirst]
      | group =>
          -- The second key leads to the same bindings, and all of them are seen.
          simp only [peerLookupKeys, List.foldl_cons, List.foldl_nil, hbucket .group rfl,
            hbucket .channel rfl, hfirst]
          exact appendUnseen_of_subset (List.Subset.refl _)
      | channel =>
          simp only [peerLookupKeys, List.foldl_cons, List.foldl_nil, hbucket .group rfl,
            hbucket .channel rfl, hfirst]
          exact appendUnseen_of_subset (List.Subset.refl _)

end GreenchClaw.Routing
