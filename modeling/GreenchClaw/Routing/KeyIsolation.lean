import GreenchClaw.Routing.SessionKey
import GreenchClaw.Lib.Fields

/-!
# Which conversations share a session key

The conversation that the parameters of a session key are about, as far as the scope of direct
messages tells conversations apart, and the key as the address of the conversation.  Two
conversations of one agent, channel and scope get one key exactly when their free texts are
spelled like the separators and kinds of the other's address.
-/

namespace GreenchClaw.Routing

open GreenchClaw.Js

section Isolation

variable [UnicodeCase]

/-! ## Conversations -/

/-- The conversations that a scope tells apart: the main session, a direct message, with its
account where the scope is per account, and a group or channel. -/
inductive Conversation where
  | main
  | direct (accountId : Option JsString) (peerId : JsString)
  | room (kind : ChatType) (peerId : JsString)
  deriving DecidableEq

namespace PeerSessionKeyParams

variable (params : PeerSessionKeyParams)

def scope : DmScope := params.dmScope.getD .main

def channelOrUnknown : JsString :=
  let channel := normalizeLowercaseStringOrEmpty (some params.channel)
  if channel = [] then js "unknown" else channel

/-- The peer of a direct message: the canonical name that the identity links give it, or its own
id. -/
def directPeerId : JsString :=
  let rawPeerId := trim (params.peerId.getD [])
  let linkedPeerId :=
    if params.scope = .main then none
    else resolveLinkedPeerId params.identityLinks params.channel rawPeerId
  normalizeLowercaseStringOrEmpty (some
    (match linkedPeerId with
      | some linked => if linked = [] then rawPeerId else linked
      | none => rawPeerId))

def roomPeerId : JsString :=
  let peerId := normalizeLowercaseStringOrEmpty params.peerId
  if peerId = [] then js "unknown" else peerId

def conversation : Conversation :=
  match params.peerKind.getD .direct with
  | .direct =>
      if params.directPeerId = [] then
        .main
      else
        match params.scope with
        | .main => .main
        | .perAccountChannelPeer =>
            .direct (some (normalizeAccountId params.accountId)) params.directPeerId
        | .perPeer | .perChannelPeer => .direct none params.directPeerId
  | kind => .room kind params.roomPeerId

end PeerSessionKeyParams

def Conversation.address (scope : DmScope) (channel mainKey : JsString) : Conversation → JsString
  | .main => mainKey
  | .direct (some accountId) peerId => channel ++ js ":" ++ accountId ++ js ":direct:" ++ peerId
  | .direct none peerId =>
      if scope = .perPeer then js "direct:" ++ peerId else channel ++ js ":direct:" ++ peerId
  | .room kind peerId => channel ++ js ":" ++ kind.text ++ js ":" ++ peerId

def Conversation.Fits (scope : DmScope) : Conversation → Prop
  | .main => True
  | .direct (some accountId) _ => scope = .perAccountChannelPeer ∧ unit ':' ∉ accountId
  | .direct none _ => scope = .perPeer ∨ scope = .perChannelPeer
  | .room kind _ => kind ≠ .direct

theorem not_colon_mem_normalizeAccountId (value : Option JsString) :
    unit ':' ∉ normalizeAccountId value := by
  intro hmem
  have hid := isIdUnit_of_mem_normalizeAccountId hmem
  exact absurd hid (by decide)

theorem conversation_fits (params : PeerSessionKeyParams) :
    params.conversation.Fits params.scope := by
  unfold PeerSessionKeyParams.conversation
  cases hkind : params.peerKind.getD .direct with
  | direct =>
      dsimp only
      by_cases hpeer : params.directPeerId = []
      · rw [if_pos hpeer]
        trivial
      · rw [if_neg hpeer]
        cases hscope : params.scope with
        | main => trivial
        | perPeer => exact Or.inl rfl
        | perChannelPeer => exact Or.inr rfl
        | perAccountChannelPeer => exact ⟨rfl, not_colon_mem_normalizeAccountId _⟩
  | group => exact nofun
  | channel => exact nofun

theorem buildAgentPeerSessionKey_eq (params : PeerSessionKeyParams) :
    buildAgentPeerSessionKey params =
      js "agent:" ++ normalizeAgentId (some params.agentId) ++ js ":" ++
        params.conversation.address params.scope params.channelOrUnknown
          (normalizeMainKey params.mainKey) := by
  unfold buildAgentPeerSessionKey PeerSessionKeyParams.conversation
  cases hkind : params.peerKind.getD .direct with
  | direct =>
      show (if params.scope = .perAccountChannelPeer ∧ params.directPeerId ≠ [] then
          js "agent:" ++ normalizeAgentId (some params.agentId) ++ js ":" ++
            params.channelOrUnknown ++ js ":" ++ normalizeAccountId params.accountId ++
            js ":direct:" ++ params.directPeerId
        else if params.scope = .perChannelPeer ∧ params.directPeerId ≠ [] then
          js "agent:" ++ normalizeAgentId (some params.agentId) ++ js ":" ++
            params.channelOrUnknown ++ js ":direct:" ++ params.directPeerId
        else if params.scope = .perPeer ∧ params.directPeerId ≠ [] then
          js "agent:" ++ normalizeAgentId (some params.agentId) ++ js ":" ++ js "direct:" ++
            params.directPeerId
        else buildAgentMainSessionKey params.agentId params.mainKey) = _
      dsimp only
      by_cases hpeer : params.directPeerId = []
      · simp [hpeer, Conversation.address, buildAgentMainSessionKey]
      · cases hscope : params.scope <;>
          simp [hpeer, Conversation.address, buildAgentMainSessionKey]
  | group =>
      show js "agent:" ++ normalizeAgentId (some params.agentId) ++ js ":" ++
        params.channelOrUnknown ++ js ":" ++ _ ++ js ":" ++ params.roomPeerId = _
      simp [Conversation.address]
  | channel =>
      show js "agent:" ++ normalizeAgentId (some params.agentId) ++ js ":" ++
        params.channelOrUnknown ++ js ":" ++ _ ++ js ":" ++ params.roomPeerId = _
      simp [Conversation.address]

/-! ## Addresses that are spelled alike -/

/-- A direct message and a group or channel with one address.  Across channels the channel's name
has to begin like the word for a direct message; per account the account has to be named like the
kind and the id of the room to begin like the word. -/
def SpelledAlike (scope : DmScope) (channel : JsString) : Conversation → Conversation → Prop
  | .direct (some accountId) peerId, .room kind roomId =>
      accountId = kind.text ∧ roomId = js "direct:" ++ peerId
  | .direct none peerId, .room kind roomId =>
      scope = .perPeer ∧ ∃ inner, channel ++ js ":" = js "direct:" ++ inner ∧
        peerId = inner ++ kind.text ++ js ":" ++ roomId
  | _, _ => False

omit [UnicodeCase] in
theorem not_colon_mem_text (kind : ChatType) : unit ':' ∉ kind.text := by
  cases kind <;> decide

omit [UnicodeCase] in
theorem append_colon (field rest : JsString) :
    field ++ js ":" ++ rest = field ++ unit ':' :: rest := by
  rw [List.append_assoc]
  rfl

omit [UnicodeCase] in
theorem append_colon_inj {field field' rest rest' : JsString} (hfield : unit ':' ∉ field)
    (hfield' : unit ':' ∉ field') :
    field ++ js ":" ++ rest = field' ++ js ":" ++ rest' ↔ field = field' ∧ rest = rest' := by
  constructor
  · intro h
    rw [append_colon, append_colon] at h
    exact Fields.append_sep_inj hfield hfield' h
  · rintro ⟨hsame, hrest⟩
    rw [hsame, hrest]

section Addresses

variable {scope : DmScope} {channel mainKey mainKey' : JsString} {kind : ChatType}

omit [UnicodeCase] in
theorem text_injective {other : ChatType} (h : kind.text = other.text) : kind = other := by
  cases kind <;> cases other <;> first | rfl | exact absurd h (by decide)

omit [UnicodeCase] in
theorem address_account_room_iff {accountId peerId roomId : JsString}
    (haccount : unit ':' ∉ accountId) :
    (Conversation.direct (some accountId) peerId).address scope channel mainKey =
        (Conversation.room kind roomId).address scope channel mainKey' ↔
      accountId = kind.text ∧ roomId = js "direct:" ++ peerId := by
  have hleft : channel ++ js ":" ++ accountId ++ js ":direct:" ++ peerId =
      channel ++ js ":" ++ (accountId ++ js ":" ++ (js "direct:" ++ peerId)) := by
    have hword : js ":direct:" = js ":" ++ js "direct:" := rfl
    rw [hword]
    simp only [List.append_assoc]
  have hright : channel ++ js ":" ++ kind.text ++ js ":" ++ roomId =
      channel ++ js ":" ++ (kind.text ++ js ":" ++ roomId) := by
    simp only [List.append_assoc]
  rw [Conversation.address, Conversation.address, hleft, hright, List.append_cancel_left_eq,
    append_colon_inj haccount (not_colon_mem_text kind)]
  constructor
  · rintro ⟨hkind, hroom⟩
    exact ⟨hkind, hroom.symm⟩
  · rintro ⟨hkind, hroom⟩
    exact ⟨hkind, hroom.symm⟩

omit [UnicodeCase] in
theorem address_channel_room_ne {peerId roomId : JsString} (hkind : kind ≠ .direct)
    (hscope : scope ≠ .perPeer) :
    (Conversation.direct none peerId).address scope channel mainKey ≠
      (Conversation.room kind roomId).address scope channel mainKey' := by
  intro h
  have hleft : channel ++ js ":direct:" ++ peerId =
      channel ++ js ":" ++ (ChatType.direct.text ++ js ":" ++ peerId) := by
    have hword : js ":direct:" = js ":" ++ ChatType.direct.text ++ js ":" := by decide
    rw [hword]
    simp only [List.append_assoc]
  have hright : channel ++ js ":" ++ kind.text ++ js ":" ++ roomId =
      channel ++ js ":" ++ (kind.text ++ js ":" ++ roomId) := by
    simp only [List.append_assoc]
  rw [Conversation.address, Conversation.address, if_neg hscope, hleft, hright,
    List.append_cancel_left_eq,
    append_colon_inj (not_colon_mem_text .direct) (not_colon_mem_text kind)] at h
  exact hkind (text_injective h.1).symm

omit [UnicodeCase] in
/-- The word for a direct message is read from the beginning of a channel's name. -/
theorem direct_append_eq_iff {peerId rest : JsString} :
    js "direct:" ++ peerId = channel ++ js ":" ++ rest ↔
      ∃ inner, channel ++ js ":" = js "direct:" ++ inner ∧ peerId = inner ++ rest := by
  constructor
  · intro h
    rcases List.append_eq_append_iff.mp h with ⟨inner, hchannel, hpeer⟩ | ⟨cut, hword, hrest⟩
    · exact ⟨inner, hchannel, hpeer⟩
    · -- The word has one colon, its last unit.
      have hcount : (js "direct:").count (unit ':') = 1 := by decide
      rw [hword, List.count_append, List.count_append] at hcount
      have hcolon : (js ":").count (unit ':') = 1 := by decide
      have hnone : unit ':' ∉ channel := by
        rw [← List.count_eq_zero]
        omega
      have hsplit : js "direct" ++ js ":" ++ [] = channel ++ js ":" ++ cut := by
        rw [← hword]
        rfl
      obtain ⟨hname, hcut⟩ := (append_colon_inj (by decide) hnone).mp hsplit
      refine ⟨[], ?_, ?_⟩
      · rw [← hname]
        rfl
      · rw [hrest, ← hcut]
        rfl
  · rintro ⟨inner, hchannel, hpeer⟩
    rw [hchannel, hpeer, List.append_assoc]

omit [UnicodeCase] in
theorem address_peer_room_iff {peerId roomId : JsString} :
    (Conversation.direct none peerId).address .perPeer channel mainKey =
        (Conversation.room kind roomId).address .perPeer channel mainKey' ↔
      ∃ inner, channel ++ js ":" = js "direct:" ++ inner ∧
        peerId = inner ++ kind.text ++ js ":" ++ roomId := by
  have hright : channel ++ js ":" ++ kind.text ++ js ":" ++ roomId =
      channel ++ js ":" ++ (kind.text ++ js ":" ++ roomId) := by
    simp only [List.append_assoc]
  rw [Conversation.address, Conversation.address, if_pos rfl, hright, direct_append_eq_iff]
  simp only [List.append_assoc]

omit [UnicodeCase] in
theorem address_direct_room_iff {accountId : Option JsString} {peerId roomId : JsString}
    (hdirect : (Conversation.direct accountId peerId).Fits scope) (hkind : kind ≠ .direct) :
    (Conversation.direct accountId peerId).address scope channel mainKey =
        (Conversation.room kind roomId).address scope channel mainKey' ↔
      SpelledAlike scope channel (.direct accountId peerId) (.room kind roomId) := by
  cases accountId with
  | some accountId => exact address_account_room_iff hdirect.2
  | none =>
      by_cases hscope : scope = .perPeer
      · rw [hscope, address_peer_room_iff]
        exact (and_iff_right rfl).symm
      · exact iff_of_false (address_channel_room_ne hkind hscope) fun h => hscope h.1

omit [UnicodeCase] in
theorem direct_of_address_eq {accountId accountId' : Option JsString} {peerId peerId' : JsString}
    (ha : (Conversation.direct accountId peerId).Fits scope)
    (hb : (Conversation.direct accountId' peerId').Fits scope)
    (h : (Conversation.direct accountId peerId).address scope channel mainKey =
      (Conversation.direct accountId' peerId').address scope channel mainKey') :
    Conversation.direct accountId peerId = .direct accountId' peerId' := by
  cases accountId with
  | none =>
      cases accountId' with
      | none =>
          rw [Conversation.address, Conversation.address] at h
          by_cases hscope : scope = .perPeer
          · rw [if_pos hscope, if_pos hscope] at h
            rw [List.append_cancel_left h]
          · rw [if_neg hscope, if_neg hscope] at h
            rw [List.append_cancel_left h]
      | some other =>
          rcases ha with ha | ha
          · exact absurd (ha.symm.trans hb.1) nofun
          · exact absurd (ha.symm.trans hb.1) nofun
  | some account =>
      cases accountId' with
      | none =>
          rcases hb with hb | hb
          · exact absurd (hb.symm.trans ha.1) nofun
          · exact absurd (hb.symm.trans ha.1) nofun
      | some other =>
          have hsplit : ∀ name id : JsString, channel ++ js ":" ++ name ++ js ":direct:" ++ id =
              channel ++ js ":" ++ (name ++ js ":" ++ (js "direct:" ++ id)) := by
            intro name id
            have hword : js ":direct:" = js ":" ++ js "direct:" := rfl
            rw [hword]
            simp only [List.append_assoc]
          rw [Conversation.address, Conversation.address, hsplit, hsplit,
            List.append_cancel_left_eq, append_colon_inj ha.2 hb.2] at h
          rw [h.1, List.append_cancel_left h.2]

omit [UnicodeCase] in
theorem room_of_address_eq {other : ChatType} {roomId otherId : JsString}
    (h : (Conversation.room kind roomId).address scope channel mainKey =
      (Conversation.room other otherId).address scope channel mainKey') :
    Conversation.room kind roomId = .room other otherId := by
  have hsplit : ∀ (kind : ChatType) (id : JsString), channel ++ js ":" ++ kind.text ++ js ":" ++ id =
      channel ++ js ":" ++ (kind.text ++ js ":" ++ id) := by
    intro kind id
    simp only [List.append_assoc]
  rw [Conversation.address, Conversation.address, hsplit, hsplit, List.append_cancel_left_eq,
    append_colon_inj (not_colon_mem_text kind) (not_colon_mem_text other)] at h
  rw [text_injective h.1, h.2]

omit [UnicodeCase] in
theorem address_eq_iff {a b : Conversation} (ha : a.Fits scope) (hb : b.Fits scope)
    (hmain : a ≠ .main) (hmain' : b ≠ .main) (hne : a ≠ b) :
    a.address scope channel mainKey = b.address scope channel mainKey' ↔
      SpelledAlike scope channel a b ∨ SpelledAlike scope channel b a := by
  cases a with
  | main => exact absurd rfl hmain
  | direct accountId peerId =>
      cases b with
      | main => exact absurd rfl hmain'
      | direct accountId' peerId' =>
          apply iff_of_false
          · exact fun h => hne (direct_of_address_eq ha hb h)
          · cases accountId <;> cases accountId' <;> exact fun h => h.elim id id
      | room kind roomId =>
          rw [address_direct_room_iff ha hb]
          exact (or_iff_left id).symm
  | room kind roomId =>
      cases b with
      | main => exact absurd rfl hmain'
      | direct accountId peerId =>
          rw [eq_comm, address_direct_room_iff hb ha]
          exact (or_iff_right id).symm
      | room other otherId =>
          apply iff_of_false
          · exact fun h => hne (room_of_address_eq h)
          · exact fun h => h.elim id id

end Addresses

/-! ## Isolation -/

def MainKeySpelled (a b : PeerSessionKeyParams) : Prop :=
  a.conversation = .main ∧ b.conversation ≠ .main ∧
    normalizeMainKey a.mainKey = b.conversation.address b.scope b.channelOrUnknown []

def Confusable (a b : PeerSessionKeyParams) : Prop :=
  MainKeySpelled a b ∨ MainKeySpelled b a ∨
    SpelledAlike a.scope a.channelOrUnknown a.conversation b.conversation ∨
    SpelledAlike a.scope a.channelOrUnknown b.conversation a.conversation

omit [UnicodeCase] in
theorem address_mainKey {scope : DmScope} {channel : JsString} {conversation : Conversation}
    (hne : conversation ≠ .main) (mainKey mainKey' : JsString) :
    conversation.address scope channel mainKey = conversation.address scope channel mainKey' := by
  cases conversation with
  | main => exact absurd rfl hne
  | direct accountId peerId => cases accountId <;> rfl
  | room kind roomId => rfl

omit [UnicodeCase] in
theorem not_spelledAlike_main {scope : DmScope} {channel : JsString} {conversation : Conversation} :
    ¬ SpelledAlike scope channel .main conversation ∧
      ¬ SpelledAlike scope channel conversation .main := by
  refine ⟨id, ?_⟩
  cases conversation with
  | main => exact id
  | direct accountId peerId => cases accountId <;> exact id
  | room kind roomId => exact id

omit [UnicodeCase] in
theorem not_spelledAlike_self {scope : DmScope} {channel : JsString}
    (conversation : Conversation) : ¬ SpelledAlike scope channel conversation conversation := by
  cases conversation with
  | main => exact id
  | direct accountId peerId => cases accountId <;> exact id
  | room kind roomId => exact id

/-- Different conversations of one agent, channel and scope get different session keys exactly
when neither is spelled like the other. -/
theorem session_keys_differ_iff {a b : PeerSessionKeyParams} (hagent : a.agentId = b.agentId)
    (hchannel : a.channel = b.channel) (hscope : a.dmScope = b.dmScope) :
    (a.conversation ≠ b.conversation →
        buildAgentPeerSessionKey a ≠ buildAgentPeerSessionKey b) ↔
      ¬ Confusable a b := by
  have hscopes : a.scope = b.scope := by
    rw [PeerSessionKeyParams.scope, hscope]
    rfl
  have hchannels : a.channelOrUnknown = b.channelOrUnknown := by
    rw [PeerSessionKeyParams.channelOrUnknown, hchannel]
    rfl
  have ha := conversation_fits a
  have hb := conversation_fits b
  have hkeys : buildAgentPeerSessionKey a = buildAgentPeerSessionKey b ↔
      a.conversation.address a.scope a.channelOrUnknown (normalizeMainKey a.mainKey) =
        b.conversation.address a.scope a.channelOrUnknown (normalizeMainKey b.mainKey) := by
    rw [buildAgentPeerSessionKey_eq, buildAgentPeerSessionKey_eq, hagent, ← hscopes, ← hchannels,
      List.append_cancel_left_eq]
  rw [← hscopes] at hb
  have hequal : a.conversation ≠ b.conversation →
      (buildAgentPeerSessionKey a = buildAgentPeerSessionKey b ↔ Confusable a b) := by
    intro hne
    rw [hkeys]
    unfold Confusable MainKeySpelled
    rw [← hscopes, ← hchannels]
    generalize a.conversation = first at ha hne ⊢
    generalize b.conversation = second at hb hne ⊢
    by_cases hmain : first = .main
    · rw [hmain] at hne ⊢
      have hother : second ≠ .main := Ne.symm hne
      have hspelled := @not_spelledAlike_main a.scope a.channelOrUnknown second
      simp only [hspelled.1, hspelled.2, hother, or_false, false_and, not_false_eq_true, true_and,
        ne_eq, not_true_eq_false, and_false]
      rw [address_mainKey hother (normalizeMainKey b.mainKey) []]
      rfl
    · by_cases hmain' : second = .main
      · rw [hmain'] at hne ⊢
        have hspelled := @not_spelledAlike_main a.scope a.channelOrUnknown first
        simp only [hspelled.1, hspelled.2, hmain, or_false, false_and, not_false_eq_true, true_and,
          ne_eq, false_or]
        rw [address_mainKey hmain (normalizeMainKey a.mainKey) [], eq_comm]
        rfl
      · rw [address_eq_iff ha hb hmain hmain' hne]
        simp only [hmain, hmain', false_and, false_or]
  constructor
  · intro h hconfusable
    by_cases hsame : a.conversation = b.conversation
    · unfold Confusable MainKeySpelled at hconfusable
      rw [hsame] at hconfusable
      rcases hconfusable with hmain | hmain | hspelled | hspelled
      · exact hmain.2.1 hmain.1
      · exact hmain.2.1 hmain.1
      · exact not_spelledAlike_self _ hspelled
      · exact not_spelledAlike_self _ hspelled
    · exact h hsame ((hequal hsame).mpr hconfusable)
  · intro hconfusable hne hkey
    exact hconfusable ((hequal hne).mp hkey)

end Isolation

section Samples

attribute [local instance] asciiCase

def accountDirect (accountId : JsString) : PeerSessionKeyParams where
  agentId := js "main"
  mainKey := none
  channel := js "telegram"
  accountId := some accountId
  peerKind := some .direct
  peerId := some (js "42")
  dmScope := some .perAccountChannelPeer
  identityLinks := none

def accountGroup (peerId : JsString) : PeerSessionKeyParams :=
  { accountDirect (js "work") with peerKind := some .group, peerId := some peerId }

theorem session_keys_differ_iff_accounts :
    buildAgentPeerSessionKey (accountDirect (js "work")) ≠
      buildAgentPeerSessionKey (accountGroup (js "direct:42")) := by
  have hspelled : ¬ Confusable (accountDirect (js "work")) (accountGroup (js "direct:42")) := by
    have hdirect : (accountDirect (js "work")).conversation =
        .direct (some (js "work")) (js "42") := by decide +kernel
    have hgroup : (accountGroup (js "direct:42")).conversation =
        .room .group (js "direct:42") := by decide +kernel
    unfold Confusable MainKeySpelled
    rw [hdirect, hgroup]
    rintro (hmain | hmain | hname | hname)
    · exact absurd hmain.1 nofun
    · exact absurd hmain.1 nofun
    · exact absurd hname.1 (by decide)
    · exact hname
  have hdiffer := @session_keys_differ_iff _ (accountDirect (js "work"))
    (accountGroup (js "direct:42")) rfl rfl rfl
  exact hdiffer.mpr hspelled (by decide +kernel)

theorem account_named_like_kind :
    ¬ ∀ a b : PeerSessionKeyParams, a.agentId = b.agentId → a.channel = b.channel →
        a.dmScope = b.dmScope → a.conversation ≠ b.conversation →
        buildAgentPeerSessionKey a ≠ buildAgentPeerSessionKey b := by
  intro hclaim
  apply hclaim (accountDirect (js "group")) (accountGroup (js "direct:42")) rfl rfl rfl
  · decide +kernel
  · decide +kernel

end Samples

end GreenchClaw.Routing
