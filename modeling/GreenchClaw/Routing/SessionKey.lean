import GreenchClaw.Js.Text

/-!
# Agent ids, account ids and session keys

`src/routing/account-id.ts`, `src/routing/session-key.ts` and the parser of
`src/sessions/session-key-utils.ts`: the canonical form of agent and account ids, and the session
key of an agent's conversation with a peer.
-/

namespace GreenchClaw.Routing

open GreenchClaw.Js

/-! ## Canonical ids -/

def isAsciiLower (u : CodeUnit) : Bool := 97 ≤ u && u ≤ 122

def isAsciiUpper (u : CodeUnit) : Bool := 65 ≤ u && u ≤ 90

def isIdUnit (u : CodeUnit) : Bool :=
  isAsciiLower u || isDigit u || u == unit '_' || u == unit '-'

def isValidId (value : JsString) : Bool :=
  match value with
  | [] => false
  | first :: rest =>
      (isAsciiLower first || isAsciiUpper first || isDigit first) &&
        rest.length ≤ 63 && rest.all fun u => isIdUnit u || isAsciiUpper u

/-- `replace(INVALID_CHARS_RE, "-")`: every maximal run of other units becomes one dash. -/
def replaceInvalidChars (inRun : Bool) : JsString → JsString
  | [] => []
  | u :: us =>
      if isIdUnit u then u :: replaceInvalidChars false us
      else if inRun then replaceInvalidChars true us
      else unit '-' :: replaceInvalidChars true us

/-- The fallback of an id that is not valid: dashes for what is not allowed, none of them at
either end, and 64 units at most. -/
def collapseId (normalized : JsString) : JsString :=
  (((replaceInvalidChars false normalized).dropWhile (· == unit '-')).rdropWhile
    (· == unit '-')).take 64

def DEFAULT_ACCOUNT_ID : JsString := js "default"

def DEFAULT_AGENT_ID : JsString := js "main"

def DEFAULT_MAIN_KEY : JsString := js "main"

def isBlockedObjectKey (key : JsString) : Bool :=
  key == js "__proto__" || key == js "prototype" || key == js "constructor"

variable [UnicodeCase]

def canonicalizeAccountId (value : JsString) : JsString :=
  let normalized := normalizeLowercaseStringOrEmpty (some value)
  if isValidId value then normalized else collapseId normalized

def normalizeCanonicalAccountId (value : JsString) : Option JsString :=
  let canonical := canonicalizeAccountId value
  if canonical = [] ∨ isBlockedObjectKey canonical then none else some canonical

def normalizeOptionalAccountId (value : Option JsString) : Option JsString :=
  let trimmed := trim (value.getD [])
  if trimmed = [] then none else normalizeCanonicalAccountId trimmed

/-- `normalizeAccountId`.  Its cache maps a trimmed id to the value computed here. -/
def normalizeAccountId (value : Option JsString) : JsString :=
  let trimmed := trim (value.getD [])
  if trimmed = [] then DEFAULT_ACCOUNT_ID
  else (normalizeCanonicalAccountId trimmed).getD DEFAULT_ACCOUNT_ID

def normalizeAgentId (value : Option JsString) : JsString :=
  let trimmed := trim (value.getD [])
  if trimmed = [] then DEFAULT_AGENT_ID
  else
    let normalized := normalizeLowercaseStringOrEmpty (some trimmed)
    if isValidId trimmed then normalized
    else
      let collapsed := collapseId normalized
      if collapsed = [] then DEFAULT_AGENT_ID else collapsed

def sanitizeAgentId (value : Option JsString) : JsString :=
  normalizeAgentId value

/-! ## Parsed session keys -/

def splitColons (text : JsString) : List JsString := text.splitOn 58

def joinColons (parts : List JsString) : JsString := List.intercalate [58] parts

structure ParsedAgentSessionKey where
  agentId : JsString
  rest : JsString
  deriving DecidableEq

def parseAgentSessionKey (sessionKey : JsString) : Option ParsedAgentSessionKey :=
  match normalizeOptionalLowercaseString (some sessionKey) with
  | none => none
  | some raw =>
      match (splitColons raw).filter fun part => part ≠ [] with
      | first :: agent :: third :: parts =>
          if first ≠ js "agent" then none
          else
            match normalizeOptionalString (some agent) with
            | none => none
            | some agentId =>
                let rest := joinColons (third :: parts)
                if rest = [] then none else some { agentId, rest }
      | _ => none

/-! ## The units of a canonical account id -/

omit [UnicodeCase] in
theorem isIdUnit_of_mem_replaceInvalidChars {inRun : Bool} {s : JsString} {u : CodeUnit}
    (hu : u ∈ replaceInvalidChars inRun s) : isIdUnit u = true := by
  induction s generalizing inRun with
  | nil => simp [replaceInvalidChars] at hu
  | cons v vs ih =>
      rw [replaceInvalidChars] at hu
      split at hu
      · rcases List.mem_cons.mp hu with rfl | htail
        · assumption
        · exact ih htail
      · split at hu
        · exact ih hu
        · rcases List.mem_cons.mp hu with rfl | htail
          · decide
          · exact ih htail

omit [UnicodeCase] in
theorem isIdUnit_of_mem_collapseId {s : JsString} {u : CodeUnit}
    (hu : u ∈ collapseId s) : isIdUnit u = true := by
  have htake := List.mem_of_mem_take hu
  have hdrop := (List.rdropWhile_prefix _ _).subset htake
  exact isIdUnit_of_mem_replaceInvalidChars ((List.dropWhile_suffix _).subset hdrop)

omit [UnicodeCase] in
theorem isIdUnit_or_upper_of_isValidId {s : JsString} (hs : isValidId s = true)
    {u : CodeUnit} (hu : u ∈ s) : isIdUnit u = true ∨ isAsciiUpper u = true := by
  cases s with
  | nil => simp at hu
  | cons first rest =>
      simp only [isValidId, Bool.and_eq_true, Bool.or_eq_true, List.all_eq_true,
        decide_eq_true_eq] at hs
      rcases List.mem_cons.mp hu with rfl | hrest
      · rcases hs.1.1 with (hlower | hupper) | hdigit
        · simp [isIdUnit, hlower]
        · exact Or.inr hupper
        · simp [isIdUnit, hdigit]
      · exact hs.2 u hrest

omit [UnicodeCase] in
theorem isIdUnit_lt (u : CodeUnit) (h : isIdUnit u = true) : u < 128 := by
  simp only [isIdUnit, isAsciiLower, isDigit, Bool.or_eq_true, Bool.and_eq_true,
    decide_eq_true_eq, beq_iff_eq] at h
  rcases h with ((h | h) | rfl) | rfl
  · exact UInt16.lt_of_le_of_lt h.2 (by decide)
  · exact UInt16.lt_of_le_of_lt h.2 (by decide)
  · decide
  · decide

omit [UnicodeCase] in
theorem isIdUnit_lower {u : CodeUnit} (h : isIdUnit u = true ∨ isAsciiUpper u = true) :
    isIdUnit (if 65 ≤ u ∧ u ≤ 90 then u + 32 else u) = true := by
  split
  · rename_i hupper
    have hlow := UInt16.le_iff_toNat_le.mp hupper.1
    have hhigh := UInt16.le_iff_toNat_le.mp hupper.2
    have hadd : (u + 32).toNat = u.toNat + 32 := by
      rw [UInt16.toNat_add]
      simp at hhigh ⊢
      omega
    simp only [isIdUnit, isAsciiLower, Bool.or_eq_true, Bool.and_eq_true, decide_eq_true_eq,
      UInt16.le_iff_toNat_le, hadd]
    simp at hlow hhigh ⊢
    omega
  · rename_i hupper
    rcases h with hid | hup
    · exact hid
    · simp [isAsciiUpper] at hup
      exact absurd hup hupper

theorem isIdUnit_of_mem_canonicalizeAccountId {value : JsString} (hvalue : trim value = value)
    {u : CodeUnit} (hu : u ∈ canonicalizeAccountId value) : isIdUnit u = true := by
  simp only [canonicalizeAccountId] at hu
  split at hu
  · rename_i hvalid
    have hunits := fun w (hw : w ∈ value) => isIdUnit_or_upper_of_isValidId hvalid hw
    have hascii : ∀ w ∈ value, w < 128 := by
      intro w hw
      rcases hunits w hw with hid | hup
      · exact isIdUnit_lt w hid
      · simp only [isAsciiUpper, Bool.and_eq_true, decide_eq_true_eq] at hup
        exact UInt16.lt_of_le_of_lt hup.2 (by decide)
    simp only [normalizeLowercaseStringOrEmpty, normalizeOptionalLowercaseString,
      normalizeOptionalString, hvalue] at hu
    split at hu
    · simp at hu
    · simp only [Option.map_some, Option.getD_some,
        UnicodeCase.toLowerCase_ascii value hascii, List.mem_map] at hu
      obtain ⟨w, hw, rfl⟩ := hu
      exact isIdUnit_lower (hunits w hw)
  · exact isIdUnit_of_mem_collapseId hu

/-- A normalised account id is made of `[a-z0-9_-]`, so no separator occurs in it. -/
theorem isIdUnit_of_mem_normalizeAccountId {value : Option JsString} {u : CodeUnit}
    (hu : u ∈ normalizeAccountId value) : isIdUnit u = true := by
  have hdefault : ∀ w ∈ DEFAULT_ACCOUNT_ID, isIdUnit w = true :=
    List.all_eq_true.mp (by decide)
  simp only [normalizeAccountId] at hu
  split at hu
  · exact hdefault u hu
  · simp only [normalizeCanonicalAccountId] at hu
    split at hu
    · exact hdefault u hu
    · exact isIdUnit_of_mem_canonicalizeAccountId (trim_trim _) hu

/-! ## Session keys -/

inductive ChatType where
  | direct
  | group
  | channel
  deriving DecidableEq, Repr

def ChatType.text : ChatType → JsString
  | .direct => js "direct"
  | .group => js "group"
  | .channel => js "channel"

def normalizeChatType (raw : Option JsString) : Option ChatType :=
  match normalizeOptionalLowercaseString raw with
  | none => none
  | some value =>
      if value = js "direct" ∨ value = js "dm" then some .direct
      else if value = js "group" then some .group
      else if value = js "channel" then some .channel
      else none

inductive DmScope where
  | main
  | perPeer
  | perChannelPeer
  | perAccountChannelPeer
  deriving DecidableEq, Repr

def DmScope.text : DmScope → JsString
  | .main => js "main"
  | .perPeer => js "per-peer"
  | .perChannelPeer => js "per-channel-peer"
  | .perAccountChannelPeer => js "per-account-channel-peer"

/-- The `session.identityLinks` record, in the order of its keys. -/
abbrev IdentityLinks := List (JsString × List JsString)

def normalizeToken (value : Option JsString) : JsString :=
  normalizeLowercaseStringOrEmpty value

def normalizeMainKey (value : Option JsString) : JsString :=
  let key := normalizeLowercaseStringOrEmpty value
  if key = [] then DEFAULT_MAIN_KEY else key

def buildAgentMainSessionKey (agentId : JsString) (mainKey : Option JsString) : JsString :=
  js "agent:" ++ normalizeAgentId (some agentId) ++ js ":" ++ normalizeMainKey mainKey

/-- `resolveLinkedPeerId`: the canonical name whose list of ids holds the peer. -/
def resolveLinkedPeerId (identityLinks : Option IdentityLinks) (channel peerId : JsString) :
    Option JsString :=
  match identityLinks with
  | none => none
  | some links =>
      let peerId := trim peerId
      if peerId = [] then none
      else
        let rawCandidate := normalizeToken (some peerId)
        let channel := normalizeToken (some channel)
        let scopedCandidate :=
          if channel = [] then [] else normalizeToken (some (channel ++ js ":" ++ peerId))
        let candidates := [rawCandidate, scopedCandidate].filter (· ≠ [])
        let matching := links.find? fun link =>
          trim link.1 ≠ [] ∧ link.2.any fun id =>
            normalizeToken (some id) ≠ [] ∧ normalizeToken (some id) ∈ candidates
        matching.map fun link => trim link.1

/-- The parameters of `buildAgentPeerSessionKey`. -/
structure PeerSessionKeyParams where
  agentId : JsString
  mainKey : Option JsString
  channel : JsString
  accountId : Option JsString
  peerKind : Option ChatType
  peerId : Option JsString
  dmScope : Option DmScope
  identityLinks : Option IdentityLinks

def buildAgentPeerSessionKey (params : PeerSessionKeyParams) : JsString :=
  let agent := js "agent:" ++ normalizeAgentId (some params.agentId) ++ js ":"
  let channelOrUnknown :=
    let channel := normalizeLowercaseStringOrEmpty (some params.channel)
    if channel = [] then js "unknown" else channel
  match params.peerKind.getD .direct with
  | .direct =>
      let dmScope := params.dmScope.getD .main
      let rawPeerId := trim (params.peerId.getD [])
      let linkedPeerId :=
        if dmScope = .main then none
        else resolveLinkedPeerId params.identityLinks params.channel rawPeerId
      -- An empty canonical name is falsy and leaves the peer id as it is.
      let peerId := normalizeLowercaseStringOrEmpty (some
        (match linkedPeerId with
          | some linked => if linked = [] then rawPeerId else linked
          | none => rawPeerId))
      if dmScope = .perAccountChannelPeer ∧ peerId ≠ [] then
        agent ++ channelOrUnknown ++ js ":" ++ normalizeAccountId params.accountId ++
          js ":direct:" ++ peerId
      else if dmScope = .perChannelPeer ∧ peerId ≠ [] then
        agent ++ channelOrUnknown ++ js ":direct:" ++ peerId
      else if dmScope = .perPeer ∧ peerId ≠ [] then
        agent ++ js "direct:" ++ peerId
      else buildAgentMainSessionKey params.agentId params.mainKey
  | kind =>
      let peerId := normalizeLowercaseStringOrEmpty params.peerId
      agent ++ channelOrUnknown ++ js ":" ++ kind.text ++ js ":" ++
        (if peerId = [] then js "unknown" else peerId)

end GreenchClaw.Routing
