import GreenchClaw.Routing.KeyIsolation

/-!
# Reading the agent off a session key

`parseAgentSessionKey` on the keys that the builders make.
-/

namespace GreenchClaw.Routing

open GreenchClaw.Js

def OnlyColons (text : JsString) : Prop := ∀ u ∈ text, u = 58

instance (text : JsString) : Decidable (OnlyColons text) :=
  inferInstanceAs (Decidable (∀ u ∈ text, u = 58))

theorem filled_parts_iff (text : JsString) :
    (splitColons text).filter (fun part => part ≠ []) = [] ↔ OnlyColons text := by
  unfold OnlyColons splitColons
  induction text with
  | nil => simp
  | cons u rest ih =>
      rw [List.splitOn_cons_eq_if_modifyHead, List.forall_mem_cons, ← ih]
      by_cases hu : u = 58
      · simp [hu]
      · obtain ⟨first, parts, hparts⟩ := List.exists_cons_of_ne_nil (List.splitOn_ne_nil 58 rest)
        simp [hu, hparts]

theorem trim_append_trimEnd {u v : CodeUnit} (hu : isSpace u = false) (hv : isSpace v = false)
    (front text : JsString) :
    trim (u :: front ++ [v] ++ text) = u :: front ++ [v] ++ trimEnd text := by
  rw [trim, List.cons_append, List.cons_append, List.dropWhile_cons_of_neg (by simp [hu]),
    ← List.cons_append, ← List.cons_append, trimEnd]
  induction text using List.reverseRecOn with
  | nil => simp [hv]
  | append_singleton text w ih =>
      rw [← List.append_assoc, List.rdropWhile_concat, List.rdropWhile_concat, ih]
      split <;> simp

theorem colon_or_space {text : JsString} (h : OnlyColons (trimEnd text)) {u : CodeUnit} (hu : u ∈ text) :
    u = 58 ∨ isSpace u = true := by
  rw [← @List.rdropWhile_append_rtakeWhile _ isSpace text, List.mem_append] at hu
  rcases hu with hu | hu
  · exact .inl (h u hu)
  · exact .inr (List.mem_rtakeWhile_imp hu)

theorem idUnit_plain {u : CodeUnit} (h : isIdUnit u = true) :
    isSpace u = false ∧ u ≠ 58 ∧ ¬(65 ≤ u ∧ u ≤ 90) := by
  have hall : ∀ n : Fin 128, isIdUnit (UInt16.ofNat n) = true → isSpace (UInt16.ofNat n) = false ∧
      UInt16.ofNat n ≠ 58 ∧ ¬(65 ≤ UInt16.ofNat n ∧ UInt16.ofNat n ≤ 90) := by decide +kernel
  have hlt := UInt16.lt_iff_toNat_lt.mp (isIdUnit_lt u h)
  simpa using hall ⟨u.toNat, hlt⟩ (by simpa using h)

section Start

variable {id : JsString} (hunits : ∀ u ∈ id, isIdUnit u = true) (hne : id ≠ [])

include hunits

theorem start_small (u : CodeUnit) (hu : u ∈ js "agent:" ++ id ++ js ":") :
    u < 128 ∧ ¬(65 ≤ u ∧ u ≤ 90) := by
  rw [List.mem_append, List.mem_append] at hu
  rcases hu with (hu | hu) | hu
  · have hall : (js "agent:").all (fun u => decide (u < 128 ∧ ¬(65 ≤ u ∧ u ≤ 90))) = true := by decide
    exact of_decide_eq_true (List.all_eq_true.mp hall u hu)
  · exact ⟨isIdUnit_lt u (hunits u hu), (idUnit_plain (hunits u hu)).2.2⟩
  · rw [List.mem_singleton.mp hu]
    decide

include hne

theorem parts_after_start (rest : JsString) :
    (splitColons (js "agent:" ++ id ++ js ":" ++ rest)).filter (fun part => part ≠ []) =
      js "agent" :: id :: (splitColons rest).filter (fun part => part ≠ []) := by
  have hid : 58 ∉ id := fun hmem => (idUnit_plain (hunits 58 hmem)).2.1 rfl
  rw [splitColons, show js "agent:" ++ id ++ js ":" ++ rest =
      js "agent" ++ 58 :: (id ++ 58 :: rest) by simp [js, unit],
    List.splitOn_append_cons_self_of_not_mem (by decide),
    List.splitOn_append_cons_self_of_not_mem hid]
  simp [hne, splitColons, js]

theorem normalizeOptionalString_idUnits : normalizeOptionalString (some id) = some id := by
  have hspace : ∀ u ∈ id, ¬isSpace u = true := fun u hu => by simp [idUnit_plain (hunits u hu)]
  have htrimmed : trim id = id := by
    rw [trim, List.dropWhile_eq_self_iff.mpr fun hl => hspace _ (List.getElem_mem hl),
      List.rdropWhile_eq_self_iff.mpr fun hl => hspace _ (List.getLast_mem hl)]
  rw [normalizeOptionalString, htrimmed, if_neg hne]

end Start

theorem letter_mem_address {conversation : Conversation} (h : conversation ≠ .main) (scope : DmScope)
    (channel mainKey : JsString) : ∃ u ∈ conversation.address scope channel mainKey, u ≠ 58 ∧ isSpace u = false := by
  cases conversation with
  | main => exact absurd rfl h
  | direct accountId peerId =>
      refine ⟨unit 'd', ?_, by decide⟩
      cases accountId with
      | some accountId => simp [Conversation.address, js]
      | none =>
          rw [Conversation.address]
          split <;> simp [js]
  | room kind peerId =>
      obtain ⟨u, hu, hletter⟩ : ∃ u ∈ kind.text, u ≠ 58 ∧ isSpace u = false := by
        cases kind <;> exact ⟨_, List.mem_cons_self, by decide⟩
      exact ⟨u, by simp [Conversation.address, hu], hletter⟩

section Agents

variable [UnicodeCase]

/-- Lower case leaves a start in small ASCII as it is and makes colons of colons only. -/
def KeepsStart : Prop :=
  ∀ start rest : JsString, (∀ u ∈ start, u < 128 ∧ ¬(65 ≤ u ∧ u ≤ 90)) →
    ∃ lowered, UnicodeCase.toLowerCase (start ++ rest) = start ++ lowered ∧
      (OnlyColons lowered ↔ OnlyColons rest)

theorem normalizeAgentId_units (value : Option JsString) :
    normalizeAgentId value ≠ [] ∧ ∀ u ∈ normalizeAgentId value, isIdUnit u = true := by
  have hunits : ∀ u ∈ canonicalizeAccountId (trim (value.getD [])), isIdUnit u = true :=
    fun _ => isIdUnit_of_mem_canonicalizeAccountId (trim_trim _)
  have hdefault : DEFAULT_AGENT_ID ≠ [] ∧ ∀ u ∈ DEFAULT_AGENT_ID, isIdUnit u = true :=
    ⟨by decide, List.all_eq_true.mp (by decide)⟩
  unfold canonicalizeAccountId at hunits
  unfold normalizeAgentId
  dsimp only at hunits ⊢
  split_ifs with hblank hvalid hcollapsed
  · exact hdefault
  · rw [if_pos hvalid] at hunits
    refine ⟨?_, hunits⟩
    have hascii : ∀ u ∈ trim (value.getD []), u < 128 := by
      intro u hu
      rcases isIdUnit_or_upper_of_isValidId hvalid hu with hid | hupper
      · exact isIdUnit_lt u hid
      · simp only [isAsciiUpper, Bool.and_eq_true, decide_eq_true_eq] at hupper
        exact UInt16.lt_of_le_of_lt hupper.2 (by decide)
    rw [normalizeLowercaseStringOrEmpty_eq, trim_trim, UnicodeCase.toLowerCase_ascii _ hascii]
    exact fun hnil => hblank (List.map_eq_nil_iff.mp hnil)
  · exact hdefault
  · rw [if_neg hvalid] at hunits
    exact ⟨hcollapsed, hunits⟩

omit [UnicodeCase] in
theorem joinColons_ne_nil {first : JsString} {parts : List JsString} (h : first ≠ []) :
    joinColons (first :: parts) ≠ [] := by
  rw [joinColons, List.intercalate]
  cases parts <;> simp [h]

theorem parse_start (hlower : KeepsStart) (agentId : Option JsString) (address : JsString) :
    (parseAgentSessionKey (js "agent:" ++ normalizeAgentId agentId ++ js ":" ++ address)).map
        (·.agentId) =
      if OnlyColons (trimEnd address) then none else some (normalizeAgentId agentId) := by
  obtain ⟨hne, hunits⟩ := normalizeAgentId_units agentId
  generalize normalizeAgentId agentId = id at hne hunits
  have htrim : trim (js "agent:" ++ id ++ js ":" ++ address) =
      js "agent:" ++ id ++ js ":" ++ trimEnd address :=
    trim_append_trimEnd (by decide) (by decide) (js "gent:" ++ id) address
  have hsome : js "agent:" ++ id ++ js ":" ++ trimEnd address ≠ [] := List.cons_ne_nil _ _
  obtain ⟨lowered, hlowered, hcolons⟩ := hlower _ (trimEnd address) (start_small hunits)
  rw [parseAgentSessionKey, normalizeOptionalLowercaseString, normalizeOptionalString, htrim,
    if_neg hsome, Option.map_some, hlowered]
  simp only [parts_after_start hunits hne, ← hcolons, ← filled_parts_iff]
  cases hparts : (splitColons lowered).filter (fun part => part ≠ []) with
  | nil => rfl
  | cons third parts =>
      have hmem : third ∈ (splitColons lowered).filter (fun part => part ≠ []) :=
        hparts ▸ List.mem_cons_self
      have hrest := @joinColons_ne_nil third parts (of_decide_eq_true (List.mem_filter.mp hmem).2)
      simp [normalizeOptionalString_idUnits hunits hne, hrest]

/-- The agent of every session key is read back from it, unless it is a main session whose key is
nothing but colons. -/
theorem agent_of_peer_key (hlower : KeepsStart) (params : PeerSessionKeyParams) :
    (parseAgentSessionKey (buildAgentPeerSessionKey params)).map (·.agentId) =
      if params.conversation = .main ∧ OnlyColons (trimEnd (normalizeMainKey params.mainKey)) then none
      else some (normalizeAgentId (some params.agentId)) := by
  rw [buildAgentPeerSessionKey_eq, parse_start hlower]
  by_cases hmain : params.conversation = .main
  · rw [hmain]
    exact if_congr (by simp [Conversation.address]) rfl rfl
  · rw [if_neg (fun h => hmain h.1 : ¬(_ ∧ _)), if_neg]
    intro hcolons
    obtain ⟨u, hu, hcolon, hspace⟩ :=
      letter_mem_address hmain params.scope params.channelOrUnknown (normalizeMainKey params.mainKey)
    rcases colon_or_space hcolons hu with heq | hblank
    · exact hcolon heq
    · exact Bool.false_ne_true (hspace.symm.trans hblank)

end Agents

theorem keepsStart_ascii : @KeepsStart asciiCase := by
  intro start rest hstart
  refine ⟨asciiCase.toLowerCase rest, ?_, ?_⟩
  · have hsame : asciiCase.toLowerCase start = start :=
      (List.map_congr_left fun u hu => if_neg (hstart u hu).2).trans (List.map_id start)
    calc asciiCase.toLowerCase (start ++ rest)
        = asciiCase.toLowerCase start ++ asciiCase.toLowerCase rest := List.map_append
      _ = start ++ asciiCase.toLowerCase rest := by rw [hsame]
  · have hcolon : ∀ u : CodeUnit, (if 65 ≤ u ∧ u ≤ 90 then u + 32 else u) = 58 ↔ u = 58 := by
      intro u
      split
      · rename_i hupper
        have hhigh := UInt16.le_iff_toNat_le.mp hupper.1
        have hlow := UInt16.le_iff_toNat_le.mp hupper.2
        rw [← UInt16.toNat_inj, ← UInt16.toNat_inj, UInt16.toNat_add]
        simp at hhigh hlow ⊢
        omega
      · exact Iff.rfl
    exact List.forall_mem_map.trans (forall₂_congr fun u _ => hcolon u)

theorem agent_of_colon_group :
    (@parseAgentSessionKey asciiCase (@buildAgentPeerSessionKey asciiCase
      { agentId := js "Ops Team", mainKey := none, channel := js "irc", accountId := none,
        peerKind := some .group, peerId := some (js "::"), dmScope := none,
        identityLinks := none })).map (·.agentId) = some (js "ops-team") := by
  refine (@agent_of_peer_key asciiCase keepsStart_ascii _).trans ?_
  rw [if_neg (by decide +kernel)]
  decide +kernel

/-! ## Events of cron runs -/

section Events

variable [UnicodeCase]

def isCronRunSessionKey (sessionKey : JsString) : Bool :=
  (parseAgentSessionKey sessionKey).any fun parsed =>
    match splitColons parsed.rest with
    | first :: job :: third :: run :: _ => first = js "cron" && job ≠ [] && third = js "run" && run ≠ []
    | _ => false

def resolveEventSessionKey (sessionKey : JsString) (mainKey : Option JsString) (globalScope : Bool) :
    JsString :=
  match parseAgentSessionKey sessionKey with
  | none => sessionKey
  | some parsed =>
      if !isCronRunSessionKey sessionKey then sessionKey
      else if globalScope then js "global"
      else buildAgentMainSessionKey parsed.agentId mainKey

/-- The event of a cron run goes to the main session of the run's agent, every other event to its own
session. -/
theorem agent_of_event_key (hlower : KeepsStart) (sessionKey : JsString) (mainKey : Option JsString) :
    (parseAgentSessionKey (resolveEventSessionKey sessionKey mainKey false)).map (·.agentId) =
      if isCronRunSessionKey sessionKey then
        if OnlyColons (trimEnd (normalizeMainKey mainKey)) then none
        else (parseAgentSessionKey sessionKey).map fun parsed => normalizeAgentId (some parsed.agentId)
      else (parseAgentSessionKey sessionKey).map (·.agentId) := by
  rw [resolveEventSessionKey]
  cases hparsed : parseAgentSessionKey sessionKey with
  | none => simp [isCronRunSessionKey, hparsed]
  | some parsed =>
      cases hcron : isCronRunSessionKey sessionKey with
      | false => simp [hparsed]
      | true => simpa [buildAgentMainSessionKey] using
          parse_start hlower (some parsed.agentId) (normalizeMainKey mainKey)

end Events

theorem agent_of_cron_run_event :
    (@parseAgentSessionKey asciiCase (@resolveEventSessionKey asciiCase
      (js "agent:ops:cron:daily:run:7") none false)).map (·.agentId) = some (js "ops") := by
  refine (@agent_of_event_key asciiCase keepsStart_ascii _ _).trans ?_
  decide +kernel

end GreenchClaw.Routing
