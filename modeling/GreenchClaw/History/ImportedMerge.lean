import Mathlib.Data.List.Sort
import Mathlib.Data.Rat.Defs
import Mathlib.Algebra.Order.Group.Unbundled.Abs
import Mathlib.Algebra.Order.Ring.Rat
import Mathlib.Data.Nat.Cast.Order.Ring
import GreenchClaw.Config.EnvSubstitution
import GreenchClaw.Js.Record
import GreenchClaw.Lib.Fresh

/-!
# Merging an imported chat history

The messages of an external session are merged into the local ones: one that is taken for a
message that is already there is left out, and the whole is sorted by timestamp.
-/

namespace GreenchClaw.History

open GreenchClaw.Js GreenchClaw.Config Fresh

abbrev Message := JsonValue ℚ

def DEDUPE_TIMESTAMP_WINDOW_MS : ℚ := 5 * 60 * 1000

def field (message : Message) (key : String) : Option Message :=
  match message with
  | .object entries => Record.get entries (js key)
  | _ => none

def readStringValue : Option Message → Option JsString
  | some (.string text) => some text
  | _ => none

/-- `text.replace(/\s+/g, " ")`; the flag says that the unit before was white space. -/
def collapseSpaces : Bool → JsString → JsString
  | _, [] => []
  | inRun, u :: rest =>
      if isSpace u then
        if inRun then collapseSpaces true rest else unit ' ' :: collapseSpaces true rest
      else u :: collapseSpaces false rest

def blockTexts (blocks : List Message) : List JsString :=
  blocks.filterMap fun block => readStringValue (field block "text")

/-- The parts of `extractComparableText`: the text and the content. -/
def comparableParts (message : Message) : List JsString :=
  let text := (readStringValue (field message "text")).toList
  match field message "content" with
  | some (.string content) => text ++ [content]
  | some (.array blocks) => text ++ blockTexts blocks
  | _ => text

def resolveComparableTimestamp (message : Message) : Option ℚ :=
  match field message "timestamp" with
  | some (.number timestamp) => some timestamp
  | _ => none

def resolveComparableRole (message : Message) : Option JsString :=
  readStringValue (field message "role")

def resolveImportedExternalId (message : Message) : Option JsString :=
  normalizeOptionalString
    (readStringValue ((field message "__GreenchClaw").bind fun origin => field origin "externalId"))

section Merge

-- `stripInboundMetadata`, which takes injected blocks out of the text of a user.
variable (stripInboundMetadata : JsString → JsString)

def extractComparableText (message : Message) : Option JsString :=
  let parts := comparableParts message
  if parts = [] then none
  else
    let joined := trim ((js "\n").intercalate parts)
    if joined = [] then none
    else
      let visible :=
        if resolveComparableRole message = some (js "user") then stripInboundMetadata joined
        else joined
      let normalized := trim (collapseSpaces false visible)
      if normalized = [] then none else some normalized

def isEquivalentImportedMessage (existing imported : Message) : Bool :=
  if (resolveImportedExternalId imported).isSome &&
      resolveImportedExternalId existing = resolveImportedExternalId imported then true
  else
    match resolveComparableRole existing with
    | none => false
    | some role =>
        if role = [] || some role ≠ resolveComparableRole imported then false
        else
          match extractComparableText stripInboundMetadata existing,
              extractComparableText stripInboundMetadata imported with
          | some existingText, some importedText =>
              if existingText ≠ importedText then false
              else
                match resolveComparableTimestamp existing, resolveComparableTimestamp imported with
                | some existingTimestamp, some importedTimestamp =>
                    decide (|existingTimestamp - importedTimestamp| ≤ DEDUPE_TIMESTAMP_WINDOW_MS)
                | _, _ => true
          | _, _ => false

structure HistoryEntry where
  message : Message
  order : ℕ

def compareHistoryMessages (a b : HistoryEntry) : ℚ :=
  match resolveComparableTimestamp a.message, resolveComparableTimestamp b.message with
  | some aTimestamp, some bTimestamp =>
      if aTimestamp ≠ bTimestamp then aTimestamp - bTimestamp else a.order - b.order
  | some _, none => -1
  | none, some _ => 1
  | none, none => a.order - b.order

def HistoryEntry.Before (a b : HistoryEntry) : Prop := compareHistoryMessages a b ≤ 0

instance : DecidableRel HistoryEntry.Before := fun a b =>
  inferInstanceAs (Decidable (compareHistoryMessages a b ≤ 0))

def mergeImportedChatHistoryMessages (localMessages importedMessages : List Message) :
    List Message :=
  if importedMessages = [] then localMessages
  else
    let known := localMessages.mapIdx fun index message => ⟨message, index⟩
    let (merged, _) := importedMessages.foldl
      (fun (merged, nextOrder) imported =>
        if merged.any fun existing =>
            isEquivalentImportedMessage stripInboundMetadata existing.message imported then
          (merged, nextOrder)
        else (merged ++ [⟨imported, nextOrder⟩], nextOrder + 1))
      (known, known.length)
    (merged.insertionSort HistoryEntry.Before).map HistoryEntry.message

/-! ## The order -/

def TimeOrdered (a b : Message) : Prop :=
  match resolveComparableTimestamp a, resolveComparableTimestamp b with
  | some aTimestamp, some bTimestamp => aTimestamp ≤ bTimestamp
  | none, some _ => False
  | _, none => True

theorem TimeOrdered.total (a b : Message) : TimeOrdered a b ∨ TimeOrdered b a := by
  unfold TimeOrdered
  cases resolveComparableTimestamp a with
  | none => exact Or.inr (by cases resolveComparableTimestamp b <;> trivial)
  | some aTimestamp =>
      cases resolveComparableTimestamp b with
      | none => exact Or.inl trivial
      | some bTimestamp => exact le_total aTimestamp bTimestamp

theorem TimeOrdered.trans {a b c : Message} (hab : TimeOrdered a b) (hbc : TimeOrdered b c) :
    TimeOrdered a c := by
  unfold TimeOrdered at hab hbc ⊢
  cases ha : resolveComparableTimestamp a with
  | none =>
      rw [ha] at hab
      cases hb : resolveComparableTimestamp b with
      | none =>
          rw [hb] at hbc
          cases hc : resolveComparableTimestamp c with
          | none => trivial
          | some cTimestamp =>
              rw [hc] at hbc
              exact hbc
      | some bTimestamp =>
          rw [hb] at hab
          exact hab.elim
  | some aTimestamp =>
      cases hc : resolveComparableTimestamp c with
      | none => trivial
      | some cTimestamp =>
          cases hb : resolveComparableTimestamp b with
          | none =>
              rw [hb, hc] at hbc
              exact hbc.elim
          | some bTimestamp =>
              rw [ha, hb] at hab
              rw [hb, hc] at hbc
              exact le_trans hab hbc

/-- The sort goes by the timestamps, and by the places where these do not decide. -/
theorem before_iff (a b : HistoryEntry) :
    a.Before b ↔ TimeOrdered a.message b.message ∧
      (TimeOrdered b.message a.message → a.order ≤ b.order) := by
  rw [HistoryEntry.Before, compareHistoryMessages, TimeOrdered, TimeOrdered]
  cases resolveComparableTimestamp a.message with
  | none =>
      cases resolveComparableTimestamp b.message with
      | none => simp
      | some bTimestamp => simp
  | some aTimestamp =>
      cases resolveComparableTimestamp b.message with
      | none => simp
      | some bTimestamp =>
          dsimp only
          by_cases heq : aTimestamp = bTimestamp
          · simp [heq]
          · rw [if_pos heq, sub_nonpos]
            constructor
            · exact fun hle => ⟨hle, fun hge => absurd (le_antisymm hle hge) heq⟩
            · exact fun h => h.1

instance : Std.Total HistoryEntry.Before where
  total a b := by
    rw [before_iff, before_iff]
    by_cases hab : TimeOrdered a.message b.message
    · by_cases hba : TimeOrdered b.message a.message
      · rcases Nat.le_total a.order b.order with hle | hge
        · exact Or.inl ⟨hab, fun _ => hle⟩
        · exact Or.inr ⟨hba, fun _ => hge⟩
      · exact Or.inl ⟨hab, fun h => absurd h hba⟩
    · have hba := (TimeOrdered.total a.message b.message).resolve_left hab
      exact Or.inr ⟨hba, fun h => absurd h hab⟩

instance : IsTrans HistoryEntry HistoryEntry.Before where
  trans a b c hab hbc := by
    rw [before_iff] at hab hbc ⊢
    constructor
    · exact hab.1.trans hbc.1
    · intro hca
      have hle := hab.2 (hbc.1.trans hca)
      exact Nat.le_trans hle (hbc.2 (hca.trans hab.1))

/-! ## The loop -/

def placed (messages : List Message) : List HistoryEntry :=
  messages.mapIdx fun index message => ⟨message, index⟩

theorem placed_concat (messages : List Message) (message : Message) :
    placed (messages ++ [message]) = placed messages ++ [⟨message, messages.length⟩] := by
  rw [placed, List.mapIdx_append, List.mapIdx_singleton, Nat.zero_add]
  rfl

theorem map_placed (messages : List Message) :
    (placed messages).map HistoryEntry.message = messages := by
  induction messages using List.reverseRecOn with
  | nil => rfl
  | append_singleton messages message ih =>
      rw [placed_concat, List.map_append, ih, List.map_singleton]

theorem any_placed (messages : List Message) (p : Message → Bool) :
    ((placed messages).any fun entry => p entry.message) = messages.any p := by
  conv_rhs => rw [← map_placed messages, List.any_map]
  rfl

theorem order_lt_of_mem_placed {messages : List Message} {entry : HistoryEntry}
    (h : entry ∈ placed messages) : entry.order < messages.length := by
  obtain ⟨index, hindex, hentry⟩ := List.mem_mapIdx.mp h
  rw [← hentry]
  exact hindex

theorem order_placed (messages : List Message) :
    (placed messages).Pairwise fun a b => a.order < b.order := by
  induction messages using List.reverseRecOn with
  | nil => exact List.Pairwise.nil
  | append_singleton messages message ih =>
      rw [placed_concat, List.pairwise_append]
      refine ⟨ih, List.pairwise_singleton _ _, ?_⟩
      intro entry hentry last hlast
      rw [List.mem_singleton.mp hlast]
      exact order_lt_of_mem_placed hentry

variable (stripInboundMetadata : JsString → JsString)

theorem foldl_imported (known imported : List Message) :
    (imported.foldl
      (fun (entries : List HistoryEntry × ℕ) imported =>
        if entries.1.any fun existing =>
            isEquivalentImportedMessage stripInboundMetadata existing.message imported then
          (entries.1, entries.2)
        else (entries.1 ++ [⟨imported, entries.2⟩], entries.2 + 1))
      (placed known, known.length)).1 =
        placed (known ++ fresh (isEquivalentImportedMessage stripInboundMetadata) known imported) := by
  induction imported generalizing known with
  | nil =>
      rw [fresh, List.append_nil]
      rfl
  | cons message imported ih =>
      rw [List.foldl_cons, fresh, any_placed known fun existing =>
        isEquivalentImportedMessage stripInboundMetadata existing message]
      split
      · exact ih known
      · have hlater := ih (known ++ [message])
        rw [placed_concat, List.length_append, List.length_singleton, List.append_assoc,
          List.singleton_append] at hlater
        exact hlater

theorem merge_eq {localMessages importedMessages : List Message} (h : importedMessages ≠ []) :
    mergeImportedChatHistoryMessages stripInboundMetadata localMessages importedMessages =
      ((placed (localMessages ++ fresh (isEquivalentImportedMessage stripInboundMetadata)
        localMessages importedMessages)).insertionSort HistoryEntry.Before).map
          HistoryEntry.message := by
  have hfold := foldl_imported stripInboundMetadata localMessages importedMessages
  rw [mergeImportedChatHistoryMessages, if_neg h]
  show List.map _ (List.insertionSort _ (List.foldl _ (placed localMessages,
    (placed localMessages).length) importedMessages).1) = _
  rw [show (placed localMessages).length = localMessages.length from List.length_mapIdx, ← hfold]

theorem placed_before {messages : List Message} (h : messages.Pairwise TimeOrdered) :
    (placed messages).Pairwise HistoryEntry.Before := by
  have htimes : (placed messages).Pairwise fun a b => TimeOrdered a.message b.message := by
    rw [← List.pairwise_map, map_placed]
    exact h
  have hboth := htimes.and (order_placed messages)
  apply hboth.imp
  intro a b hab
  rw [before_iff]
  exact ⟨hab.1, fun _ => Nat.le_of_lt hab.2⟩

/-! ## The merge -/

structure Merged (localMessages importedMessages kept result : List Message) : Prop where
  sublist : kept.Sublist importedMessages
  /-- Nothing else is left out, and nothing is added. -/
  perm : result.Perm (localMessages ++ kept)
  /-- An import that is left out is equivalent to a local message or to a kept one. -/
  matched : ∀ imported ∈ importedMessages, imported ∈ kept ∨ ∃ existing ∈ localMessages ++ kept,
    isEquivalentImportedMessage stripInboundMetadata existing imported = true
  ordered : importedMessages ≠ [] → result.Pairwise TimeOrdered
  stable : ∀ messages : List Message, messages.Sublist (localMessages ++ kept) →
    messages.Pairwise TimeOrdered → messages.Sublist result

theorem merged_imports (localMessages importedMessages : List Message) :
    Merged stripInboundMetadata localMessages importedMessages
      (fresh (isEquivalentImportedMessage stripInboundMetadata) localMessages importedMessages)
      (mergeImportedChatHistoryMessages stripInboundMetadata localMessages importedMessages) := by
  by_cases hnil : importedMessages = []
  · rw [hnil, fresh, mergeImportedChatHistoryMessages, if_pos rfl]
    constructor
    · exact List.Sublist.refl []
    · rw [List.append_nil]
    · exact fun imported himported => absurd himported List.not_mem_nil
    · exact fun hne => absurd rfl hne
    · intro messages hsub _
      rwa [List.append_nil] at hsub
  · rw [merge_eq stripInboundMetadata hnil]
    let kept := fresh (isEquivalentImportedMessage stripInboundMetadata) localMessages
      importedMessages
    have hsorted := List.pairwise_insertionSort HistoryEntry.Before (placed (localMessages ++ kept))
    constructor
    · exact fresh_sublist localMessages importedMessages
    · have hperm := (List.perm_insertionSort HistoryEntry.Before
        (placed (localMessages ++ kept))).map HistoryEntry.message
      rwa [map_placed] at hperm
    · exact fun imported himported => mem_fresh_or_known localMessages importedMessages himported
    · intro _
      rw [List.pairwise_map]
      exact hsorted.imp fun {a b} hab => ((before_iff a b).mp hab).1
    · intro messages hsub htimes
      rw [← map_placed (localMessages ++ kept)] at hsub
      obtain ⟨entries, hentries, hmessages⟩ := List.sublist_map_iff.mp hsub
      rw [hmessages] at htimes ⊢
      rw [List.pairwise_map] at htimes
      have hbefore : entries.Pairwise HistoryEntry.Before := by
        apply (htimes.and ((order_placed _).sublist hentries)).imp
        intro a b hab
        rw [before_iff]
        exact ⟨hab.1, fun _ => Nat.le_of_lt hab.2⟩
      exact (List.sublist_insertionSort hbefore hentries).map HistoryEntry.message

/-! ## Merging again -/

def Recognisable (message : Message) : Prop :=
  (resolveImportedExternalId message).isSome = true ∨
    (∃ role, resolveComparableRole message = some role ∧ role ≠ []) ∧
      (extractComparableText stripInboundMetadata message).isSome = true

theorem recognisable_of_equivalent {existing imported : Message}
    (h : isEquivalentImportedMessage stripInboundMetadata existing imported = true) :
    Recognisable stripInboundMetadata imported := by
  rw [isEquivalentImportedMessage] at h
  split at h
  · rename_i hid
    exact Or.inl (Bool.and_eq_true_iff.mp hid).1
  · right
    split at h
    · exact Bool.noConfusion h
    · rename_i role _
      split at h
      · exact Bool.noConfusion h
      · rename_i hrole
        simp only [Bool.or_eq_true, decide_eq_true_eq, not_or, not_not] at hrole
        split at h
        · rename_i existingText importedText _ himported
          exact ⟨⟨role, hrole.2.symm, hrole.1⟩, by rw [himported]; rfl⟩
        · exact Bool.noConfusion h

theorem equivalent_self_iff (message : Message) :
    isEquivalentImportedMessage stripInboundMetadata message message = true ↔
      Recognisable stripInboundMetadata message := by
  constructor
  · exact recognisable_of_equivalent stripInboundMetadata
  · intro h
    rw [isEquivalentImportedMessage]
    rcases h with hid | ⟨⟨role, hrole, hne⟩, htext⟩
    · rw [if_pos (by simp [hid])]
    · split
      · rfl
      · obtain ⟨text, htext⟩ := Option.isSome_iff_exists.mp htext
        rw [hrole, htext]
        dsimp only
        rw [if_neg (by simp [hne]), if_neg (fun hdiff => hdiff rfl)]
        cases resolveComparableTimestamp message with
        | none => rfl
        | some timestamp =>
            apply decide_eq_true
            rw [sub_self, abs_zero]
            decide +kernel

theorem merge_again_iff (localMessages importedMessages : List Message) :
    let merged := mergeImportedChatHistoryMessages stripInboundMetadata localMessages
      importedMessages
    mergeImportedChatHistoryMessages stripInboundMetadata merged importedMessages = merged ↔
      ∀ imported ∈ importedMessages, Recognisable stripInboundMetadata imported := by
  intro merged
  have hmerged := merged_imports stripInboundMetadata localMessages importedMessages
  have hagain := merged_imports stripInboundMetadata merged importedMessages
  by_cases hnil : importedMessages = []
  · rw [hnil, mergeImportedChatHistoryMessages, if_pos rfl]
    simp
  constructor
  · intro hsame imported himported
    rw [hsame] at hagain
    have hnone : fresh (isEquivalentImportedMessage stripInboundMetadata) merged
        importedMessages = [] := by
      have hlength := hagain.perm.length_eq
      rw [List.length_append] at hlength
      exact List.length_eq_zero_iff.mp (by omega)
    obtain ⟨existing, _, hequivalent⟩ := fresh_eq_nil_iff.mp hnone imported himported
    exact recognisable_of_equivalent stripInboundMetadata hequivalent
  · intro hall
    have hnone : fresh (isEquivalentImportedMessage stripInboundMetadata) merged
        importedMessages = [] := by
      rw [fresh_eq_nil_iff]
      intro imported himported
      rcases hmerged.matched imported himported with hkept | ⟨existing, hexisting, hequivalent⟩
      · have hself := (equivalent_self_iff stripInboundMetadata imported).mpr (hall imported himported)
        exact ⟨imported, hmerged.perm.mem_iff.mpr (List.mem_append_right _ hkept), hself⟩
      · exact ⟨existing, hmerged.perm.mem_iff.mpr hexisting, hequivalent⟩
    have hsorted := placed_before (hmerged.ordered hnil)
    rw [merge_eq stripInboundMetadata hnil, hnone, List.append_nil]
    rw [hsorted.insertionSort_eq, map_placed]

/-- Every local message is kept, and every import that nothing is equivalent to, in the order of
the timestamps; merging again changes nothing when the imports can be found again. -/
theorem imports_merged (localMessages importedMessages : List Message) :
    let merged := mergeImportedChatHistoryMessages stripInboundMetadata localMessages
      importedMessages
    Merged stripInboundMetadata localMessages importedMessages
        (fresh (isEquivalentImportedMessage stripInboundMetadata) localMessages importedMessages)
        merged ∧
      (mergeImportedChatHistoryMessages stripInboundMetadata merged importedMessages = merged ↔
        ∀ imported ∈ importedMessages, Recognisable stripInboundMetadata imported) :=
  ⟨merged_imports stripInboundMetadata localMessages importedMessages,
    merge_again_iff stripInboundMetadata localMessages importedMessages⟩

end Merge

def yesMessage (timestamp : ℚ) (externalId : Option JsString) : Message :=
  .object ([(js "role", .string (js "user")), (js "content", .string (js "yes")),
    (js "timestamp", .number timestamp)] ++ externalId.toList.map fun id =>
      (js "__GreenchClaw", .object [(js "externalId", .string id)]))

/-- Two imports with different ids are taken for one local message, and for each other; and
an import without an id, role or text is added once more by each merge. -/
theorem imports_lost :
    let merge := mergeImportedChatHistoryMessages id
    let yes := [yesMessage 60000 (some (js "a")), yesMessage 120000 (some (js "b"))]
    (merge [yesMessage 0 none] yes).length = 1 ∧ (merge [] yes).length = 1 ∧
      (merge [] [.object []]).length = 1 ∧ (merge (merge [] [.object []]) [.object []]).length = 2 := by
  decide +kernel

end GreenchClaw.History
