import GreenchClaw.Sessions.LastRoute

/-!
# Normalised routes

Each field of a route is normalised on its own, and once normalised stays as it is.  What a load or
a save makes of an entry is said by one route, field by field.
-/

namespace GreenchClaw.Sessions

open GreenchClaw.Js GreenchClaw.Routing

/-! ## Account ids -/

theorem replaceInvalidChars_eq_self {value : JsString} (h : ∀ u ∈ value, isIdUnit u = true) :
    replaceInvalidChars false value = value := by
  induction value with
  | nil => rfl
  | cons u rest ih =>
      rw [replaceInvalidChars, if_pos (h u List.mem_cons_self),
        ih fun v hv => h v (List.mem_cons_of_mem u hv)]

theorem isIdUnit_facts {u : CodeUnit} (h : isIdUnit u = true) :
    isSpace u = false ∧ (if 65 ≤ u ∧ u ≤ 90 then u + 32 else u) = u := by
  have hall : ∀ n : Fin 128, isIdUnit (UInt16.ofNat n) = true →
      isSpace (UInt16.ofNat n) = false ∧
        (if 65 ≤ UInt16.ofNat n ∧ UInt16.ofNat n ≤ 90 then UInt16.ofNat n + 32
          else UInt16.ofNat n) = UInt16.ofNat n := by
    decide +kernel
  have hn : u.toNat < 128 := UInt16.lt_iff_toNat_lt.mp (isIdUnit_lt u h)
  have hu : UInt16.ofNat u.toNat = u := UInt16.ofNat_toNat
  have hcase := hall ⟨u.toNat, hn⟩
  simp only [hu] at hcase
  exact hcase h

theorem trim_ids {value : JsString} (h : ∀ u ∈ value, isIdUnit u = true) : trim value = value := by
  rw [trim]
  have hfront : value.dropWhile isSpace = value := by
    cases value with
    | nil => rfl
    | cons u rest =>
        rw [List.dropWhile_cons_of_neg]
        rw [(isIdUnit_facts (h u List.mem_cons_self)).1]
        exact Bool.false_ne_true
  rw [hfront]
  apply List.rdropWhile_eq_self_iff.mpr
  intro hne
  rw [(isIdUnit_facts (h _ (List.getLast_mem hne))).1]
  exact Bool.false_ne_true

theorem lower_ids [UnicodeCase] {value : JsString} (h : ∀ u ∈ value, isIdUnit u = true) :
    normalizeLowercaseStringOrEmpty (some value) = value := by
  have hsame : UnicodeCase.toLowerCase value = value := by
    rw [UnicodeCase.toLowerCase_ascii value fun u hu => isIdUnit_lt u (h u hu)]
    calc
      _ = value.map fun u => u := List.map_congr_left fun u hu => (isIdUnit_facts (h u hu)).2
      _ = value := List.map_id' value
  rw [normalizeLowercaseStringOrEmpty, normalizeOptionalLowercaseString, normalizeOptionalString]
  simp only [trim_ids h]
  split
  · rename_i hnil
    rw [hnil]
    rfl
  · rw [Option.map_some, Option.getD_some, hsame]

theorem isIdUnit_of_mem_accountId [UnicodeCase] {value : Option JsString} {id : JsString}
    (h : normalizeOptionalAccountId value = some id) : ∀ u ∈ id, isIdUnit u = true := by
  rw [normalizeOptionalAccountId, normalizeCanonicalAccountId] at h
  split at h
  · cases h
  · split at h
    · cases h
    · rw [← Option.some.inj h]
      exact fun u hu => isIdUnit_of_mem_canonicalizeAccountId (trim_trim _) hu

theorem length_accountId [UnicodeCase] {value : Option JsString} {id : JsString}
    (h : normalizeOptionalAccountId value = some id) : id.length ≤ 64 := by
  rw [normalizeOptionalAccountId, normalizeCanonicalAccountId] at h
  split at h
  · cases h
  · split at h
    · cases h
    · rw [← Option.some.inj h, canonicalizeAccountId]
      split
      · rename_i hvalid
        have hascii : ∀ u ∈ trim (value.getD []), u < 128 := by
          intro u hu
          rcases isIdUnit_or_upper_of_isValidId hvalid hu with hid | hup
          · exact isIdUnit_lt u hid
          · simp only [isAsciiUpper, Bool.and_eq_true, decide_eq_true_eq] at hup
            exact UInt16.lt_of_le_of_lt hup.2 (by decide)
        have hlength : (trim (value.getD [])).length ≤ 64 := by
          cases htrim : trim (value.getD []) with
          | nil => exact Nat.zero_le 64
          | cons first rest =>
              rw [htrim, isValidId] at hvalid
              simp only [Bool.and_eq_true, decide_eq_true_eq] at hvalid
              rw [List.length_cons]
              omega
        rw [normalizeLowercaseStringOrEmpty, normalizeOptionalLowercaseString,
          normalizeOptionalString]
        simp only [trim_trim]
        split
        · exact Nat.zero_le 64
        · rw [Option.map_some, Option.getD_some, UnicodeCase.toLowerCase_ascii _ hascii,
            List.length_map]
          exact hlength
      · exact List.length_take_le _ _

theorem normalizeOptionalAccountId_ids [UnicodeCase] {id : JsString}
    (h : ∀ u ∈ id, isIdUnit u = true) :
    normalizeOptionalAccountId (some id) =
      if id = [] then none
      else if isValidId id then if isBlockedObjectKey id then none else some id
      else
        if collapseId id = [] ∨ isBlockedObjectKey (collapseId id) then none
        else some (collapseId id) := by
  rw [normalizeOptionalAccountId, normalizeCanonicalAccountId, canonicalizeAccountId]
  simp only [Option.getD_some, trim_ids h, lower_ids h]
  by_cases hnil : id = []
  · rw [if_pos hnil, if_pos hnil]
  · rw [if_neg hnil, if_neg hnil]
    by_cases hvalid : isValidId id = true
    · simp [hvalid, hnil]
    · simp only [if_neg hvalid]

theorem collapseId_collapseId {id : JsString} (h : ∀ u ∈ id, isIdUnit u = true)
    (hlength : id.length ≤ 64) : collapseId (collapseId id) = collapseId id := by
  have hcollapse (value : JsString) (hids : ∀ u ∈ value, isIdUnit u = true)
      (hshort : value.length ≤ 64) :
      collapseId value = (value.dropWhile (· == unit '-')).rdropWhile (· == unit '-') := by
    rw [collapseId, replaceInvalidChars_eq_self hids, List.take_of_length_le]
    exact ((List.rdropWhile_prefix _ _).length_le.trans
      (List.dropWhile_suffix _).length_le).trans hshort
  have hids : ∀ u ∈ collapseId id, isIdUnit u = true := fun u hu => isIdUnit_of_mem_collapseId hu
  have hshort : (collapseId id).length ≤ 64 := List.length_take_le _ _
  rw [hcollapse _ hids hshort, hcollapse id h hlength, dropWhile_trimEnds]
  exact List.rdropWhile_idempotent _ _

theorem normalizeOptionalAccountId_third [UnicodeCase] (value : Option JsString) :
    normalizeOptionalAccountId (normalizeOptionalAccountId (normalizeOptionalAccountId value)) =
      normalizeOptionalAccountId (normalizeOptionalAccountId value) := by
  have hnone : normalizeOptionalAccountId none = none := by
    rw [normalizeOptionalAccountId]
    rfl
  cases hfirst : normalizeOptionalAccountId value with
  | none => rw [hnone, hnone]
  | some id =>
      have hids := isIdUnit_of_mem_accountId hfirst
      have hlength := length_accountId hfirst
      have hcollapsed : ∀ u ∈ collapseId id, isIdUnit u = true :=
        fun u hu => isIdUnit_of_mem_collapseId hu
      rw [normalizeOptionalAccountId_ids hids]
      by_cases hnil : id = []
      · rw [if_pos hnil, hnone]
      · rw [if_neg hnil]
        by_cases hvalid : isValidId id = true
        · rw [if_pos hvalid]
          by_cases hblocked : isBlockedObjectKey id = true
          · rw [if_pos hblocked, hnone]
          · rw [if_neg hblocked, normalizeOptionalAccountId_ids hids, if_neg hnil, if_pos hvalid,
              if_neg hblocked]
        · rw [if_neg hvalid]
          by_cases hgone : collapseId id = [] ∨ isBlockedObjectKey (collapseId id) = true
          · rw [if_pos hgone, hnone]
          · rw [if_neg hgone, normalizeOptionalAccountId_ids hcollapsed,
              collapseId_collapseId hids hlength, if_neg hgone]
            obtain ⟨hne, hfree⟩ := not_or.mp hgone
            rw [if_neg hne, if_neg hfree]
            exact ite_self _

/-! ## Threads, targets and channels -/

theorem truncate_int (value : ℤ) : truncate value = value := by
  rw [truncate, Rat.num_intCast, Rat.den_intCast]
  exact Int.tdiv_one value

theorem normalizeOptionalThreadValue_twice (value : Option ThreadId) :
    normalizeOptionalThreadValue (normalizeOptionalThreadValue value) =
      normalizeOptionalThreadValue value := by
  cases value with
  | none => rfl
  | some id =>
      cases id with
      | text text =>
          by_cases hnil : trim text = []
          · simp [normalizeOptionalThreadValue, normalizeOptionalString, hnil]
          · simp [normalizeOptionalThreadValue, normalizeOptionalString, hnil]
      | number value =>
          cases value with
          | none => rfl
          | some value => simp [normalizeOptionalThreadValue, truncate_int]

section Channels

variable [UnicodeCase]

theorem lower_nil : UnicodeCase.toLowerCase (trim []) = [] :=
  UnicodeCase.toLowerCase_ascii [] fun _ hu => absurd hu List.not_mem_nil

theorem lower_internal :
    UnicodeCase.toLowerCase (trim INTERNAL_MESSAGE_CHANNEL) = INTERNAL_MESSAGE_CHANNEL := by
  have htrim : trim INTERNAL_MESSAGE_CHANNEL = INTERNAL_MESSAGE_CHANNEL := by decide +kernel
  have hascii : ∀ u ∈ INTERNAL_MESSAGE_CHANNEL, u < 128 := by
    have hall : (INTERNAL_MESSAGE_CHANNEL.all fun u => decide (u < 128)) = true := by
      decide +kernel
    exact fun u hu => of_decide_eq_true (List.all_eq_true.mp hall u hu)
  rw [htrim, UnicodeCase.toLowerCase_ascii _ hascii]
  decide +kernel

variable [ChannelNames]

def NamesStable : Prop :=
  ∀ key id, ChannelNames.channelId key = some id →
    normalizeLowercaseStringOrEmpty (some ((ChannelNames.channelId
        (normalizeLowercaseStringOrEmpty (some id))).getD
          (normalizeLowercaseStringOrEmpty (some id)))) =
      normalizeLowercaseStringOrEmpty (some id)

theorem normalizeMessageChannel_eq (channel : JsString) :
    normalizeMessageChannel (some channel) =
      if UnicodeCase.toLowerCase (trim channel) = [] then none
      else if UnicodeCase.toLowerCase (trim channel) = INTERNAL_MESSAGE_CHANNEL then
        some INTERNAL_MESSAGE_CHANNEL
      else some ((ChannelNames.channelId (UnicodeCase.toLowerCase (trim channel))).getD
        (UnicodeCase.toLowerCase (trim channel))) := by
  rw [normalizeMessageChannel, normalizeOptionalLowercaseString, normalizeOptionalString]
  by_cases hnil : trim channel = []
  · rw [if_pos hnil, hnil, UnicodeCase.toLowerCase_ascii [] fun u hu => absurd hu List.not_mem_nil]
    rfl
  · rw [if_neg hnil]
    rfl

def channelName (channel : JsString) : JsString :=
  normalizeLowercaseStringOrEmpty
    (some ((normalizeMessageChannel (some channel)).getD (trim channel)))

theorem channelName_eq (channel : JsString) :
    channelName channel =
      if UnicodeCase.toLowerCase (trim channel) = [] then []
      else if UnicodeCase.toLowerCase (trim channel) = INTERNAL_MESSAGE_CHANNEL then
        INTERNAL_MESSAGE_CHANNEL
      else normalizeLowercaseStringOrEmpty
        (some ((ChannelNames.channelId (UnicodeCase.toLowerCase (trim channel))).getD
          (UnicodeCase.toLowerCase (trim channel)))) := by
  rw [channelName, normalizeMessageChannel_eq]
  split
  · rename_i hnil
    rw [Option.getD_none, normalizeLowercaseStringOrEmpty_eq, trim_trim, hnil]
  · split
    · rw [Option.getD_some, normalizeLowercaseStringOrEmpty_eq, lower_internal]
    · rw [Option.getD_some]

theorem channelName_twice (hlower : LowerCaseTwice) (hnames : NamesStable) (channel : JsString) :
    channelName (channelName channel) = channelName channel := by
  rw [channelName_eq channel]
  split
  · rw [channelName_eq, lower_nil, if_pos rfl]
  · rename_i hne
    split
    · have hinternal : INTERNAL_MESSAGE_CHANNEL ≠ [] := List.cons_ne_nil _ _
      rw [channelName_eq, lower_internal, if_neg hinternal, if_pos rfl]
    · rename_i hother
      cases hid : ChannelNames.channelId (UnicodeCase.toLowerCase (trim channel)) with
      | none =>
          rw [Option.getD_none, normalizeLowercaseStringOrEmpty_eq, hlower, channelName_eq, hlower,
            if_neg hne, if_neg hother, hid, Option.getD_none, normalizeLowercaseStringOrEmpty_eq,
            hlower]
      | some id =>
          have hstable := hnames _ id hid
          rw [Option.getD_some, channelName_eq]
          have hagain : UnicodeCase.toLowerCase
              (trim (normalizeLowercaseStringOrEmpty (some id))) =
                normalizeLowercaseStringOrEmpty (some id) := by
            rw [normalizeLowercaseStringOrEmpty_eq, hlower]
          rw [hagain]
          split
          · rename_i hnil
            exact hnil.symm
          · split
            · rename_i hinternal
              exact hinternal.symm
            · exact hstable

theorem routeChannel_twice (hlower : LowerCaseTwice) (hnames : NamesStable)
    (channel : Option JsString) :
    routeChannel (routeChannel channel) = routeChannel channel := by
  cases channel with
  | none => rfl
  | some channel =>
      have hname : routeChannel (some channel) =
          if channelName channel = [] then none else some (channelName channel) := rfl
      by_cases hnil : channelName channel = []
      · rw [hname, if_pos hnil]
        rfl
      · have hagain : routeChannel (some (channelName channel)) =
            if channelName (channelName channel) = [] then none
            else some (channelName (channelName channel)) := rfl
        rw [hname, if_neg hnil, hagain, channelName_twice hlower hnames, if_neg hnil]

/-! ## Routes -/

def DeliveryContext.normal (context : DeliveryContext) : DeliveryContext where
  channel := routeChannel context.channel
  target := normalizeOptionalString context.target
  accountId := normalizeOptionalAccountId (normalizeOptionalAccountId context.accountId)
  threadId := normalizeOptionalThreadValue context.threadId

def DeliveryContext.wrap (context : DeliveryContext) : Option DeliveryContext :=
  if context = {} then none else some context

/-- The fields of one route, filled from another one unless their channels differ. -/
def DeliveryContext.join (p f : DeliveryContext) : DeliveryContext :=
  if p.channel.isSome ∧ f.channel.isSome ∧ p.channel ≠ f.channel then
    { channel := p.channel
      target := p.target
      accountId := p.accountId
      threadId := p.threadId }
  else
    { channel := p.channel.or f.channel
      target := p.target.or f.target
      accountId := p.accountId.or f.accountId
      threadId := p.threadId.or f.threadId }

omit [UnicodeCase] [ChannelNames] in
@[simp] theorem getD_wrap (context : DeliveryContext) : context.wrap.getD {} = context := by
  rw [DeliveryContext.wrap]
  split
  · rename_i hempty
    exact hempty.symm
  · rfl

theorem normal_empty : DeliveryContext.normal {} = {} := by
  have haccount : normalizeOptionalAccountId (none : Option JsString) = none := by
    rw [normalizeOptionalAccountId]
    rfl
  rw [DeliveryContext.normal]
  simp only [haccount]
  rfl

theorem normal_normal (hlower : LowerCaseTwice) (hnames : NamesStable)
    (context : DeliveryContext) : context.normal.normal = context.normal := by
  simp only [DeliveryContext.normal, routeChannel_twice hlower hnames,
    normalizeOptionalString_idem, normalizeOptionalAccountId_third,
    normalizeOptionalThreadValue_twice]

theorem getD_normalizeDeliveryContext (context : Option DeliveryContext) :
    (normalizeDeliveryContext context).getD {} = (context.getD {}).normal := by
  cases context with
  | none => exact normal_empty.symm
  | some context =>
      rw [normalizeDeliveryContext]
      split
      · rename_i hnone
        obtain ⟨hchannel, htarget, haccount, hthread⟩ := hnone
        have hagain : normalizeOptionalAccountId (none : Option JsString) = none := by
          rw [normalizeOptionalAccountId]
          rfl
        rw [Option.getD_some, DeliveryContext.normal, hchannel, htarget, haccount, hthread, hagain]
        rfl
      · rfl

theorem normalizeDeliveryContext_normal {context : DeliveryContext}
    (h : context.normal = context) : normalizeDeliveryContext (some context) = context.wrap := by
  have haccount : normalizeOptionalAccountId context.accountId = context.accountId := by
    have hfield := congrArg DeliveryContext.accountId h
    have hthird := normalizeOptionalAccountId_third context.accountId
    rw [show normalizeOptionalAccountId (normalizeOptionalAccountId context.accountId) =
      context.accountId from hfield] at hthird
    exact hthird
  have hchannel : routeChannel context.channel = context.channel :=
    congrArg DeliveryContext.channel h
  have htarget : normalizeOptionalString context.target = context.target :=
    congrArg DeliveryContext.target h
  have hthread : normalizeOptionalThreadValue context.threadId = context.threadId :=
    congrArg DeliveryContext.threadId h
  rw [normalizeDeliveryContext, DeliveryContext.wrap]
  simp only [hchannel, htarget, haccount, hthread]
  by_cases hempty : context = {}
  · rw [if_pos hempty, hempty, if_pos ⟨rfl, rfl, rfl, rfl⟩]
  · rw [if_neg hempty, if_neg]
    rintro ⟨h₁, h₂, h₃, h₄⟩
    apply hempty
    cases context
    simp only at h₁ h₂ h₃ h₄
    rw [h₁, h₂, h₃, h₄]

theorem normal_join {p f : DeliveryContext} (hp : p.normal = p) (hf : f.normal = f) :
    (p.join f).normal = p.join f := by
  have hor {α : Type} (g : Option α → Option α) {a b : Option α} (ha : g a = a) (hb : g b = b) :
      g (a.or b) = a.or b := by
    cases a with
    | none => exact hb
    | some a => exact ha
  have hpc : routeChannel p.channel = p.channel := congrArg DeliveryContext.channel hp
  have hfc : routeChannel f.channel = f.channel := congrArg DeliveryContext.channel hf
  have hpt : normalizeOptionalString p.target = p.target := congrArg DeliveryContext.target hp
  have hft : normalizeOptionalString f.target = f.target := congrArg DeliveryContext.target hf
  have hpa : normalizeOptionalAccountId (normalizeOptionalAccountId p.accountId) = p.accountId :=
    congrArg DeliveryContext.accountId hp
  have hfa : normalizeOptionalAccountId (normalizeOptionalAccountId f.accountId) = f.accountId :=
    congrArg DeliveryContext.accountId hf
  have hpi : normalizeOptionalThreadValue p.threadId = p.threadId :=
    congrArg DeliveryContext.threadId hp
  have hfi : normalizeOptionalThreadValue f.threadId = f.threadId :=
    congrArg DeliveryContext.threadId hf
  rw [DeliveryContext.join]
  split
  · exact hp
  · simp only [DeliveryContext.normal, hor routeChannel hpc hfc, hor normalizeOptionalString hpt hft,
      hor (fun a => normalizeOptionalAccountId (normalizeOptionalAccountId a)) hpa hfa,
      hor normalizeOptionalThreadValue hpi hfi]

theorem mergeDeliveryContext_eq (hlower : LowerCaseTwice) (hnames : NamesStable)
    (primary fallback : Option DeliveryContext) :
    mergeDeliveryContext primary fallback =
      ((primary.getD {}).normal.join (fallback.getD {}).normal).wrap := by
  have hprimary := getD_normalizeDeliveryContext primary
  have hfallback := getD_normalizeDeliveryContext fallback
  have hnormal := normal_join (normal_normal hlower hnames (primary.getD {}))
    (normal_normal hlower hnames (fallback.getD {}))
  rw [← normalizeDeliveryContext_normal hnormal, mergeDeliveryContext]
  split
  · rename_i hp hf
    rw [hp, Option.getD_none] at hprimary
    rw [hf, Option.getD_none] at hfallback
    rw [← hprimary, ← hfallback]
    exact (normalizeDeliveryContext_normal normal_empty).symm
  · rw [hprimary, hfallback]
    dsimp only
    rw [DeliveryContext.join]
    by_cases hconflict : (primary.getD {}).normal.channel.isSome ∧
        (fallback.getD {}).normal.channel.isSome ∧
          (primary.getD {}).normal.channel ≠ (fallback.getD {}).normal.channel
    · simp only [if_pos hconflict]
      rw [Option.or_of_isSome hconflict.1]
    · simp only [if_neg hconflict]

/-! ## Entries -/

structure SessionEntry.HasRoute (entry : SessionEntry) (route : DeliveryContext) : Prop where
  deliveryContext : entry.deliveryContext.getD {} = route
  lastChannel : entry.lastChannel = route.channel
  lastTo : entry.lastTo = route.target
  lastAccountId : entry.lastAccountId = route.accountId
  lastThreadId : entry.lastThreadId = route.threadId

def SessionEntry.savedRoute (entry : SessionEntry) : DeliveryContext :=
  (DeliveryContext.normal
    { channel := entry.lastChannel.or entry.channel
      target := entry.lastTo
      accountId := entry.lastAccountId
      threadId := (entry.lastThreadId.or (entry.deliveryContext.bind DeliveryContext.threadId)).or
        (entry.origin.bind SessionOrigin.threadId) }).join
    (entry.deliveryContext.getD {}).normal

theorem normalizeSessionDeliveryFields_eq (hlower : LowerCaseTwice) (hnames : NamesStable)
    (source : SessionEntry) :
    normalizeSessionDeliveryFields source =
      ((DeliveryContext.normal
        { channel := source.lastChannel.or source.channel
          target := source.lastTo
          accountId := source.lastAccountId
          threadId := source.lastThreadId }).join
        (source.deliveryContext.getD {}).normal).wrap := by
  rw [normalizeSessionDeliveryFields, mergeDeliveryContext_eq hlower hnames,
    getD_normalizeDeliveryContext, getD_normalizeDeliveryContext, normal_normal hlower hnames,
    normal_normal hlower hnames]
  rfl

theorem normal_savedRoute (hlower : LowerCaseTwice) (hnames : NamesStable)
    (entry : SessionEntry) : entry.savedRoute.normal = entry.savedRoute :=
  normal_join (normal_normal hlower hnames _) (normal_normal hlower hnames _)

/-- A load or a save leaves an entry alone that has its route already, and gives it to the
others. -/
theorem normalizeSessionEntryDelivery_eq (hlower : LowerCaseTwice) (hnames : NamesStable)
    (entry : SessionEntry) :
    (entry.HasRoute entry.savedRoute ∧ normalizeSessionEntryDelivery entry = entry) ∨
    (¬entry.HasRoute entry.savedRoute ∧ normalizeSessionEntryDelivery entry =
      { entry with
        deliveryContext := entry.savedRoute.wrap
        lastChannel := entry.savedRoute.channel
        lastTo := entry.savedRoute.target
        lastAccountId := entry.savedRoute.accountId
        lastThreadId := entry.savedRoute.threadId }) := by
  rw [normalizeSessionEntryDelivery, normalizeSessionDeliveryFields_eq hlower hnames]
  simp only
  have hroute : ((DeliveryContext.normal
      { channel := entry.lastChannel.or entry.channel
        target := entry.lastTo
        accountId := entry.lastAccountId
        threadId := (entry.lastThreadId.or
          (entry.deliveryContext.bind DeliveryContext.threadId)).or
            (entry.origin.bind SessionOrigin.threadId) }).join
      (entry.deliveryContext.getD {}).normal) = entry.savedRoute := rfl
  rw [hroute, getD_wrap]
  split
  · rename_i hsame
    obtain ⟨hdelivery, hchannel, htarget, haccount, hthread⟩ := hsame
    exact Or.inl ⟨⟨hdelivery, hchannel, htarget, haccount, hthread⟩, rfl⟩
  · rename_i hother
    refine Or.inr ⟨?_, rfl⟩
    intro h
    exact hother ⟨h.deliveryContext, h.lastChannel, h.lastTo, h.lastAccountId, h.lastThreadId⟩

theorem hasRoute_normalize (hlower : LowerCaseTwice) (hnames : NamesStable)
    (entry : SessionEntry) :
    (normalizeSessionEntryDelivery entry).HasRoute entry.savedRoute ∧
      (normalizeSessionEntryDelivery entry).channel = entry.channel ∧
      (normalizeSessionEntryDelivery entry).origin = entry.origin := by
  rcases normalizeSessionEntryDelivery_eq hlower hnames entry with ⟨h, heq⟩ | ⟨-, heq⟩
  · rw [heq]
    exact ⟨h, rfl, rfl⟩
  · rw [heq]
    exact ⟨⟨getD_wrap _, rfl, rfl, rfl, rfl⟩, rfl, rfl⟩

theorem settled_iff (hlower : LowerCaseTwice) (hnames : NamesStable) (entry : SessionEntry) :
    normalizeSessionEntryDelivery entry = entry ↔ entry.HasRoute entry.savedRoute := by
  rcases normalizeSessionEntryDelivery_eq hlower hnames entry with ⟨h, heq⟩ | ⟨h, heq⟩
  · exact ⟨fun _ => h, fun _ => heq⟩
  · constructor
    · intro hsame
      have hroute := (hasRoute_normalize hlower hnames entry).1
      rw [hsame] at hroute
      exact absurd hroute h
    · intro hroute
      exact absurd hroute h

omit [UnicodeCase] [ChannelNames] in
theorem map_or {α : Type} (g : Option α → Option α) {a : Option α} (ha : g a = a) (b : Option α) :
    g (a.or b) = a.or (g b) := by
  cases a with
  | none => rfl
  | some a => exact ha

omit [UnicodeCase] [ChannelNames] in
theorem or_eq_left_iff {α : Type} (a b : Option α) : a.or b = a ↔ (a.isSome ∨ b = none) := by
  cases a with
  | none => simp
  | some a => simp

omit [UnicodeCase] [ChannelNames] in
theorem DeliveryContext.join_self_fill (route : DeliveryContext) (channel : Option JsString)
    (accountId : Option JsString) (threadId : Option ThreadId) :
    DeliveryContext.join
      { channel := route.channel.or channel
        target := route.target
        accountId := route.accountId.or accountId
        threadId := route.threadId.or threadId } route =
      { channel := route.channel.or channel
        target := route.target
        accountId := route.accountId.or accountId
        threadId := route.threadId.or threadId } := by
  have hagree : ¬((route.channel.or channel).isSome ∧ route.channel.isSome ∧
      route.channel.or channel ≠ route.channel) := by
    intro ⟨_, hsome, hne⟩
    exact hne (Option.or_of_isSome hsome)
  have hagain {α : Type} (a b : Option α) : (a.or b).or a = a.or b := by
    cases a with
    | none => rw [Option.none_or, Option.or_none]
    | some a => rfl
  rw [DeliveryContext.join, if_neg hagree]
  simp only [hagain, Option.or_self]

omit [UnicodeCase] [ChannelNames] in
theorem threadId_of_getD {context : Option DeliveryContext} {route : DeliveryContext}
    (h : context.getD {} = route) : context.bind DeliveryContext.threadId = route.threadId := by
  cases context with
  | none => rw [← h]; rfl
  | some context => rw [← h]; rfl

theorem savedRoute_of_hasRoute {entry : SessionEntry} {route : DeliveryContext}
    (h : entry.HasRoute route) (hnormal : route.normal = route) :
    entry.savedRoute =
      { route with
        channel := route.channel.or (routeChannel entry.channel)
        threadId := route.threadId.or
          (normalizeOptionalThreadValue (entry.origin.bind SessionOrigin.threadId)) } := by
  have hchannel : routeChannel route.channel = route.channel :=
    congrArg DeliveryContext.channel hnormal
  have hthread : normalizeOptionalThreadValue route.threadId = route.threadId :=
    congrArg DeliveryContext.threadId hnormal
  have htarget : normalizeOptionalString route.target = route.target :=
    congrArg DeliveryContext.target hnormal
  have haccount : normalizeOptionalAccountId (normalizeOptionalAccountId route.accountId) =
      route.accountId := congrArg DeliveryContext.accountId hnormal
  rw [SessionEntry.savedRoute, h.deliveryContext, hnormal, h.lastChannel, h.lastTo,
    h.lastAccountId, h.lastThreadId, threadId_of_getD h.deliveryContext, Option.or_self]
  simp only [DeliveryContext.normal, map_or routeChannel hchannel,
    map_or normalizeOptionalThreadValue hthread, htarget, haccount]
  have hfill := route.join_self_fill (routeChannel entry.channel) none
    (normalizeOptionalThreadValue (entry.origin.bind SessionOrigin.threadId))
  rw [Option.or_none] at hfill
  exact hfill

theorem settled_of_hasRoute (hlower : LowerCaseTwice) (hnames : NamesStable)
    {entry : SessionEntry} {route : DeliveryContext} (h : entry.HasRoute route)
    (hnormal : route.normal = route) :
    normalizeSessionEntryDelivery entry = entry ↔
      (route.channel.isSome ∨ routeChannel entry.channel = none) ∧
        (route.threadId.isSome ∨
          normalizeOptionalThreadValue (entry.origin.bind SessionOrigin.threadId) = none) := by
  rw [settled_iff hlower hnames, savedRoute_of_hasRoute h hnormal, ← or_eq_left_iff,
    ← or_eq_left_iff]
  constructor
  · intro hsaved
    have hchannel := hsaved.lastChannel
    have hthread := hsaved.lastThreadId
    rw [h.lastChannel] at hchannel
    rw [h.lastThreadId] at hthread
    exact ⟨hchannel.symm, hthread.symm⟩
  · intro ⟨hchannel, hthread⟩
    rw [hchannel, hthread]
    exact h

def SessionEntry.ChannelsConflict (entry : SessionEntry) : Prop :=
  (routeChannel (entry.lastChannel.or entry.channel)).isSome ∧
    (routeChannel (entry.deliveryContext.getD {}).channel).isSome ∧
    routeChannel (entry.lastChannel.or entry.channel) ≠
      routeChannel (entry.deliveryContext.getD {}).channel

instance (entry : SessionEntry) : Decidable entry.ChannelsConflict :=
  inferInstanceAs (Decidable (_ ∧ _ ∧ _))

structure SessionEntry.Unblank (entry : SessionEntry) : Prop where
  channel : entry.lastChannel = none ∨ (routeChannel entry.lastChannel).isSome ∨
    (routeChannel (entry.deliveryContext.getD {}).channel).isSome ∨
    routeChannel entry.channel = none
  thread : (entry.lastThreadId = none ∧ (entry.deliveryContext.getD {}).threadId = none) ∨
    (normalizeOptionalThreadValue
      (entry.lastThreadId.or (entry.deliveryContext.getD {}).threadId)).isSome ∨
    ((normalizeOptionalThreadValue (entry.deliveryContext.getD {}).threadId).isSome ∧
      ¬entry.ChannelsConflict) ∨
    normalizeOptionalThreadValue (entry.origin.bind SessionOrigin.threadId) = none

theorem savedRoute_channel (entry : SessionEntry) :
    entry.savedRoute.channel =
      (routeChannel (entry.lastChannel.or entry.channel)).or
        (routeChannel (entry.deliveryContext.getD {}).channel) := by
  rw [SessionEntry.savedRoute, DeliveryContext.join]
  split
  · rename_i hconflict
    exact (Option.or_of_isSome hconflict.1).symm
  · rfl

theorem savedRoute_threadId (entry : SessionEntry) :
    entry.savedRoute.threadId =
      if entry.ChannelsConflict then
        normalizeOptionalThreadValue
          ((entry.lastThreadId.or (entry.deliveryContext.getD {}).threadId).or
            (entry.origin.bind SessionOrigin.threadId))
      else
        (normalizeOptionalThreadValue
          ((entry.lastThreadId.or (entry.deliveryContext.getD {}).threadId).or
            (entry.origin.bind SessionOrigin.threadId))).or
          (normalizeOptionalThreadValue (entry.deliveryContext.getD {}).threadId) := by
  rw [SessionEntry.savedRoute, DeliveryContext.join, threadId_of_getD rfl]
  by_cases hconflict : entry.ChannelsConflict
  · rw [if_pos hconflict]
    exact congrArg DeliveryContext.threadId (if_pos hconflict)
  · rw [if_neg hconflict]
    exact congrArg DeliveryContext.threadId (if_neg hconflict)

/-- A second load or save changes nothing that the first one did not hide behind a blank. -/
theorem normalize_twice_iff (hlower : LowerCaseTwice) (hnames : NamesStable)
    (entry : SessionEntry) :
    normalizeSessionEntryDelivery (normalizeSessionEntryDelivery entry) =
      normalizeSessionEntryDelivery entry ↔ entry.Unblank := by
  obtain ⟨hroute, hchannel, horigin⟩ := hasRoute_normalize hlower hnames entry
  rw [settled_of_hasRoute hlower hnames hroute (normal_savedRoute hlower hnames entry), hchannel,
    horigin]
  have hfirst : (entry.savedRoute.channel.isSome ∨ routeChannel entry.channel = none) ↔
      (entry.lastChannel = none ∨ (routeChannel entry.lastChannel).isSome ∨
        (routeChannel (entry.deliveryContext.getD {}).channel).isSome ∨
        routeChannel entry.channel = none) := by
    rw [savedRoute_channel, Option.isSome_or, Bool.or_eq_true]
    cases entry.lastChannel with
    | none =>
        rw [Option.none_or]
        rcases Option.eq_none_or_eq_some (routeChannel entry.channel) with h | ⟨name, h⟩
        · simp [h]
        · simp [h]
    | some last => simp [or_assoc]
  have hsecond : (entry.savedRoute.threadId.isSome ∨
      normalizeOptionalThreadValue (entry.origin.bind SessionOrigin.threadId) = none) ↔
      ((entry.lastThreadId = none ∧ (entry.deliveryContext.getD {}).threadId = none) ∨
        (normalizeOptionalThreadValue
          (entry.lastThreadId.or (entry.deliveryContext.getD {}).threadId)).isSome ∨
        ((normalizeOptionalThreadValue (entry.deliveryContext.getD {}).threadId).isSome ∧
          ¬entry.ChannelsConflict) ∨
        normalizeOptionalThreadValue (entry.origin.bind SessionOrigin.threadId) = none) := by
    rw [savedRoute_threadId, ← Option.or_eq_none_iff]
    rcases Option.eq_none_or_eq_some
        (entry.lastThreadId.or (entry.deliveryContext.getD {}).threadId) with hno | ⟨id, hid⟩
    · have hcontext := (Option.or_eq_none_iff.mp hno).2
      have hblank : normalizeOptionalThreadValue none = none := rfl
      rw [hno, hcontext, Option.none_or, hblank, Option.or_none, ite_self]
      rcases Option.eq_none_or_eq_some
          (normalizeOptionalThreadValue (entry.origin.bind SessionOrigin.threadId))
        with h | ⟨thread, h⟩
      · simp [h]
      · simp [h]
    · rw [hid, Option.some_or]
      by_cases hconflict : entry.ChannelsConflict
      · simp [hconflict]
      · simp [hconflict, or_assoc]
  constructor
  · intro h
    exact ⟨hfirst.mp h.1, hsecond.mp h.2⟩
  · intro h
    exact ⟨hfirst.mpr h.channel, hsecond.mpr h.thread⟩

end Channels

end GreenchClaw.Sessions
