import GreenchClaw.Gateway.ConfigReloader
import Mathlib.Data.List.Find

/-!
# What a reload plan covers

A leaf at which two configurations differ lies in a changed section: the highest one that one of
them lacks or that is no object in one of them.  The plan follows the rule of the section.
-/

namespace GreenchClaw.Gateway

open GreenchClaw.Js
open GreenchClaw.Config (JsonValue childPath)

section Leaves

variable {N : Type} [DecidableEq N]

def valueAt : Option (JsonValue N) → List JsString → Option (JsonValue N)
  | value, [] => value
  | some (.object entries), key :: rest => valueAt (Record.get entries key) rest
  | _, _ :: _ => none

def leafDiffers : Option (JsonValue N) → Option (JsonValue N) → Bool
  | none, none => false
  | some (.object _), some (.object _) => false
  | some prev, some next => !deepEqual prev next
  | _, _ => true

def changedSection : JsonValue N → JsonValue N → List JsString → List JsString
  | .object prev, .object next, key :: rest =>
      match Record.get prev key, Record.get next key with
      | some a, some b => key :: changedSection a b rest
      | _, _ => [key]
  | _, _, _ => []

def pathOf (keys : List JsString) : JsString := pathText (keys.foldl childPath [])

omit [DecidableEq N] in
theorem valueAt_none (keys : List JsString) : valueAt (none : Option (JsonValue N)) keys = none := by
  cases keys <;> rfl

omit [DecidableEq N] in
theorem changedSection_prefix (prev next : JsonValue N) (keys : List JsString) :
    changedSection prev next keys <+: keys := by
  induction keys generalizing prev next with
  | nil =>
      cases prev <;> cases next <;> exact List.prefix_refl []
  | cons key rest ih =>
      rw [changedSection.eq_def]
      split
      · rename_i heq
        obtain ⟨rfl, rfl⟩ := List.cons.inj heq
        split
        · exact List.cons_prefix_cons.mpr ⟨rfl, ih _ _⟩
        · exact ⟨rest, rfl⟩
      · exact List.nil_prefix

theorem paths_whole (path : JsString) {prev next : JsonValue N}
    (hnot : ∀ xs ys, prev = .object xs → next ≠ .object ys) :
    diffConfigPaths path prev next = if deepEqual prev next = true then [] else [pathText path] := by
  cases prev <;> cases next <;> first
    | rfl
    | exact absurd rfl (hnot _ _ rfl)

theorem not_object_of_deepEqual {prev next : JsonValue N}
    (hnot : ∀ xs ys, prev = .object xs → next ≠ .object ys) (h : deepEqual prev next = true) :
    (∀ xs, prev ≠ .object xs) ∧ ∀ ys, next ≠ .object ys := by
  constructor
  · intro xs hprev
    subst hprev
    cases next <;> first
      | exact absurd h Bool.false_ne_true
      | exact absurd rfl (hnot _ _ rfl)
  · intro ys hnext
    subst hnext
    cases prev <;> first
      | exact absurd h Bool.false_ne_true
      | exact absurd rfl (hnot _ _ rfl)

omit [DecidableEq N] in
theorem valueAt_plain {value : JsonValue N} (h : ∀ entries, value ≠ .object entries) (key : JsString)
    (rest : List JsString) : valueAt (some value) (key :: rest) = none := by
  cases value with
  | object entries => exact absurd rfl (h entries)
  | _ => rfl

omit [DecidableEq N] in
theorem changedSection_whole {prev next : JsonValue N}
    (hnot : ∀ xs ys, prev = .object xs → next ≠ .object ys) (keys : List JsString) :
    changedSection prev next keys = [] := by
  rw [changedSection.eq_def]
  split
  · exact absurd rfl (hnot _ _ rfl)
  · rfl

theorem section_reported (path : JsString) {prev next : JsonValue N} {keys : List JsString}
    (h : leafDiffers (valueAt (some prev) keys) (valueAt (some next) keys) = true) :
    pathText ((changedSection prev next keys).foldl childPath path) ∈
      diffConfigPaths path prev next := by
  induction keys generalizing prev next path with
  | nil =>
      have hnot : ∀ xs ys, prev = .object xs → next ≠ .object ys := by
        intro xs ys hxs hys
        rw [hxs, hys] at h
        exact absurd h Bool.false_ne_true
      have hdiffers : deepEqual prev next = false := by
        rw [valueAt, valueAt, leafDiffers.eq_def] at h
        split at h
        · exact absurd h Bool.false_ne_true
        · exact absurd h Bool.false_ne_true
        · rename_i hprev hnext
          rw [← Option.some.inj hprev, ← Option.some.inj hnext] at h
          exact (Bool.not_eq_true' _).mp h
        · rename_i hsome
          exact absurd rfl (hsome prev next rfl)
      rw [changedSection_whole hnot, paths_whole path hnot, hdiffers]
      exact List.mem_singleton.mpr rfl
  | cons key rest ih =>
      by_cases hobjects : ∃ xs ys, prev = .object xs ∧ next = .object ys
      · obtain ⟨xs, ys, rfl, rfl⟩ := hobjects
        rw [valueAt, valueAt] at h
        rw [diffConfigPaths, changedSection]
        cases hx : Record.get xs key with
        | none =>
            cases hy : Record.get ys key with
            | none =>
                rw [hx, hy, valueAt_none] at h
                exact absurd h (by simp [leafDiffers])
            | some y =>
                apply List.mem_append_right
                apply List.mem_map.mpr
                have hmem := Record.mem_of_get hy
                exact ⟨(key, y), List.mem_filter.mpr ⟨hmem, by simp [hx]⟩, rfl⟩
        | some x =>
            have hmem := Record.mem_of_get hx
            apply List.mem_append_left
            cases hy : Record.get ys key with
            | none => exact mem_diffEntries hmem (by simp [hy])
            | some y =>
                rw [hx, hy] at h
                exact mem_diffEntries hmem (by rw [hy]; exact ih (childPath path key) h)
      · have hnot : ∀ xs ys, prev = .object xs → next ≠ .object ys := by
          intro xs ys hxs hys
          exact hobjects ⟨xs, ys, hxs, hys⟩
        have hdiffers : deepEqual prev next = false := by
          by_contra hequal
          obtain ⟨hprev, hnext⟩ := not_object_of_deepEqual hnot (eq_true_of_ne_false hequal)
          rw [valueAt_plain hprev, valueAt_plain hnext] at h
          exact absurd h Bool.false_ne_true
        rw [changedSection_whole hnot, paths_whole path hnot, hdiffers]
        exact List.mem_singleton.mpr rfl

theorem mem_of_diffEntries {path : JsString} {prev : List (JsString × JsonValue N)}
    {next : Record (JsonValue N)} {text : JsString} (h : text ∈ diffEntries path prev next) :
    ∃ key value, (key, value) ∈ prev ∧ text ∈ match next.get key with
      | none => [pathText (childPath path key)]
      | some other => diffConfigPaths (childPath path key) value other := by
  induction prev with
  | nil => exact absurd h List.not_mem_nil
  | cons head rest ih =>
      obtain ⟨key, value⟩ := head
      rw [diffEntries] at h
      rcases List.mem_append.mp h with hhead | hrest
      · exact ⟨key, value, List.mem_cons_self, hhead⟩
      · obtain ⟨key', value', hmem, htext⟩ := ih hrest
        exact ⟨key', value', List.mem_cons_of_mem _ hmem, htext⟩

theorem section_whole (path : JsString) {prev next : JsonValue N}
    (hnot : ∀ xs ys, prev = .object xs → next ≠ .object ys) {text : JsString}
    (h : text ∈ diffConfigPaths path prev next) :
    ∃ keys, leafDiffers (valueAt (some prev) keys) (valueAt (some next) keys) = true ∧
      changedSection prev next keys = keys ∧ text = pathText (keys.foldl childPath path) := by
  rw [paths_whole path hnot] at h
  cases hequal : deepEqual prev next with
  | true => simp [hequal] at h
  | false =>
      rw [hequal, if_neg Bool.false_ne_true, List.mem_singleton] at h
      refine ⟨[], ?_, changedSection_whole hnot [], h⟩
      cases prev <;> cases next <;> first
        | exact absurd rfl (hnot _ _ rfl)
        | simpa [valueAt, leafDiffers] using hequal

theorem section_of_reported (path : JsString) {prev next : JsonValue N} (hprev : prev.distinctKeys)
    (hnext : next.distinctKeys) {text : JsString} (h : text ∈ diffConfigPaths path prev next) :
    ∃ keys, leafDiffers (valueAt (some prev) keys) (valueAt (some next) keys) = true ∧
      changedSection prev next keys = keys ∧ text = pathText (keys.foldl childPath path) := by
  induction prev using JsonValue.induction generalizing path next with
  | object xs ih =>
      cases next with
      | object ys =>
          rw [JsonValue.distinctKeys] at hprev hnext
          rw [diffConfigPaths] at h
          have hvalue : ∀ key rest, leafDiffers (valueAt (some (.object xs)) (key :: rest))
              (valueAt (some (.object ys)) (key :: rest)) =
                leafDiffers (valueAt (Record.get xs key) rest) (valueAt (Record.get ys key) rest) :=
            fun _ _ => rfl
          rcases List.mem_append.mp h with hentries | hadded
          · obtain ⟨key, x, hmem, htext⟩ := mem_of_diffEntries hentries
            have hx : Record.get xs key = some x := Record.get_of_mem hprev.1 hmem
            cases hy : Record.get ys key with
            | none =>
                rw [hy, List.mem_singleton] at htext
                refine ⟨[key], ?_, by simp [changedSection, hx, hy], htext⟩
                rw [hvalue, hx, hy]
                cases x <;> rfl
            | some y =>
                rw [hy] at htext
                obtain ⟨keys, hdiffers, hsection, hpath⟩ := ih (key, x) hmem (childPath path key)
                  (distinctKeys_of_mem_entries hprev.2 hmem)
                  (distinctKeys_of_mem_entries hnext.2 (Record.mem_of_get hy)) htext
                refine ⟨key :: keys, ?_, by simp [changedSection, hx, hy, hsection], hpath⟩
                rw [hvalue, hx, hy]
                exact hdiffers
          · obtain ⟨⟨key, y⟩, hmem, htext⟩ := List.mem_map.mp hadded
            obtain ⟨hmem, hnone⟩ := List.mem_filter.mp hmem
            have hx : Record.get xs key = none := Option.isNone_iff_eq_none.mp hnone
            have hy : Record.get ys key = some y := Record.get_of_mem hnext.1 hmem
            refine ⟨[key], ?_, by simp [changedSection, hx], htext.symm⟩
            rw [hvalue, hx, hy]
            cases y <;> rfl
      | _ => exact section_whole path (by simp) h
  | _ => exact section_whole path (by simp) h

end Leaves

/-! ## Rules -/

def ReloadRule.matchesPath (rule : ReloadRule) (path : JsString) : Bool :=
  path = rule.path || (rule.path ++ js ".").isPrefixOf path

theorem foldl_childPath (keys : List JsString) {path : JsString} (hne : path ≠ []) :
    keys.foldl childPath path = path ∨ path ++ js "." <+: keys.foldl childPath path := by
  induction keys generalizing path with
  | nil => exact Or.inl rfl
  | cons key rest ih =>
      right
      have hchild : childPath path key = path ++ js "." ++ key := if_neg hne
      have hnonempty : path ++ js "." ++ key ≠ [] := by simp [hne]
      rw [List.foldl_cons, hchild]
      have hstart : path ++ js "." <+: path ++ js "." ++ key := List.prefix_append _ _
      rcases ih hnonempty with hsame | hbelow
      · rw [hsame]
        exact hstart
      · exact hstart.trans ((List.prefix_append _ _).trans hbelow)

theorem matchesPath_below {rule : ReloadRule} {keys rest : List JsString}
    (hne : keys.foldl childPath [] ≠ []) (h : rule.matchesPath (pathOf keys) = true) :
    rule.matchesPath (pathOf (keys ++ rest)) = true := by
  have hsection : pathOf keys = keys.foldl childPath [] := if_neg hne
  rcases foldl_childPath rest hne with hsame | hbelow
  · rw [pathOf, List.foldl_append, hsame]
    exact h
  · have hleaf : pathOf (keys ++ rest) = rest.foldl childPath (keys.foldl childPath []) := by
      rw [pathOf, List.foldl_append, pathText, if_neg]
      intro hnil
      rw [hnil] at hbelow
      exact absurd (List.prefix_nil.mp hbelow) (by simp [js])
    rw [hsection] at h
    rw [hleaf]
    simp only [ReloadRule.matchesPath, Bool.or_eq_true, decide_eq_true_eq,
      List.isPrefixOf_iff_prefix] at h ⊢
    right
    rcases h with hrule | hrule
    · rw [← hrule]
      exact hbelow
    · exact hrule.trans ((List.prefix_append _ _).trans hbelow)

theorem matchRule_below {rules : List ReloadRule} {keys rest : List JsString}
    (hne : keys.foldl childPath [] ≠ [])
    (hbetween : ∀ rule ∈ rules, rule.matchesPath (pathOf (keys ++ rest)) = true →
      rule.matchesPath (pathOf keys) = true) :
    matchRule rules (pathOf (keys ++ rest)) = matchRule rules (pathOf keys) := by
  apply List.find?_congr
  intro rule hrule
  rw [Bool.eq_iff_iff]
  exact ⟨hbetween rule hrule, matchesPath_below hne⟩

/-! ## The plan -/

def asksRestart (rules : List ReloadRule) (path : JsString) : Bool :=
  (matchRule rules path).all fun rule => rule.kind = .restart

def hotActions (rules : List ReloadRule) (path : JsString) : List ReloadAction :=
  match matchRule rules path with
  | none => []
  | some rule => if rule.kind = .hot then rule.actions else []

inductive PathClass where
  | restart
  | noop
  | hot (actions : List ReloadAction)
  deriving DecidableEq

def PathClass.isHot : PathClass → Bool
  | .hot _ => true
  | _ => false

def classOf (rules : List ReloadRule) (noopPaths forceChangedPaths : List JsString)
    (path : JsString) : PathClass :=
  if !forceChangedPaths.contains path &&
      (if noopPaths.isEmpty then isPluginInstallTimestampPath path
        else noopPaths.contains path) then .noop
  else
    match matchRule rules path with
    | none => .restart
    | some rule =>
        match rule.kind with
        | .restart => .restart
        | .none => .noop
        | .hot => .hot rule.actions

namespace GatewayReloadPlan

def performs (plan : GatewayReloadPlan) : ReloadAction → Bool
  | .reloadHooks => plan.reloadHooks
  | .restartGmailWatcher => plan.restartGmailWatcher
  | .restartCron => plan.restartCron
  | .restartHeartbeat => plan.restartHeartbeat
  | .restartHealthMonitor => plan.restartHealthMonitor
  | .reloadPlugins => plan.reloadPlugins
  | .disposeMcpRuntimes => plan.disposeMcpRuntimes
  | .restartChannel channel => plan.restartChannels.contains channel

theorem performs_reasons (plan : GatewayReloadPlan) (restartReasons hotReasons noopPaths : List JsString)
    (restartGateway : Bool) :
    ({ plan with restartGateway, restartReasons, hotReasons, noopPaths } :
      GatewayReloadPlan).performs = plan.performs := by
  ext action
  cases action <;> rfl

theorem performs_applyActions_iff (plan : GatewayReloadPlan) (actions : List ReloadAction)
    (action : ReloadAction) :
    (actions.foldl applyAction plan).performs action = true ↔
      plan.performs action = true ∨ action ∈ actions := by
  induction actions generalizing plan with
  | nil => simp
  | cons first rest ih =>
      have hfirst : (plan.applyAction first).performs action = true ↔
          plan.performs action = true ∨ action = first := by
        cases first <;> cases action <;> simp [applyAction, performs, or_comm]
      rw [List.foldl_cons, ih, hfirst, List.mem_cons, or_assoc]

theorem applyActions_reasons (plan : GatewayReloadPlan) (actions : List ReloadAction) :
    (actions.foldl applyAction plan).restartGateway = plan.restartGateway ∧
      (actions.foldl applyAction plan).restartReasons = plan.restartReasons ∧
      (actions.foldl applyAction plan).hotReasons = plan.hotReasons ∧
      (actions.foldl applyAction plan).noopPaths = plan.noopPaths := by
  induction actions generalizing plan with
  | nil => exact ⟨rfl, rfl, rfl, rfl⟩
  | cons first rest ih =>
      rw [List.foldl_cons]
      obtain ⟨hrestart, hreasons, hhot, hnoop⟩ := ih (plan.applyAction first)
      rw [hrestart, hreasons, hhot, hnoop]
      cases first <;> exact ⟨rfl, rfl, rfl, rfl⟩

def Asked (classed : JsString → PathClass) (paths : List JsString) (action : ReloadAction) : Prop :=
  ∃ path ∈ paths, ∃ actions, classed path = .hot actions ∧ action ∈ actions

structure Adds (classed : JsString → PathClass) (paths : List JsString)
    (plan built : GatewayReloadPlan) : Prop where
  reasons : built.restartReasons = plan.restartReasons ++ paths.filter (classed · = .restart)
  hots : built.hotReasons = plan.hotReasons ++ paths.filter fun path => (classed path).isHot
  noops : built.noopPaths = plan.noopPaths ++ paths.filter (classed · = .noop)
  restart : built.restartGateway = true ↔
    plan.restartGateway = true ∨ ∃ path ∈ paths, classed path = .restart
  actions : ∀ action, built.performs action = true ↔
    plan.performs action = true ∨ Asked classed paths action

variable {classed : JsString → PathClass}

theorem Adds.append {paths others : List JsString} {plan middle built : GatewayReloadPlan}
    (h : Adds classed paths plan middle) (h' : Adds classed others middle built) :
    Adds classed (paths ++ others) plan built where
  reasons := by rw [h'.reasons, h.reasons, List.filter_append, List.append_assoc]
  hots := by rw [h'.hots, h.hots, List.filter_append, List.append_assoc]
  noops := by rw [h'.noops, h.noops, List.filter_append, List.append_assoc]
  restart := by
    rw [h'.restart, h.restart, or_assoc]
    simp only [List.mem_append, or_and_right, exists_or]
  actions action := by
    rw [h'.actions, h.actions, or_assoc]
    simp only [Asked, List.mem_append, or_and_right, exists_or]

theorem addPath_class (rules : List ReloadRule) (noopPaths forceChangedPaths : List JsString)
    (plan : GatewayReloadPlan) (path : JsString) :
    plan.addPath rules noopPaths forceChangedPaths path =
      match classOf rules noopPaths forceChangedPaths path with
      | .restart => plan.requireRestart path
      | .noop => { plan with noopPaths := plan.noopPaths ++ [path] }
      | .hot actions =>
          actions.foldl applyAction { plan with hotReasons := plan.hotReasons ++ [path] } := by
  unfold addPath classOf
  generalize (!forceChangedPaths.contains path && if noopPaths.isEmpty = true then
    isPluginInstallTimestampPath path else noopPaths.contains path) = stamp
  cases stamp with
  | true => rfl
  | false =>
      simp only [Bool.false_eq_true, if_false]
      cases matchRule rules path with
      | none => rfl
      | some rule => cases hkind : rule.kind <;> simp only [hkind]

theorem adds_addPath (rules : List ReloadRule) (noopPaths forceChangedPaths : List JsString)
    (plan : GatewayReloadPlan) (path : JsString) :
    Adds (classOf rules noopPaths forceChangedPaths) [path] plan
      (plan.addPath rules noopPaths forceChangedPaths path) := by
  rw [addPath_class]
  cases hclass : classOf rules noopPaths forceChangedPaths path with
  | restart =>
      have hperforms : (plan.requireRestart path).performs = plan.performs :=
        performs_reasons plan _ _ _ _
      constructor <;> simp [hclass, PathClass.isHot, Asked, hperforms] <;> rfl
  | noop =>
      have hperforms : GatewayReloadPlan.performs { plan with noopPaths := plan.noopPaths ++ [path] } =
          plan.performs := performs_reasons plan _ _ _ _
      constructor <;> simp [hclass, PathClass.isHot, Asked, hperforms]
  | hot actions =>
      have hperforms : GatewayReloadPlan.performs { plan with hotReasons := plan.hotReasons ++ [path] } =
          plan.performs := performs_reasons plan _ _ _ _
      obtain ⟨hgateway, hreasons, hhot, hnoop⟩ := applyActions_reasons
        { plan with hotReasons := plan.hotReasons ++ [path] } actions
      constructor <;> simp [hclass, PathClass.isHot, Asked, hgateway, hreasons, hhot, hnoop,
        performs_applyActions_iff, hperforms]

theorem adds_addPaths (rules : List ReloadRule) (noopPaths forceChangedPaths paths : List JsString)
    (plan : GatewayReloadPlan) :
    Adds (classOf rules noopPaths forceChangedPaths) paths plan
      (paths.foldl (addPath rules noopPaths forceChangedPaths) plan) := by
  induction paths generalizing plan with
  | nil => constructor <;> simp [Asked]
  | cons path paths ih =>
      exact (adds_addPath rules noopPaths forceChangedPaths plan path).append (ih _)

structure Follows (rules : List ReloadRule) (path : JsString) (plan : GatewayReloadPlan) : Prop where
  restarts : (matchRule rules path).all (fun rule => rule.kind = .restart) = true →
    plan.restartGateway = true
  acts : ∀ rule, matchRule rules path = some rule → rule.kind = .hot →
    ∀ action ∈ rule.actions, plan.performs action = true

end GatewayReloadPlan

theorem classOf_eq_restart_iff {rules : List ReloadRule} {path : JsString} :
    classOf rules [] [] path = .restart ↔
      isPluginInstallTimestampPath path = false ∧ asksRestart rules path = true := by
  rw [classOf, asksRestart]
  cases hstamp : isPluginInstallTimestampPath path with
  | true => simp
  | false =>
      cases matchRule rules path with
      | none => simp
      | some rule => cases hkind : rule.kind <;> simp [hkind]

theorem classOf_hot_iff {rules : List ReloadRule} {path : JsString} {action : ReloadAction} :
    (∃ actions, classOf rules [] [] path = .hot actions ∧ action ∈ actions) ↔
      isPluginInstallTimestampPath path = false ∧ action ∈ hotActions rules path := by
  rw [classOf, hotActions]
  cases hstamp : isPluginInstallTimestampPath path with
  | true => simp
  | false =>
      cases matchRule rules path with
      | none => simp
      | some rule => cases hkind : rule.kind <;> simp [hkind]

section Build

variable {rules : List ReloadRule} {paths noopPaths forceChangedPaths : List JsString}

/-- The last lines of the builder touch the hooks only. -/
theorem build_fields :
    let plan := buildGatewayReloadPlan rules paths noopPaths forceChangedPaths
    let built := paths.foldl (GatewayReloadPlan.addPath rules noopPaths forceChangedPaths)
      { changedPaths := paths }
    plan.restartGateway = built.restartGateway ∧ plan.restartReasons = built.restartReasons ∧
      plan.hotReasons = built.hotReasons ∧ plan.noopPaths = built.noopPaths := by
  intro plan built
  have hplan : plan = buildGatewayReloadPlan rules paths noopPaths forceChangedPaths := rfl
  rw [hplan, buildGatewayReloadPlan]
  split <;> exact ⟨rfl, rfl, rfl, rfl⟩

theorem restart_build_iff :
    (buildGatewayReloadPlan rules paths noopPaths forceChangedPaths).restartGateway = true ↔
      ∃ path ∈ paths, classOf rules noopPaths forceChangedPaths path = .restart := by
  have hadds := GatewayReloadPlan.adds_addPaths rules noopPaths forceChangedPaths paths
    { changedPaths := paths }
  rw [build_fields.1, hadds.restart]
  exact or_iff_right Bool.false_ne_true

/-- Each changed path is named once for what it asks for, in its order. -/
theorem reasons_build :
    let plan := buildGatewayReloadPlan rules paths noopPaths forceChangedPaths
    let classed := classOf rules noopPaths forceChangedPaths
    plan.restartReasons = paths.filter (classed · = .restart) ∧
      plan.hotReasons = (paths.filter fun path => (classed path).isHot) ∧
      plan.noopPaths = paths.filter (classed · = .noop) := by
  have hadds := GatewayReloadPlan.adds_addPaths rules noopPaths forceChangedPaths paths
    { changedPaths := paths }
  obtain ⟨_, hrestarts, hhots, hnoops⟩ := @build_fields rules paths noopPaths forceChangedPaths
  exact ⟨hrestarts.trans hadds.reasons, hhots.trans hadds.hots, hnoops.trans hadds.noops⟩

theorem performs_build_iff (action : ReloadAction) :
    (buildGatewayReloadPlan rules paths noopPaths forceChangedPaths).performs action = true ↔
      GatewayReloadPlan.Asked (classOf rules noopPaths forceChangedPaths) paths action ∨
        action = .reloadHooks ∧ GatewayReloadPlan.Asked (classOf rules noopPaths forceChangedPaths) paths
          .restartGmailWatcher := by
  have hadds := GatewayReloadPlan.adds_addPaths rules noopPaths forceChangedPaths paths
    { changedPaths := paths }
  have hasked : ∀ action, (paths.foldl (GatewayReloadPlan.addPath rules noopPaths
      forceChangedPaths) { changedPaths := paths }).performs action = true ↔
        GatewayReloadPlan.Asked (classOf rules noopPaths forceChangedPaths) paths action := by
    intro action
    rw [hadds.actions]
    exact or_iff_right (by cases action <;> exact Bool.false_ne_true)
  rw [← hasked, ← hasked, buildGatewayReloadPlan]
  generalize paths.foldl _ _ = built
  cases hwatcher : built.restartGmailWatcher <;>
    cases action <;> simp [hwatcher, GatewayReloadPlan.performs]

theorem follows_build {path : JsString} (hpath : path ∈ paths)
    (hstamp : isPluginInstallTimestampPath path = false) :
    GatewayReloadPlan.Follows rules path (buildGatewayReloadPlan rules paths [] []) := by
  constructor
  · intro hrule
    refine restart_build_iff.mpr ⟨path, hpath, ?_⟩
    cases hmatch : matchRule rules path with
    | none => simp [classOf, hstamp, hmatch]
    | some rule =>
        rw [hmatch, Option.all_some, decide_eq_true_eq] at hrule
        simp [classOf, hstamp, hmatch, hrule]
  · intro rule hmatch hhot action haction
    refine (performs_build_iff action).mpr (Or.inl ⟨path, hpath, rule.actions, ?_, haction⟩)
    simp [classOf, hstamp, hmatch, hhot]

end Build

/-! ## The leaves -/

section Coverage

variable {N : Type} [DecidableEq N]

def planFor (registry : ReloadRegistry) (prev next : JsonValue N) : GatewayReloadPlan :=
  buildGatewayReloadPlan (listReloadRules registry) (diffConfigPaths [] prev next) [] []

/-- For every leaf at which two configurations differ the plan follows the rule of its changed
section, which is the rule of the leaf where no rule lies between them. -/
theorem leaf_follows_section (registry : ReloadRegistry) (prev next : JsonValue N)
    (keys : List JsString)
    (hdiffers : leafDiffers (valueAt (some prev) keys) (valueAt (some next) keys) = true)
    (hstamp : isPluginInstallTimestampPath (pathOf (changedSection prev next keys)) = false) :
    changedSection prev next keys <+: keys ∧
      GatewayReloadPlan.Follows (listReloadRules registry) (pathOf (changedSection prev next keys))
        (planFor registry prev next) ∧
      ((changedSection prev next keys).foldl childPath [] ≠ [] →
        (∀ rule ∈ listReloadRules registry, rule.matchesPath (pathOf keys) = true →
          rule.matchesPath (pathOf (changedSection prev next keys)) = true) →
        GatewayReloadPlan.Follows (listReloadRules registry) (pathOf keys)
          (planFor registry prev next)) := by
  have hreported := section_reported [] hdiffers
  have hfollows : GatewayReloadPlan.Follows (listReloadRules registry)
      (pathOf (changedSection prev next keys)) (planFor registry prev next) :=
    follows_build hreported hstamp
  have hstart := changedSection_prefix prev next keys
  refine ⟨hstart, hfollows, ?_⟩
  intro hne hbetween
  obtain ⟨rest, hrest⟩ := hstart
  rw [← hrest] at hbetween ⊢
  -- the leaf below its section has the rule of the section
  have hsection : changedSection prev next (changedSection prev next keys ++ rest) =
      changedSection prev next keys := by rw [hrest]
  rw [hsection] at hbetween
  have hsame := matchRule_below hne hbetween
  exact ⟨fun hrule => hfollows.restarts (hsame ▸ hrule),
    fun rule hrule => hfollows.acts rule (hsame ▸ hrule)⟩

def Differs (prev next : JsonValue N) (keys : List JsString) : Prop :=
  leafDiffers (valueAt (some prev) keys) (valueAt (some next) keys) = true

instance (prev next : JsonValue N) (keys : List JsString) : Decidable (Differs prev next keys) :=
  inferInstanceAs (Decidable (_ = true))

/-- The claim of the leaves: a leaf that asks for a restart gets it, and where no leaf does, each has
the actions of its rule performed. -/
structure PlanCovers (rules : List ReloadRule) (prev next : JsonValue N) (plan : GatewayReloadPlan) :
    Prop where
  restarts : (∃ keys, Differs prev next keys ∧ asksRestart rules (pathOf keys) = true) →
    plan.restartGateway = true
  acts : (∀ keys, Differs prev next keys → asksRestart rules (pathOf keys) = false) →
    ∀ keys, Differs prev next keys → ∀ action ∈ hotActions rules (pathOf keys),
      plan.performs action = true

def SpeaksFor (prev next : JsonValue N) (section_ : JsString) : Prop :=
  ∃ keys, Differs prev next keys ∧ pathOf (changedSection prev next keys) = section_ ∧
    isPluginInstallTimestampPath section_ = false

structure SectionsCover (rules : List ReloadRule) (prev next : JsonValue N) : Prop where
  restarts : (∃ keys, Differs prev next keys ∧ asksRestart rules (pathOf keys) = true) →
    ∃ path, SpeaksFor prev next path ∧ asksRestart rules path = true
  acts : (∀ keys, Differs prev next keys → asksRestart rules (pathOf keys) = false) →
    ∀ keys, Differs prev next keys → ∀ action ∈ hotActions rules (pathOf keys),
      ∃ path, SpeaksFor prev next path ∧ (action ∈ hotActions rules path ∨
        action = .reloadHooks ∧ .restartGmailWatcher ∈ hotActions rules path)

section Exact

variable {prev next : JsonValue N} (hprev : prev.distinctKeys) (hnext : next.distinctKeys)

include hprev hnext

theorem speaksFor_iff {path : JsString} :
    SpeaksFor prev next path ↔
      path ∈ diffConfigPaths [] prev next ∧ isPluginInstallTimestampPath path = false := by
  constructor
  · rintro ⟨keys, hdiffers, rfl, hstamp⟩
    exact ⟨section_reported [] hdiffers, hstamp⟩
  · rintro ⟨hreported, hstamp⟩
    obtain ⟨keys, hdiffers, hsection, hpath⟩ := section_of_reported [] hprev hnext hreported
    exact ⟨keys, hdiffers, by rw [hsection, hpath]; rfl, hstamp⟩

theorem restart_planFor_iff (registry : ReloadRegistry) :
    (planFor registry prev next).restartGateway = true ↔
      ∃ path, SpeaksFor prev next path ∧ asksRestart (listReloadRules registry) path = true := by
  rw [planFor, restart_build_iff]
  simp only [speaksFor_iff hprev hnext, classOf_eq_restart_iff, and_assoc]

theorem performs_planFor_iff (registry : ReloadRegistry) (action : ReloadAction) :
    (planFor registry prev next).performs action = true ↔
      ∃ path, SpeaksFor prev next path ∧ (action ∈ hotActions (listReloadRules registry) path ∨
        action = .reloadHooks ∧ .restartGmailWatcher ∈ hotActions (listReloadRules registry) path) := by
  rw [planFor, performs_build_iff]
  simp only [GatewayReloadPlan.Asked, classOf_hot_iff, speaksFor_iff hprev hnext]
  constructor
  · rintro (⟨path, hpath, hstamp, haction⟩ | ⟨rfl, path, hpath, hstamp, haction⟩)
    · exact ⟨path, ⟨hpath, hstamp⟩, Or.inl haction⟩
    · exact ⟨path, ⟨hpath, hstamp⟩, Or.inr ⟨rfl, haction⟩⟩
  · rintro ⟨path, ⟨hpath, hstamp⟩, haction | ⟨rfl, haction⟩⟩
    · exact Or.inl ⟨path, hpath, hstamp, haction⟩
    · exact Or.inr ⟨rfl, path, hpath, hstamp, haction⟩

/-- The plan covers every leaf exactly when the changed sections ask for what the leaves ask for. -/
theorem plan_covers_iff (registry : ReloadRegistry) :
    PlanCovers (listReloadRules registry) prev next (planFor registry prev next) ↔
      SectionsCover (listReloadRules registry) prev next := by
  have hrestart := restart_planFor_iff hprev hnext registry
  have hperforms := performs_planFor_iff hprev hnext registry
  constructor
  · intro hcovers
    constructor
    · exact fun hleaf => hrestart.mp (hcovers.restarts hleaf)
    · intro hnone keys hdiffers action haction
      exact (hperforms action).mp (hcovers.acts hnone keys hdiffers action haction)
  · intro hsections
    constructor
    · exact fun hleaf => hrestart.mpr (hsections.restarts hleaf)
    · intro hnone keys hdiffers action haction
      exact (hperforms action).mpr (hsections.acts hnone keys hdiffers action haction)

end Exact

end Coverage

/-! ## Sections that are added -/

def withField (key : String) (value : JsonValue ℤ) : JsonValue ℤ := .object [(js key, value)]

theorem cron_follows_section :
    GatewayReloadPlan.Follows (listReloadRules {}) (js "cron")
      (planFor {} (.object []) (withField "cron" (withField "enabled" (.bool true)))) :=
  (leaf_follows_section {} (.object []) (withField "cron" (withField "enabled" (.bool true)))
    [js "cron", js "enabled"] (by decide +kernel) (by decide +kernel)).2.1

theorem plan_covers_iff_cron :
    PlanCovers (listReloadRules {}) (.object []) (withField "cron" (.bool true))
      (planFor {} (.object []) (withField "cron" (.bool true))) := by
  have hkeys : ∀ keys, Differs (.object []) (withField "cron" (.bool true)) keys →
      keys = [js "cron"] := by
    intro keys hdiffers
    cases keys with
    | nil => exact absurd hdiffers Bool.false_ne_true
    | cons key rest =>
        rw [Differs, withField, valueAt, valueAt, Record.get_cons] at hdiffers
        split at hdiffers
        · rename_i hkey
          cases rest with
          | nil => rw [hkey]
          | cons _ _ => exact absurd hdiffers Bool.false_ne_true
        · rw [show Record.get [] key = (none : Option (JsonValue ℤ)) from rfl, valueAt_none] at hdiffers
          exact absurd hdiffers Bool.false_ne_true
  have hprev : (JsonValue.object [] : JsonValue ℤ).distinctKeys := by
    simp [JsonValue.distinctKeys, Config.distinctKeysEntries]
  have hnext : (withField "cron" (.bool true)).distinctKeys := by
    simp [JsonValue.distinctKeys, Config.distinctKeysEntries, withField]
  refine (plan_covers_iff hprev hnext {}).mpr ⟨?_, ?_⟩
  · rintro ⟨keys, hdiffers, hasks⟩
    rw [hkeys keys hdiffers] at hasks
    exact absurd hasks (by decide +kernel)
  · intro _ keys hdiffers action haction
    rw [hkeys keys hdiffers] at haction
    exact ⟨js "cron", ⟨[js "cron"], by decide +kernel, by decide +kernel, by decide +kernel⟩,
      Or.inl haction⟩

/-- A section of models with prices is added: the prices ask for a restart, the section does not. -/
theorem pricing_added :
    ¬ PlanCovers (listReloadRules {}) (.object [])
      (withField "models" (withField "pricing" (withField "enabled" (.bool true))))
      (planFor {} (.object [])
        (withField "models" (withField "pricing" (withField "enabled" (.bool true))))) := by
  intro hcovers
  have hrestart := hcovers.restarts ⟨[js "models", js "pricing", js "enabled"],
    by decide +kernel, by decide +kernel⟩
  exact absurd hrestart (by decide +kernel)

end GreenchClaw.Gateway
