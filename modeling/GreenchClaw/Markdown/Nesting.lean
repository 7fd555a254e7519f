import GreenchClaw.Markdown.Render

/-!
# When the markers nest

The sweep closes a span only when it is on top of the stack at its end.  Spans that nest are on
top in time; a span that is crossed by a later one is buried at its end and stays open.
-/

namespace GreenchClaw.Markdown

open GreenchClaw.Js BracketToken

/-! ## The stack at the end of the sweep -/

section Sweep

variable (ir : MarkdownIR) (options : RenderOptions)

def finalStack : List ℕ → List OpeningItem → List OpeningItem
  | [], stack => stack
  | pos :: rest, stack =>
      finalStack rest
        ((openingItems ir options pos).reverse ++ stack.dropWhile fun item => item.end_ = pos)

theorem openAfter_sweep (pts : List ℕ) (stack : List OpeningItem) :
    openAfter stack (sweep ir options pts stack) =
      some (finalStack ir options pts stack) := by
  induction pts generalizing stack with
  | nil => rfl
  | cons pos rest ih =>
      have hclosed := @openAfter_closing _ JsString _
        (stack.takeWhile fun item => item.end_ = pos) (stack.dropWhile fun item => item.end_ = pos)
      rw [List.takeWhile_append_dropWhile] at hclosed
      rw [sweep, List.append_assoc, List.append_assoc, openAfter_append hclosed,
        openAfter_append (openAfter_opening _ _), finalStack, ← ih]
      cases rest <;> rfl

theorem flatten_leaves_sweep {pts : List ℕ} (hsorted : pts.Pairwise (· < ·))
    (hle : ∀ p ∈ pts, p ≤ ir.text.length) (hlast : ir.text.length ∈ pts)
    (stack : List OpeningItem) :
    (leaves (sweep ir options pts stack)).flatten = ir.text.drop (pts.headD 0) := by
  have hmarkers : ∀ (closed opened : List OpeningItem) (tokens : List (BracketToken OpeningItem JsString)),
      leaves (closed.map .closing ++ opened.map .opening ++ tokens) =
        leaves tokens := by
    intro closed opened tokens
    rw [leaves_append, leaves_append]
    simp [leaves, List.filterMap_map]
  induction pts generalizing stack with
  | nil => cases hlast
  | cons pos rest ih =>
      rw [sweep, List.append_assoc, hmarkers]
      cases rest with
      | nil =>
          obtain rfl : ir.text.length = pos := List.mem_singleton.mp hlast
          simp [sweep, pieceFrom, leaves]
      | cons next rest =>
          obtain ⟨hfirst, htail⟩ := List.pairwise_cons.mp hsorted
          have hpos : pos < next := hfirst next List.mem_cons_self
          have hlater : ir.text.length ∈ next :: rest := by
            rcases List.mem_cons.mp hlast with heq | hmem
            · have hnext := hle next (List.mem_cons_of_mem pos List.mem_cons_self)
              omega
            · exact hmem
          have hrest := ih htail (fun p hp => hle p (List.mem_cons_of_mem pos hp)) hlater
          rw [leaves_append, List.flatten_append, hrest]
          have hpiece : ir.text.drop pos = slice ir.text pos next ++ ir.text.drop next := by
            conv_lhs => rw [← List.take_append_drop next ir.text]
            rw [List.drop_append_of_le_length, slice]
            rw [List.length_take]
            have hnext := hle next (List.mem_cons_of_mem pos List.mem_cons_self)
            omega
          simp [pieceFrom, leaves, hpiece]

/-! ## The items that open -/

def emittedSpans : List (ℕ × ℕ) :=
  (styledSpans ir options).map (fun span => (span.start, span.end_)) ++
    (renderedLinks ir options).map fun link => (link.start, link.end_)

variable {ir options}

theorem mem_openingItems {pos : ℕ} {item : OpeningItem}
    (h : item ∈ openingItems ir options pos) :
    item.start = pos ∧ (item.start, item.end_) ∈ emittedSpans ir options := by
  rw [openingItems, List.mem_insertionSort, List.mem_append] at h
  rw [emittedSpans, List.mem_append, List.mem_map, List.mem_map]
  rcases h with hlink | hstyle
  · obtain ⟨index, hindex, rfl⟩ := List.mem_mapIdx.mp hlink
    have hmem := List.getElem_mem hindex
    rw [List.mem_filter, decide_eq_true_eq] at hmem
    exact ⟨hmem.2, .inr ⟨_, hmem.1, rfl⟩⟩
  · obtain ⟨span, hspan, hitem⟩ := List.mem_filterMap.mp hstyle
    obtain ⟨marker, hmarker, rfl⟩ := Option.map_eq_some_iff.mp hitem
    rw [sortStyleSpans, List.mem_insertionSort, List.mem_filter, decide_eq_true_eq] at hspan
    exact ⟨hspan.2, .inl ⟨span, hspan.1, rfl⟩⟩

theorem exists_openingItem {span : ℕ × ℕ} (h : span ∈ emittedSpans ir options) :
    ∃ item ∈ openingItems ir options span.1, item.end_ = span.2 := by
  rw [emittedSpans, List.mem_append, List.mem_map, List.mem_map] at h
  rcases h with ⟨style, hstyle, rfl⟩ | ⟨link, hlink, rfl⟩
  · have hkept := hstyle
    rw [styledSpans, List.mem_filter, sortStyleSpans, List.mem_insertionSort, List.mem_filter]
      at hkept
    obtain ⟨marker, hmarker⟩ := Option.isSome_iff_exists.mp hkept.1.2
    refine ⟨styleItem style marker, ?_, rfl⟩
    rw [openingItems, List.mem_insertionSort, List.mem_append]
    right
    rw [openingStyles, List.mem_filterMap]
    refine ⟨style, ?_, by rw [hmarker]; rfl⟩
    rw [sortStyleSpans, List.mem_insertionSort, List.mem_filter]
    exact ⟨hstyle, decide_eq_true rfl⟩
  · have hbucket : link ∈ (renderedLinks ir options).filter fun other => other.start = link.start :=
      List.mem_filter.mpr ⟨hlink, decide_eq_true rfl⟩
    obtain ⟨index, hindex, hget⟩ := List.mem_iff_getElem.mp hbucket
    refine ⟨linkItem link index, ?_, rfl⟩
    rw [openingItems, List.mem_insertionSort, List.mem_append]
    left
    rw [openingLinks, List.mem_mapIdx]
    exact ⟨index, hindex, by rw [hget]⟩

theorem openingBefore_iff (a b : OpeningItem) :
    openingBefore a b = true ↔
      b.end_ < a.end_ ∨ a.end_ = b.end_ ∧ a.kind.before b.kind = true := by
  unfold openingBefore
  split
  · rename_i hne
    simp [hne]
  · rename_i heq
    rw [not_not] at heq
    simp [heq]

theorem before_total (a b : OpeningKind) : a.before b = true ∨ b.before a = true := by
  cases a <;> cases b <;> simp [OpeningKind.before, Nat.le_total]

theorem before_trans {a b c : OpeningKind} (hab : a.before b = true) (hbc : b.before c = true) :
    a.before c = true := by
  cases a <;> cases b <;> cases c <;> simp_all [OpeningKind.before] <;> omega

theorem openingItems_longestFirst (pos : ℕ) :
    (openingItems ir options pos).Pairwise fun a b => b.end_ ≤ a.end_ := by
  have htotal : Std.Total fun a b : OpeningItem => openingBefore a b = true := ⟨by
    intro a b
    rw [openingBefore_iff, openingBefore_iff]
    have hkind := before_total a.kind b.kind
    rcases lt_trichotomy a.end_ b.end_ with hlt | heq | hgt
    · exact .inr (.inl hlt)
    · exact hkind.imp (fun h => .inr ⟨heq, h⟩) fun h => .inr ⟨heq.symm, h⟩
    · exact .inl (.inl hgt)⟩
  have htrans : IsTrans OpeningItem fun a b => openingBefore a b = true := ⟨by
    intro a b c hab hbc
    rw [openingBefore_iff] at *
    rcases hab with hlt | ⟨heq, hkind⟩
    · left
      rcases hbc with hlt' | ⟨heq', _⟩ <;> omega
    · rcases hbc with hlt' | ⟨heq', hkind'⟩
      · left
        omega
      · exact .inr ⟨heq.trans heq', before_trans hkind hkind'⟩⟩
  apply (List.pairwise_insertionSort _ _).imp
  intro a b h
  rcases (openingBefore_iff a b).mp h with hlt | ⟨heq, _⟩ <;> omega

/-! ## Boundaries -/

theorem points_sorted : (points ir options).Pairwise (· < ·) := by
  have hle := List.pairwise_insertionSort (· ≤ ·) (0 :: ir.text.length ::
    ((styledSpans ir options).flatMap (fun span => [span.start, span.end_]) ++
      (renderedLinks ir options).flatMap fun link => [link.start, link.end_])).dedup
  have hnodup : (points ir options).Nodup :=
    (List.perm_insertionSort _ _).nodup_iff.mpr (List.nodup_dedup _)
  exact (hle.and hnodup).imp fun h => lt_of_le_of_ne h.1 h.2

theorem mem_points_iff {p : ℕ} :
    p ∈ points ir options ↔
      p = 0 ∨ p = ir.text.length ∨
        ∃ span ∈ emittedSpans ir options, p = span.1 ∨ p = span.2 := by
  rw [points, List.mem_insertionSort, List.mem_dedup]
  simp only [List.mem_cons, List.mem_append, List.mem_flatMap, List.not_mem_nil, or_false,
    emittedSpans, List.mem_map]
  constructor
  · rintro (hzero | hlength | ⟨span, hspan, hp⟩ | ⟨link, hlink, hp⟩)
    · exact .inl hzero
    · exact .inr (.inl hlength)
    · exact .inr (.inr ⟨_, .inl ⟨span, hspan, rfl⟩, hp⟩)
    · exact .inr (.inr ⟨_, .inr ⟨link, hlink, rfl⟩, hp⟩)
  · rintro (hzero | hlength | ⟨_, ⟨span, hspan, rfl⟩ | ⟨link, hlink, rfl⟩, hp⟩)
    · exact .inl hzero
    · exact .inr (.inl hlength)
    · exact .inr (.inr (.inl ⟨span, hspan, hp⟩))
    · exact .inr (.inr (.inr ⟨link, hlink, hp⟩))

end Sweep

/-! ## Spans that nest -/

/-- A span ends inside a later one. -/
def Crosses (a b : ℕ × ℕ) : Prop := a.1 < b.1 ∧ b.1 < a.2 ∧ a.2 < b.2

/-- The spans that get markers are not empty and do not cross. -/
def SpansNest (ir : MarkdownIR) (options : RenderOptions) : Prop :=
  ∀ a ∈ emittedSpans ir options, a.1 < a.2 ∧ ∀ b ∈ emittedSpans ir options, ¬ Crosses a b

variable {ir : MarkdownIR} {options : RenderOptions}

theorem lt_of_mem_dropWhile {pos : ℕ} {stack : List OpeningItem}
    (hsorted : stack.Pairwise fun a b => a.end_ ≤ b.end_)
    (hle : ∀ item ∈ stack, pos ≤ item.end_) :
    ∀ item ∈ stack.dropWhile (fun item => item.end_ = pos), pos < item.end_ := by
  induction stack with
  | nil => exact fun item hitem => absurd hitem List.not_mem_nil
  | cons top rest ih =>
      obtain ⟨htop, hrest⟩ := List.pairwise_cons.mp hsorted
      obtain ⟨hpos, hmore⟩ := List.forall_mem_cons.mp hle
      by_cases heq : top.end_ = pos
      · rw [List.dropWhile_cons_of_pos (by simpa using heq)]
        exact ih hrest hmore
      · rw [List.dropWhile_cons_of_neg (by simpa using heq)]
        have hlt : pos < top.end_ := lt_of_le_of_ne hpos (Ne.symm heq)
        exact List.forall_mem_cons.mpr ⟨hlt, fun item hitem => hlt.trans_le (htop item hitem)⟩

/-- Nested spans are all closed: the invariant is that the ends on the stack increase from the top
on, and are boundaries still to come. -/
theorem finalStack_eq_nil (hnest : SpansNest ir options) {pts : List ℕ} {stack : List OpeningItem}
    (hpts : pts.Pairwise (· < ·))
    (hends : ∀ pos ∈ pts, ∀ item ∈ openingItems ir options pos, item.end_ ∈ pts)
    (hsorted : stack.Pairwise fun a b => a.end_ ≤ b.end_)
    (hstack : ∀ item ∈ stack, (item.start, item.end_) ∈ emittedSpans ir options ∧
      item.end_ ∈ pts ∧ ∀ p ∈ pts, item.start < p) :
    finalStack ir options pts stack = [] := by
  induction pts generalizing stack with
  | nil =>
      rw [finalStack, List.eq_nil_iff_forall_not_mem]
      exact fun item hitem => List.not_mem_nil (hstack item hitem).2.1
  | cons pos rest ih =>
      obtain ⟨hfirst, hrest⟩ := List.pairwise_cons.mp hpts
      have hlater : ∀ end_, end_ ∈ pos :: rest → pos < end_ → end_ ∈ rest := by
        intro end_ hmem hlt
        exact (List.mem_cons.mp hmem).resolve_left hlt.ne'
      have hle : ∀ item ∈ stack, pos ≤ item.end_ := by
        intro item hitem
        rcases List.mem_cons.mp (hstack item hitem).2.1 with heq | hmem
        · exact heq.ge
        · exact (hfirst _ hmem).le
      have hkept := lt_of_mem_dropWhile hsorted hle
      have hdropped : (stack.dropWhile fun item => item.end_ = pos).Sublist stack :=
        List.dropWhile_sublist _
      have hopened : ∀ item ∈ openingItems ir options pos,
          item.start = pos ∧ (item.start, item.end_) ∈ emittedSpans ir options ∧
            pos < item.end_ := by
        intro item hitem
        obtain ⟨hstart, hmem⟩ := mem_openingItems hitem
        have hlt : item.start < item.end_ := (hnest _ hmem).1
        exact ⟨hstart, hmem, by omega⟩
      rw [finalStack]
      apply ih hrest
      · intro p hp item hitem
        obtain ⟨_, hmem⟩ := mem_openingItems hitem
        have hlt := (hnest _ hmem).1
        have hstart := (mem_openingItems hitem).1
        have hp' := hfirst p hp
        exact hlater _ (hends p (List.mem_cons_of_mem pos hp) item hitem) (by dsimp only at hlt; omega)
      · rw [List.pairwise_append]
        refine ⟨List.pairwise_reverse.mpr (openingItems_longestFirst pos),
          hsorted.sublist hdropped, ?_⟩
        intro new hnew old hold
        obtain ⟨hstart, hmem, hlt⟩ := hopened new (List.mem_reverse.mp hnew)
        obtain ⟨hold', _, hbefore⟩ := hstack old (hdropped.subset hold)
        have hcross := (hnest _ hold').2 _ hmem
        have hpos := hbefore pos List.mem_cons_self
        have hopen := hkept old hold
        rw [Crosses, hstart] at hcross
        by_contra hnot
        exact hcross ⟨hpos, hopen, by dsimp only; omega⟩
      · intro item hitem
        rcases List.mem_append.mp hitem with hnew | hold
        · obtain ⟨hstart, hmem, hlt⟩ := hopened item (List.mem_reverse.mp hnew)
          have hend := hends pos List.mem_cons_self item (List.mem_reverse.mp hnew)
          exact ⟨hmem, hlater _ hend hlt, fun p hp => hstart ▸ hfirst p hp⟩
        · obtain ⟨hmem, hend, hbefore⟩ := hstack item (hdropped.subset hold)
          exact ⟨hmem, hlater _ hend (hkept item hold),
            fun p hp => hbefore p (List.mem_cons_of_mem pos hp)⟩

/-! ## Spans that stay open -/

theorem mem_dropWhile {pos : ℕ} {item : OpeningItem} {stack : List OpeningItem}
    (hitem : item ∈ stack) (hend : item.end_ ≠ pos) :
    item ∈ stack.dropWhile fun item => item.end_ = pos := by
  induction stack with
  | nil => cases hitem
  | cons top rest ih =>
      by_cases htop : top.end_ = pos
      · rw [List.dropWhile_cons_of_pos (by simpa using htop)]
        rcases List.mem_cons.mp hitem with rfl | hrest
        · exact absurd htop hend
        · exact ih hrest
      · rwa [List.dropWhile_cons_of_neg (by simpa using htop)]

/-- What lies on an item keeps it from being closed. -/
theorem pair_sublist_dropWhile (pos : ℕ) {a b : OpeningItem} {stack : List OpeningItem}
    (hpair : [b, a].Sublist stack) (hend : b.end_ ≠ pos) :
    [b, a].Sublist (stack.dropWhile fun item => item.end_ = pos) := by
  induction stack with
  | nil => cases hpair
  | cons top rest ih =>
      by_cases htop : top.end_ = pos
      · rw [List.dropWhile_cons_of_pos (by simpa using htop)]
        cases hpair with
        | cons _ hrest => exact ih hrest
        | cons_cons _ hrest => exact absurd htop hend
      · rwa [List.dropWhile_cons_of_neg (by simpa using htop)]

theorem mem_finalStack_of_passed {pts : List ℕ} {stack : List OpeningItem} {a : OpeningItem}
    (hpassed : ∀ p ∈ pts, a.end_ ≠ p) (ha : a ∈ stack) : a ∈ finalStack ir options pts stack := by
  induction pts generalizing stack with
  | nil => exact ha
  | cons pos rest ih =>
      obtain ⟨hpos, hrest⟩ := List.forall_mem_cons.mp hpassed
      exact ih hrest (List.mem_append_right _ (mem_dropWhile ha hpos))

theorem mem_finalStack_of_buried {pts : List ℕ} {stack : List OpeningItem} {a b : OpeningItem}
    (hpts : pts.Pairwise (· < ·)) (hend : a.end_ ∈ pts) (hlonger : a.end_ < b.end_)
    (hpair : [b, a].Sublist stack) : a ∈ finalStack ir options pts stack := by
  induction pts generalizing stack with
  | nil => cases hend
  | cons pos rest ih =>
      obtain ⟨hfirst, hrest⟩ := List.pairwise_cons.mp hpts
      rw [finalStack]
      rcases List.mem_cons.mp hend with heq | hmem
      · have hkept := pair_sublist_dropWhile pos hpair (by omega)
        apply mem_finalStack_of_passed
        · intro p hp
          have hlt := hfirst p hp
          omega
        · exact List.mem_append_right _ (hkept.subset (by simp))
      · have hlt := hfirst _ hmem
        have hkept := pair_sublist_dropWhile pos hpair (by omega)
        exact ih hrest hmem (hkept.trans (List.sublist_append_right _ _))

theorem mem_finalStack_of_crossed {pts : List ℕ} {stack : List OpeningItem} {a b : OpeningItem}
    (hpts : pts.Pairwise (· < ·)) (hend : a.end_ ∈ pts) (hstart : b.start ∈ pts)
    (hb : b ∈ openingItems ir options b.start) (hinside : b.start < a.end_)
    (hlonger : a.end_ < b.end_) (ha : a ∈ stack) : a ∈ finalStack ir options pts stack := by
  induction pts generalizing stack with
  | nil => cases hend
  | cons pos rest ih =>
      obtain ⟨hfirst, hrest⟩ := List.pairwise_cons.mp hpts
      have hpos : pos ≤ b.start := by
        rcases List.mem_cons.mp hstart with heq | hmem
        · exact heq.ge
        · exact (hfirst _ hmem).le
      have hend' : a.end_ ∈ rest := (List.mem_cons.mp hend).resolve_left (by omega)
      have hkept : a ∈ stack.dropWhile fun item => item.end_ = pos :=
        mem_dropWhile ha (by omega)
      rw [finalStack]
      rcases List.mem_cons.mp hstart with heq | hmem
      · apply mem_finalStack_of_buried hrest hend' hlonger
        rw [← heq]
        exact (List.singleton_sublist.mpr (List.mem_reverse.mpr hb)).append
          (List.singleton_sublist.mpr (heq ▸ hkept))
      · exact ih hrest hend' hmem (List.mem_append_right _ hkept)

theorem mem_finalStack_of_stays {pts : List ℕ} {stack : List OpeningItem} {a : OpeningItem}
    (hpts : pts.Pairwise (· < ·)) (hstart : a.start ∈ pts)
    (ha : a ∈ openingItems ir options a.start)
    (hstays : a.end_ ≤ a.start ∨
      ∃ b ∈ openingItems ir options b.start, b.start ∈ pts ∧ a.end_ ∈ pts ∧
        Crosses (a.start, a.end_) (b.start, b.end_)) :
    a ∈ finalStack ir options pts stack := by
  induction pts generalizing stack with
  | nil => cases hstart
  | cons pos rest ih =>
      obtain ⟨hfirst, hrest⟩ := List.pairwise_cons.mp hpts
      rw [finalStack]
      rcases List.mem_cons.mp hstart with heq | hmem
      · have hopened : a ∈ (openingItems ir options pos).reverse ++
            stack.dropWhile fun item => item.end_ = pos :=
          List.mem_append_left _ (List.mem_reverse.mpr (heq ▸ ha))
        rcases hstays with hshort | ⟨b, hb, hbstart, haend, hbefore, hinside, hlonger⟩
        · apply mem_finalStack_of_passed _ hopened
          intro p hp
          have hlt := hfirst p hp
          omega
        · dsimp only at hbefore hinside hlonger
          have hbstart' : b.start ∈ rest := (List.mem_cons.mp hbstart).resolve_left (by omega)
          have haend' : a.end_ ∈ rest := (List.mem_cons.mp haend).resolve_left (by omega)
          exact mem_finalStack_of_crossed hrest haend' hbstart' hb hinside hlonger hopened
      · apply ih hrest hmem
        apply hstays.imp_right
        rintro ⟨b, hb, hbstart, haend, hbefore, hinside, hlonger⟩
        dsimp only at hbefore hinside hlonger
        have hlt := hfirst _ hmem
        exact ⟨b, hb, (List.mem_cons.mp hbstart).resolve_left (by omega),
          (List.mem_cons.mp haend).resolve_left (by omega), hbefore, hinside, hlonger⟩

theorem finalStack_points_eq_nil_iff :
    finalStack ir options (points ir options) [] = [] ↔ SpansNest ir options := by
  have hmem : ∀ span ∈ emittedSpans ir options,
      span.1 ∈ points ir options ∧ span.2 ∈ points ir options := fun span hspan =>
    ⟨mem_points_iff.mpr (.inr (.inr ⟨span, hspan, .inl rfl⟩)),
      mem_points_iff.mpr (.inr (.inr ⟨span, hspan, .inr rfl⟩))⟩
  constructor
  · intro hnil a ha
    obtain ⟨item, hitem, hend⟩ := exists_openingItem ha
    have hstart := (mem_openingItems hitem).1
    have hopen : ¬ (item.end_ ≤ item.start ∨
        ∃ b ∈ openingItems ir options b.start, b.start ∈ points ir options ∧
          item.end_ ∈ points ir options ∧ Crosses (item.start, item.end_) (b.start, b.end_)) := by
      intro hstays
      have hleft := @mem_finalStack_of_stays ir options _ [] item points_sorted
        (hstart ▸ (hmem a ha).1) (hstart ▸ hitem) hstays
      rw [hnil] at hleft
      exact List.not_mem_nil hleft
    rw [not_or] at hopen
    refine ⟨by omega, fun b hb hcross => hopen.2 ?_⟩
    obtain ⟨other, hother, hotherEnd⟩ := exists_openingItem hb
    have hotherStart := (mem_openingItems hother).1
    refine ⟨other, hotherStart ▸ hother, hotherStart ▸ (hmem b hb).1, hend ▸ (hmem a ha).2, ?_⟩
    rw [hstart, hend, hotherStart, hotherEnd]
    exact hcross
  · intro hnest
    apply finalStack_eq_nil hnest points_sorted
    · intro pos _ item hitem
      exact (hmem _ (mem_openingItems hitem).2).2
    · exact List.Pairwise.nil
    · exact fun item hitem => absurd hitem List.not_mem_nil

/-! ## The rendered text -/

structure InRange (ir : MarkdownIR) (options : RenderOptions) : Prop where
  styles : ∀ span ∈ ir.styles, span.start ≤ ir.text.length ∧ span.end_ ≤ ir.text.length
  links : ∀ link ∈ ir.links, link.start ≤ ir.text.length ∧ link.end_ ≤ ir.text.length
  rendered : ∀ link ∈ ir.links, ∀ rendered, options.buildLink link ir.text = some rendered →
    rendered.start ≤ ir.text.length ∧ rendered.end_ ≤ ir.text.length

theorem le_of_mem_points (hrange : InRange ir options) {p : ℕ} (hp : p ∈ points ir options) :
    p ≤ ir.text.length := by
  rcases mem_points_iff.mp hp with rfl | rfl | ⟨span, hspan, hp⟩
  · exact Nat.zero_le _
  · exact le_rfl
  · have hle : span.1 ≤ ir.text.length ∧ span.2 ≤ ir.text.length := by
      rw [emittedSpans, List.mem_append, List.mem_map, List.mem_map] at hspan
      rcases hspan with ⟨style, hstyle, rfl⟩ | ⟨link, hlink, rfl⟩
      · rw [styledSpans, List.mem_filter, sortStyleSpans, List.mem_insertionSort,
          List.mem_filter] at hstyle
        exact hrange.styles style hstyle.1.1
      · obtain ⟨source, hsource, hrendered⟩ := List.mem_filterMap.mp hlink
        exact hrange.rendered source (List.mem_filter.mp hsource).1 link hrendered
    rcases hp with rfl | rfl
    · exact hle.1
    · exact hle.2

/-- The output is a nested sequence of markers around pieces that make up the text. -/
def WellRendered (ir : MarkdownIR) (options : RenderOptions) : Prop :=
  renderMarkdownWithMarkers ir options =
      (renderTokens ir options).flatMap (tokenText options) ∧
    BracketToken.Nested (renderTokens ir options) ∧
    (leaves (renderTokens ir options)).flatten = ir.text

theorem flatten_leaves_renderTokens (hrange : InRange ir options) :
    (leaves (renderTokens ir options)).flatten = ir.text := by
  unfold renderTokens
  split
  · rename_i hempty
    rw [hempty]
    rfl
  · have hzero : 0 ∈ points ir options := mem_points_iff.mpr (.inl rfl)
    have hlast : ir.text.length ∈ points ir options := mem_points_iff.mpr (.inr (.inl rfl))
    rw [flatten_leaves_sweep ir options points_sorted (fun p hp => le_of_mem_points hrange hp)
      hlast]
    have hhead : (points ir options).headD 0 = 0 := by
      have hsorted := @points_sorted ir options
      cases hpts : points ir options with
      | nil => rfl
      | cons first rest =>
          rw [hpts] at hzero hsorted
          rcases List.mem_cons.mp hzero with heq | hmem
          · exact heq.symm
          · exact absurd ((List.pairwise_cons.mp hsorted).1 0 hmem) (Nat.not_lt_zero first)
    rw [hhead, List.drop_zero]

/-- The rendering is well nested exactly when no span that gets markers is empty, reversed or
crossed by another one. -/
theorem well_rendered_iff (ir : MarkdownIR) (options : RenderOptions)
    (hrange : InRange ir options) :
    WellRendered ir options ↔ (ir.text ≠ [] → SpansNest ir options) := by
  have hleaves := flatten_leaves_renderTokens hrange
  have hnested : BracketToken.Nested (renderTokens ir options) ↔
      (ir.text ≠ [] → SpansNest ir options) := by
    unfold renderTokens
    split
    · rename_i hempty
      exact iff_of_true .nil fun hne => absurd hempty hne
    · rename_i hne
      rw [nested_iff_openAfter, openAfter_sweep, Option.some_inj,
        finalStack_points_eq_nil_iff]
      exact ⟨fun h _ => h, fun h => h hne⟩
  exact ⟨fun h => hnested.mp h.2.1, fun h => ⟨rfl, hnested.mpr h, hleaves⟩⟩

/-! ## A spoiler across the end of a bold run -/

def boldAndSpoiler : RenderOptions where
  styleMarkers style :=
    match style with
    | .bold => some ⟨js "<b>", js "</b>"⟩
    | .spoiler => some ⟨js "<tg-spoiler>", js "</tg-spoiler>"⟩
    | _ => none
  escapeText text := text
  buildLink _ _ := none

def spoilerAcrossBold : MarkdownIR where
  text := js "a b c"
  styles := [⟨0, 3, .bold⟩, ⟨2, 5, .spoiler⟩]
  links := []

theorem bold_left_open : ¬ WellRendered spoilerAcrossBold boldAndSpoiler := by
  intro h
  have hopen := nested_iff_openAfter.mp h.2.1
  exact absurd hopen (by decide +kernel)

def spoilerInsideBold : MarkdownIR where
  text := js "a b c"
  styles := [⟨2, 3, .spoiler⟩, ⟨0, 5, .bold⟩]
  links := []

theorem well_rendered_iff_spoilerInsideBold :
    WellRendered spoilerInsideBold boldAndSpoiler ↔
      (spoilerInsideBold.text ≠ [] → SpansNest spoilerInsideBold boldAndSpoiler) :=
  well_rendered_iff spoilerInsideBold boldAndSpoiler
    { styles := by decide
      links := by decide
      rendered := fun _ _ _ h => nomatch h }

end GreenchClaw.Markdown
