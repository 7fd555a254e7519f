import GreenchClaw.Js.Text
import GreenchClaw.Lib.Brackets
import Mathlib.Data.List.Dedup
import Mathlib.Data.List.Sort

/-!
# Rendering a markdown text with markers

`renderMarkdownWithMarkers` sweeps over the boundaries of the style and link spans of a text.  At
each boundary it closes the spans on top of its stack that end there, opens those that start
there and writes the text up to the next boundary.
-/

namespace GreenchClaw.Markdown

open GreenchClaw.Js

/-! ## Data -/

inductive MarkdownStyle where
  | bold
  | italic
  | strikethrough
  | code
  | codeBlock
  | spoiler
  | blockquote
  deriving DecidableEq

structure MarkdownStyleSpan where
  start : ℕ
  end_ : ℕ
  style : MarkdownStyle
  deriving DecidableEq

structure MarkdownLinkSpan where
  start : ℕ
  end_ : ℕ
  href : JsString
  deriving DecidableEq

structure MarkdownIR where
  text : JsString
  styles : List MarkdownStyleSpan
  links : List MarkdownLinkSpan

structure RenderStyleMarker where
  open_ : JsString
  close : JsString
  deriving DecidableEq

structure RenderLink where
  start : ℕ
  end_ : ℕ
  open_ : JsString
  close : JsString
  deriving DecidableEq

structure RenderOptions where
  styleMarkers : MarkdownStyle → Option RenderStyleMarker
  escapeText : JsString → JsString
  buildLink : MarkdownLinkSpan → JsString → Option RenderLink

/-- `STYLE_RANK`, the index in `STYLE_ORDER`. -/
def styleRank : MarkdownStyle → ℕ
  | .blockquote => 0
  | .codeBlock => 1
  | .code => 2
  | .bold => 3
  | .italic => 4
  | .strikethrough => 5
  | .spoiler => 6

/-! ## Spans -/

/-- The order of `sortStyleSpans`: by start, the longer first, then by rank. -/
def styleSpanBefore (a b : MarkdownStyleSpan) : Bool :=
  if a.start ≠ b.start then
    a.start < b.start
  else if a.end_ ≠ b.end_ then
    b.end_ < a.end_
  else
    styleRank a.style ≤ styleRank b.style

def sortStyleSpans (spans : List MarkdownStyleSpan) : List MarkdownStyleSpan :=
  spans.insertionSort fun a b => styleSpanBefore a b

inductive OpeningKind where
  | link (index : ℕ)
  | style (style : MarkdownStyle)
  deriving DecidableEq

structure OpeningItem where
  start : ℕ
  end_ : ℕ
  open_ : JsString
  close : JsString
  kind : OpeningKind
  deriving DecidableEq

def OpeningKind.before : OpeningKind → OpeningKind → Bool
  | .link i, .link j => i ≤ j
  | .link _, .style _ => true
  | .style _, .link _ => false
  | .style s, .style t => styleRank s ≤ styleRank t

def openingBefore (a b : OpeningItem) : Bool :=
  if a.end_ ≠ b.end_ then b.end_ < a.end_ else a.kind.before b.kind

section Render

variable (ir : MarkdownIR) (options : RenderOptions)

def styledSpans : List MarkdownStyleSpan :=
  (sortStyleSpans (ir.styles.filter fun span => (options.styleMarkers span.style).isSome)).filter
    fun span => span.start ≠ span.end_

def renderedLinks : List RenderLink :=
  (ir.links.filter fun link => link.start ≠ link.end_).filterMap fun link =>
    options.buildLink link ir.text

def linkItem (link : RenderLink) (index : ℕ) : OpeningItem where
  start := link.start
  end_ := link.end_
  open_ := link.open_
  close := link.close
  kind := .link index

def styleItem (span : MarkdownStyleSpan) (marker : RenderStyleMarker) : OpeningItem where
  start := span.start
  end_ := span.end_
  open_ := marker.open_
  close := marker.close
  kind := .style span.style

def openingLinks (pos : ℕ) : List OpeningItem :=
  ((renderedLinks ir options).filter fun link => link.start = pos).mapIdx
    fun index link => linkItem link index

def openingStyles (pos : ℕ) : List OpeningItem :=
  (sortStyleSpans ((styledSpans ir options).filter fun span => span.start = pos)).filterMap
    fun span => (options.styleMarkers span.style).map (styleItem span)

def openingItems (pos : ℕ) : List OpeningItem :=
  (openingLinks ir options pos ++ openingStyles ir options pos).insertionSort
    fun a b => openingBefore a b

/-- `boundaries`, in increasing order. -/
def points : List ℕ :=
  (0 :: ir.text.length ::
    ((styledSpans ir options).flatMap (fun span => [span.start, span.end_]) ++
      (renderedLinks ir options).flatMap fun link => [link.start, link.end_])).dedup.insertionSort
    (· ≤ ·)

def slice (text : JsString) (start end_ : ℕ) : JsString := (text.take end_).drop start

def pieceFrom (pos : ℕ) : List ℕ → List (BracketToken OpeningItem JsString)
  | next :: _ => [.leaf (slice ir.text pos next)]
  | [] => []

def sweep : List ℕ → List OpeningItem → List (BracketToken OpeningItem JsString)
  | [], _ => []
  | pos :: rest, stack =>
      let closed := stack.takeWhile fun item => item.end_ = pos
      let opened := openingItems ir options pos
      closed.map .closing ++ opened.map .opening ++ pieceFrom ir pos rest ++
        sweep rest (opened.reverse ++ stack.dropWhile fun item => item.end_ = pos)

/-- The output as a sequence of markers and pieces of text. -/
def renderTokens : List (BracketToken OpeningItem JsString) :=
  if ir.text = [] then [] else sweep ir options (points ir options) []

def tokenText : BracketToken OpeningItem JsString → JsString
  | .opening item => item.open_
  | .closing item => item.close
  | .leaf piece => options.escapeText piece

def renderMarkdownWithMarkers : JsString :=
  (renderTokens ir options).flatMap (tokenText options)

end Render

end GreenchClaw.Markdown
