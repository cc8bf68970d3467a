import WebStory.Style.Record
import WebStory.Json.Decode
/-
  The model of a story.

  A story has pages, a page has layers, a layer has elements, and a container element has
  further elements.  Next to them stand the preview, the metadata, analytics and ads.  All
  optional parts are absent (`none`) rather than empty.
-/

namespace WebStory

open Json

/-! ## Elements -/

/-- A range of a text, counted in characters, and the styles on it. -/
structure InlineStyle where
  start : UInt64
  length : UInt64
  styles : StyleRecord

/-- The range holds the character at an index.  The end of the range is not computed, as it need not
    be a machine number; the difference is, where it is not negative. -/
def InlineStyle.covers (s : InlineStyle) (index : Nat) : Bool :=
  index ≥ s.start.toNat && index - s.start.toNat < s.length.toNat

/-- The level of a heading. -/
inductive HeadingLevel where
  | h1 | h2 | h3 | h4 | h5 | h6
deriving DecidableEq, Repr

/-- The kinds of text elements. -/
inductive TextKind where
  | heading (level : HeadingLevel)
  | paragraph
deriving DecidableEq, Repr

/-- How an image or a video takes its size. -/
inductive MediaLayout where
  | fill
  | fixed
  | fixedHeight
  | flexItem
  | nodisplay
  | responsive
deriving DecidableEq, Repr

def MediaLayout.all : List MediaLayout :=
  [.fill, .fixed, .fixedHeight, .flexItem, .nodisplay, .responsive]

def MediaLayout.name : MediaLayout → String
  | .fill => "fill"
  | .fixed => "fixed"
  | .fixedHeight => "fixed-height"
  | .flexItem => "flex-item"
  | .nodisplay => "nodisplay"
  | .responsive => "responsive"

/-- One file of a video. -/
structure VideoSource where
  source : String
  mediaType : String
deriving DecidableEq

structure TextElement where
  kind : TextKind
  id : Option String
  text : String
  inlineStyles : List InlineStyle
  styles : Option StyleRecord

structure ImageElement where
  id : Option String
  source : String
  alt : Option String
  width : Option String
  height : Option String
  layout : Option MediaLayout
  styles : Option StyleRecord

structure VideoElement where
  id : Option String
  sources : List VideoSource
  width : Option String
  height : Option String
  layout : Option MediaLayout
  poster : Option String
  looping : Bool
  autoplay : Bool
  styles : Option StyleRecord

/-- What a layer shows. -/
inductive Element where
  | container (id : Option String) (styles : Option StyleRecord) (elements : List Element)
  | text (t : TextElement)
  | image (i : ImageElement)
  | video (v : VideoElement)

/-! ## Pages -/

/-- How a layer arranges its elements. -/
inductive LayerTemplate where
  | fill
  | vertical
  | horizontal
  | thirds
deriving DecidableEq, Repr

structure Layer where
  template : LayerTemplate
  styles : Option StyleRecord
  elements : List Element

/-- When a page gives way to the next: after some seconds, or when a medium has ended. -/
inductive AutoAdvance where
  | seconds (n : Number)
  | media (id : String)
deriving DecidableEq

structure Page where
  id : String
  autoAdvanceAfter : Option AutoAdvance
  layers : List Layer

/-! ## The story -/

/-- What platforms show that announce the story. -/
structure Preview where
  publisher : Option String
  publisherLogoSrc : Option String
  posterPortraitSrc : Option String
  posterSquareSrc : Option String
  posterLandscapeSrc : Option String
deriving DecidableEq

structure MetaPublisher where
  name : String
  logo : Option Members

/-- The fields of a news article. -/
structure MetaData where
  title : Option String
  canonicalUrl : Option String
  images : List String
  datePublished : Option String
  dateModified : Option String
  author : Option String
  authorType : Option String
  publisher : Option MetaPublisher
  description : Option String

/-- Structured metadata, or ready-made markup. -/
inductive StoryMeta where
  | raw (markup : String)
  | structured (data : MetaData)

/-- One analytics service: its type, and its configuration as given. -/
structure AnalyticsConfig where
  service : Option String
  options : Members

structure Story where
  title : Option String
  canonicalUrl : Option String
  preview : Option Preview
  storyMeta : Option StoryMeta
  customCss : Option String
  /-- Styles by element type, in document order. -/
  defaultStyles : List (String × StyleRecord)
  pages : List Page
  analytics : List AnalyticsConfig
  /-- The configuration of automatic ads, never null. -/
  ads : Option Value
  bookendConfigSrc : Option String

def Preview.empty : Preview := ⟨none, none, none, none, none⟩

/-! ## Names -/

def HeadingLevel.ofNat? : Nat → Option HeadingLevel
  | 1 => some .h1
  | 2 => some .h2
  | 3 => some .h3
  | 4 => some .h4
  | 5 => some .h5
  | 6 => some .h6
  | _ => none

/-- A decimal number, its digits read from the left. -/
def readDigits : List Char → Nat → Option Nat
  | [], n => some n
  | c :: rest, n =>
    if '0' ≤ c ∧ c ≤ '9' then readDigits rest (n * 10 + (c.toNat - '0'.toNat)) else none

/-- A natural number in decimal, with any leading zeros and at most one plus sign. -/
def readNat? : List Char → Option Nat
  | [] => none
  | '+' :: c :: rest => readDigits (c :: rest) 0
  | c :: rest => readDigits (c :: rest) 0

/-- The text kind with a type name: `paragraph`, `heading`, or `heading` and a level. -/
def TextKind.ofName? (name : String) : Option TextKind :=
  if name = "paragraph" then some .paragraph
  else if name = "heading" then some (.heading .h1)
  else if "heading".toList.isPrefixOf name.toList then
    ((readNat? (name.toList.drop "heading".length)).bind HeadingLevel.ofNat?).map .heading
  else none

def TextKind.tagName : TextKind → String
  | .heading .h1 => "h1"
  | .heading .h2 => "h2"
  | .heading .h3 => "h3"
  | .heading .h4 => "h4"
  | .heading .h5 => "h5"
  | .heading .h6 => "h6"
  | .paragraph => "p"

def LayerTemplate.ofName? (name : String) : Option LayerTemplate :=
  if name = "fill" then some .fill
  else if name = "vertical" then some .vertical
  else if name = "horizontal" then some .horizontal
  else if name = "thirds" then some .thirds
  else none

def LayerTemplate.name : LayerTemplate → String
  | .fill => "fill"
  | .vertical => "vertical"
  | .horizontal => "horizontal"
  | .thirds => "thirds"

/-- The media type of a video file; a bare format name is one of the video types. -/
def VideoSource.mime (s : VideoSource) : String :=
  if s.mediaType.toList.contains '/' then s.mediaType else "video/" ++ s.mediaType

/-- The attribute value of an auto-advance setting. -/
def AutoAdvance.text : AutoAdvance → String
  | .seconds n => n.cssText ++ "s"
  | .media id => id

end WebStory
