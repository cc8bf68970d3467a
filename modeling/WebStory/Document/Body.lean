import WebStory.Document.Head
import WebStory.Markup.Tag
import WebStory.Markup.Inline
/-
  The body of a document.

  Elements are rendered from the inside out, so that classes are numbered in the order in which
  style records are met: children before the element around them, the ranges of a text before
  the text element itself.  The paths of failures are those of the story value the parts were
  read from.

  On the way the extensions of the runtime that the parts need are collected.  The head, which has
  their scripts, is written when the body is done.
-/

namespace WebStory

open Json

/-! ## The state of a walk -/

/-- What is collected while a body is rendered: the classes, and the extensions in use. -/
structure BodyState where
  classes : ClassTable
  runtime : List RuntimeComponent

/-- Before anything is rendered. -/
def BodyState.empty : BodyState := ⟨.empty, []⟩

/-- A rendering that collects classes and extensions. -/
abbrev BodyRendering := StateT BodyState (Except Error)

/-- A rendering that collects classes only, as a part of a body. -/
def inBody {α : Type} (m : Rendering α) : BodyRendering α := fun state => do
  let (a, classes) ← m.run state.classes
  return (a, { state with classes })

/-- Notes that an extension is in use. -/
def useComponent (c : RuntimeComponent) : BodyRendering Unit :=
  modify fun state => { state with runtime := c.addTo state.runtime }

/-! ## Elements -/

def textTag (t : TextElement) (third : Option Nat) : Tag :=
  Tag.ofName t.kind.tagName
    |>.optAttr "id" t.id
    |>.withStyles t.styles
    |>.withThird third

def imageTag (i : ImageElement) (third : Option Nat) : Tag :=
  Tag.ofName "amp-img"
    |>.optAttr "id" i.id
    |>.optAttr "alt" i.alt
    |>.optAttr "layout" (i.layout.map (·.name))
    |>.withWidth i.width
    |>.withHeight i.height
    |>.withSource (some i.source)
    |>.withStyles i.styles
    |>.withThird third

def sourceTag (s : VideoSource) : Tag :=
  Tag.ofName "source"
    |>.withSource (some s.source)
    |>.attr "type" s.mime

def videoTag (v : VideoElement) (third : Option Nat) : Tag :=
  Tag.ofName "amp-video"
    |>.optAttr "id" v.id
    |>.optAttr "layout" (v.layout.map (·.name))
    |>.optAttr "poster" v.poster
    |>.flag "loop" v.looping
    |>.flag "autoplay" v.autoplay
    |>.withWidth v.width
    |>.withHeight v.height
    |>.withSource (v.sources.head?.map (·.source))
    |>.withStyles v.styles
    |>.withThird third

def containerTag (id : Option String) (styles : Option StyleRecord) (third : Option Nat) : Tag :=
  Tag.ofName "div"
    |>.optAttr "id" id
    |>.withStyles styles
    |>.withThird third

/-- The files of a video, one after another. -/
def renderSources (path : Path) : List VideoSource → Rendering String
  | [] => pure ""
  | s :: rest => do
    let first ← (sourceTag s).render path ""
    let others ← renderSources path rest
    return first ++ others

mutual

/-- One element, with all elements inside it. -/
def renderElement (path : Path) (third : Option Nat) : Element → BodyRendering String
  | .container id styles elements => do
    let content ← renderChildren path 0 elements
    inBody ((containerTag id styles third).render path content)
  | .text t => do
    let content ← inBody (renderText t.text t.inlineStyles path)
    inBody ((textTag t third).render path content)
  | .image i => inBody ((imageTag i third).render path "")
  | .video v => do
    useComponent .video
    let content ← inBody (renderSources path v.sources)
    inBody ((videoTag v third).render path content)

/-- The elements of a container, the first of them the `index`-th. -/
def renderChildren (path : Path) (index : Nat) : List Element → BodyRendering String
  | [] => pure ""
  | e :: rest => do
    let first ← renderElement (path.keyItem "elements" index) none e
    let others ← renderChildren path (index + 1) rest
    return first ++ others

end

/-! ## Layers and pages -/

/-- The path of an element of a layer. -/
def layerElementPath (template : LayerTemplate) (path : Path) (index : Nat) : Path :=
  match template with
  | .fill => path.key "element"
  | _ => path.keyItem "elements" index

/-- The place of an element among thirds. -/
def layerThird (template : LayerTemplate) (index : Nat) : Option Nat :=
  match template with
  | .thirds => some index
  | _ => none

def renderLayerElements (template : LayerTemplate) (path : Path) (index : Nat) :
    List Element → BodyRendering String
  | [] => pure ""
  | e :: rest => do
    let first ← renderElement (layerElementPath template path index) (layerThird template index) e
    let others ← renderLayerElements template path (index + 1) rest
    return first ++ others

def layerTag (l : Layer) : Tag :=
  Tag.ofName "amp-story-grid-layer"
    |>.attr "template" l.template.name
    |>.withStyles l.styles

/-- A layer.  One of thirds has three elements, neither more nor less. -/
def renderLayer (path : Path) (l : Layer) : BodyRendering String :=
  if l.template = .thirds ∧ l.elements.length ≠ 3 then
    throw (.invalidThirdsArity path l.elements.length)
  else do
    let content ← renderLayerElements l.template path 0 l.elements
    inBody ((layerTag l).render path content)

def renderLayers (path : Path) (index : Nat) : List Layer → BodyRendering String
  | [] => pure ""
  | l :: rest => do
    let first ← renderLayer (path.keyItem "layers" index) l
    let others ← renderLayers path (index + 1) rest
    return first ++ others

def pageTag (p : Page) : Tag :=
  Tag.ofName "amp-story-page"
    |>.attr "id" p.id
    |>.optAttr "auto-advance-after" (p.autoAdvanceAfter.map (·.text))

def renderPage (path : Path) (p : Page) : BodyRendering String := do
  let content ← renderLayers path 0 p.layers
  inBody ((pageTag p).render path content)

/-- Pages, the first of them the `index`-th. -/
def renderPages (index : Nat) : List Page → BodyRendering String
  | [] => pure ""
  | p :: rest => do
    let first ← renderPage (Path.story.keyItem "pages" index) p
    let others ← renderPages (index + 1) rest
    return first ++ others

/-! ## The story -/

def storyTag (s : Story) : Tag :=
  let preview := s.preview.getD .empty
  Tag.ofName "amp-story"
    |>.flag "standalone" true
    |>.optAttr "bookend-config-src" s.bookendConfigSrc
    |>.optAttr "title" s.title
    |>.optAttr "publisher" preview.publisher
    |>.optAttr "publisher-logo-src" preview.publisherLogoSrc
    |>.optAttr "poster-portrait-src" preview.posterPortraitSrc
    |>.optAttr "poster-square-src" preview.posterSquareSrc
    |>.optAttr "poster-landscape-src" preview.posterLandscapeSrc

/-- The blocks of the analytics services, which need their extension if there are any. -/
def storyAnalytics (entries : List AnalyticsConfig) : BodyRendering String :=
  if entries.isEmpty then pure ""
  else do
    useComponent .analytics
    return renderAnalytics entries

/-- The block of the ads, where they are given. -/
def storyAds : Option Value → BodyRendering String
  | none => pure ""
  | some config => do
    useComponent .autoAds
    return renderAds config

/-- The whole body: analytics, ads, then the pages. -/
def renderStory (s : Story) : BodyRendering String := do
  let analytics ← storyAnalytics s.analytics
  let ads ← storyAds s.ads
  let pages ← renderPages 0 s.pages
  inBody ((storyTag s).render .story (analytics ++ ads ++ pages))

end WebStory
