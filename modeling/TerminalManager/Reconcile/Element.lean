import TerminalManager.Framework.Input
import TerminalManager.Lib.LinkedTree
import Mathlib.Data.Finset.Basic

/-!
# Elements and their definitions

The program describes its screen by a tree of definitions; the framework keeps an element for each of them.

* `ElementDef`, `ElementDef.induct`   a definition, and induction over it;
* `Element`                           its links, its data and its dirty flags;
* `buildData`                         the data of a new element;
* `updateData`, `Changes`             the data of an element that is kept, and what changed.

Callbacks, the cells of a grid, an SVG node and style declarations are compared or copied only.
-/

namespace TerminalManager.Reconcile
open Framework (InputType)
open LinkedTree (Links)

inductive Tag
  | div | span | text | button | input | canvas | svg | svgPath | svgCircle | svgRect | svgLine | svgPolyline
  | svgPolygon | svgGroup | select | option
deriving DecidableEq, Repr

/-- `NodeId`; the dangling id is the `none` of a link -/
@[ext]
structure NodeId where
  index : Nat
  generation : Nat
deriving DecidableEq, Repr

/-- the slot that the clones of a `NodeRef` share -/
abbrev RefId := Nat

abbrev Callback := Nat
abbrev StyleDeclaration := String
/-- the bits of an `f32` -/
abbrev F32Bits := UInt32

inductive ElementContent
  | none
  | text (text : String)
  | image (path : String)
  | canvas
  | grid (rows cols : Nat) (cells : String)
  | svg (node : String)
deriving DecidableEq, Repr

inductive PseudoElement
  | before | after | selection | placeholder
deriving DecidableEq, Repr

/-! ## flags -/

inductive Flag
  | style | layout | paint | children | content
  /-- on the ancestors of a node with `style` -/
  | subtreeStyle
  /-- on the ancestors of a node with `layout` -/
  | subtreeLayout
  /-- on the ancestors of a node with `paint` -/
  | subtreePaint
deriving DecidableEq, Repr

abbrev DirtyFlags := Finset Flag

/-! ## definitions -/

/-- a definition without its children -/
structure DefProps where
  tag : Tag
  id : Option String
  key : Option String
  classes : List String
  content : ElementContent
  tabIndex : Option Int
  capturesKeyboard : Bool
  /-- the event handlers -/
  handlers : Callback
  placeholder : Option String
  memoKey : Option Nat
  inputType : InputType
  checked : Bool
  min : Option F32Bits
  max : Option F32Bits
  step : Option F32Bits
  name : Option String
  /-- values and labels of a select -/
  options : List (String × String)
  selectedIndex : Option Nat
  onMount : Option Callback
  onUnmount : Option Callback
  nodeRef : Option RefId
  styleOverrides : List StyleDeclaration
  value : Option String
  autofocus : Bool
deriving DecidableEq, Repr

inductive ElementDef
  | mk (props : DefProps) (children : List ElementDef)

namespace ElementDef

def props : ElementDef → DefProps
  | mk props _ => props

def children : ElementDef → List ElementDef
  | mk _ children => children

abbrev tag (d : ElementDef) : Tag := d.props.tag

theorem induct {P : ElementDef → Prop} (h : ∀ props children, (∀ d ∈ children, P d) → P (mk props children)) :
    ∀ d, P d
  | mk props children => h props children fun d _ => induct h d

end ElementDef

/-- `ElementDef::new` -/
def DefProps.new (tag : Tag) : DefProps where
  tag := tag
  id := none
  key := none
  classes := []
  content := .none
  tabIndex := none
  capturesKeyboard := false
  handlers := 0
  placeholder := none
  memoKey := none
  inputType := .text
  checked := false
  min := none
  max := none
  step := none
  name := none
  options := []
  selectedIndex := none
  onMount := none
  onUnmount := none
  nodeRef := none
  styleOverrides := []
  value := none
  autofocus := false

/-- the key of a definition, else its id -/
def DefProps.reconciliationKey (p : DefProps) : Option String := p.key <|> p.id

/-! ## elements -/

/-- what of an `InputState` the definitions set -/
structure InputFields where
  value : String
  cursorPos : Nat
  inputType : InputType
  checked : Bool
  min : F32Bits
  max : F32Bits
  step : F32Bits
deriving DecidableEq, Repr

structure SelectState where
  isOpen : Bool
  selectedIndex : Nat
  highlightedIndex : Option Nat
  /-- values and labels -/
  options : List (String × String)
deriving DecidableEq, Repr

/-- an element without its links and its flags -/
structure ElementData where
  tag : Tag
  id : Option String
  key : Option String
  classes : List String
  content : ElementContent
  tabIndex : Option Int
  capturesKeyboard : Bool
  handlers : Callback
  input : InputFields
  placeholder : Option String
  name : Option String
  selectState : Option SelectState
  onMount : Option Callback
  onUnmount : Option Callback
  /-- made by the resolver of pseudo elements -/
  synthetic : Bool
  pseudoSlot : Option PseudoElement
  memoKey : Option Nat
  nodeRef : Option RefId
  styleOverrides : List StyleDeclaration
deriving DecidableEq, Repr

structure Element extends Links NodeId, ElementData where
  dirty : DirtyFlags
deriving DecidableEq

/-- the data of `Element::new`; the bits are those of 0, 100 and 1 -/
def newData (tag : Tag) : ElementData where
  tag := tag
  id := none
  key := none
  classes := []
  content := .none
  tabIndex := none
  capturesKeyboard := false
  handlers := 0
  input := ⟨"", 0, .text, false, 0, 0x42C80000, 0x3F800000⟩
  placeholder := none
  name := none
  selectState := none
  onMount := none
  onUnmount := none
  synthetic := false
  pseudoSlot := none
  memoKey := none
  nodeRef := none
  styleOverrides := []

/-- the flags of `Element::new` -/
def newFlags : DirtyFlags := {.style, .layout, .paint, .children}

/-- a new element under a parent -/
def newElement (parent : Option NodeId) (data : ElementData) : Element :=
  { toLinks := ⟨parent, none, none, none, none⟩, toElementData := data, dirty := newFlags }

/-- the key of an element, else its id -/
def ElementData.reconciliationKey (e : ElementData) : Option String := e.key <|> e.id

/-- the data of a new element: what `build_subtree` copies of a definition -/
def buildData (p : DefProps) : ElementData :=
  let e := newData p.tag
  { e with
    id := p.id
    key := p.key
    classes := p.classes
    content := p.content
    tabIndex := p.tabIndex
    capturesKeyboard := p.capturesKeyboard
    handlers := p.handlers
    placeholder := p.placeholder
    memoKey := p.memoKey
    name := p.name
    input := {
      value := p.value.getD e.input.value
      cursorPos := (p.value.map String.utf8ByteSize).getD e.input.cursorPos
      inputType := p.inputType
      checked := p.checked
      min := p.min.getD e.input.min
      max := p.max.getD e.input.max
      step := p.step.getD e.input.step }
    onMount := p.onMount
    onUnmount := p.onUnmount
    nodeRef := p.nodeRef
    styleOverrides := p.styleOverrides
    selectState := if p.tag = .select then some ⟨false, p.selectedIndex.getD 0, none, p.options⟩ else none }

/-! ## an element that is kept -/

/-- what changed of an element -/
structure Changes where
  /-- the options of a select -/
  options : Bool
  style : Bool
  layout : Bool
  inputType : Bool
  /-- the contents of a grid that kept its size -/
  gridPaintOnly : Bool
deriving DecidableEq, Repr

def gridPaintOnly : ElementContent → ElementContent → Bool
  | .grid rows cols cells, .grid rows' cols' cells' => rows = rows' && cols = cols' && cells ≠ cells'
  | _, _ => false

def changes (e : ElementData) (p : DefProps) : Changes where
  options := p.tag = .select && !e.selectState.any (·.options = p.options)
  style := e.id ≠ p.id || e.classes ≠ p.classes || e.styleOverrides ≠ p.styleOverrides
  layout := (e.content ≠ p.content && !gridPaintOnly e.content p.content) || e.tabIndex ≠ p.tabIndex ||
    e.capturesKeyboard ≠ p.capturesKeyboard
  inputType := e.input.inputType ≠ p.inputType
  gridPaintOnly := gridPaintOnly e.content p.content

/-- open and selection state are kept -/
def updateSelect (e : ElementData) (p : DefProps) : Option SelectState :=
  if p.tag = .select then
    match e.selectState with
    | some s => some { s with options := p.options }
    | none => some ⟨false, p.selectedIndex.getD 0, none, p.options⟩
  else
    e.selectState

/-- the data after `update_element_properties`: a key is identity, and a node reference that the definition does
not carry is kept -/
def updateData (e : ElementData) (p : DefProps) : ElementData :=
  { e with
    selectState := updateSelect e p
    id := p.id
    classes := p.classes
    content := p.content
    tabIndex := p.tabIndex
    capturesKeyboard := p.capturesKeyboard
    handlers := p.handlers
    placeholder := p.placeholder
    memoKey := p.memoKey
    name := p.name
    onUnmount := p.onUnmount
    styleOverrides := p.styleOverrides
    nodeRef := p.nodeRef <|> e.nodeRef
    input := { e.input with
      inputType := p.inputType
      min := p.min.getD e.input.min
      max := p.max.getD e.input.max
      step := p.step.getD e.input.step } }

def Changes.flags (c : Changes) : DirtyFlags :=
  (if c.options then {.paint} else ∅) ∪
    (if c.style then {.style, .layout, .paint, .subtreeStyle, .subtreeLayout, .subtreePaint} else ∅) ∪
    (if c.layout || c.inputType then {.layout, .paint} else ∅) ∪ (if c.gridPaintOnly then {.paint} else ∅)

end TerminalManager.Reconcile
