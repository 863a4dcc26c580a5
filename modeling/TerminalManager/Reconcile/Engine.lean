import TerminalManager.Reconcile.Arena

/-!
# The reconciler

The live tree is brought in line with a new definition: elements are kept where a definition matches them, and built or
freed where none does.

* `markAncestorsDirty`, `markSubtreeDirty`, `markDescendantsDirty`   flags for the passes that follow;
* `buildSubtree`, `deallocSubtree`   a new element with what is below it, and the end of one;
* `updateElementProperties`          an element that is kept;
* `replaceSubtree`                   an element whose tag changed;
* `reconcileInner`, `reconcile`      the whole.

The walks along links are bounded by the number of slots: a tree that is linked as it should be has no more nodes, and
no longer path.
-/

namespace TerminalManager.Reconcile
open LinkedTree (Links)

/-- the arena with what a pass writes beside it -/
structure World where
  arena : NodeArena
  /-- what the node references hold -/
  refs : RefId → Option NodeId
  /-- the mount callbacks to be fired after the pass -/
  pendingMounts : List (NodeId × Callback)
  /-- the unmount callbacks, as they fired -/
  unmounts : List (NodeId × Callback)

def World.empty : World := ⟨.empty, fun _ => none, [], []⟩

/-! ## flags -/

/-- the flags of the element, none when it is not live -/
def NodeArena.dirtyOf (a : NodeArena) (id : NodeId) : DirtyFlags := ((a.get id).map Element.dirty).getD ∅

def NodeArena.parentOf (a : NodeArena) (id : NodeId) : Option NodeId := (a.get id).bind fun e => e.parent

def NodeArena.addDirty (a : NodeArena) (id : NodeId) (flags : DirtyFlags) : NodeArena :=
  a.modify id fun e => { e with dirty := e.dirty ∪ flags }

/-- the walk stops above an ancestor that has the flags already -/
def markFrom (flags : DirtyFlags) : Nat → NodeArena → Option NodeId → NodeArena
  | 0, a, _ => a
  | _, a, none => a
  | fuel + 1, a, some current =>
    let marked := a.addDirty current flags
    if flags ⊆ a.dirtyOf current then marked else markFrom flags fuel marked (marked.parentOf current)

def markAncestorsDirty (a : NodeArena) (start : NodeId) (flags : DirtyFlags) : NodeArena :=
  markFrom flags (a.nodes.length + 1) a (a.parentOf start)

/-- the flag for the ancestors of a node with a flag -/
def subtreeFlag : Flag → Option Flag
  | .style => some .subtreeStyle
  | .layout => some .subtreeLayout
  | .paint => some .subtreePaint
  | _ => none

/-- the flags of a node that has children with `flags` -/
def withSubtreeFlags (flags : DirtyFlags) : DirtyFlags :=
  flags ∪ (if .style ∈ flags then {.subtreeStyle} else ∅) ∪ (if .layout ∈ flags then {.subtreeLayout} else ∅) ∪
    (if .paint ∈ flags then {.subtreePaint} else ∅)

def markSubtreeDirty (flags : DirtyFlags) : Nat → NodeArena → NodeId → NodeArena
  | 0, a, _ => a
  | fuel + 1, a, id =>
    let children := a.children id
    children.foldl (markSubtreeDirty flags fuel)
      (a.addDirty id (if children = [] then flags else withSubtreeFlags flags))

def markDescendantsDirty (a : NodeArena) (id : NodeId) (flags : DirtyFlags) : NodeArena :=
  (a.children id).foldl (markSubtreeDirty flags a.nodes.length) a

/-! ## a new element -/

/-- the element of a definition, without children -/
def World.mount (w : World) (parent : Option NodeId) (p : DefProps) : World :=
  let id := w.arena.nextId
  let arena := w.arena.alloc (newElement parent (buildData p))
  { arena := if p.autofocus then { arena with pendingAutofocus := some id } else arena
    refs := match p.nodeRef with
      | some ref => Function.update w.refs ref (some id)
      | none => w.refs
    pendingMounts := w.pendingMounts ++ (p.onMount.map fun callback => (id, callback)).toList
    unmounts := w.unmounts }

/-- `child` after `prev`, as the last child of `id` so far -/
def NodeArena.linkBuilt (a : NodeArena) (id : NodeId) (prev : Option NodeId) (child : NodeId) : NodeArena :=
  let a := a.modify child fun e => { e with prevSibling := prev }
  let a := match prev with
    | none => a.modify id fun e => { e with firstChild := some child }
    | some prev => a.modify prev fun e => { e with nextSibling := some child }
  a.modify id fun e => { e with lastChild := some child }

mutual
def buildSubtree (w : World) (parent : Option NodeId) : ElementDef → World × NodeId
  | .mk p ds =>
    let id := w.arena.nextId
    let w := w.mount parent p
    -- a select takes its options from the definition
    if p.tag = .select then (w, id) else (buildChildren w id none ds, id)
/-- the children after `prev`; options are left out -/
def buildChildren (w : World) (id : NodeId) (prev : Option NodeId) : List ElementDef → World
  | [] => w
  | d :: ds =>
    if d.tag = .option then
      buildChildren w id prev ds
    else
      let built := buildSubtree w (some id) d
      let w := { built.1 with arena := built.1.arena.linkBuilt id prev built.2 }
      buildChildren w id (some built.2) ds
end

/-! ## the end of an element -/

/-- the element without its children: its reference is cleared first, and the callback fires when it is gone -/
def World.release (w : World) (id : NodeId) : World where
  arena := w.arena.dealloc id
  refs := match (w.arena.get id).bind fun e => e.nodeRef with
    | some ref => Function.update w.refs ref none
    | none => w.refs
  pendingMounts := w.pendingMounts
  unmounts := w.unmounts ++ (((w.arena.get id).bind fun e => e.onUnmount).map fun callback => (id, callback)).toList

def deallocBelow : Nat → World → NodeId → World
  | 0, w, _ => w
  | fuel + 1, w, id => ((w.arena.children id).foldl (deallocBelow fuel) w).release id

def deallocSubtree (w : World) (id : NodeId) : World := deallocBelow w.arena.nodes.length w id

/-! ## an element that is kept -/

def updateElementProperties (w : World) (id : NodeId) (p : DefProps) : World :=
  match w.arena.get id with
  | none => w
  | some e =>
    let c := changes e.toElementData p
    let a := w.arena.modify id fun e =>
      { e with toElementData := updateData e.toElementData p, dirty := e.dirty ∪ c.flags }
    -- selectors below the element can depend on it
    let a := if c.style then
        markAncestorsDirty (markDescendantsDirty a id {.style, .layout, .paint}) id {.subtreeStyle, .subtreeLayout}
      else a
    let a := if c.layout then markAncestorsDirty a id {.subtreeLayout} else a
    let a := if .paint ∈ a.dirtyOf id then markAncestorsDirty a id {.subtreePaint} else a
    { w with
      arena := a
      refs := match p.nodeRef with
        | some ref => Function.update w.refs ref (some id)
        | none => w.refs }

/-- both have a memo key, and the same -/
def memoHit (e : ElementData) (p : DefProps) : Bool := p.memoKey.isSome && e.memoKey = p.memoKey

/-! ## an element whose tag changed -/

/-- `new` in the place between `prev` and `next` -/
def NodeArena.relink (a : NodeArena) (parent prev next : Option NodeId) (new : NodeId) : NodeArena :=
  let a := a.modify new fun e => { e with prevSibling := prev, nextSibling := next }
  let a := match prev, parent with
    | some prev, _ => a.modify prev fun e => { e with nextSibling := some new }
    | none, some parent => a.modify parent fun e => { e with firstChild := some new }
    | none, none => a
  match next, parent with
  | some next, _ => a.modify next fun e => { e with prevSibling := some new }
  | none, some parent => a.modify parent fun e => { e with lastChild := some new }
  | none, none => a

/-- `e` is the element at `id` -/
def replaceSubtree (w : World) (id : NodeId) (e : Element) (d : ElementDef) : World × NodeId :=
  let built := buildSubtree (deallocSubtree w id) e.parent d
  ({ built.1 with arena := built.1.arena.relink e.parent e.prevSibling e.nextSibling built.2 }, built.2)

/-! ## the children -/

/-- the children before the first user child that are synthetic, the user children, and the other synthetic ones -/
def splitChildren (a : NodeArena) : Bool → List NodeId → List NodeId × List NodeId × List NodeId
  | _, [] => ([], [], [])
  | seenUser, c :: cs =>
    if (a.get c).any (·.synthetic) then
      let parts := splitChildren a seenUser cs
      if seenUser then (parts.1, parts.2.1, c :: parts.2.2) else (c :: parts.1, parts.2.1, parts.2.2)
    else
      let parts := splitChildren a true cs
      (parts.1, c :: parts.2.1, parts.2.2)

/-- the user children by their key; of two with one key the later comes first -/
def keyedOld (a : NodeArena) (users : List NodeId) : List (String × NodeId) :=
  (users.filterMap fun c => (a.get c).bind fun e => e.reconciliationKey.map fun key => (key, c)).reverse

def unkeyedOld (a : NodeArena) (users : List NodeId) : List NodeId :=
  users.filter fun c => (a.get c).any fun e => e.reconciliationKey.isNone

/-- the loop over the definitions -/
structure Matching where
  world : World
  /-- the old children matched so far -/
  used : List NodeId
  /-- the unkeyed ones that were not looked at yet -/
  unkeyed : List NodeId
  /-- the children so far -/
  matched : List NodeId

/-- the first candidate that is not used, and those after it -/
def nextUnkeyed (used : List NodeId) : List NodeId → Option NodeId × List NodeId
  | [] => (none, [])
  | c :: cs => if c ∈ used then nextUnkeyed used cs else (some c, cs)

/-- the old child for a definition, and the unkeyed ones that are left -/
def candidate (keyed : List (String × NodeId)) (used unkeyed : List NodeId) (p : DefProps) :
    Option NodeId × List NodeId :=
  match p.reconciliationKey with
  | some key => (keyed.lookup key, unkeyed)
  | none => nextUnkeyed used unkeyed

def Matching.find (m : Matching) (keyed : List (String × NodeId)) (p : DefProps) : Option NodeId × List NodeId :=
  candidate keyed m.used m.unkeyed p

/-- the old child is used up; `r` is what became of it -/
def Matching.keep (m : Matching) (old : NodeId) (r : World × NodeId) (unkeyed : List NodeId) : Matching :=
  ⟨r.1, old :: m.used, unkeyed, m.matched ++ [r.2]⟩

def structuralFlags : DirtyFlags := {.subtreeStyle, .subtreeLayout, .subtreePaint}

/-- a new child -/
def Matching.insert (m : Matching) (parent : NodeId) (d : ElementDef) (unkeyed : List NodeId) : Matching :=
  let built := buildSubtree m.world (some parent) d
  ⟨{ built.1 with arena := markAncestorsDirty built.1.arena built.2 structuralFlags }, m.used, unkeyed,
    m.matched ++ [built.2]⟩

/-- the old children that no definition matched -/
def removeUnmatched (used : List NodeId) : List NodeId → World → World
  | [], w => w
  | c :: cs, w =>
    removeUnmatched used cs
      (if c ∈ used then w else deallocSubtree { w with arena := markAncestorsDirty w.arena c structuralFlags } c)

/-- the siblings from the one after `prev` on -/
def stitch (parent : NodeId) (prev : Option NodeId) : List NodeId → NodeArena → NodeArena
  | [], a => a
  | c :: cs, a =>
    stitch parent (some c) cs
      (a.modify c fun e => { e with parent := some parent, prevSibling := prev, nextSibling := cs.head? })

/-- the children of `parent` become `final`, when they are others -/
def relinkChildren (a : NodeArena) (parent : NodeId) (old final : List NodeId) : NodeArena :=
  if final = old then
    a
  else
    stitch parent none final
      (a.modify parent fun e =>
        { e with firstChild := final.head?, lastChild := final.getLast?, dirty := e.dirty ∪ {.children} })

/-- the end of `reconcile_children`, after the loop over the definitions -/
def Matching.finish (m : Matching) (parent : NodeId) (old : List NodeId)
    (parts : List NodeId × List NodeId × List NodeId) : World :=
  let w := removeUnmatched m.used parts.2.1 m.world
  { w with arena := relinkChildren w.arena parent old (parts.1 ++ m.matched ++ parts.2.2) }

/-- the start of `reconcile_children` -/
def Matching.start (w : World) (users : List NodeId) : Matching := ⟨w, [], unkeyedOld w.arena users, []⟩

mutual
/-- the id that is live for the definition afterwards comes second -/
def reconcileInner (w : World) (id : NodeId) : ElementDef → World × NodeId
  | .mk p ds =>
    match w.arena.get id with
    | none => (w, id)
    | some e =>
      if e.tag ≠ p.tag then
        replaceSubtree w id e (.mk p ds)
      else if memoHit e.toElementData p then
        (w, id)
      else
        let w := updateElementProperties w id p
        if p.tag = .select then
          (w, id)
        else
          let old := w.arena.children id
          let parts := splitChildren w.arena false old
          let m := reconcileDefs id (keyedOld w.arena parts.2.1) (.start w parts.2.1) ds
          (m.finish id old parts, id)
/-- the loop over the definitions of the children -/
def reconcileDefs (parent : NodeId) (keyed : List (String × NodeId)) (m : Matching) : List ElementDef → Matching
  | [] => m
  | d :: ds =>
    let found := m.find keyed d.props
    match found.1 with
    | some old => reconcileDefs parent keyed (m.keep old (reconcileInner m.world old d) found.2) ds
    | none => reconcileDefs parent keyed (m.insert parent d found.2) ds
end

/-- the mount callbacks of the pass are in `pendingMounts` -/
def reconcile (w : World) (root : NodeId) (d : ElementDef) : World :=
  (reconcileInner { w with pendingMounts := [] } root d).1

end TerminalManager.Reconcile
