import TarHeader.FileView

/- Files in memory. A file is found by its place, the names from the root down to it; a path
   leads to a place from the root or from the working directory. On the way links are followed,
   to a limit, and every step is taken from a directory: a path that goes on after a file, if
   only by a slash, leads nowhere. `FileTree.view` is what entries see of it. -/
namespace TarHeader

inductive FileNode where
  | file (size : UInt64) (modified : Instant)
  | directory
  | link (target : Text)
  | device

/-- The names of the directories above a file and of the file, from the root down. -/
abbrev Place := List Text

structure FileTree where
  /-- All files but the root. -/
  nodes : List (Place × FileNode)
  workDir : Place

namespace FileTree

/-- How many links one path may lead through. -/
def maxLinks : Nat := 40

def node? (t : FileTree) (place : Place) : Option FileNode :=
  if place = [] then some .directory else t.nodes.lookup place

/-- The tree with a node at a place, instead of the one that was there. -/
def insert (t : FileTree) (place : Place) (node : FileNode) : FileTree :=
  { t with nodes := (place, node) :: t.nodes.filter (·.1 ≠ place) }

/-- The tree without a place and all places below it. -/
def erase (t : FileTree) (place : Place) : FileTree :=
  { t with nodes := t.nodes.filter fun node => !place.isPrefixOf node.1 }

/-- Puts a character in front of the first of some names. -/
def consFirst (c : Char) : List Text → List Text
  | [] => [[c]]
  | name :: names => (c :: name) :: names

/-- What stands between the slashes of a path. -/
def split : Text → List Text
  | [] => [[]]
  | c :: rest => if c = '/' then [] :: split rest else consFirst c (split rest)

/-- The steps that a path takes. A slash at its end is a step that stays. -/
def steps (path : Text) : List Text :=
  let names := (split path).filter (· ≠ [])
  if path.getLast? = some '/' then names ++ [['.']] else names

/-- Where a path starts. -/
def start (here : Place) (path : Text) : Place := if path.head? = some '/' then [] else here

/-- The place that some steps lead to. At the last of them nothing need be: the place is free
    then. Through a link at the last step only if `follow` is set. -/
def walk (t : FileTree) (follow : Bool) (links : Nat) (here : Place) (todo : List Text) :
    Except FileFault Place :=
  match todo with
  | [] => .ok here
  | step :: rest =>
    match t.node? here with
    | some .directory =>
      if step = ['.'] then t.walk follow links here rest
      else if step = ['.', '.'] then t.walk follow links here.dropLast rest
      else
        let next := here ++ [step]
        match t.node? next with
        | none => if rest = [] then .ok next else .error .notFound
        | some (.link target) =>
          if rest = [] ∧ follow = false then .ok next
          else match links with
            | 0 => .error .linkLoop
            | links + 1 => t.walk follow links (start here target) (steps target ++ rest)
        | some _ => t.walk follow links next rest
    | some _ => .error .notADirectory
    | none => .error .notFound
termination_by (links, todo.length)

/-- The place a path names, free or not. -/
def locate (t : FileTree) (follow : Bool) (path : Text) : Except FileFault Place :=
  if path = [] then .error .notFound
  else t.walk follow maxLinks (start t.workDir path) (steps path)

/-- The place of the file behind a path. -/
def resolve (t : FileTree) (follow : Bool) (path : Text) : Except FileFault Place := do
  let place ← t.locate follow path
  if (t.node? place).isNone then throw .notFound
  return place

/-- Takes some steps as through directories, and makes one wherever nothing is. A link that leads
    nowhere is something. -/
def makeSteps (t : FileTree) (here : Place) : List Text → Except FileFault FileTree
  | [] =>
    match t.node? here with
    | some .directory => .ok t
    | _ => .error .alreadyExists
  | step :: rest => do
    let next ← t.walk false maxLinks here [step]
    if (t.node? next).isNone then (t.insert next .directory).makeSteps next rest
    else
      let next ← t.walk true maxLinks here [step]
      if (t.node? next).isNone then throw .alreadyExists
      t.makeSteps next rest

/-- Makes a directory and those above it that are missing. -/
def makeDirectory (t : FileTree) (path : Text) : Except FileFault FileTree :=
  t.makeSteps (start t.workDir path) (steps path)

/-- Makes a file, or replaces one. Behind a link that leads to a free place the file is made
    there; a device stays what it is. -/
def makeFile (t : FileTree) (path : Text) (size : UInt64) (modified : Instant) :
    Except FileFault FileTree := do
  let place ← t.locate true path
  match t.node? place with
  | some .directory => throw .isADirectory
  | some .device => return t
  | _ => return t.insert place (.file size modified)

def makeLink (t : FileTree) (path target : Text) : Except FileFault FileTree := do
  let place ← t.locate false path
  if (t.node? place).isSome then throw .alreadyExists
  return t.insert place (.link target)

/-- Removes a file, or a directory with all that is in it. -/
def remove (t : FileTree) (path : Text) : Except FileFault FileTree := do
  return t.erase (← t.resolve false path)

def statAt (t : FileTree) (place : Place) : Except FileFault FileStat :=
  match t.node? place with
  | some (.file size modified) => .ok { kind := .regular, size, modified }
  | some .directory => .ok { kind := .directory, size := 0, modified := .ofSeconds 0 }
  | some .device => .ok { kind := .special, size := 0, modified := .ofSeconds 0 }
  | some (.link _) | none => .error .notFound

/-- The names in a directory. -/
def namesIn (t : FileTree) (place : Place) : List Text :=
  t.nodes.filterMap fun node => if node.1.dropLast = place then node.1.getLast? else none

/-- What entries see of the tree. -/
def view (t : FileTree) : FileView where
  stat path := do t.statAt (← t.resolve true path)
  children path := do return t.namesIn (← t.resolve true path)

/-- A root with the null device, and an empty working directory. -/
def scratch : FileTree where
  nodes := [([['d', 'e', 'v']], .directory),
    ([['d', 'e', 'v'], ['n', 'u', 'l', 'l']], .device),
    ([['w', 'o', 'r', 'k']], .directory)]
  workDir := [['w', 'o', 'r', 'k']]

end FileTree

end TarHeader
