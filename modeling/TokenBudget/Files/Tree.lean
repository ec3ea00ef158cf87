import TokenBudget.Files.Access
import TokenBudget.Register

namespace TokenBudget

/-!
# File trees

Directories and files in memory.  A path is followed name by name through
`Place`: what lies where the path has led so far, with the directories around it,
so that two dots lead back and a change reaches the root again.  Each name but the
last must lead to a directory.  No name has more than 255 bytes, no path more than
4095, and no path holds a null character.

`FileTree.Session` gives programs access to the files of a tree.
-/

/-- A file with its content, or a directory with what is in it. -/
inductive FileNode where
  | file (content : ByteArray)
  | directory (entries : Register FileNode)

/-- The names from a directory down to an entry. -/
abbrev Location := List String

/-- What is in the root, and the directory where relative paths start. -/
structure FileTree where
  root : Register FileNode
  workingDirectory : Location

/-- What lies at the end of some names, and the directories that were passed. -/
structure Place where
  /-- What is there, if anything is. -/
  node : Option FileNode
  /-- What is in the directories around, the innermost first, each with the name that leads on. -/
  around : List (Register FileNode × String)

namespace FileNode

/-- What names lead to from a node. -/
def find? : FileNode → Location → Option FileNode
  | node, [] => some node
  | .file _, _ :: _ => none
  | .directory entries, name :: below =>
      match entries.find? name with
      | some node => node.find? below
      | none => none

end FileNode

namespace Place

/-- The longest name in bytes. -/
def longestName : Nat := 255

/-- The root of a tree. -/
def ofRoot (root : Register FileNode) : Place where
  node := some (.directory root)
  around := []

/-- What is in the directory at a place. -/
def entries (place : Place) : Except FileFault (Register FileNode) :=
  match place.node with
  | some (.directory entries) => .ok entries
  | some (.file _) => .error .notDirectory
  | none => .error .notFound

/-- The directory around a place; the root is around itself. -/
def outward (place : Place) : Place :=
  match place.around with
  | [] => place
  | (entries, _) :: around =>
      { node := some (.directory entries), around }

/-- The place under a name in the directory at a place. -/
def step
    (place : Place)
    (name : String) :
    Except FileFault Place := do
  let entries ← place.entries
  if Path.isFiller name then
    return place
  else if name = ".." then
    return place.outward
  else if longestName < name.utf8ByteSize then
    throw .nameTooLong
  else
    return { node := entries.find? name, around := (entries, name) :: place.around }

/-- The place that names lead to. -/
def follow
    (place : Place)
    (names : List String) :
    Except FileFault Place :=
  names.foldlM step place

/-- What is in the root once the innermost of some directories has other entries. -/
def enclose (entries : Register FileNode) :
    List (Register FileNode × String) → Register FileNode
  | [] => entries
  | (outer, name) :: around => enclose (outer.insert name (.directory entries)) around

/-- What is in the root once a node is put at the place; the root itself stays as it is. -/
def put
    (place : Place)
    (node : FileNode)
    (root : Register FileNode) :
    Register FileNode :=
  match place.around with
  | [] => root
  | (entries, name) :: around => enclose (entries.insert name node) around

/-- What is in the root once nothing is at the place; the root itself stays as it is. -/
def clear
    (place : Place)
    (root : Register FileNode) :
    Register FileNode :=
  match place.around with
  | [] => root
  | (entries, name) :: around => enclose (entries.erase name) around

end Place

namespace FileTree

/-- The longest path in bytes. -/
def longestPath : Nat := 4095

/-- The text can be a path at all. -/
def checkPath (path : String) : Except FileFault Unit :=
  if path.toList.contains '\x00' then
    .error .unusablePath
  else if longestPath < path.utf8ByteSize then
    .error .nameTooLong
  else if path = "" then
    .error .notFound
  else
    .ok ()

/-- The names from the root that lead to where a path starts. -/
def startOf
    (tree : FileTree)
    (path : String) :
    Location :=
  if Path.isAbsolute path then [] else tree.workingDirectory

/-- The place that names lead to from where a path starts. -/
def locateNames
    (tree : FileTree)
    (path : String)
    (names : List String) :
    Except FileFault Place := do
  checkPath path
  (Place.ofRoot tree.root).follow (tree.startOf path ++ names)

/-- The place of a path; nothing need be there, except directories on the way. -/
def locate
    (tree : FileTree)
    (path : String) :
    Except FileFault Place :=
  tree.locateNames path (Path.names path)

/-- The file or directory under a path. -/
def node
    (tree : FileTree)
    (path : String) :
    Except FileFault FileNode := do
  match (← tree.locate path).node with
  | some node => .ok node
  | none => .error .notFound

/--
The place of a file to be made or replaced under a path: the last name of the
path must be one, and a directory must lie around it.
-/
def placeFile
    (tree : FileTree)
    (path : String) :
    Except FileFault Place := do
  let place ← tree.locate path
  match (Path.names path).getLast? with
  | none => .error .notFound
  | some last =>
      if Path.isFiller last || last = ".." then
        .error .isDirectory
      else
        match place.node with
        | some (.directory _) => .error .isDirectory
        | _ => .ok place

/-- The text of a file under a path. -/
def readText
    (tree : FileTree)
    (path : String) :
    Except FileFault String := do
  match ← tree.node path with
  | .directory _ => .error .isDirectory
  | .file content =>
      match String.fromUTF8? content with
      | some text => .ok text
      | none => .error .notText

/-- The tree with a new directory under a path. -/
def makeDirectory
    (tree : FileTree)
    (path : String) :
    Except FileFault FileTree := do
  let names := ((Path.names path).reverse.dropWhile fun name => name = "").reverse
  let place ← tree.locateNames path names
  match names.getLast? with
  | none => .error .alreadyExists
  | some last =>
      if last = "." || last = ".." then
        .error .alreadyExists
      else
        match place.node with
        | some _ => .error .alreadyExists
        | none => .ok { tree with root := place.put (.directory .empty) tree.root }

/-- The tree with a text in the file under a path. -/
def writeText
    (tree : FileTree)
    (path : String)
    (text : String) :
    Except FileFault FileTree := do
  let place ← tree.placeFile path
  .ok { tree with root := place.put (.file text.toUTF8) tree.root }

/-- The tree with the file under one path moved to another. -/
def rename
    (tree : FileTree)
    (source target : String) :
    Except FileFault FileTree := do
  let origin ← tree.locate source
  match origin.node with
  | some (.file content) => do
      let without := { tree with root := origin.clear tree.root }
      let destination ← without.placeFile target
      .ok { without with root := destination.put (.file content) without.root }
  | some (.directory _) => .error .isDirectory
  | none => .error .notFound

/-- The tree without the file under a path. -/
def remove
    (tree : FileTree)
    (path : String) :
    FileTree :=
  match tree.locate path with
  | .error _ => tree
  | .ok place =>
      match place.node with
      | some (.file _) => { tree with root := place.clear tree.root }
      | _ => tree

/-- A computation on the files of a tree. -/
abbrev Session := StateM FileTree

/-- Carry out a change; one that fails leaves the tree as it was. -/
def change (attempt : FileTree → Except FileFault FileTree) : Session (Except FileFault Unit) :=
  fun tree =>
    match attempt tree with
    | .ok changed => (.ok (), changed)
    | .error fault => (.error fault, tree)

instance : FileAccess Session where
  pathExists path tree :=
    (match tree.node path with
      | .ok _ => true
      | .error _ => false, tree)
  isDirectory path tree :=
    (match tree.node path with
      | .ok (.directory _) => true
      | _ => false, tree)
  readText path tree :=
    (tree.readText path, tree)
  makeDirectory path :=
    change fun tree => tree.makeDirectory path
  writeText path text :=
    change fun tree => tree.writeText path text
  rename source target :=
    change fun tree => tree.rename source target
  remove path tree :=
    ((), tree.remove path)

end FileTree

end TokenBudget
