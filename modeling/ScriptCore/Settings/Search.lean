import ScriptCore.Settings.Document

/-!
# Finding settings

The settings of a directory are those of the nearest file with one of the
known names, in the directory or above it.
-/

namespace ScriptCore

abbrev Path := List String

inductive FileNode where
  | file (content : String)
  | directory
deriving Repr

/-- Files and directories under a root.  Directories that hold files need not be listed. -/
structure FileTree where
  root : String
  nodes : List (Path × FileNode)

/-- Follow one part of a text; none if it leads above the root. -/
def Path.follow (path : Path) (part : String) : Option Path :=
  if part.isEmpty || part == "." then some path
  else if part == ".." then (if path.isEmpty then none else some path.dropLast)
  else some (path ++ [part])

/-- The path that a text denotes; none if it leads above the root. -/
def Path.ofText (text : String) : Option Path :=
  ((text.split '/').toList.map (·.copy)).foldlM Path.follow []

def Path.upward (path : Path) : List Path :=
  ((List.range (path.length + 1)).map fun n => path.take n).reverse

namespace FileTree

def display (t : FileTree) (path : Path) : String :=
  "/".intercalate (t.root :: path)

def get? (t : FileTree) (path : Path) : Option FileNode :=
  match t.nodes.lookup path with
  | some node => some node
  | none =>
      if path.isEmpty || t.nodes.any fun e => path.isPrefixOf e.1 then some .directory else none

def leadsThroughFile (t : FileTree) (path : Path) : Bool :=
  (Path.upward path.dropLast).any fun p =>
    match t.get? p with
    | some (.file _) => true
    | _ => false

def read (t : FileTree) (path : Path) : Except Error String :=
  let name := t.display path
  match t.get? path with
  | some (.file content) => .ok content
  | some .directory => .error (.plain ("read " ++ name ++ ": is a directory"))
  | none =>
      let reason :=
        if t.leadsThroughFile path then "not a directory" else "no such file or directory"
      .error (.plain ("open " ++ name ++ ": " ++ reason))

end FileTree

namespace Settings

def fileNames : List String := ["tessera.yaml", "tessera.yml"]

def fileIn? (t : FileTree) (directory : Path) : Option Path :=
  (fileNames.map fun name => directory ++ [name]).find? fun path => (t.get? path).isSome

def find? (t : FileTree) (directory : Path) : Option Path :=
  (Path.upward directory).findSome? (fileIn? t)

def load (t : FileTree) (path : Path) : Except Error Settings := do
  let name := t.display path
  let content ← Error.inContext ("reading config " ++ name) (t.read path)
  parse content name

end Settings
end ScriptCore
