import DesignTokens.File.Tree
import DesignTokens.Text.Utf8

/-! # Workspaces

A workspace is the tree below the current directory, from which relative paths are read, with the
absolute path of that directory. Paths that lead out of it lead nowhere. -/

namespace DesignTokens

structure Workspace where
  location : Path
  tree : FileTree

/-- Why the text of a file cannot be read. -/
inductive TextFault
  | file (e : FileError)
  | encoding (f : Text.Utf8Fault)
  deriving DecidableEq, Repr

def TextFault.message : TextFault → String
  | file e => e.message
  | encoding f => f.message

namespace Workspace

/-- The names that lead to a path from the top of the workspace. -/
def names (w : Workspace) (p : Path) : Except FileCause (List String) :=
  if p.isAbsolute then
    if p.root = w.location.root ∧ w.location.names.isPrefixOf p.names then
      w.tree.simplify [] (p.names.drop w.location.names.length)
    else .error .notFound
  else w.tree.simplify [] p.names

def find (w : Workspace) (p : Path) : Except FileCause FileTree := do w.tree.find (← w.names p)

def doesExist (w : Workspace) (p : Path) : Bool := (w.find p).isOk

def isFile (w : Workspace) (p : Path) : Bool := (w.find p).toOption.any (!·.isDirectory)

def isDirectory (w : Workspace) (p : Path) : Bool := (w.find p).toOption.any (·.isDirectory)

/-- The absolute path without double dots that a path stands for. -/
def resolve (w : Workspace) (p : Path) : Path :=
  let p := w.location.join p
  let back (front : List String) (n : String) : List String :=
    if n = ".." then front.dropLast else front ++ [n]
  ⟨p.root, p.names.foldl back []⟩

/-! ### Reading -/

def readBytes (w : Workspace) (p : Path) : Except FileError (List UInt8) :=
  match w.find p with
  | .ok (.file bytes) => .ok bytes
  | .ok (.directory _) => .error ⟨.isADirectory, p⟩
  | .error c => .error ⟨c, p⟩

/-- The text of a file, with line feeds for line ends of every kind. -/
def readText (w : Workspace) (p : Path) : Except TextFault (List Char) := do
  let bytes ← (w.readBytes p).mapError .file
  return Text.unifyNewlines (← (Text.decodeUtf8 bytes).mapError .encoding)

def filesBelow (w : Workspace) (p : Path) : List Path :=
  match w.find p with
  | .ok t => (t.files.map fun ns => p.join ⟨"", ns⟩).mergeSort Path.le
  | .error _ => []

/-! ### Writing -/

/-- Writes a file into a directory that exists. -/
def writeBytes (w : Workspace) (p : Path) (bytes : List UInt8) : Except FileError Workspace :=
  Except.mapError (⟨·, p⟩) do
    let ns ← w.names p
    if (w.tree.find ns).toOption.any (·.isDirectory) then throw .isADirectory
    return { w with tree := ← w.tree.put ns (.file bytes) }

def writeText (w : Workspace) (p : Path) (s : String) : Except FileError Workspace :=
  w.writeBytes p (Text.encodeUtf8 s)

/-- Makes a directory in one that exists. -/
def makeDirectory (w : Workspace) (p : Path) : Except FileCause Workspace := do
  let ns ← w.names p
  match w.tree.find ns with
  | .ok _ => throw .alreadyExists
  | .error _ => return { w with tree := ← w.tree.put ns .empty }

/-- Makes the directory with the given names below a root, and those that it lies in, unless they
exist. Directories that were made before a failure stay. -/
def makeDirectories (w : Workspace) (root : String) (names : List String) :
    Except FileError Unit × Workspace :=
  let p : Path := ⟨root, names⟩
  let unlessThere (w : Workspace) (cause : FileCause) : Except FileError Unit × Workspace :=
    (if w.isDirectory p then .ok () else .error ⟨cause, p⟩, w)
  match w.makeDirectory p with
  | .ok w => (.ok (), w)
  | .error .notFound =>
    if h : names = [] then (.error ⟨.notFound, p⟩, w)
    else
      have := List.length_pos_iff.2 h
      match w.makeDirectories root names.dropLast with
      | (.error e, w) => (.error e, w)
      | (.ok (), w) =>
        match w.makeDirectory p with
        | .ok w => (.ok (), w)
        | .error .notFound => (.error ⟨.notFound, p⟩, w)
        | .error c => unlessThere w c
  | .error c => unlessThere w c
termination_by names.length
decreasing_by simp; omega

/-- Makes the directory of a path, unless it exists. -/
def makeParent (w : Workspace) (p : Path) : Except FileError Unit × Workspace :=
  w.makeDirectories p.parent.root p.parent.names

/-- Removes a file, or a directory with all that is below it. -/
def remove (w : Workspace) (p : Path) : Except FileError Workspace :=
  Except.mapError (⟨·, p⟩) do
    return { w with tree := ← w.tree.erase (← w.names p) }

end Workspace

end DesignTokens
