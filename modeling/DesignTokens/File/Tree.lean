import DesignTokens.Path.Basic
import DesignTokens.Text.Quoted
import DesignTokens.Value.Table

/-! # File trees

A tree of directories with files at its leaves. What stands in a tree is named by the names that
lead to it from the top. -/

namespace DesignTokens

inductive FileTree
  | file (bytes : List UInt8)
  | directory (entries : List (String × FileTree))
  deriving Inhabited

/-- Why nothing can be done with a path. -/
inductive FileCause
  | notFound
  | alreadyExists
  | notADirectory
  | isADirectory
  deriving DecidableEq, Repr

namespace FileCause

/-- The number by which operating systems know the cause. -/
def number : FileCause → Nat
  | notFound => 2
  | alreadyExists => 17
  | notADirectory => 20
  | isADirectory => 21

def description : FileCause → String
  | notFound => "No such file or directory"
  | alreadyExists => "File exists"
  | notADirectory => "Not a directory"
  | isADirectory => "Is a directory"

end FileCause

/-- A cause and the path that was used. -/
structure FileError where
  cause : FileCause
  path : Path
  deriving DecidableEq, Repr

def FileError.message (e : FileError) : String :=
  "[Errno " ++ toString e.cause.number ++ "] " ++ e.cause.description ++ ": " ++
    Text.quoted e.path.text

namespace FileTree

def empty : FileTree := directory []

def isDirectory : FileTree → Bool
  | directory _ => true
  | file _ => false

/-- What the names lead to. -/
def find : FileTree → List String → Except FileCause FileTree
  | t, [] => .ok t
  | file _, _ :: _ => .error .notADirectory
  | directory es, n :: ns =>
    match Table.get? es n with
    | none => .error .notFound
    | some t => t.find ns

/-- The names without double dots, each of which leads back from a directory. -/
def simplify (t : FileTree) (front : List String) : List String → Except FileCause (List String)
  | [] => .ok front
  | n :: ns =>
    if n = ".." then do
      unless (← t.find front).isDirectory do throw .notADirectory
      if front.isEmpty then throw .notFound
      t.simplify front.dropLast ns
    else t.simplify (front ++ [n]) ns

/-- The tree with another one where the names lead to. All but the last must lead to
directories. -/
def put : FileTree → List String → FileTree → Except FileCause FileTree
  | _, [], new => .ok new
  | file _, _ :: _, _ => .error .notADirectory
  | directory es, [n], new => .ok (directory (Table.insert n new es))
  | directory es, n :: m :: ns, new =>
    match Table.get? es n with
    | none => .error .notFound
    | some t => do return directory (Table.insert n (← t.put (m :: ns) new) es)

/-- The tree without what the names lead to. -/
def erase : FileTree → List String → Except FileCause FileTree
  | _, [] => .ok empty
  | file _, _ :: _ => .error .notADirectory
  | directory es, n :: ns =>
    match Table.get? es n, ns with
    | none, _ => .error .notFound
    | some _, [] => .ok (directory (es.filter (·.1 ≠ n)))
    | some t, m :: ns => do return directory (Table.insert n (← t.erase (m :: ns)) es)

mutual

/-- The names that lead to the files of the tree. -/
def files : FileTree → List (List String)
  | file _ => [[]]
  | directory es => entriesFiles es
termination_by structural t => t

def entriesFiles : List (String × FileTree) → List (List String)
  | [] => []
  | e :: es => entryFiles e ++ entriesFiles es
termination_by structural es => es

def entryFiles : String × FileTree → List (List String)
  | (n, t) => t.files.map (n :: ·)
termination_by structural e => e

end

end FileTree

end DesignTokens
