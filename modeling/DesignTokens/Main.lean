import DesignTokens.Cli.Run

/-! # The program

The tree below the current directory is read, the command is run on it, and the files that it
changed are written. -/

namespace DesignTokens

/-- What an entry of a directory names; what cannot be read is left out. -/
partial def loadEntry? (e : IO.FS.DirEntry) : IO (Option (String × FileTree)) := do
  match ← e.path.readDir.toBaseIO with
  | .ok entries =>
    let loaded ← entries.toList.mapM loadEntry?
    return some (e.fileName, .directory (loaded.filterMap id))
  | .error _ =>
    match ← (IO.FS.readBinFile e.path).toBaseIO with
    | .ok bytes => return some (e.fileName, .file bytes.toList)
    | .error _ => return none

/-- The workspace at the current directory. -/
def loadWorkspace : IO Workspace := do
  let here ← IO.currentDir
  let loaded ← (← here.readDir).toList.mapM loadEntry?
  return ⟨Path.ofString here.toString, .directory (loaded.filterMap id)⟩

def fileAt? (t : FileTree) (names : List String) : Option (List UInt8) :=
  match t.find names with
  | .ok (.file bytes) => some bytes
  | _ => none

/-- Writes the files that differ from those of an older tree. -/
def saveChanges (old new : FileTree) : IO Unit := do
  for names in new.files do
    if let some bytes := fileAt? new names then
      if fileAt? old names != some bytes then
        IO.FS.createDirAll ("/".intercalate ("." :: names.dropLast))
        IO.FS.writeBinFile ("/".intercalate names) ⟨bytes.toArray⟩

end DesignTokens

open DesignTokens in
def main (args : List String) : IO UInt32 := do
  match Cli.readInvocation args with
  | .error f =>
    IO.eprintln ("Error: " ++ f.message)
    return 2
  | .ok i =>
    let w ← loadWorkspace
    let (o, after) := Cli.run w i.command
    saveChanges w.tree after.tree
    IO.print o.out
    IO.eprint o.err
    if let some c := o.crash then IO.eprintln c.message
    return o.status.toUInt32
