import PasswordVault.Store.File

/-!
# Folders

A tree of folders with store files in it. Paths are lists of names from the root, which is a folder
that is always there.
-/

namespace PasswordVault

abbrev Path := List String

inductive FolderEntry where
  | folder
  | file (content : StoreFile)

/-- The entries of a tree by their paths. -/
structure Folder where
  entries : List (Path × FolderEntry)

namespace Folder

def empty : Folder := ⟨[]⟩

def pathOf (text : String) : Path := (text.splitOn "/").filter fun name => name ≠ "" ∧ name ≠ "."

def entry? (t : Folder) (path : Path) : Option FolderEntry :=
  if path = [] then some .folder else t.entries.lookup path

def remove (t : Folder) (path : Path) : Folder := ⟨t.entries.filter fun e => e.1 ≠ path⟩

/-- The tree with an entry; it replaces the one at its path. -/
def insert (t : Folder) (path : Path) (e : FolderEntry) : Folder := ⟨(path, e) :: (t.remove path).entries⟩

/-- The tree with all folders on the way to a path and the folder there. A file in the way is an
error. -/
def makeFolders (t : Folder) (path : Path) : Except StoreError Folder :=
  ((List.range path.length).map fun n => path.take (n + 1)).foldlM (fun t p =>
    match t.entry? p with
    | none => .ok (t.insert p .folder)
    | some .folder => .ok t
    | some (.file _) => .error (.io "a file is in the way")) t

/-- The file that is opened at a path: a new one where nothing is. A folder cannot be opened, nor a file
in a folder that is missing. -/
def openFile (t : Folder) (path : Path) : Except StoreError StoreFile :=
  match t.entry? path, t.entry? path.dropLast with
  | some (.file f), _ => .ok f
  | none, some .folder => .ok .blank
  | _, _ => .error (.storage .cannotOpen)

end Folder
end PasswordVault
