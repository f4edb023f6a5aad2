import SoftwareHub.Python.Exceptions
import SoftwareHub.Python.PurePath
import SoftwareHub.Tree.Path

/-! Directory trees and database files as the backup service sees them. -/
namespace SoftwareHub.Backup

open SoftwareHub.Python SoftwareHub.Tree

/-- What a symbolic link resolves to. -/
inductive LinkTarget where
  | directory
  | file
  | dangling
  deriving DecidableEq, Repr

/-- A directory entry that is no directory. -/
inductive Leaf where
  | file (content : Bytes)
  | symlink (target : LinkTarget)
  | special
  deriving DecidableEq, Repr

abbrev Directory := Forest PyStr Leaf

/-- What a name of a directory stands for. -/
abbrev Entry := Node PyStr Leaf

/-- `path.is_dir()`, which follows links. -/
def isDir : Option Entry → Bool
  | some (.dir _) => true
  | some (.leaf (.symlink .directory)) => true
  | _ => false

/-- `path.is_symlink()`. -/
def isSymlink : Option Entry → Bool
  | some (.leaf (.symlink _)) => true
  | _ => false

/-- `path.exists()`, which follows links. -/
def pathExists : Option Entry → Bool
  | none => false
  | some (.leaf (.symlink .dangling)) => false
  | some _ => true

/-- The leaf is a regular file. -/
def Leaf.IsRegular : Leaf → Prop
  | .file _ => True
  | _ => False

instance : DecidablePred Leaf.IsRegular
  | .file _ => .isTrue trivial
  | .symlink _ => .isFalse id
  | .special => .isFalse id

/-- Whether a path below a directory leads through a symbolic link. -/
def throughLink : Directory → List PyStr → Bool
  | tree, name :: next :: path => match tree.find name with
    | some (.leaf (.symlink _)) => true
    | some (.dir sub) => throughLink sub (next :: path)
    | _ => false
  | _, _ => false

/-- The content of a regular file. What lies beyond symbolic links is not part
of the tree and comes from `beyond`. -/
def regularFile? (beyond : List PyStr → Option Bytes) (tree : Directory) (path : List PyStr) :
    Option Bytes :=
  match tree.node? path with
  | some (.leaf (.file content)) => some content
  | some _ => none
  | none => if throughLink tree path then beyond path else none

/-- A SQLite database: the main file and its two side files. -/
structure DatabaseFiles where
  main : Option Leaf
  wal : Option Leaf
  shm : Option Leaf
  deriving DecidableEq, Repr

/-- The name of the database in a backup. -/
def databaseName : PyStr := py "software-hub.sqlite3"

/-- The database files of a backup directory. -/
def databaseFiles (tree : Directory) : DatabaseFiles where
  main := tree.file? [py "database", databaseName]
  wal := tree.file? [py "database", databaseName ++ py "-wal"]
  shm := tree.file? [py "database", databaseName ++ py "-shm"]

def DatabaseFiles.ofMain (content : Bytes) : DatabaseFiles := ⟨some (.file content), none, none⟩

/-- What SQLite answers. `none` is a `sqlite3.Error`, `some none` an empty
result. `backup` is the content of the copy, a single file in rollback mode.
`opened` is what is there after a connection with `mode=ro`: of a database in
WAL mode such a connection makes the side files and cannot remove them, in
rollback mode it makes none. -/
structure Sqlite where
  integrityCheck : DatabaseFiles → Option (Option PyStr)
  schemaVersion : DatabaseFiles → Option (Option PyStr)
  backup : DatabaseFiles → Option Bytes
  opened : DatabaseFiles → DatabaseFiles
  opened_main : ∀ files, (opened files).main = files.main
  opened_backup : ∀ files copy, backup files = some copy → opened (.ofMain copy) = .ofMain copy

/-- A side file in the folder of its database; what has not changed is not written. -/
def putSideFile (name : PyStr) (before after : Option Leaf) (folder : Directory) : Directory :=
  if after = before then folder else folder.put name (after.map .leaf)

/-- A backup directory after its database has been opened for reading. -/
def Sqlite.openedIn (sqlite : Sqlite) (tree : Directory) : Directory :=
  let before := databaseFiles tree
  let after := sqlite.opened before
  match tree.find (py "database") with
  | some (.dir folder) =>
      if after = before then tree
      else tree.put (py "database") (some (.dir (putSideFile (databaseName ++ py "-shm") before.shm after.shm
        (putSideFile (databaseName ++ py "-wal") before.wal after.wal folder))))
  | _ => tree

end SoftwareHub.Backup
