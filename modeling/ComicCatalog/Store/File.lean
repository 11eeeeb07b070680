import ComicCatalog.Store.Database

/-! # Database files

A database is opened from the content of a file. An empty or new file is a database
without rows. How other files hold their rows, and where files can be, is left open.
-/

namespace ComicCatalog

/-- The files that databases are kept in. -/
class DatabaseFiles where
  /-- Whether there can be a file at a path. -/
  reaches : String → Bool
  /-- The database that a file with some content is. -/
  read : Bytes → Except DatabaseFault Database

namespace Path

/-- The steps of a path, between its slashes. -/
def steps (path : String) : List String :=
  (path.toList.splitOn '/').map String.ofList

/-- Whether a step stays in its directory or goes up. -/
def isWalk (step : String) : Bool :=
  step = "" || step = "." || step = ".."

/-- Whether a path leads to a directory on every disk. -/
def isDirectory (path : String) : Bool :=
  path ≠ "" && (steps path).all isWalk

/-- Whether a path names something in a directory that every disk has. -/
def isNearby (path : String) : Bool :=
  (steps path).dropLast.all isWalk && !((steps path).getLast?.all isWalk)

end Path

/-- A disk with nothing on it yet: its directories are those that every disk has, and
no file is a database. -/
instance DatabaseFiles.bare : DatabaseFiles where
  reaches := Path.isNearby
  read _ := .error .notADatabase

namespace Database

/-- Whether the database at a path is gone when it is closed: one without a file,
or one that is kept in memory on purpose. -/
def isPassing (path : String) : Bool :=
  path = "" || path = ":memory:"

/-- Open the database at a path whose file holds the given content. -/
def ofFile [DatabaseFiles] (path : String) (content : Bytes) : Except StoreError Database :=
  if isPassing path then .ok (empty true)
  else if !DatabaseFiles.reaches path then .error (.database (.cannotOpen path))
  else if content.isEmpty then .ok (empty true)
  else (DatabaseFiles.read content).mapError .database

/-- The database at a path after it has been closed and opened again. -/
def reopened (path : String) (db : Database) : Database :=
  if isPassing path then empty true else db

end Database

end ComicCatalog
