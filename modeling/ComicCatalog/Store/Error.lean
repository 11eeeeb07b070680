import ComicCatalog.Text.Quoted

/-! # Store failures

Why a store refuses a select or a row. Each cause carries what its message
needs; the wording is in one place.
-/

namespace ComicCatalog

/-- A refusal by the database itself. -/
inductive DatabaseFault
  | noSuchTable (name : String)
  /-- More values than a statement binds, with the statement and the place of the first
  placeholder that is too many. -/
  | tooManyVariables (statement : String) (offset : Nat)
  /-- An unknown column, with the statement and the place of the name in it. -/
  | noSuchColumn (name statement : String) (offset : Nat)
  /-- An unknown column among those a row is inserted with. -/
  | noColumnNamed (table name : String)
  | valueCount (table : String) (columns values : Nat)
  | patternTooComplex
  | notUnique (table column : String)
  | notNull (table column : String)
  | foreignKey
  | datatypeMismatch
  /-- Every row number is taken. -/
  | full
  | notADatabase
  | cannotOpen (path : String)
  /-- A fault that a source reports in its own words. -/
  | reported (message : String)
  deriving DecidableEq, Repr, Inhabited

/-- The words of a fault. -/
def DatabaseFault.message : DatabaseFault → String
  | .noSuchTable name => "no such table: " ++ name
  | .tooManyVariables statement offset =>
      "too many SQL variables in " ++ statement ++ " at offset " ++ toString offset
  | .noSuchColumn name statement offset =>
      "no such column: " ++ name ++ " in " ++ statement ++ " at offset " ++ toString offset
  | .noColumnNamed table name => "table " ++ table ++ " has no column named " ++ name
  | .valueCount _ columns values =>
      toString values ++ " values for " ++ toString columns ++ " columns"
  | .patternTooComplex => "LIKE or GLOB pattern too complex"
  | .notUnique table column => "UNIQUE constraint failed: " ++ table ++ "." ++ column
  | .notNull table column => "NOT NULL constraint failed: " ++ table ++ "." ++ column
  | .foreignKey => "FOREIGN KEY constraint failed"
  | .datatypeMismatch => "datatype mismatch"
  | .full => "database or disk is full"
  | .notADatabase => "file is not a database"
  | .cannotOpen path => "unable to open database file: " ++ path
  | .reported message => message

/-- A failure of a select. -/
inductive StoreError
  | database (fault : DatabaseFault)
  | invalidIdentifier (name : String)
  deriving DecidableEq, Repr, Inhabited

/-- The words of a failure. -/
def StoreError.message : StoreError → String
  | .database fault => "Database error: " ++ fault.message
  | .invalidIdentifier name => "Invalid identifier: " ++ Text.quoted name

end ComicCatalog
