import GlyphTables.Table.Builder

/-!
# Libraries

A library is a list of tables that are generated together, for one target and in one namespace.

* `outcome_assemble` : a library comes about exactly if nothing speaks against it.
-/

namespace GlyphTables

/-- Tables that are generated together, with what stands around them in the two files. -/
structure Library where
  /-- The program that the generated code belongs to. -/
  target : String
  /-- The namespace of the generated code; there is none if this is empty. -/
  scope : String
  includes : List String
  /-- Text at the top of the generated header. -/
  preamble : String
  tables : List Table
  deriving DecidableEq

/-- Why tables make no library. -/
inductive LibraryError where
  | emptyTarget
  | duplicateTable (table : String)
  /-- The tables `first` and `second` both take `identifier`; they may be one table. -/
  | identifierCollision (first second identifier : String)
  deriving DecidableEq

def LibraryError.message : LibraryError → String
  | emptyTarget => "library target name is empty"
  | duplicateTable table =>
    "table " ++ Text.quote table ++ " repeats the name or prefix of another table"
  | identifierCollision first second identifier =>
    "tables " ++ Text.quote first ++ " and " ++ Text.quote second ++
      " both generate the identifier " ++ identifier

namespace Library

/-! ## Tables that stand in each other's way -/

/-- Whether two tables have the same name, or prefixes that letter case alone tells apart. -/
def sharesName (a b : Table) : Bool :=
  a.name == b.name || eqIgnoringCase a.metadata.symbolPrefix b.metadata.symbolPrefix

/-- The first table that shares a name with a table before it, where `before` have been seen. -/
def firstRepeat? (before : List Table) : List Table → Option Table
  | [] => none
  | table :: rest =>
    if before.any fun earlier => sharesName earlier table then some table
    else firstRepeat? (table :: before) rest

/-- The identifiers that the tables take, each with the name of its table. -/
def claims (tables : List Table) : List (String × String) :=
  tables.flatMap fun table => table.identifiers.map fun identifier => (identifier, table.name)

/-- The first identifier that is taken again, where `before` have been seen. -/
def firstCollision? (before : List (String × String)) :
    List (String × String) → Option LibraryError
  | [] => none
  | (identifier, owner) :: rest =>
    match before.lookup identifier with
    | some first => some (.identifierCollision first owner identifier)
    | none => firstCollision? ((identifier, owner) :: before) rest

/-! ## Assembling -/

/-- The first thing that speaks against a library of `tables` for `target`. -/
def objection? (target : String) (tables : List Table) : Option LibraryError :=
  if target.toList.all Text.isBlank then some .emptyTarget
  else match firstRepeat? [] tables with
    | some table => some (.duplicateTable table.name)
    | none => firstCollision? [] (claims tables)

def assembleRecord (library : Library) : Log.Record :=
  ⟨.debug, "resource::library", "assembled library " ++ library.target ++ " with " ++
    Literal.natural library.tables.length ++ " tables"⟩

/-- Accepts `library` unless something speaks against it. -/
def assemble (library : Library) : Logged LibraryError Library :=
  match objection? library.target library.tables with
  | some error => .fail error
  | none => ⟨[library.assembleRecord], .ok library⟩

/-- A library is accepted as it stands exactly if there is no objection to it. -/
theorem outcome_assemble (library : Library) :
    library.assemble.outcome =
      match objection? library.target library.tables with
      | some error => .error error
      | none => .ok library := by
  unfold assemble
  cases objection? library.target library.tables <;> rfl

/-! ## From tables still to be made -/

/-- What ends the making of a library: its table number `index`, or the library itself. -/
inductive BuildError where
  | table (index : Nat) (error : TableError)
  | library (error : LibraryError)

def BuildError.message : BuildError → String
  | table _ error => error.message
  | library error => error.message

/-- The error behind the error, if there is one. -/
def BuildError.cause? : BuildError → Option String
  | table _ error => error.cause?.map ShapeError.message
  | library _ => none

/-- Makes tables in order, the first of them with the number `index`; the first failure ends it. -/
def makeTables (index : Nat) :
    List (Logged TableError Table) → Logged BuildError (List Table)
  | [] => pure []
  | table :: rest => do
    let first ← table.mapError (.table index)
    let others ← makeTables (index + 1) rest
    return first :: others

/-- Makes the tables in order, and the library of them that `ofTables` describes. -/
def build (tables : List (Logged TableError Table)) (ofTables : List Table → Library) :
    Logged BuildError Library := do
  let tables ← makeTables 0 tables
  (ofTables tables).assemble.mapError .library

end Library

end GlyphTables
