import GlyphTables.Log
import GlyphTables.Table
import GlyphTables.Table.Error

/-!
# Building a table

A builder collects entries one by one and refuses each entry that would break a naming rule. Along
with the entries it keeps the identifiers that they have taken.

* `outcome_insert` : an entry goes in exactly if nothing speaks against it;
* `outcome_build`  : a table is never empty.
-/

namespace GlyphTables.Table

/-- A table in the making: its entries so far, and the identifiers that they have taken. -/
structure Builder where
  metadata : Metadata
  entries : List Entry := []
  /-- The symbol of each entry, in the order of the entries. -/
  symbols : List String := []
  /-- The data name of each entry, in the order of the entries. -/
  dataNames : List String := []
  deriving DecidableEq

namespace Builder

def logTarget : String := "resource::table"

/-! ## Starting -/

/-- The first of the table's own names that is not an identifier. -/
def unusableName? (metadata : Metadata) : Option String :=
  [metadata.name, metadata.symbolPrefix].find? fun name => !isIdentifier name

/-- A builder without entries, unless the names of the table cannot be used. -/
def new (metadata : Metadata) : Except TableError Builder :=
  match unusableName? metadata with
  | some name => .error (.invalidIdentifier metadata.name name)
  | none => .ok { metadata }

def size (b : Builder) : Nat :=
  b.entries.length

/-! ## Inserting -/

/-- The entry that has taken `identifier`, where `taken` are the identifiers of the entries. -/
def owner? (b : Builder) (taken : List String) (identifier : String) : Option Entry :=
  (taken.zip b.entries).lookup identifier

/-- Whether an entry would get a constant that belongs to the enumeration itself. -/
def isReserved (b : Builder) (name : String) : Bool :=
  [countWord, enumWord].any fun word => b.metadata.symbol name == b.metadata.symbol word

/-- The first thing that speaks against the entry `name` with the data `array`. -/
def objection? (b : Builder) (name : String) (array : DataArray) : Option TableError :=
  let table := b.metadata.name
  let symbol := b.metadata.symbol name
  let dataName := b.metadata.dataName name array
  if !isIdentifier name then some (.invalidIdentifier table name)
  else if !isIdentifier array.name then some (.invalidIdentifier table array.name)
  else if array.values.isEmpty then some (.emptyArray table name)
  else if b.entries.any fun entry => entry.name == name then some (.duplicateName table name)
  else if b.metadata.kind == .enumerated && b.isReserved name then some (.reservedName table name)
  else match b.owner? b.symbols symbol with
    | some first => some (.collision table first.name name symbol)
    | none =>
      (b.owner? b.dataNames dataName).map fun first =>
        .collision table first.name name dataName

/-- Lets an entry in, with the identifiers that it takes; nothing is checked here. -/
def push (b : Builder) (name : String) (array : DataArray) : Builder :=
  { b with
    entries := b.entries ++ [⟨name, array⟩]
    symbols := b.symbols ++ [b.metadata.symbol name]
    dataNames := b.dataNames ++ [b.metadata.dataName name array] }

def insertRecord (b : Builder) (name : String) : Log.Record :=
  ⟨.trace, logTarget, b.metadata.name ++ ": inserted " ++ b.metadata.symbol name⟩

/-- Lets an entry in unless something speaks against it. -/
def insert (b : Builder) (name : String) (array : DataArray) : Logged TableError Builder :=
  match b.objection? name array with
  | some error => .fail error
  | none => ⟨[b.insertRecord name], .ok (b.push name array)⟩

/-- An entry goes in exactly if there is no objection to it. -/
theorem outcome_insert (b : Builder) (name : String) (array : DataArray) :
    (b.insert name array).outcome =
      match b.objection? name array with
      | some error => .error error
      | none => .ok (b.push name array) := by
  unfold insert
  cases b.objection? name array <;> rfl

/-! ## Inserting a glyph -/

/-- The data of a glyph: its packed rows. -/
def glyphArray (glyph : Glyph) : DataArray where
  name := "data"
  elementType := "uint8_t"
  values := glyph.pack.toList.map fun byte => (byte.toNat : Int)
  style := .byte

/-- Lets in the data of the picture `text`. A picture of a wrong shape is refused before its name is
looked at. -/
def insertGlyph (b : Builder) (name text : String) : Logged TableError Builder :=
  match Glyph.parse text with
  | .error error => .fail (.malformedGlyph b.metadata.name name error)
  | .ok glyph => b.insert name (glyphArray glyph)

/-- What an entry is made of. -/
inductive Content where
  | array (array : DataArray)
  | glyph (text : String)

/-- Lets in an entry of either kind. -/
def add (b : Builder) (name : String) : Content → Logged TableError Builder
  | .array array => b.insert name array
  | .glyph text => b.insertGlyph name text

/-! ## Finishing -/

def buildRecord (b : Builder) : Log.Record :=
  ⟨.debug, logTarget, "built table " ++ b.metadata.name ++ " with " ++ Literal.natural b.size ++
    " entries"⟩

/-- A table of what has been added so far, unless that is nothing. -/
def build (b : Builder) : Logged TableError Table :=
  if b.entries.isEmpty then .fail (.empty b.metadata.name)
  else ⟨[b.buildRecord], .ok ⟨b.metadata, b.entries⟩⟩

theorem outcome_build (b : Builder) :
    b.build.outcome =
      if b.entries = [] then .error (.empty b.metadata.name)
      else .ok ⟨b.metadata, b.entries⟩ := by
  unfold build
  cases h : b.entries <;> simp [Logged.fail]

/-! ## Sequences of steps -/

/-- What can be asked of a builder. -/
inductive Step where
  | add (name : String) (content : Content)
  /-- Makes a table of what has been added so far. -/
  | build

/-- What a step yields: a table if it was asked for, and the builder after the step. -/
structure Report where
  result : Logged TableError (Option Table)
  after : Builder

/-- A builder outlives a failing addition unchanged. -/
def Report.ofAdd (b : Builder) (result : Logged TableError Builder) : Report where
  result := ⟨result.records, result.outcome.map fun _ => none⟩
  after :=
    match result.outcome with
    | .ok b' => b'
    | .error _ => b

/-- What comes of one step. -/
def step (b : Builder) : Step → Report
  | .add name content => .ofAdd b (b.add name content)
  | .build => ⟨⟨b.build.records, b.build.outcome.map some⟩, b⟩

/-- The reports of the steps, one after the other. -/
def run (b : Builder) : List Step → List Report
  | [] => []
  | s :: steps => b.step s :: (b.step s).after.run steps

end Builder

/-! ## Tables in one go -/

/-- A table of the given entries; the first error ends it. -/
def ofContents (metadata : Metadata) (contents : List (String × Builder.Content)) :
    Logged TableError Table := do
  let start ← Logged.ofExcept (Builder.new metadata)
  let full ← contents.foldlM (fun b entry => b.add entry.1 entry.2) start
  full.build

/-- A table of pictures; the kind of the table is that of the metadata. -/
def ofGlyphs (metadata : Metadata) (glyphs : List (String × String)) : Logged TableError Table :=
  ofContents metadata (glyphs.map fun glyph => (glyph.1, .glyph glyph.2))

end GlyphTables.Table
