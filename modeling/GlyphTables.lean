import GlyphTables.Text.Blank
import GlyphTables.Text.Lines
import GlyphTables.Text.CharacterSets
import GlyphTables.Identifier
import GlyphTables.Literal
import GlyphTables.Text.Utf8
import GlyphTables.Text.Quoted
import GlyphTables.Glyph
import GlyphTables.DataArray
import GlyphTables.Log
import GlyphTables.Table.Builder
import GlyphTables.Table.Editing
import GlyphTables.Library
import GlyphTables.Cpp.File
import GlyphTables.Cpp.Sink
import GlyphTables.Cpp.Emission
import GlyphTables.Cpp.Buffer
import GlyphTables.Pfm2sid
import GlyphTables.Compilation
import GlyphTables.Program
import GlyphTables.Main
import GlyphTables.Proofs.Lists
import GlyphTables.Proofs.Text.Layout
import GlyphTables.Proofs.Glyph.Reading
import GlyphTables.Proofs.Glyph.Packing
import GlyphTables.Proofs.Glyph.Printing
import GlyphTables.Proofs.Glyph.Order
import GlyphTables.Proofs.Identifier
import GlyphTables.Proofs.Table.WellNamed
import GlyphTables.Proofs.Table.Run
import GlyphTables.Proofs.Table.Traceless
import GlyphTables.Proofs.Table.Identifiers
import GlyphTables.Proofs.Table.Contents
import GlyphTables.Proofs.Table.Refusal
import GlyphTables.Proofs.Table.Drawings
import GlyphTables.Proofs.Library.Assembly
import GlyphTables.Proofs.Library.Discipline
import GlyphTables.Proofs.Library.Alone
import GlyphTables.Proofs.Cpp.Code
import GlyphTables.Proofs.Cpp.Reading
import GlyphTables.Proofs.Cpp.Names
import GlyphTables.Proofs.Cpp.Indexing
import GlyphTables.Proofs.Cpp.Linkage
import GlyphTables.Proofs.Cpp.Guard
import GlyphTables.Proofs.LetterCase
import GlyphTables.Proofs.Cpp.Writing
import GlyphTables.Proofs.Cpp.Cut
import GlyphTables.Proofs.Literal
import GlyphTables.Proofs.Literal.Spelling
import GlyphTables.Proofs.Cpp.Initializer
import GlyphTables.Proofs.Cpp.Composition
import GlyphTables.Proofs.Cpp.Includes
import GlyphTables.Proofs.Cpp.Width
import GlyphTables.Proofs.OutputPath
import GlyphTables.Proofs.OutputPath.Again
import GlyphTables.Proofs.FileTree
import GlyphTables.Proofs.Compilation
