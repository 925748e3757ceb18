import AvroCompiler.Package.Basic
import AvroCompiler.Identifier
import AvroCompiler.Text.Blank

namespace AvroCompiler

structure RenderedFile where
  name : String
  contents : String
  deriving DecidableEq, Repr

def provenance (sources : List String) : String :=
  "// Code generated by avrogen. DO NOT EDIT." ++
    if sources = [] then "" else "\n// Source: " ++ " ".intercalate sources

/-- Sections with an empty line between them, then a line end. -/
def joinSections (sections : List String) : String :=
  "\n\n".intercalate sections ++ "\n"

def linesSection (lines : List String) : List String :=
  if lines = [] then [] else [joinLines lines]

def constantLine (name : String) (value : Nat) : String :=
  s!"pub const {name}: usize = {value};"

namespace File

def header (package : String) : String :=
  s!"//! Package `{package}`: generated types and wire codecs.\n" ++
    "#![allow(dead_code, unused_imports, unused_variables)]"

def render (file : File) (package : String) (sources : List String) : String :=
  joinSections <|
    [provenance sources, header package] ++
    linesSection (file.imports.keys.map fun path => s!"use {path};") ++
    linesSection (file.constants.entries.map fun (name, value) => constantLine name value) ++
    file.types.values ++
    file.routines.values

end File

/-- Cuts the file ending off a reversed name, as often as it is there. -/
def cutEnding : List Char → List Char
  | 's' :: 'r' :: '.' :: rest => cutEnding rest
  | name => name

def moduleOfFile (file : String) : String :=
  escapeKeyword (String.ofList (cutEnding file.toList.reverse).reverse)

namespace Package

def modules (pkg : Package) : List String :=
  pkg.files.keys.map moduleOfFile

def renderIndex (pkg : Package) (sources : List String) : String :=
  joinSections <|
    [provenance sources, s!"//! Package `{pkg.name}`."] ++
    linesSection (pkg.modules.map fun m => s!"pub mod {m};") ++
    linesSection (pkg.modules.map fun m => s!"pub use self::{m}::*;")

/-- All files in the order of their names. The index follows a file of the same name. -/
def render (pkg : Package) (sources : List String) : List RenderedFile :=
  let files := pkg.files.entries.map fun (name, file) =>
    RenderedFile.mk name (file.render pkg.name sources)
  let index := RenderedFile.mk indexFile (pkg.renderIndex sources)
  files.filter (fun f => f.name ≤ indexFile) ++ [index] ++ files.filter (fun f => indexFile < f.name)

end Package

end AvroCompiler
