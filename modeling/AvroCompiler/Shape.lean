import AvroCompiler.Identifier

namespace AvroCompiler

inductive Primitive where
  | null
  | boolean
  | int
  | long
  | float
  | double
  | bytes
  | string
  deriving DecidableEq, Repr

structure Fixed where
  name : String
  size : Nat
  deriving DecidableEq, Repr

/-- A named list of symbols; the wire value is the position of the symbol. -/
structure Enumeration where
  name : String
  symbols : List String
  deriving DecidableEq, Repr

inductive Shape where
  | primitive (kind : Primitive)
  | fixed (type : Fixed)
  | enumeration (type : Enumeration)
  | array (items : Shape)
  | map (values : Shape)
  | union (branches : List Shape)
  | record (name : String)
  deriving Repr, Inhabited

namespace Primitive

def ofName? : String → Option Primitive
  | "null" => some .null
  | "boolean" => some .boolean
  | "int" => some .int
  | "long" => some .long
  | "float" => some .float
  | "double" => some .double
  | "bytes" => some .bytes
  | "string" => some .string
  | _ => none

def canonicalName : Primitive → String
  | .null => "Null"
  | .boolean => "Bool"
  | .int => "Int"
  | .long => "Long"
  | .float => "Float"
  | .double => "Double"
  | .bytes => "Bytes"
  | .string => "String"

end Primitive

namespace Shape

mutual

def decEq : (a b : Shape) → Decidable (a = b)
  | .primitive a, .primitive b =>
    if h : a = b then isTrue (h ▸ rfl) else isFalse fun e => h (Shape.primitive.inj e)
  | .fixed a, .fixed b =>
    if h : a = b then isTrue (h ▸ rfl) else isFalse fun e => h (Shape.fixed.inj e)
  | .enumeration a, .enumeration b =>
    if h : a = b then isTrue (h ▸ rfl) else isFalse fun e => h (Shape.enumeration.inj e)
  | .array a, .array b =>
    match decEq a b with
    | isTrue h => isTrue (h ▸ rfl)
    | isFalse h => isFalse fun e => h (Shape.array.inj e)
  | .map a, .map b =>
    match decEq a b with
    | isTrue h => isTrue (h ▸ rfl)
    | isFalse h => isFalse fun e => h (Shape.map.inj e)
  | .union a, .union b =>
    match decEqList a b with
    | isTrue h => isTrue (h ▸ rfl)
    | isFalse h => isFalse fun e => h (Shape.union.inj e)
  | .record a, .record b =>
    if h : a = b then isTrue (h ▸ rfl) else isFalse fun e => h (Shape.record.inj e)
  | .primitive _, .fixed _ | .primitive _, .enumeration _ | .primitive _, .array _
  | .primitive _, .map _ | .primitive _, .union _ | .primitive _, .record _
  | .fixed _, .primitive _ | .fixed _, .enumeration _ | .fixed _, .array _
  | .fixed _, .map _ | .fixed _, .union _ | .fixed _, .record _
  | .enumeration _, .primitive _ | .enumeration _, .fixed _ | .enumeration _, .array _
  | .enumeration _, .map _ | .enumeration _, .union _ | .enumeration _, .record _
  | .array _, .primitive _ | .array _, .fixed _ | .array _, .enumeration _
  | .array _, .map _ | .array _, .union _ | .array _, .record _
  | .map _, .primitive _ | .map _, .fixed _ | .map _, .enumeration _
  | .map _, .array _ | .map _, .union _ | .map _, .record _
  | .union _, .primitive _ | .union _, .fixed _ | .union _, .enumeration _
  | .union _, .array _ | .union _, .map _ | .union _, .record _
  | .record _, .primitive _ | .record _, .fixed _ | .record _, .enumeration _
  | .record _, .array _ | .record _, .map _ | .record _, .union _ => isFalse nofun

def decEqList : (as bs : List Shape) → Decidable (as = bs)
  | [], [] => isTrue rfl
  | [], _ :: _ => isFalse nofun
  | _ :: _, [] => isFalse nofun
  | a :: as, b :: bs =>
    match decEq a b with
    | isFalse h => isFalse fun e => h (List.cons.inj e).1
    | isTrue h =>
      match decEqList as bs with
      | isTrue t => isTrue (h ▸ t ▸ rfl)
      | isFalse t => isFalse fun e => t (List.cons.inj e).2

end

instance : DecidableEq Shape := decEq

abbrev null : Shape := .primitive .null

def isNull (shape : Shape) : Bool :=
  shape = null

def isUnion : Shape → Bool
  | .union _ => true
  | _ => false

mutual

/-- The name under which everything that belongs to a shape is kept. -/
def canonicalName : Shape → String
  | .primitive kind => kind.canonicalName
  | .fixed type => type.name
  | .enumeration type => type.name
  | .array items => "Array" ++ canonicalName items
  | .map values => "Map" ++ canonicalName values
  | .union branches => "Union" ++ canonicalNames branches
  | .record name => name

def canonicalNames : List Shape → String
  | [] => ""
  | shape :: shapes => canonicalName shape ++ canonicalNames shapes

end

end Shape

namespace Fixed

def make (name : String) (size : Nat) : Except Error Fixed :=
  if Declarable name then .ok ⟨name, size⟩ else .error (.reservedName name)

end Fixed

namespace Enumeration

def variants (type : Enumeration) : List String :=
  type.symbols.map variantName

/-- The first symbol that names no variant, or the variant of an earlier symbol. -/
def symbolFault? : List String → List String → Option EnumFault
  | _, [] => none
  | seen, symbol :: symbols =>
    if pascalCase symbol = "" then some (.unnamed symbol)
    else if variantName symbol ∈ seen then some (.collision symbol (variantName symbol))
    else symbolFault? (variantName symbol :: seen) symbols

def make (name : String) (symbols : List String) : Except Error Enumeration :=
  if ¬Declarable name then .error (.reservedName name)
  else if symbols = [] then .error (.invalidEnum name .noSymbols)
  else
    match symbolFault? [] symbols with
    | some fault => .error (.invalidEnum name fault)
    | none => .ok ⟨name, symbols⟩

end Enumeration

namespace Shape

/-- The first branch that is a union, or that has the name of an earlier branch. -/
def branchFault? : List String → List Shape → Option UnionFault
  | _, [] => none
  | seen, branch :: branches =>
    if branch.isUnion then some .nested
    else if branch.canonicalName ∈ seen then some (.repeated branch.canonicalName)
    else branchFault? (branch.canonicalName :: seen) branches

def makeUnion (branches : List Shape) : Except Error Shape :=
  let shape := Shape.union branches
  if branches = [] then .error (.invalidUnion shape.canonicalName .noBranches)
  else
    match branchFault? [] branches with
    | some fault => .error (.invalidUnion shape.canonicalName fault)
    | none => .ok shape

end Shape

end AvroCompiler
