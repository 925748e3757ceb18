namespace AvroCompiler.Path

def isAbsolute (path : String) : Bool :=
  path.toList.head? = some '/'

def endsWithSlash (path : String) : Bool :=
  path.toList.getLast? = some '/'

/-- A path below another one. An absolute path stands for itself. -/
def join (base path : String) : String :=
  if isAbsolute path || base = "" then path
  else if endsWithSlash base then base ++ path
  else base ++ "/" ++ path

/-- Pieces between slashes, without empty ones and single dots. -/
def components (path : String) : List String :=
  (split path.toList).filter fun piece => piece ≠ "" ∧ piece ≠ "."
where
  split : List Char → List String
    | [] => [""]
    | c :: cs =>
      if c = '/' then "" :: split cs
      else
        match split cs with
        | [] => [String.singleton c]
        | piece :: pieces => (String.singleton c ++ piece) :: pieces

/-- What follows the last dot of a name. A dot at the very start does not count. -/
def extension? (name : String) : Option String :=
  let (ending, before) := name.toList.reverse.span (· ≠ '.')
  match before with
  | _ :: _ :: _ => some (String.ofList ending.reverse)
  | _ => none

def fileName? (path : String) : Option String :=
  (components path).getLast?

/-- A path that ends in a single dot, perhaps with slashes after it, names a directory. -/
def endsInDot (path : String) : Bool :=
  match path.toList.reverse.dropWhile (· = '/') with
  | ['.'] => true
  | '.' :: '/' :: _ => true
  | _ => false

/-- The path up to its last piece, without slashes and single dots after it. -/
def trimEnd (path : String) : String :=
  String.ofList (cut path.toList.reverse).reverse
where
  cut : List Char → List Char
    | '/' :: cs => cut cs
    | '.' :: '/' :: cs => cut cs
    | cs => cs

/-- The path with an extension more on its last piece, which has to be a name. -/
def addExtension? (path ending : String) : Option String :=
  match fileName? path with
  | none => none
  | some name => if name = ".." then none else some (trimEnd path ++ "." ++ ending)

end AvroCompiler.Path
