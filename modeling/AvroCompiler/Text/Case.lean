namespace AvroCompiler

/-- Snake case, one character at a time. `spaced` holds after a lower case letter or a digit, where
a capital starts a new word. -/
def snakeChars (spaced : Bool) : List Char → List Char
  | [] => []
  | c :: cs =>
    if c.isUpper then
      if spaced then '_' :: c.toLower :: snakeChars false cs
      else c.toLower :: snakeChars false cs
    else if c = '-' ∨ c = ' ' then '_' :: snakeChars false cs
    else c :: snakeChars (c.isLower || c.isDigit) cs

def snakeCase (text : String) : String :=
  String.ofList (snakeChars false text.toList)

def isWordBreak (c : Char) : Bool :=
  c = '_' || c = '-' || c = ' '

def splitWords : List Char → List (List Char)
  | [] => [[]]
  | c :: cs =>
    if isWordBreak c then [] :: splitWords cs
    else
      match splitWords cs with
      | [] => [[c]]
      | w :: ws => (c :: w) :: ws

/-- A word starts with a capital. A word without lower case letters is lowered after it. -/
def capitalizeWord : List Char → List Char
  | [] => []
  | c :: cs =>
    c.toUpper :: if (c :: cs).any Char.isLower then cs else cs.map Char.toLower

def pascalChars (text : List Char) : List Char :=
  (splitWords text).flatMap capitalizeWord

def pascalCase (text : String) : String :=
  String.ofList (pascalChars text.toList)

def upperCase (text : String) : String :=
  String.ofList (text.toList.map Char.toUpper)

def lowerCase (text : String) : String :=
  String.ofList (text.toList.map Char.toLower)

end AvroCompiler
