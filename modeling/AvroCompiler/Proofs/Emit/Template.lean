import AvroCompiler.Proofs.Text.Lines

namespace AvroCompiler

inductive Token where
  | word (letters : List Char)
  | sign (c : Char)
  deriving DecidableEq, Repr

namespace Token

/-- The character belongs to a word. So does the sign in the raw spelling of a keyword. -/
def isLetter (c : Char) : Bool :=
  c.isAlphanum || c = '_' || c = '#'

/-- The text is one token. -/
def IsSpelled (text : String) : Prop :=
  text ≠ "" ∧ ∀ c ∈ text.toList, isLetter c = true

def ofLetters (letters : List Char) : List Token :=
  if letters = [] then [] else [.word letters]

/-- Blanks keep words apart and are nothing else. -/
def ofSign (c : Char) : List Token :=
  if c = ' ' ∨ c = '\n' then [] else [.sign c]

/-- The tokens of a text behind the first letters of a word. -/
def readFrom (letters : List Char) : List Char → List Token
  | [] => ofLetters letters
  | c :: text =>
    if isLetter c then readFrom (letters ++ [c]) text
    else ofLetters letters ++ ofSign c ++ readFrom [] text

theorem readFrom_sign {c : Char} (sign : isLetter c = false) (letters text : List Char) :
    readFrom letters (c :: text) = ofLetters letters ++ readFrom [] (c :: text) := by
  simp [readFrom, sign, ofLetters]

theorem readFrom_append {c : Char} (sign : isLetter c = false) (letters first rest : List Char) :
    readFrom letters (first ++ c :: rest) = readFrom letters first ++ readFrom [] (c :: rest) := by
  induction first generalizing letters with
  | nil => exact readFrom_sign sign letters rest
  | cons d first ih =>
    rw [List.cons_append, readFrom, readFrom]
    split
    · exact ih _
    · rw [ih, List.append_assoc (ofLetters letters ++ ofSign d)]

theorem readFrom_between {c d : Char} (hc : isLetter c = false) (hd : isLetter d = false)
    (left text right : List Char) :
    readFrom [] (left ++ c :: (text ++ d :: right)) =
      readFrom [] left ++ (ofSign c ++ (readFrom [] text ++ readFrom [] (d :: right))) := by
  have first : readFrom [] (c :: text) = ofSign c ++ readFrom [] text := by
    simp [readFrom, hc, ofLetters]
  rw [readFrom_append hc, ← List.cons_append, readFrom_append hd, first, List.append_assoc]

theorem readFrom_letters {word : List Char} (h : ∀ c ∈ word, isLetter c = true)
    (letters rest : List Char) : readFrom letters (word ++ rest) = readFrom (letters ++ word) rest := by
  induction word generalizing letters with
  | nil => rw [List.nil_append, List.append_nil]
  | cons c word ih =>
    obtain ⟨first, others⟩ := List.forall_mem_cons.mp h
    rw [List.cons_append, readFrom, if_pos first, ih others, List.append_assoc, List.singleton_append]

/-- The text ends here or goes on with something that belongs to no word. -/
def breaks : List Char → Bool
  | [] => true
  | c :: _ => !isLetter c

theorem readFrom_word {word : String} (h : IsSpelled word) {rest : List Char}
    (ends : breaks rest = true) :
    readFrom [] (word.toList ++ rest) = .word word.toList :: readFrom [] rest := by
  obtain ⟨nonempty, letters⟩ := h
  have one : ofLetters word.toList = [.word word.toList] :=
    if_neg fun eq => nonempty (String.toList_eq_nil_iff.mp eq)
  rw [readFrom_letters letters, List.nil_append]
  cases rest with
  | nil => exact one
  | cons c rest =>
    rw [readFrom_sign (by simpa [breaks] using ends), one, List.singleton_append]

end Token

def tokens (text : String) : List Token :=
  Token.readFrom [] text.toList

theorem tokens_of_isSpelled {word : String} (h : Token.IsSpelled word) :
    tokens word = [.word word.toList] := by
  have alone := Token.readFrom_word h (show Token.breaks [] = true from rfl)
  rwa [List.append_nil] at alone

def linesText (lines : List String) : List Char :=
  lines.flatMap fun line => '\n' :: line.toList

def lineTokens (lines : List String) : List Token :=
  Token.readFrom [] (linesText lines)

theorem lineTokens_append (first rest : List String) :
    lineTokens (first ++ rest) = lineTokens first ++ lineTokens rest := by
  unfold lineTokens linesText
  rw [List.flatMap_append]
  cases rest with
  | nil => simp [Token.readFrom, Token.ofLetters]
  | cons line rest => exact Token.readFrom_append (by decide) [] _ _

namespace Template

open Token (isLetter IsSpelled readFrom breaks)

/-- Puts words in the marks of a text. -/
def fillText : List Char → List String → List Char
  | [], _ => []
  | '@' :: text, word :: words => word.toList ++ fillText text words
  | c :: text, words => c :: fillText text words

def fill : List Token → List String → List Token
  | [], _ => []
  | .sign '@' :: code, word :: words => .word word.toList :: fill code words
  | token :: code, words => token :: fill code words

/-- The words in the places of the marks. -/
def read : List Token → List Token → Option (List String)
  | [], [] => some []
  | .sign '@' :: template, .word letters :: code =>
    (read template code).map (String.ofList letters :: ·)
  | token :: template, token' :: code => if token = token' then read template code else none
  | _, _ => none

def readWith (template : String) (code : List Token) : Option (List String) :=
  read (tokens template) code

/-- Whether the text ends here or goes on with neither a letter nor a mark. -/
def isGap : List Char → Bool
  | [] => true
  | c :: _ => !isLetter c && c ≠ '@'

/-- Whether the marks of a text stand apart from letters and from each other. The text is behind no
letter if it is `fresh`. -/
def isLoose (fresh : Bool) : List Char → Bool
  | [] => true
  | c :: text =>
    if c = '@' then fresh && isGap text && isLoose true text else isLoose (!isLetter c) text

theorem breaks_fillText {text : List Char} (gap : isGap text = true) (words : List String) :
    breaks (fillText text words) = true := by
  cases text with
  | nil => rfl
  | cons c text =>
    simp only [isGap, Bool.and_eq_true, decide_eq_true_eq] at gap
    obtain ⟨sign, plain⟩ := gap
    rw [fillText]
    · exact sign
    · intro word others _ mark
      exact absurd mark plain

theorem fill_eq_nil_iff (code : List Token) (words : List String) : fill code words = [] ↔ code = [] := by
  fun_cases fill code words <;> simp

theorem fill_append (code rest : List Token) (words : List String) (plain : .sign '@' ∉ code) :
    fill (code ++ rest) words = code ++ fill rest words := by
  induction code with
  | nil => rfl
  | cons token code ih =>
    obtain ⟨here, later⟩ := not_or.mp (mt List.mem_cons.mpr plain)
    rw [List.cons_append, fill, ih later, List.cons_append]
    intro word others _ mark
    exact here mark.symm

theorem mark_notMem_ofLetters (letters : List Char) : .sign '@' ∉ Token.ofLetters letters := by
  unfold Token.ofLetters
  split <;> simp

theorem mark_notMem_ofSign {c : Char} (plain : c ≠ '@') : .sign '@' ∉ Token.ofSign c := by
  unfold Token.ofSign
  split <;> simp [plain.symm]

theorem fillText_nil (text : List Char) : fillText text [] = text := by
  induction text with
  | nil => rfl
  | cons c text ih => rw [fillText, ih]; nofun

theorem fill_nil (code : List Token) : fill code [] = code := by
  induction code with
  | nil => rfl
  | cons token code ih => rw [fill, ih]; nofun

theorem count_fillText {c : Char} (other : c ≠ '@') {words : List String}
    (plain : ∀ word ∈ words, word.toList.count c = 0) (text : List Char) :
    (fillText text words).count c = text.count c := by
  fun_induction fillText text words with
  | case1 words => rfl
  | case2 text word words ih =>
    obtain ⟨first, others⟩ := List.forall_mem_cons.mp plain
    rw [List.count_append, first, ih others, Nat.zero_add, List.count_cons_of_ne other.symm]
  | case3 d text words _ ih => rw [List.count_cons, List.count_cons, ih plain]

theorem readFrom_fillText {letters text : List Char} {words : List String}
    (loose : isLoose letters.isEmpty text = true) (spelled : ∀ word ∈ words, IsSpelled word) :
    readFrom letters (fillText text words) = fill (readFrom letters text) words := by
  fun_induction fillText text words generalizing letters with
  | case1 words =>
    have same := fill_append (Token.ofLetters letters) [] words (mark_notMem_ofLetters letters)
    rwa [List.append_nil, fill, List.append_nil, eq_comm] at same
  | case2 text word words ih =>
    simp only [isLoose, if_true, Bool.and_eq_true, List.isEmpty_iff] at loose
    obtain ⟨⟨rfl, gap⟩, loose⟩ := loose
    obtain ⟨first, others⟩ := List.forall_mem_cons.mp spelled
    have rest := ih (show isLoose [].isEmpty text = true from loose) others
    rw [Token.readFrom_word first (breaks_fillText gap words), rest]
    rfl
  | case3 c text words other ih =>
    cases words with
    | nil => rw [fillText_nil, fill_nil]
    | cons word words =>
      have plain : c ≠ '@' := fun mark => other word words rfl mark
      simp only [isLoose, if_neg plain] at loose
      rw [readFrom, readFrom]
      by_cases letter : isLetter c = true
      · rw [if_pos letter, if_pos letter]
        have more : (letters ++ [c]).isEmpty = !isLetter c := by simp [letter]
        exact ih (more ▸ loose) spelled
      · have rest := ih (show isLoose [].isEmpty text = true by simpa [letter] using loose) spelled
        rw [if_neg letter, if_neg letter, rest, List.append_assoc, List.append_assoc,
          fill_append _ _ _ (mark_notMem_ofLetters letters), fill_append _ _ _ (mark_notMem_ofSign plain)]

/-- Reading with a template undoes filling it. -/
theorem read_fill {template : List Token} {words : List String}
    (length : template.count (.sign '@') = words.length) :
    read template (fill template words) = some words := by
  fun_induction fill template words with
  | case1 words =>
    rw [List.length_eq_zero_iff.mp length.symm]
    rfl
  | case2 template word words ih =>
    rw [List.count_cons_self, List.length_cons] at length
    rw [read, ih (Nat.succ_inj.mp length), String.ofList_toList]
    rfl
  | case3 token template words other ih =>
    have plain : token ≠ .sign '@' := by
      rintro rfl
      cases words with
      | nil => simp at length
      | cons word words => exact other word words rfl rfl
    rw [List.count_cons_of_ne plain] at length
    rw [read, if_pos rfl, ih length]
    intro text mark
    exact absurd mark plain

end Template

end AvroCompiler
