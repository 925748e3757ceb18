import AvroCompiler.Proofs.Emit.Template

namespace AvroCompiler

namespace Item

open Template (count_fillText fill fillText fill_eq_nil_iff isLoose readFrom_fillText readWith read_fill)
open Token (IsSpelled readFrom)

/-- What a token does so many brackets deep inside an item: the item goes on, or it ends and has kept
the token or not, or the bracket around all items is closed. -/
inductive Effect where
  | goes (depth : Nat)
  | ends (kept : Bool)
  | closes

def effect (separator : Char) (depth : Nat) : Token → Effect
  | .word _ => .goes depth
  | .sign c =>
    if c ∈ ['(', '[', '\x7b'] then .goes (depth + 1)
    else if c ∈ [')', ']', '\x7d'] then
      match depth with
      | 0 => .closes
      | 1 => if c = '\x7d' then .ends true else .goes 0
      | depth + 2 => .goes (depth + 1)
    else if c = separator ∧ depth = 0 then .ends false
    else .goes depth

/-- The items of code, from the rest of an item on. -/
def splitFrom (separator : Char) (depth : Nat) (item : List Token) : List Token → List (List Token)
  | [] => [item]
  | token :: code =>
    match effect separator depth token with
    | .goes depth => splitFrom separator depth (item ++ [token]) code
    | .ends kept => (if kept then item ++ [token] else item) :: splitFrom separator 0 [] code
    | .closes => if item = [] then [] else [item]

def depthAfter (separator : Char) (depth : Nat) : List Token → Option Nat
  | [] => some depth
  | token :: code =>
    match effect separator depth token with
    | .goes depth => depthAfter separator depth code
    | .ends _ | .closes => none

/-- The item that code is the rest of, if it ends with the code. -/
def single? (separator : Char) (depth : Nat) : List Token → Option (List Token)
  | [] => none
  | token :: code =>
    match effect separator depth token with
    | .goes depth => (single? separator depth code).map (token :: ·)
    | .ends kept => if code = [] then some (if kept then [token] else []) else none
    | .closes => none

/-- The code is one item, whatever follows it. -/
def IsItem (separator : Char) (code item : List Token) : Prop :=
  ∀ rest, splitFrom separator 0 [] (code ++ rest) = item :: splitFrom separator 0 [] rest

variable {separator : Char}

theorem depthAfter_append {depth middle : Nat} {code : List Token}
    (h : depthAfter separator depth code = some middle) (rest : List Token) :
    depthAfter separator depth (code ++ rest) = depthAfter separator middle rest := by
  induction code generalizing depth with
  | nil =>
    cases h
    rfl
  | cons token code ih =>
    rw [depthAfter] at h
    rw [List.cons_append, depthAfter]
    cases reached : effect separator depth token with
    | goes next =>
      rw [reached] at h
      exact ih h
    | ends | closes =>
      rw [reached] at h
      cases h

theorem single?_append {depth middle : Nat} {code : List Token}
    (h : depthAfter separator depth code = some middle) (rest : List Token) :
    single? separator depth (code ++ rest) = (single? separator middle rest).map (code ++ ·) := by
  induction code generalizing depth with
  | nil =>
    cases h
    simp
  | cons token code ih =>
    rw [depthAfter] at h
    rw [List.cons_append, single?]
    cases reached : effect separator depth token with
    | goes next =>
      rw [reached] at h
      simp [ih h, Function.comp_def]
    | ends | closes =>
      rw [reached] at h
      cases h

theorem splitFrom_single {depth : Nat} {code more : List Token}
    (h : single? separator depth code = some more) (item rest : List Token) :
    splitFrom separator depth item (code ++ rest) =
      (item ++ more) :: splitFrom separator 0 [] rest := by
  induction code generalizing depth item more with
  | nil => cases h
  | cons token code ih =>
    rw [single?] at h
    rw [List.cons_append, splitFrom]
    cases reached : effect separator depth token with
    | goes next =>
      rw [reached] at h
      obtain ⟨others, single, rfl⟩ := Option.map_eq_some_iff.mp h
      dsimp only
      rw [ih single, List.append_assoc, List.singleton_append]
    | ends kept =>
      rw [reached] at h
      dsimp only at h ⊢
      split at h
      · rename_i last
        cases h
        subst last
        cases kept <;> simp
      · cases h
    | closes =>
      rw [reached] at h
      cases h

theorem isItem_of_single {code item : List Token} (h : single? separator 0 code = some item) :
    IsItem separator code item :=
  splitFrom_single h []

theorem effect_mark {depth : Nat} (other : separator ≠ '@') :
    effect separator depth (.sign '@') = .goes depth := by
  simp [effect, other.symm]

theorem single?_fill (other : separator ≠ '@') (depth : Nat) (code : List Token) (words : List String) :
    single? separator depth (fill code words) = (single? separator depth code).map (fill · words) := by
  fun_induction fill code words generalizing depth with
  | case1 words => rfl
  | case2 code word words ih =>
    rw [single?, single?, effect_mark other]
    simp [effect, ih, Function.comp_def, fill]
  | case3 token code words plain ih =>
    have put (rest : List Token) : fill (token :: rest) words = token :: fill rest words := by
      rw [fill]
      exact plain
    rw [single?, single?]
    cases effect separator depth token with
    | goes next => simp [ih, Function.comp_def, put]
    | ends kept =>
      dsimp only
      by_cases last : code = []
      · cases kept <;> simp [last, put, fill]
      · simp [last, fill_eq_nil_iff]
    | closes => rfl

/-- The layout is a template with its blanks, which has so many marks, and code that the layout is
filled to is one item. -/
structure Lays (separator : Char) (layout template : String) (marks : Nat) : Prop where
  loose : isLoose true layout.toList = true
  single : single? separator 0 (tokens layout) = some (tokens template)
  marks : (tokens template).count (.sign '@') = marks

-- A literal is the text of a list of characters. That list is much cheaper to compute with than the
-- characters of the text.
theorem lays_of_chars {layout template : List Char} {marks : Nat}
    (h : isLoose true layout = true ∧
      single? separator 0 (readFrom [] layout) = some (readFrom [] template) ∧
      (readFrom [] template).count (.sign '@') = marks) :
    Lays separator (String.ofList layout) (String.ofList template) marks := by
  obtain ⟨loose, single, marks⟩ := h
  constructor
  · rwa [String.toList_ofList]
  · rwa [tokens, tokens, String.toList_ofList, String.toList_ofList]
  · rwa [tokens, String.toList_ofList]

theorem filled_of_chars {layout : List Char} {lines words : List String}
    (h : linesText lines = fillText layout words) :
    linesText lines = fillText (String.ofList layout).toList words := by
  rwa [String.toList_ofList]

/-- The lines are one item, which is read as a value. -/
def IsRead {β : Type} (separator : Char) (read : List Token → Option β) (lines : List String) (value : β) :
    Prop :=
  ∃ item, IsItem separator (lineTokens lines) item ∧ read item = some value

theorem isRead_of_lays {β : Type} {words : List String} (spelled : ∀ word ∈ words, IsSpelled word)
    {layout template : String} (lays : Lays separator layout template words.length)
    (other : separator ≠ '@') {lines : List String}
    (filled : linesText lines = fillText layout.toList words) {read : List Token → Option β} {value : β}
    (reads : readWith template (fill (tokens template) words) = some words →
      read (fill (tokens template) words) = some value) :
    IsRead separator read lines value := by
  have code : lineTokens lines = fill (tokens layout) words := by
    rw [lineTokens, filled]
    exact readFrom_fillText lays.loose spelled
  refine ⟨fill (tokens template) words, isItem_of_single ?_, reads (read_fill lays.marks)⟩
  rw [code, single?_fill other, lays.single]
  rfl

/-- By induction on what stands there: its lines are the first item, and the others follow. -/
theorem splitFrom_lines {α β : Type} {read : List Token → Option β} {xs : List α}
    {lines : α → List String} {value : α → β}
    (h : ∀ x ∈ xs, IsRead separator read (lines x) (value x)) (footer : List String) :
    ∃ found, splitFrom separator 0 [] (lineTokens (xs.flatMap lines ++ footer)) =
      found ++ splitFrom separator 0 [] (lineTokens footer) ∧ found.mapM read = some (xs.map value) := by
  induction xs with
  | nil => exact ⟨[], rfl, rfl⟩
  | cons x xs ih =>
    obtain ⟨⟨item, one, reads⟩, others⟩ := List.forall_mem_cons.mp h
    obtain ⟨found, split, all⟩ := ih others
    refine ⟨item :: found, ?_, ?_⟩
    · rw [List.flatMap_cons, List.append_assoc, lineTokens_append, one, split]
      rfl
    · simp [reads, all]

def afterBrace : List Char → List Char
  | [] => []
  | c :: text => if c = '\x7b' then text else afterBrace text

def behind : Nat → List Char → List Char
  | 0, text => text
  | count + 1, text => behind count (afterBrace text)

theorem behind_of_count {before : List Char} {braces : Nat} (h : before.count '\x7b' = braces)
    (rest : List Char) : behind (braces + 1) (before ++ '\x7b' :: rest) = rest := by
  induction before generalizing braces with
  | nil =>
    subst h
    rfl
  | cons c before ih =>
    by_cases brace : c = '\x7b'
    · subst brace
      rw [List.count_cons_self] at h
      subst h
      exact ih rfl
    · rw [List.count_cons_of_ne brace] at h
      rw [List.cons_append, behind, afterBrace, if_neg brace]
      exact ih h

def Braces (count : Nat) (text : String) : Prop :=
  text.toList.count '\x7b' = count

theorem braces_of_chars {chars : List Char} {count : Nat} (h : chars.count '\x7b' = count) :
    Braces count (String.ofList chars) := by
  rwa [Braces, String.toList_ofList]

theorem braces_zero {text : String} (h : '\x7b' ∉ text.toList) : Braces 0 text :=
  List.count_eq_zero.mpr h

theorem opened_of_chars {layout text rest : List Char} {words : List String}
    (h : text = fillText layout words ++ '\x7b' :: rest) :
    text = fillText (String.ofList layout).toList words ++ '\x7b' :: rest := by
  rwa [String.toList_ofList]

/-- A text opens with a layout that is filled with words, and with one more brace. -/
theorem behind_of_opened {layout : String} {count : Nat} (braces : Braces count layout)
    {words : List String} (plain : ∀ word ∈ words, Braces 0 word) {text rest : List Char}
    (opened : text = fillText layout.toList words ++ '\x7b' :: rest) :
    behind (count + 1) text = rest := by
  rw [opened]
  refine behind_of_count ?_ rest
  rwa [count_fillText (by decide) plain]

end Item

def items (braces : Nat) (separator : Char) (text : String) : List (List Token) :=
  Item.splitFrom separator 0 [] (Token.readFrom [] (Item.behind braces text.toList))

variable {α β : Type}

/-- What the items of a text are read as. -/
def readItems (braces : Nat) (separator : Char) (read : List Token → Option β) (text : String) :
    Option (List β) :=
  (items braces separator text).mapM read

/-- What the items in front of the last one are read as, where the last one is as it should be. -/
def readItemsUpTo (braces : Nat) (separator : Char) (read : List Token → Option β)
    (last : List Token → Bool) (text : String) : Option (List β) :=
  if (items braces separator text).getLast?.any last then
    (items braces separator text).dropLast.mapM read
  else none

section Lines

variable {braces : Nat} {separator : Char} {text : String} {read : List Token → Option β} {xs : List α}
  {lines : α → List String} {value : α → β} {footer : List String}

theorem readItems_of_lines
    (body : Item.behind braces text.toList = linesText (xs.flatMap lines ++ footer))
    (h : ∀ x ∈ xs, Item.IsRead separator read (lines x) (value x))
    (closed : Item.splitFrom separator 0 [] (lineTokens footer) = []) :
    readItems braces separator read text = some (xs.map value) := by
  obtain ⟨found, split, all⟩ := Item.splitFrom_lines h footer
  rw [closed, List.append_nil] at split
  rw [readItems, items, body]
  exact split ▸ all

theorem readItemsUpTo_of_lines {final : List Token} {last : List Token → Bool}
    (body : Item.behind braces text.toList = linesText (xs.flatMap lines ++ footer))
    (h : ∀ x ∈ xs, Item.IsRead separator read (lines x) (value x))
    (closed : Item.splitFrom separator 0 [] (lineTokens footer) = [final]) (ended : last final = true) :
    readItemsUpTo braces separator read last text = some (xs.map value) := by
  obtain ⟨found, split, all⟩ := Item.splitFrom_lines h footer
  rw [closed] at split
  have all' : items braces separator text = found ++ [final] := by
    rw [items, body]
    exact split
  simp [readItemsUpTo, all', ended, all]

end Lines

end AvroCompiler
