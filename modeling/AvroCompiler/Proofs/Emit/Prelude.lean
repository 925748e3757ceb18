import AvroCompiler.Snippet.Text
import AvroCompiler.Identifier
import AvroCompiler.Proofs.Shape

namespace AvroCompiler

/-- The types, traits and variants that every module has without an import. -/
def preludeNames : List String :=
  ["Send", "Sync", "Sized", "Copy", "Unpin", "Drop", "Fn", "FnMut", "FnOnce", "AsyncFn", "AsyncFnMut",
   "AsyncFnOnce", "Box", "ToOwned", "Clone", "PartialEq", "PartialOrd", "Eq", "Ord", "AsRef", "AsMut",
   "Into", "From", "Default", "Iterator", "Extend", "IntoIterator", "DoubleEndedIterator",
   "ExactSizeIterator", "Option", "Some", "None", "Result", "Ok", "Err", "String", "ToString", "Vec",
   "TryFrom", "TryInto", "FromIterator"]

/-- The word stands on its own: no path and no value is in front of it. -/
def looseWord (before : Char) (word : List Char) : List (List Char) :=
  if word = [] ∨ before = ':' ∨ before = '.' then [] else [word.reverse]

/-- The words of a text that stand on their own. The word that is being read follows the character
`before`, and its letters are held in reverse. -/
def looseWords (before : Char) (word : List Char) : List Char → List (List Char)
  | [] => looseWord before word
  | c :: rest =>
    if c.isAlphanum || c = '_' then looseWords before (c :: word) rest
    else looseWord before word ++ looseWords c [] rest

namespace Snippet

/-- The text of the snippet uses a name of the prelude as it is. -/
def TakesFromPrelude (snippet : Snippet) (name : String) : Prop :=
  name ∈ preludeNames ∧ ∃ line ∈ snippet.lines, name.toList ∈ looseWords ' ' [] line.toList

def openNames : List String :=
  ["Unpin", "AsyncFn", "AsyncFnMut", "AsyncFnOnce", "ToOwned", "PartialOrd", "Ord", "AsRef", "AsMut",
   "Extend", "IntoIterator", "DoubleEndedIterator", "ExactSizeIterator", "TryInto", "FromIterator"]

theorem reserved_or_open :
    ∀ name ∈ preludeNames, name ∈ reservedNames ∨ name ∈ openNames := by
  decide +kernel

/-- No word of the line is an open name, but for the exception. -/
def LineClosed (snippet : Snippet) (line : List Char) : Prop :=
  ∀ word ∈ looseWords ' ' [] line, String.ofList word ∈ openNames →
    snippet = .writeBlocks ∧ word = "ExactSizeIterator".toList

instance (snippet : Snippet) (line : List Char) : Decidable (snippet.LineClosed line) :=
  inferInstanceAs (Decidable (∀ word ∈ _, _))

theorem forall_lines_cons {snippet : Snippet} {chars : List Char} {lines : List String}
    (first : snippet.LineClosed chars) (others : ∀ line ∈ lines, snippet.LineClosed line.toList) :
    ∀ line ∈ String.ofList chars :: lines, snippet.LineClosed line.toList := by
  refine List.forall_mem_cons.mpr ⟨?_, others⟩
  rwa [String.toList_ofList]

theorem lineClosed (snippet : Snippet) : ∀ line ∈ snippet.lines, snippet.LineClosed line.toList := by
  cases snippet <;> unfold lines
  all_goals
    repeat
      refine forall_lines_cons ?_ ?_
      · decide +kernel
    simp

theorem reserved_of_takesFromPrelude {snippet : Snippet} {name : String}
    (h : snippet.TakesFromPrelude name) :
    name ∈ reservedNames ∨ snippet = .writeBlocks ∧ name = "ExactSizeIterator" := by
  obtain ⟨known, line, mem, loose⟩ := h
  rcases reserved_or_open name known with reserved | unreserved
  · exact Or.inl reserved
  · obtain ⟨writer, same⟩ :=
      lineClosed snippet line mem name.toList loose (by rwa [String.ofList_toList])
    exact Or.inr ⟨writer, String.toList_inj.mp same⟩

theorem writeBlocks_takesFromPrelude : writeBlocks.TakesFromPrelude "ExactSizeIterator" := by
  refine ⟨by simp [preludeNames], "    I: ExactSizeIterator,", by simp [lines], ?_⟩
  decide +kernel

end Snippet

end AvroCompiler
