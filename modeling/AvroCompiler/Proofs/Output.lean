import AvroCompiler.Output

namespace AvroCompiler

namespace Output

section Turns

variable {σ : Type}

/-- Every file is written, one after another. -/
inductive Writes (out : Output (StateM σ)) (root : String) : List RenderedFile → σ → σ → Prop
  | done (disk : σ) : Writes out root [] disk disk
  | next {file : RenderedFile} {files : List RenderedFile} {before made mid after : σ}
      (directory : (out.makeDirectories root).run before = (.ok (), made))
      (text : (out.writeText (Path.join root file.name) file.contents).run made = (.ok (), mid))
      (rest : Writes out root files mid after) : Writes out root (file :: files) before after

/-- A file is not written, because its directory cannot be made or its text is not taken. -/
inductive Refuses (out : Output (StateM σ)) (root : String) (file : RenderedFile) : Error → σ → σ → Prop
  | directory {fault : FileFault} {before left : σ}
      (fails : (out.makeDirectories root).run before = (.error fault, left)) :
      Refuses out root file (.fileAccess root fault) before left
  | text {fault : FileFault} {before made left : σ}
      (directory : (out.makeDirectories root).run before = (.ok (), made))
      (fails : (out.writeText (Path.join root file.name) file.contents).run made = (.error fault, left)) :
      Refuses out root file (.fileAccess (Path.join root file.name) fault) before left

variable {out : Output (StateM σ)} {root : String} {files : List RenderedFile} {file : RenderedFile}
  {before mid after left : σ} {error : Error}

theorem run_writeRendered (out : Output (StateM σ)) (root : String) (file : RenderedFile) (before : σ) :
    (out.writeRendered root file).run before =
      match (out.makeDirectories root).run before with
      | (.error fault, left) => (.error (.fileAccess root fault), left)
      | (.ok (), made) =>
        match (out.writeText (Path.join root file.name) file.contents).run made with
        | (.error fault, left) => (.error (.fileAccess (Path.join root file.name) fault), left)
        | (.ok (), after) => (.ok (), after) := by
  rw [writeRendered, StateT.run_bind]
  rcases (out.makeDirectories root).run before with ⟨fault | ⟨⟩, made⟩
  · rfl
  · change (out.writeText (Path.join root file.name) file.contents >>= _).run made = _
    rw [StateT.run_bind]
    dsimp only
    rcases (out.writeText (Path.join root file.name) file.contents).run made with ⟨fault | ⟨⟩, after⟩ <;> rfl

theorem Refuses.run_eq (refused : out.Refuses root file error before left) :
    (out.writeRendered root file).run before = (.error error, left) := by
  rw [run_writeRendered]
  cases refused with
  | directory fails => rw [fails]
  | text directory fails => simp only [directory, fails]

theorem run_writeAll_cons (out : Output (StateM σ)) (root : String) (file : RenderedFile)
    (files : List RenderedFile) (before : σ) : (out.writeAll root (file :: files)).run before =
      match (out.writeRendered root file).run before with
      | (.error error, left) => (.error error, left)
      | (.ok (), mid) => (out.writeAll root files).run mid := by
  rw [writeAll, StateT.run_bind]
  rcases (out.writeRendered root file).run before with ⟨error | ⟨⟩, mid⟩ <;> rfl

theorem Writes.run_append (written : out.Writes root files before mid) (later : List RenderedFile) :
    (out.writeAll root (files ++ later)).run before = (out.writeAll root later).run mid := by
  induction written with
  | done => rfl
  | next directory text rest ih =>
    rw [List.cons_append, run_writeAll_cons, run_writeRendered]
    simp only [directory, text]
    exact ih

theorem Writes.run_eq (written : out.Writes root files before after) :
    (out.writeAll root files).run before = (.ok (), after) := by
  have whole := written.run_append []
  rw [List.append_nil] at whole
  exact whole

/-- Files are written up to the first that is refused. -/
theorem run_eq_of_refuses {earlier later : List RenderedFile} (written : out.Writes root earlier before mid)
    (refused : out.Refuses root file error mid left) :
    (out.writeAll root (earlier ++ file :: later)).run before = (.error error, left) := by
  rw [written.run_append, run_writeAll_cons, refused.run_eq]

theorem writes_or_refuses (out : Output (StateM σ)) (root : String) (files : List RenderedFile) (before : σ) :
    (∃ after, out.Writes root files before after) ∨
      ∃ earlier file later error mid left, files = earlier ++ file :: later ∧
        out.Writes root earlier before mid ∧ out.Refuses root file error mid left := by
  induction files generalizing before with
  | nil => exact .inl ⟨before, .done before⟩
  | cons file files ih =>
    rcases directory : (out.makeDirectories root).run before with ⟨fault | ⟨⟩, made⟩
    · exact .inr ⟨[], file, files, _, before, made, rfl, .done before, .directory directory⟩
    rcases text : (out.writeText (Path.join root file.name) file.contents).run made with ⟨fault | ⟨⟩, mid⟩
    · exact .inr ⟨[], file, files, _, before, mid, rfl, .done before, .text directory text⟩
    rcases ih mid with ⟨after, written⟩ | ⟨earlier, other, later, error, last, left, rfl, written, refused⟩
    · exact .inl ⟨after, .next directory text written⟩
    · exact .inr ⟨file :: earlier, other, later, error, last, left, rfl, .next directory text written, refused⟩

end Turns

end Output

/-- Where paths lead, and what the files there hold. Several paths may lead to one file, as links do. -/
structure Files (σ ι : Type) where
  leads : σ → String → Option ι
  bytes : σ → ι → Option (List UInt8)

namespace Files

variable {σ ι : Type}

/-- Paths lead where they led, and only certain files have changed. -/
structure Keeps (view : Files σ ι) (changed : ι → Prop) (before after : σ) : Prop where
  leads : ∀ path place, view.leads before path = some place → view.leads after path = some place
  bytes : ∀ place, ¬changed place → view.bytes after place = view.bytes before place

/-- What an output does to files, whether it fails or not: none is changed by making directories, and by
writing only the one that the path leads to. Where writing does not fail, this file holds the text. -/
structure Lawful (view : Files σ ι) (out : Output (StateM σ)) : Prop where
  directories : ∀ path before result after, (out.makeDirectories path).run before = (result, after) →
    view.Keeps (fun _ => False) before after
  text : ∀ path text before result after, (out.writeText path text).run before = (result, after) →
    view.Keeps (fun place => view.leads after path = some place) before after
  written : ∀ path text before after, (out.writeText path text).run before = (.ok (), after) →
    ∃ place, view.leads after path = some place ∧ view.bytes after place = some (utf8Bytes text)

/-- The path of one of the files leads there. -/
def Reaches (view : Files σ ι) (root : String) (files : List RenderedFile) (disk : σ) (place : ι) : Prop :=
  ∃ file ∈ files, view.leads disk (Path.join root file.name) = some place

/-- What is left of files that were written in turn, and of others that were tried after them. A file has all
its contents unless a path that was tried later leads to it too, and no file has changed to which no path
leads that was tried. -/
structure Receives (view : Files σ ι) (root : String) (written tried : List RenderedFile) (before after : σ) :
    Prop where
  keeps : view.Keeps (view.Reaches root (written ++ tried) after) before after
  contents : ∀ front file back, written = front ++ file :: back →
    ∃ place, view.leads after (Path.join root file.name) = some place ∧
      (¬view.Reaches root (back ++ tried) after place →
        view.bytes after place = some (utf8Bytes file.contents))

variable {view : Files σ ι} {changed changed' : ι → Prop} {before mid after left : σ}

theorem Keeps.refl (disk : σ) : view.Keeps changed disk disk where
  leads _ _ led := led
  bytes _ _ := rfl

theorem Keeps.trans (first : view.Keeps changed before mid) (second : view.Keeps changed' mid after) :
    view.Keeps (fun place => changed place ∨ changed' place) before after where
  leads path place led := second.leads path place (first.leads path place led)
  bytes place same :=
    (second.bytes place (mt .inr same)).trans (first.bytes place (mt .inl same))

theorem Keeps.mono (keeps : view.Keeps changed before after) (more : ∀ place, changed place → changed' place) :
    view.Keeps changed' before after where
  leads := keeps.leads
  bytes place same := keeps.bytes place (mt (more place) same)

variable {out : Output (StateM σ)} {root : String} {files earlier : List RenderedFile} {file : RenderedFile}
  {error : Error}

theorem reaches_cons {disk : σ} {place : ι} : view.Reaches root (file :: files) disk place ↔
    view.leads disk (Path.join root file.name) = some place ∨ view.Reaches root files disk place := by
  simp [Reaches]

theorem Lawful.keeps_of_writes (lawful : view.Lawful out) (written : out.Writes root files before after) :
    view.Keeps (view.Reaches root files after) before after := by
  induction written with
  | done disk => exact .refl disk
  | next directory text rest ih =>
    refine (((lawful.directories _ _ _ _ directory).trans (lawful.text _ _ _ _ _ text)).trans ih).mono ?_
    rintro place ((none | led) | reached)
    · exact none.elim
    · exact reaches_cons.mpr (.inl (ih.leads _ _ led))
    · exact reaches_cons.mpr (.inr reached)

theorem Lawful.keeps_of_refuses (lawful : view.Lawful out) (refused : out.Refuses root file error before left) :
    view.Keeps (view.Reaches root [file] left) before left := by
  cases refused with
  | directory fails => exact (lawful.directories _ _ _ _ fails).mono fun _ none => none.elim
  | text directory fails =>
    refine ((lawful.directories _ _ _ _ directory).trans (lawful.text _ _ _ _ _ fails)).mono ?_
    rintro place (none | led)
    · exact none.elim
    · exact reaches_cons.mpr (.inl led)

theorem Lawful.receives (lawful : view.Lawful out) (written : out.Writes root files before after) :
    view.Receives root files [] before after := by
  refine ⟨by simpa using lawful.keeps_of_writes written, ?_⟩
  simp only [List.append_nil]
  induction written with
  | done disk => simp
  | next directory text rest ih =>
    rintro (_ | ⟨_, front⟩) file back split
    · obtain ⟨rfl, rfl⟩ := List.cons.inj split
      obtain ⟨place, led, held⟩ := lawful.written _ _ _ _ text
      have keeps := lawful.keeps_of_writes rest
      exact ⟨place, keeps.leads _ _ led, fun free => (keeps.bytes place free).trans held⟩
    · exact ih front file back (List.cons.inj split).2

/-- A file that is refused may have been changed, and nothing but this file. -/
theorem Lawful.receives_of_refuses (lawful : view.Lawful out) (written : out.Writes root earlier before mid)
    (refused : out.Refuses root file error mid left) :
    view.Receives root earlier [file] before left := by
  obtain ⟨keeps, contents⟩ := lawful.receives written
  have last := lawful.keeps_of_refuses refused
  rw [List.append_nil] at keeps
  have reaches {tried : List RenderedFile} {place : ι} (h : view.Reaches root tried mid place ∨
      view.Reaches root [file] left place) : view.Reaches root (tried ++ [file]) left place := by
    rcases h with ⟨other, mem, led⟩ | ⟨other, mem, led⟩
    · exact ⟨other, List.mem_append_left _ mem, last.leads _ _ led⟩
    · exact ⟨other, List.mem_append_right _ mem, led⟩
  refine ⟨(keeps.trans last).mono fun place => reaches, fun front own back split => ?_⟩
  obtain ⟨place, led, held⟩ := contents front own back split
  rw [List.append_nil] at held
  refine ⟨place, last.leads _ _ led, fun free => ?_⟩
  rw [last.bytes place (mt (reaches ∘ .inr) free)]
  exact held (mt (reaches ∘ .inl) free)

end Files

end AvroCompiler
