import AvroCompiler.Proofs.Schema.Soundness
import AvroCompiler.Proofs.Identifier
import Mathlib.Logic.Relation

namespace AvroCompiler

open Json (member?)
open Relation (ReflTransGen)

inductive NamedType.Read : NamedType → Prop
  | fixed {members type} (read : readFixed members = .ok type) : Read (.fixed type)
  | enumeration {members type} (read : readEnumeration members = .ok type) : Read (.enumeration type)
  | record {members name doc fields type} (named : requiredName members = .ok name)
      (made : Record.make name doc fields = .ok type) : Read (.record type)

theorem NamedType.Read.typeName {type : NamedType} (h : type.Read) : TypeName type.name := by
  cases h with
  | fixed read => exact typeName_of_readFixed read
  | enumeration read => exact typeName_of_readEnumeration read
  | record named made =>
    obtain ⟨rfl, declarable⟩ := Record.of_make made
    exact ⟨isName_of_requiredName named, declarable⟩

namespace Namespace

/-- What the reader may do to a namespace, wherever it stands in a schema. -/
inductive Step : Namespace → Namespace → Prop
  | declare {members name ns ns'} (named : requiredName members = .ok name)
      (opens : ns.declare name = .ok ns') : Step ns ns'
  | define {type ns ns'} (read : type.Read) (adds : ns.define type = .ok ns') : Step ns ns'

def Reached (ns : Namespace) : Prop :=
  ReflTransGen Step empty ns

/-- The names that are stored or declared are names of types, and those that are both belong to
records. -/
structure Proper (ns : Namespace) : Prop where
  named : ∀ {name type}, ns.get? name = some type → type.name = name ∧ TypeName name
  declared : ∀ name ∈ ns.declared, TypeName name
  declared_record : ∀ name ∈ ns.declared, ∀ type, ns.get? name = some type → type.isRecord = true

variable {ns ns' : Namespace}

theorem of_declare {name : String} (h : ns.declare name = .ok ns') :
    Declarable name ∧ (∀ type, ns.get? name = some type → type.isRecord = true) ∧
      ∀ other ∈ ns'.declared, other = name ∨ other ∈ ns.declared := by
  unfold declare at h
  split at h
  · cases h
  · rename_i declarable
    refine ⟨Decidable.not_not.mp declarable, ?_⟩
    split at h
    · cases h
    · cases h
    · rename_i notFixed notEnumeration
      have record (type : NamedType) (stored : ns.get? name = some type) : type.isRecord = true := by
        cases type with
        | fixed type => exact absurd stored (notFixed type)
        | enumeration type => exact absurd stored (notEnumeration type)
        | record type => rfl
      refine ⟨record, fun other mem => ?_⟩
      split at h
      · cases h
        exact .inr mem
      · cases h
        exact List.mem_cons.mp mem

/-- What is declared after a definition was declared before, and if it is what is defined it was stored
already. -/
theorem declared_of_define {type : NamedType} (h : ns.define type = .ok ns') :
    ∀ other ∈ ns'.declared, other ∈ ns.declared ∧ (type.name = other → ns.get? other = some type) := by
  unfold define at h
  intro other mem
  split at h
  · rename_i existing stored
    split at h
    · rename_i same
      cases h
      exact ⟨mem, fun eq => by rw [← eq, stored, same]⟩
    · cases h
  · split at h
    · cases h
    · cases h
      obtain ⟨mem, apart⟩ := List.mem_filter.mp mem
      exact ⟨mem, fun eq => absurd eq.symm (of_decide_eq_true apart)⟩

theorem proper_empty : empty.Proper :=
  ⟨nofun, nofun, nofun⟩

theorem Step.proper (step : Step ns ns') (proper : ns.Proper) : ns'.Proper := by
  cases step with
  | @declare _ name _ _ named opens =>
    obtain ⟨declarable, record, declared⟩ := of_declare opens
    have typeName : TypeName name := ⟨isName_of_requiredName named, declarable⟩
    have same {other : String} {type : NamedType} (stored : ns'.get? other = some type) :
        ns.get? other = some type :=
      ((gains_of_declare opens _ _).mp stored).resolve_right fun ⟨mem, _⟩ => nomatch mem
    refine ⟨fun stored => proper.named (same stored), fun other mem => ?_, fun other mem type stored => ?_⟩
    · rcases declared other mem with rfl | old
      · exact typeName
      · exact proper.declared other old
    · rcases declared other mem with rfl | old
      · exact record type (same stored)
      · exact proper.declared_record other old type (same stored)
  | @define type _ _ read adds =>
    have declared := declared_of_define adds
    have gains := gains_of_define adds
    refine ⟨fun {name other} stored => ?_, fun name mem => proper.declared name (declared name mem).1,
      fun name mem other stored => ?_⟩
    · rcases (gains _ _).mp stored with old | ⟨mem, eq⟩
      · exact proper.named old
      · cases List.mem_singleton.mp mem
        exact ⟨eq, eq ▸ read.typeName⟩
    · -- A name that is declared still and is defined now was stored before: a new definition ends the
      -- declaration.
      obtain ⟨before, known⟩ := declared name mem
      have old : ns.get? name = some other := by
        rcases (gains _ _).mp stored with old | ⟨mem, eq⟩
        · exact old
        · cases List.mem_singleton.mp mem
          exact known eq
      exact proper.declared_record name before other old

theorem Reached.proper (h : ns.Reached) : ns.Proper := by
  induction h with
  | refl => exact proper_empty
  | tail _ step ih => exact step.proper ih

end Namespace

namespace Reading

variable {α β : Type}

/-- The computation changes a namespace by steps of the reader only, also where it fails. -/
def Walks (reading : Reading α) : Prop :=
  ∀ ns : Namespace, ReflTransGen Namespace.Step ns (reading.runFrom ns).2

theorem walks_of_change {update : Namespace → Except Error Namespace}
    (h : ∀ {ns ns'}, update ns = .ok ns' → Namespace.Step ns ns') : Walks (change update) := by
  intro ns
  unfold runFrom change
  split
  · rename_i changed
    exact .single (h changed)
  · exact .refl

theorem Walks.bind {first : Reading α} {rest : α → Reading β} (h : first.Walks)
    (next : ∀ a, (∃ ns, (first.runFrom ns).1 = .ok a) → (rest a).Walks) : (first >>= rest).Walks := by
  intro ns
  rw [runFrom_bind]
  have before := h ns
  have after (a : α) (result : (first.runFrom ns).1 = .ok a) := next a ⟨ns, result⟩ (first.runFrom ns).2
  generalize first.runFrom ns = outcome at before after ⊢
  obtain ⟨failed | a, middle⟩ := outcome
  · exact before
  · exact before.trans (after a rfl)

theorem walks_of_idle {reading : Reading α} (h : ∀ ns, (reading.runFrom ns).2 = ns) : reading.Walks := by
  intro ns
  rw [h]

end Reading

open Reading (walks_of_change walks_of_idle)

theorem Schema.shapes_walk {schemas : List Schema} (walks : ∀ schema ∈ schemas, schema.shape.Walks) :
    (Schema.shapes schemas).Walks := by
  induction schemas with
  | nil =>
    unfold Schema.shapes
    exact walks_of_idle fun _ => rfl
  | cons schema schemas ih =>
    obtain ⟨first, others⟩ := List.forall_mem_cons.mp walks
    unfold Schema.shapes
    exact first.bind fun _ _ => (ih others).bind fun _ _ => walks_of_idle fun _ => rfl

theorem Schema.walks_kept : Schema.KeptByReading (fun schema => schema.shape.Walks)
    (fun schemas => schemas.fields.Walks) where
  invalid _ := walks_of_idle fun _ => rfl
  primitive _ := walks_of_idle fun _ => rfl
  reference _ := walks_of_idle fun _ => rfl
  fixed read :=
    (walks_of_change (.define (.fixed read))).bind fun _ _ => walks_of_idle fun _ => rfl
  enumeration read :=
    (walks_of_change (.define (.enumeration read))).bind fun _ _ => walks_of_idle fun _ => rfl
  array walks := walks.bind fun _ _ => walks_of_idle fun _ => rfl
  map walks := walks.bind fun _ _ => walks_of_idle fun _ => rfl
  union walks := (Schema.shapes_walk walks).bind fun _ _ => walks_of_idle fun _ => rfl
  record doc _ named walks := by
    -- Two steps with the fields between them; where the fields fail, only the first one is made.
    refine (walks_of_change (.declare named)).bind fun _ _ => walks.bind fun inner _ => ?_
    refine (walks_of_idle fun _ => rfl).bind fun record ⟨_, made⟩ => ?_
    exact (walks_of_change (.define (.record named made))).bind fun _ _ => walks_of_idle fun _ => rfl
  done := walks_of_idle fun _ => rfl
  malformed _ := walks_of_idle fun _ => rfl
  cons _ _ _ _ walks walks' :=
    walks.bind fun _ _ => walks'.bind fun _ _ => walks_of_idle fun _ => rfl

theorem readDocument_walks (text : String) : (readDocument text).Walks := by
  unfold readDocument
  split
  · exact walks_of_idle fun _ => rfl
  · rename_i value _
    have walks := Document.holds_ofJson Schema.walks_kept value
    exact (Schema.shapes_walk walks).bind fun _ _ => walks_of_idle fun _ => rfl

theorem ReaderCall.after_walks (call : ReaderCall) (ns : Namespace) :
    ReflTransGen Namespace.Step ns (call.after ns) := by
  cases call with
  | document text => exact readDocument_walks text ns
  | schema value => exact Schema.holds_ofJson Schema.walks_kept value ns

theorem Namespace.reached_afterCalls {ns : Namespace} (reached : ns.Reached) (calls : List ReaderCall) :
    (ns.afterCalls calls).Reached := by
  induction calls generalizing ns with
  | nil => exact reached
  | cons call calls ih => exact ih (reached.trans (call.after_walks ns))

/-- The words that begin a schema which is neither a primitive nor a reference. -/
def schemaKeywords : List String :=
  ["record", "error", "enum", "fixed", "array", "map"]

/-- The word means something to the reader before it looks for a type of that name. -/
def IsCaptured (word : String) : Prop :=
  (∃ kind, Primitive.ofName? word = some kind) ∨ word ∈ schemaKeywords

theorem plain_of_isCaptured {word : String} (h : IsCaptured word) :
    IsLowered word ∧ '.' ∉ word.toList := by
  rcases h with ⟨kind, primitive⟩ | keyword
  · unfold Primitive.ofName? at primitive
    split at primitive
    case h_9 => cases primitive
    all_goals exact ⟨by decide, by decide⟩
  · have plain : ∀ word ∈ schemaKeywords, IsLowered word ∧ '.' ∉ word.toList := by decide
    exact plain word keyword

theorem TypeName.not_isCaptured {name : String} (h : TypeName name) : ¬ IsCaptured name :=
  fun captured => h.not_isLowered (plain_of_isCaptured captured).1

/-- The text is the name, perhaps with a namespace before it. -/
def Spells (text name : String) : Prop :=
  text = name ∨ ∃ space, text = space ++ "." ++ name

theorem Spells.not_isCaptured {text name : String} (h : Spells text name) (typeName : TypeName name) :
    ¬ IsCaptured text := by
  rcases h with rfl | ⟨space, rfl⟩
  · exact typeName.not_isCaptured
  · intro captured
    exact (plain_of_isCaptured captured).2 (by simp)

theorem Spells.shortName_eq {text name : String} (h : Spells text name) (typeName : TypeName name) :
    shortName text = name := by
  rcases h with rfl | ⟨space, rfl⟩
  · exact shortName_of_isName typeName.spelled
  · have turned : (space ++ "." ++ name).toList.reverse =
        name.toList.reverse ++ '.' :: space.toList.reverse := by simp
    rw [shortName, turned, List.takeWhile_append_of_pos (ne_dot_of_isName typeName.spelled),
      List.takeWhile_cons_of_neg (by decide), List.append_nil, List.reverse_reverse, String.ofList_toList]

/-- The value is a text that spells the name, or an object whose type is such a value. -/
inductive Refers (name : String) : Json.Value → Prop
  | text {text} (spelled : Spells text name) : Refers name (.string text)
  | object {members value} (typed : member? "type" members = some value) (inner : Refers name value) :
      Refers name (.object members)

namespace Schema

theorem ofName_of_spells {text name : String} (spelled : Spells text name) (typeName : TypeName name) :
    ofName text = .reference name := by
  unfold ofName
  split
  · rename_i primitive
    exact absurd (.inl ⟨_, primitive⟩) (spelled.not_isCaptured typeName)
  · rw [spelled.shortName_eq typeName, checkName, if_pos typeName.spelled]
    rfl

theorem ofJson_object {members : Json.Members} {value : Json.Value}
    (typed : member? "type" members = some value)
    (free : ∀ kind, value = .string kind → kind ∉ schemaKeywords) :
    ofJson (.object members) = ofJson value := by
  rw [ofJson.eq_def]
  dsimp only
  split
  · rename_i untyped
    rw [typed] at untyped
    cases untyped
  · rename_i kind found
    rw [typed] at found
    cases found
    have other : kind ∉ schemaKeywords := free kind rfl
    simp only [schemaKeywords, List.mem_cons, List.not_mem_nil, or_false, not_or] at other
    obtain ⟨record, error, enumeration, fixed, array, map⟩ := other
    rw [if_neg (not_or.mpr ⟨record, error⟩), if_neg enumeration, if_neg fixed, if_neg array, if_neg map,
      ofJson]
  · rename_i nested _ found
    rw [typed] at found
    cases found
    rfl

theorem ofJson_of_refers {name : String} {value : Json.Value} (refers : Refers name value)
    (typeName : TypeName name) : ofJson value = .reference name := by
  induction refers with
  | text spelled =>
    unfold ofJson
    exact ofName_of_spells spelled typeName
  | @object members value typed inner ih =>
    rw [ofJson_object typed, ih]
    -- A text in the place of the type spells the name, and no keyword does.
    rintro kind rfl keyword
    cases inner with
    | text spelled => exact spelled.not_isCaptured typeName (.inr keyword)

end Schema

namespace Namespace

variable {ns : Namespace} {name : String}

def Binds (ns : Namespace) (name : String) : Prop :=
  (∃ type, ns.get? name = some type) ∨ name ∈ ns.declared

theorem Proper.typeName (proper : ns.Proper) (binds : ns.Binds name) : TypeName name := by
  rcases binds with ⟨type, stored⟩ | declared
  · exact (proper.named stored).2
  · exact proper.declared name declared

theorem referent_of_get? {type : NamedType} (stored : ns.get? name = some type) :
    ns.referent name = type.shape := by
  unfold referent
  rw [stored]

theorem Proper.referent_of_declared (proper : ns.Proper) (declared : name ∈ ns.declared) :
    ns.referent name = .record name := by
  unfold referent
  split
  · rename_i type stored
    have record := proper.declared_record name declared type stored
    obtain ⟨named, _⟩ := proper.named stored
    cases type with
    | fixed | enumeration => cases record
    | record type => exact congrArg Shape.record named
  · rfl

theorem resolve_of_binds (binds : ns.Binds name) : ns.resolve name = .ok (ns.referent name) := by
  unfold resolve referent
  cases stored : ns.get? name with
  | some type => rfl
  | none =>
    have declared : name ∈ ns.declared := by
      refine binds.resolve_left fun ⟨type, found⟩ => ?_
      rw [stored] at found
      cases found
    exact if_pos declared

end Namespace

/-- Every call to the reader leads to a state that its steps reach. In each such state a name that is stored
or declared is captured by nothing else, and every reference to it is read as the type that is stored
under it, or as a record that is declared, and changes nothing. -/
theorem references_are_unambiguous :
    (∀ calls, (Namespace.empty.afterCalls calls).Reached) ∧
      ∀ {ns : Namespace} {name : String}, ns.Reached → ns.Binds name →
        ¬ IsCaptured name ∧
        (∀ value, Refers name value →
          (Schema.ofJson value).shape.runFrom ns = (.ok (ns.referent name), ns)) ∧
        (∀ type, ns.get? name = some type → ns.referent name = type.shape) ∧
        (name ∈ ns.declared → ns.referent name = .record name) := by
  refine ⟨Namespace.reached_afterCalls .refl, fun {ns name} reached binds => ?_⟩
  have proper := reached.proper
  have typeName := proper.typeName binds
  refine ⟨typeName.not_isCaptured, fun value refers => ?_, fun _ => Namespace.referent_of_get?,
    proper.referent_of_declared⟩
  rw [Schema.ofJson_of_refers refers typeName]
  have found : (Schema.reference name).shape.runFrom ns = (ns.resolve name, ns) := rfl
  rw [found, Namespace.resolve_of_binds binds]

theorem reached_adopterNamespace : adopterNamespace.Reached := by
  rw [← adopter_stored, ← orphan_declared]
  exact Namespace.reached_afterCalls .refl [.schema _, .schema _]

/-- A record whose reading was cut short is found under a full name in an object. -/
theorem orphan_is_found : adopterNamespace.Reached ∧ adopterNamespace.Binds "Orphan" ∧
    Refers "Orphan" (.object [("type", .string "com.example.Orphan")]) ∧
    (Schema.ofJson (.object [("type", .string "com.example.Orphan")])).shape.runFrom adopterNamespace =
      (.ok (.record "Orphan"), adopterNamespace) := by
  have binds : adopterNamespace.Binds "Orphan" := .inr List.mem_cons_self
  have refers : Refers "Orphan" (.object [("type", .string "com.example.Orphan")]) :=
    .object rfl (.text (.inr ⟨"com.example", by decide⟩))
  obtain ⟨_, found, _, referent⟩ := references_are_unambiguous.2 reached_adopterNamespace binds
  refine ⟨reached_adopterNamespace, binds, refers, ?_⟩
  rw [found _ refers, referent List.mem_cons_self]

end AvroCompiler
