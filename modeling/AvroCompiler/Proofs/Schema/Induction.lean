import AvroCompiler.Schema.Reader

namespace AvroCompiler

namespace Schema

/-- Properties of schemas and of field lists that are kept by every way to build them. The named types
are those that the checks of the reader let through. -/
structure KeptByReading (P : Schema → Prop) (Q : FieldSchemas → Prop) : Prop where
  invalid : ∀ error, P (.invalid error)
  primitive : ∀ kind, P (.primitive kind)
  reference : ∀ name, P (.reference name)
  fixed : ∀ {members type}, readFixed members = .ok type → P (.fixed type)
  enumeration : ∀ {members type}, readEnumeration members = .ok type → P (.enumeration type)
  array : ∀ {items}, P items → P (.array items)
  map : ∀ {values}, P values → P (.map values)
  union : ∀ {branches}, (∀ branch ∈ branches, P branch) → P (.union branches)
  record : ∀ {members name} doc {fields}, requiredName members = .ok name → Q fields →
    P (.record name doc fields)
  done : Q .done
  malformed : ∀ error, Q (.invalid error)
  cons : ∀ name doc {schema rest}, P schema → Q rest → Q (.cons name doc schema rest)

variable {P : Schema → Prop} {Q : FieldSchemas → Prop}

theorem holds_ofExcept {α : Type} {make : α → Schema} {result : Except Error α}
    (kept : KeptByReading P Q) (h : ∀ value, result = .ok value → P (make value)) :
    P (ofExcept make result) := by
  cases result with
  | error error => exact kept.invalid error
  | ok value => exact h value rfl

theorem holds_ofName (kept : KeptByReading P Q) (name : String) : P (ofName name) := by
  unfold ofName
  split
  · exact kept.primitive _
  · exact holds_ofExcept kept fun name _ => kept.reference name

mutual

theorem holds_ofJson (kept : KeptByReading P Q) (value : Json.Value) : P (ofJson value) := by
  cases value with
  | scalar value =>
    unfold ofJson
    exact kept.invalid _
  | string name =>
    unfold ofJson
    exact holds_ofName kept name
  | array items =>
    unfold ofJson
    exact kept.union (holds_ofItems kept items)
  | object members =>
    unfold ofJson
    split
    · exact kept.invalid _
    · rename_i kind typed
      split
      · split
        · exact kept.invalid _
        · rename_i name named
          split
          · exact kept.record _ named (holds_ofFields kept name _)
          · exact kept.record _ named (kept.malformed _)
      · split
        · exact holds_ofExcept kept fun _ => kept.enumeration
        · split
          · exact holds_ofExcept kept fun _ => kept.fixed
          · split
            · split
              · exact kept.array (holds_ofJson kept _)
              · exact kept.invalid _
            · split
              · split
                · exact kept.map (holds_ofJson kept _)
                · exact kept.invalid _
              · exact holds_ofName kept kind
    · exact holds_ofJson kept _
termination_by sizeOf value
decreasing_by
  all_goals simp_wf
  · have held := sizeOf_member? ‹Json.member? "values" members = _›
    omega
  · have held := sizeOf_member? ‹Json.member? "items" members = _›
    omega
  · have listed := sizeOf_member? ‹Json.member? "fields" members = _›
    simp only [Json.Value.array.sizeOf_spec] at listed
    omega
  · have typed := sizeOf_member? ‹Json.member? "type" members = _›
    omega

theorem holds_ofItems (kept : KeptByReading P Q) (items : List Json.Value) :
    ∀ schema ∈ ofItems items, P schema := by
  cases items with
  | nil =>
    unfold ofItems
    exact List.forall_mem_nil _
  | cons item items =>
    unfold ofItems
    exact List.forall_mem_cons.mpr ⟨holds_ofJson kept item, holds_ofItems kept items⟩
termination_by sizeOf items

theorem holds_ofFields (kept : KeptByReading P Q) (record : String) (items : List Json.Value) :
    Q (ofFields record items) := by
  cases items with
  | nil =>
    unfold ofFields
    exact kept.done
  | cons item rest =>
    cases item with
    | scalar | string | array =>
      unfold ofFields
      exact kept.malformed _
    | object members =>
      unfold ofFields
      split
      · exact kept.malformed _
      · split
        · exact kept.malformed _
        · split
          · exact kept.malformed _
          · exact kept.cons _ _ (holds_ofJson kept _) (holds_ofFields kept record rest)
termination_by sizeOf items
decreasing_by
  · have typed := sizeOf_member? ‹Json.member? "type" members = _›
    simp_wf
    omega
  · decreasing_tactic

end

end Schema

theorem Document.holds_ofJson {P : Schema → Prop} {Q : FieldSchemas → Prop}
    (kept : Schema.KeptByReading P Q) (value : Json.Value) :
    ∀ schema ∈ Document.ofJson value, P schema := by
  unfold Document.ofJson
  split
  · exact Schema.holds_ofItems kept _
  · exact List.forall_mem_singleton.mpr (Schema.holds_ofJson kept value)

end AvroCompiler
