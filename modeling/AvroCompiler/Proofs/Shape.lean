import AvroCompiler.Shape

namespace AvroCompiler

namespace Shape

/-- The shape is not primitive, so that its routines are its own. -/
def Compound (shape : Shape) : Prop :=
  ∀ kind, shape ≠ .primitive kind

theorem primitive_or_compound (shape : Shape) : (∃ kind, shape = .primitive kind) ∨ shape.Compound := by
  cases shape with
  | primitive kind => exact Or.inl ⟨kind, rfl⟩
  | fixed | enumeration | array | map | union | record => exact Or.inr nofun

/-- The shapes that a shape is made of. A reference to a record holds no shape. -/
def components : Shape → List Shape
  | .array items => [items]
  | .map values => [values]
  | .union branches => branches
  | _ => []

inductive Within (part : Shape) : Shape → Prop
  | self : Within part part
  | inside {component whole : Shape} (mem : component ∈ whole.components)
      (within : Within part component) : Within part whole

theorem sizeOf_component {component whole : Shape} (h : component ∈ whole.components) :
    sizeOf component < sizeOf whole := by
  cases whole with
  | primitive | fixed | enumeration | record => cases h
  | array items =>
    cases List.mem_singleton.mp h
    simp
  | map values =>
    cases List.mem_singleton.mp h
    simp
  | union branches =>
    have mem : component ∈ branches := h
    have lt := List.sizeOf_lt_of_mem mem
    simp only [union.sizeOf_spec]
    omega

/-- What holds of a shape whenever it holds of its components holds of every shape. -/
theorem induction_components {P : Shape → Prop}
    (step : ∀ shape, (∀ component ∈ shape.components, P component) → P shape) (shape : Shape) :
    P shape :=
  step shape fun component _ => induction_components step component
termination_by sizeOf shape
decreasing_by exact sizeOf_component ‹_›

theorem Within.trans {part middle whole : Shape} (first : Within part middle)
    (second : Within middle whole) : Within part whole := by
  induction second with
  | self => exact first
  | inside mem _ ih => exact .inside mem ih

theorem within_component {component whole : Shape} (mem : component ∈ whole.components) :
    Within component whole :=
  .inside mem .self

end Shape

end AvroCompiler
