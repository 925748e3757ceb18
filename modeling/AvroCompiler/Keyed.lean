namespace AvroCompiler

/-- A strict linear order on keys. -/
class KeyOrder (κ : Type) extends LT κ where
  decideLt : DecidableRel (α := κ) (· < ·)
  irrefl (a : κ) : ¬a < a
  trans {a b c : κ} : a < b → b < c → a < c
  connex (a b : κ) : a < b ∨ a = b ∨ b < a

instance KeyOrder.decidableRel {κ : Type} [KeyOrder κ] : DecidableRel (α := κ) (· < ·) := KeyOrder.decideLt

instance : KeyOrder String where
  decideLt := inferInstance
  irrefl := String.lt_irrefl
  trans := String.lt_trans
  connex := Std.lt_trichotomy

variable {κ β : Type}

def Increasing [LT κ] (entries : List (κ × β)) : Prop :=
  entries.Pairwise fun a b => a.1 < b.1

/-- Puts a value at its key. A value that is there already is replaced. -/
def insertSorted [LT κ] [DecidableRel (α := κ) (· < ·)] (key : κ) (value : β) :
    List (κ × β) → List (κ × β)
  | [] => [(key, value)]
  | entry :: rest =>
    if key < entry.1 then (key, value) :: entry :: rest
    else if entry.1 < key then entry :: insertSorted key value rest
    else (key, value) :: rest

theorem mem_insertSorted [KeyOrder κ] {key : κ} {value : β} {entries : List (κ × β)}
    {entry : κ × β} (h : entry ∈ insertSorted key value entries) :
    entry = (key, value) ∨ entry ∈ entries := by
  induction entries with
  | nil => exact Or.inl (by simpa [insertSorted] using h)
  | cons head rest ih =>
    rw [insertSorted] at h
    split at h
    · simpa using h
    · split at h
      · rcases List.mem_cons.mp h with eq | mem
        · exact Or.inr (by simp [eq])
        · exact (ih mem).imp_right (List.mem_cons_of_mem head)
      · rcases List.mem_cons.mp h with eq | mem
        · exact Or.inl eq
        · exact Or.inr (List.mem_cons_of_mem head mem)

theorem increasing_insertSorted [KeyOrder κ] (key : κ) (value : β) {entries : List (κ × β)}
    (h : Increasing entries) : Increasing (insertSorted key value entries) := by
  induction entries with
  | nil => simp [insertSorted, Increasing]
  | cons head rest ih =>
    obtain ⟨below, sorted⟩ := List.pairwise_cons.mp h
    rw [insertSorted]
    split
    · rename_i lt
      refine List.pairwise_cons.mpr ⟨?_, h⟩
      intro entry mem
      rcases List.mem_cons.mp mem with rfl | mem
      · exact lt
      · exact KeyOrder.trans lt (below entry mem)
    · split
      · rename_i lt
        refine List.pairwise_cons.mpr ⟨?_, ih sorted⟩
        intro entry mem
        rcases mem_insertSorted mem with rfl | mem
        · exact lt
        · exact below entry mem
      · rename_i notLt notGt
        have eq : key = head.1 :=
          ((KeyOrder.connex key head.1).resolve_left notLt).resolve_right notGt
        exact List.pairwise_cons.mpr ⟨fun entry mem => eq ▸ below entry mem, sorted⟩

theorem lookup_insertSorted [KeyOrder κ] [DecidableEq κ] (key other : κ) (value : β)
    (entries : List (κ × β)) :
    (insertSorted key value entries).lookup other =
      if other = key then some value else entries.lookup other := by
  induction entries with
  | nil =>
    by_cases h : other = key
    · simp [insertSorted, h]
    · have : (other == key) = false := by simpa using h
      simp [insertSorted, List.lookup_cons, h, this]
  | cons head rest ih =>
    obtain ⟨k, v⟩ := head
    rw [insertSorted]
    split
    · by_cases h : other = key
      · simp [h]
      · have : (other == key) = false := by simpa using h
        simp [List.lookup_cons, h, this]
    · split
      · rename_i lt
        by_cases h : other = k
        · subst other
          have ne : k ≠ key := fun eq => KeyOrder.irrefl key (eq ▸ lt)
          simp [ne]
        · have : (other == k) = false := by simpa using h
          simp [List.lookup_cons, this, ih]
      · rename_i notLt notGt
        have eq : key = k := ((KeyOrder.connex key k).resolve_left notLt).resolve_right notGt
        subst eq
        by_cases h : other = key
        · simp [h]
        · have : (other == key) = false := by simpa using h
          simp [List.lookup_cons, h, this]

structure Keyed (κ β : Type) [LT κ] where
  entries : List (κ × β)
  increasing : Increasing entries

namespace Keyed

def empty [LT κ] : Keyed κ β := ⟨[], List.Pairwise.nil⟩

instance [LT κ] : EmptyCollection (Keyed κ β) := ⟨empty⟩

instance [LT κ] : Inhabited (Keyed κ β) := ⟨empty⟩

def get? [LT κ] [DecidableEq κ] (keyed : Keyed κ β) (key : κ) : Option β :=
  keyed.entries.lookup key

def contains [LT κ] [DecidableEq κ] (keyed : Keyed κ β) (key : κ) : Bool :=
  (keyed.get? key).isSome

def insert [KeyOrder κ] (keyed : Keyed κ β) (key : κ) (value : β) : Keyed κ β :=
  ⟨insertSorted key value keyed.entries, increasing_insertSorted key value keyed.increasing⟩

theorem get?_insert [KeyOrder κ] [DecidableEq κ] (keyed : Keyed κ β) (key other : κ)
    (value : β) :
    (keyed.insert key value).get? other = if other = key then some value else keyed.get? other :=
  lookup_insertSorted key other value keyed.entries

def keys [LT κ] (keyed : Keyed κ β) : List κ :=
  keyed.entries.map Prod.fst

def values [LT κ] (keyed : Keyed κ β) : List β :=
  keyed.entries.map Prod.snd

def size [LT κ] (keyed : Keyed κ β) : Nat :=
  keyed.entries.length

def isEmpty [LT κ] (keyed : Keyed κ β) : Bool :=
  keyed.entries.isEmpty

end Keyed

end AvroCompiler
