import CortexCall.Text.Basic
import CortexCall.Decimal.Binary64

/-!
# JSON values

A JSON value keeps everything that can be seen of it: whole numbers are
exact and apart from doubles, texts are lists of characters, and an object
is the **list of its members** in order. Order is part of an object because
every printed form shows it.

An object's names are distinct. `Members.ofPairs` is how a list of pairs
becomes an object: a name keeps the place where it first occurs and the value
it was last given, and `Members.insert` is one step of that.

What matters later of the numbers in a value is whether any is infinite:
`allFinite` says that none is, and `nullInfinite` takes such numbers out.
-/

namespace CortexCall

/-- A JSON value. -/
inductive Json where
  | null
  | bool (b : Bool)
  | int (n : Int)
  | double (d : Binary64)
  | str (t : Text)
  | arr (items : List Json)
  | obj (members : List (Text × Json))
deriving BEq, Inhabited, Repr

/-- The members of an object, in order. -/
abbrev Members := List (Text × Json)

namespace Members

/-- The value of a name, if the object has it. -/
def get? (name : Text) : Members → Option Json
  | [] => none
  | (n, v) :: rest => if n = name then some v else get? name rest

/-- The names in order. -/
def names (m : Members) : List Text := m.map Prod.fst

/-- Gives a name a value: in its place if it has one, at the end if not. -/
def insert (m : Members) (name : Text) (value : Json) : Members :=
  match m with
  | [] => [(name, value)]
  | (n, v) :: rest =>
    if n = name then (n, value) :: rest else (n, v) :: insert rest name value

/-- The object that a list of pairs denotes. -/
def ofPairs (pairs : List (Text × Json)) : Members :=
  pairs.foldl (fun m p => insert m p.1 p.2) []

/-- The object without a name. -/
def erase (m : Members) (name : Text) : Members := m.filter fun p => p.1 != name

@[simp] theorem get?_nil (name : Text) : get? name [] = none := rfl

theorem get?_cons (name n : Text) (v : Json) (rest : Members) :
    get? name ((n, v) :: rest) = if n = name then some v else get? name rest := rfl

theorem get?_append (m m' : Members) (name : Text) :
    get? name (m ++ m') = (get? name m).or (get? name m') := by
  induction m with
  | nil => rfl
  | cons p rest ih =>
    rw [List.cons_append, get?, get?]
    split
    · rfl
    · exact ih

/-- Of the members whose names are kept, each has the value that it had. -/
theorem get?_filter (m : Members) (kept : Text → Bool) (name : Text) :
    get? name (m.filter fun p => kept p.1) = if kept name then get? name m else none := by
  induction m with
  | nil => split <;> rfl
  | cons p rest ih =>
    obtain ⟨n, v⟩ := p
    rw [List.filter_cons, get?_cons]
    by_cases h : n = name
    · subst h
      by_cases hkept : kept n = true
      · rw [if_pos hkept, if_pos hkept, get?_cons, if_pos rfl, if_pos rfl]
      · rw [if_neg hkept, ih, if_neg hkept, if_neg hkept]
    · rw [if_neg h, ← ih]
      split
      · rw [get?_cons, if_neg h]
      · rfl

/-- **An object has a value for exactly its names.** -/
theorem get?_isSome_iff {m : Members} {name : Text} :
    (get? name m).isSome = true ↔ name ∈ names m := by
  induction m with
  | nil => simp [names]
  | cons p rest ih =>
    obtain ⟨n, v⟩ := p
    by_cases h : n = name
    · simp [get?, names, h]
    · have h' : name ≠ n := fun e => h e.symm
      simpa [get?, names, h, h'] using ih

/-- The value that a name has is among the members. -/
theorem mem_of_get? {m : Members} {name : Text} {v : Json} (h : m.get? name = some v) :
    (name, v) ∈ m := by
  induction m with
  | nil => cases h
  | cons p rest ih =>
    obtain ⟨n, w⟩ := p
    rw [get?] at h
    split at h
    · next hn =>
      obtain rfl := Option.some.inj h
      exact hn ▸ List.mem_cons_self
    · exact List.mem_cons_of_mem _ (ih h)

/-- **After an insertion the name has the value, and no other changed.** -/
theorem get?_insert (m : Members) (name other : Text) (value : Json) :
    get? other (insert m name value) = if name = other then some value else get? other m := by
  induction m with
  | nil => simp [insert, get?]
  | cons p rest ih =>
    obtain ⟨n, v⟩ := p
    by_cases h : n = name
    · subst h
      by_cases h' : n = other <;> simp [insert, get?, h']
    · by_cases h' : n = other
      · subst h'
        have h'' : ¬ name = n := fun e => h e.symm
        simp [insert, get?, h, h'']
      · simp [insert, get?, h, h', ih]

/-- An insertion adds its name to the names, at the end if it is new. -/
theorem names_insert (m : Members) (name : Text) (value : Json) :
    names (insert m name value) = if name ∈ names m then names m else names m ++ [name] := by
  induction m with
  | nil => simp [insert, names]
  | cons p rest ih =>
    obtain ⟨n, v⟩ := p
    by_cases h : n = name
    · simp [insert, names, h]
    · have h' : name ≠ n := fun e => h e.symm
      simp only [names] at ih
      by_cases hm : name ∈ rest.map Prod.fst
      · simp [insert, names, h, h', hm, ih]
      · simp [insert, names, h, h', hm, ih]

end Members

namespace Json

mutual

/-- Whether every number in a value is finite. -/
def allFinite : Json → Bool
  | .null => true
  | .bool _ => true
  | .int _ => true
  | .double d => d.isFinite
  | .str _ => true
  | .arr items => itemsFinite items
  | .obj members => membersFinite members

/-- Whether every number in some values is finite. -/
def itemsFinite : List Json → Bool
  | [] => true
  | v :: rest => v.allFinite && itemsFinite rest

/-- Whether every number in some members is finite. -/
def membersFinite : List (Text × Json) → Bool
  | [] => true
  | (_, v) :: rest => v.allFinite && membersFinite rest

end

mutual

/-- The value with `null` for every number that is not finite. -/
def nullInfinite : Json → Json
  | .null => .null
  | .bool b => .bool b
  | .int n => .int n
  | .double d => if d.isFinite then .double d else .null
  | .str t => .str t
  | .arr items => .arr (itemsNullInfinite items)
  | .obj members => .obj (membersNullInfinite members)

/-- Some values with `null` for every number that is not finite. -/
def itemsNullInfinite : List Json → List Json
  | [] => []
  | v :: rest => v.nullInfinite :: itemsNullInfinite rest

/-- Some members with `null` for every number that is not finite. -/
def membersNullInfinite : List (Text × Json) → List (Text × Json)
  | [] => []
  | (n, v) :: rest => (n, v.nullInfinite) :: membersNullInfinite rest

end

/-- Whether a value is `null`. -/
def isNull : Json → Bool
  | .null => true
  | _ => false

end Json

end CortexCall
