import CortexCall.Json.Value
import CortexCall.Request.Error

/-!
# One spelling for each field

Some fields may be written under several names. Before anything is checked,
members whose value is `null` are dropped, so that they count as absent, and
then each field of a table is moved to its own name: a member under an
alternate name is taken out and appended under the field's name. Two
spellings of one field together are a conflict, even if their values agree.

The table is walked in order, and each step sees what the one before it
left.
-/

namespace CortexCall

/-- The fields that have alternate spellings, with those spellings. -/
abbrev SpellingTable := List (Text × List Text)

namespace SpellingTable

/-- Gives a field its alternates: in its place if it is listed, at the end if
not. -/
def insert (table : SpellingTable) (field : Text) (alternates : List Text) : SpellingTable :=
  match table with
  | [] => [(field, alternates)]
  | (f, old) :: rest =>
    if f = field then (f, alternates) :: rest else (f, old) :: insert rest field alternates

/-- The table that a list of rows denotes; a field that is listed again
keeps its place and has the alternates it was last given. -/
def ofRows (rows : List (Text × List Text)) : SpellingTable :=
  rows.foldl (fun table row => insert table row.1 row.2) []

end SpellingTable

namespace Members

/-- The members whose value is not `null`. -/
def present (m : Members) : Members := m.filter fun p => !p.2.isNull

/-- The members with a new name for one of them, which moves to the end. -/
def rename (m : Members) (old new : Text) : Members :=
  match m.get? old with
  | some v => m.erase old ++ [(new, v)]
  | none => m

/-- The spellings of a field that the members use. -/
def spellingsOf (m : Members) (field : Text) (alternates : List Text) : List Text :=
  (field :: alternates).filter fun name => (m.get? name).isSome

/-- One field moved to its own name. -/
def unifyField (function : Text) (m : Members) (field : Text) (alternates : List Text) :
    Except RequestError Members :=
  match m.spellingsOf field alternates with
  | [] => .ok m
  | [name] => .ok (if name = field then m else m.rename name field)
  | supplied => .error (.conflict function field supplied)

/-- Every field of a table moved to its own name. -/
def unifyFields (function : Text) (m : Members) : SpellingTable → Except RequestError Members
  | [] => .ok m
  | (field, alternates) :: rest => do
    let m ← m.unifyField function field alternates
    m.unifyFields function rest

/-- **The present members, each field under its own name.** -/
def unify (function : Text) (table : SpellingTable) (m : Members) : Except RequestError Members :=
  m.present.unifyFields function table

/-- No present member is `null`. -/
theorem isNull_of_mem_present {m : Members} {p : Text × Json} (h : p ∈ m.present) :
    p.2.isNull = false := by
  simpa [present] using (List.mem_filter.1 h).2

end Members

end CortexCall
