/-
  ScriptSyntax/Text/NameTable.lean
  ================================
  The names of one file, each kept once.

  A name is entered the first time it is met and keeps its number from then on,
  so two occurrences of a name have the same number, and the numbers order the
  names by first occurrence.
-/

namespace ScriptSyntax

/-- The number of a name in its table. -/
structure NameId where
  index : Nat
  deriving DecidableEq, Repr

/-- The distinct names of a file, in the order in which they were first met. -/
structure NameTable where
  names : Array String
  deriving DecidableEq, Repr

namespace NameTable

def empty : NameTable := ⟨#[]⟩

instance : Inhabited NameTable := ⟨empty⟩

def size (t : NameTable) : Nat := t.names.size

def isEmpty (t : NameTable) : Bool := t.names.isEmpty

def find? (t : NameTable) (name : String) : Option NameId :=
  (t.names.findIdx? (· == name)).map NameId.mk

/-- The number of a name, which is entered at the end if it is new. -/
def intern (t : NameTable) (name : String) : NameId × NameTable :=
  match t.find? name with
  | some id => (id, t)
  | none => (⟨t.names.size⟩, ⟨t.names.push name⟩)

/-- The name of a number, empty if the table has no such number. -/
def resolve (t : NameTable) (id : NameId) : String := t.names[id.index]?.getD ""

/-- The names, in the order in which they were first met. -/
def toList (t : NameTable) : List String := t.names.toList

/-- The size of the table, for inspection. -/
def describe (t : NameTable) : String := "IdentifierTable \x7b len: " ++ toString t.size ++ " \x7d"

end NameTable

end ScriptSyntax
