/-
  ScriptSyntax/Directive/Basic.lean
  =================================
  Directives: what the comments at the head of a file say about the file.
-/

namespace ScriptSyntax

/-- A comment that refers to a file, and where it stands. -/
structure FileReference where
  pos : Nat
  stop : Nat
  fileName : String
  deriving DecidableEq, Repr

/-- A module that the file depends on, and the name it goes by. -/
structure ModuleDependency where
  path : String
  name : Option String
  deriving DecidableEq, Repr

/-- A comment that turns checking on or off, and where it stands. -/
structure CheckDirective where
  enabled : Bool
  pos : Nat
  stop : Nat
  deriving DecidableEq, Repr

/-- What the comments at the head of a file say. Of what can only be said once, the last counts. -/
structure Directives where
  referencedFiles : List FileReference := []
  referencedTypes : List FileReference := []
  noDefaultLibrary : Bool := false
  dependencies : List ModuleDependency := []
  moduleName : Option String := none
  check : Option CheckDirective := none
  deriving DecidableEq, Repr, Inhabited

end ScriptSyntax
