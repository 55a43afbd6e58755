namespace Implementers

/-!
# Predeclared names

The type names that every package sees without declaring them, and the blank identifier, which
never names a declaration.
-/

/-- The blank identifier. -/
def blankName : String := "_"

/-- The predeclared type names. -/
def predeclaredTypes : List String :=
  [ "any", "bool", "byte", "comparable", "complex64", "complex128", "error", "float32", "float64",
    "int", "int8", "int16", "int32", "int64", "rune", "string", "uint", "uint8", "uint16",
    "uint32", "uint64", "uintptr" ]

/-- Whether a name is a predeclared type name. -/
def isPredeclared
    (name : String) :
    Bool :=
  predeclaredTypes.contains name

end Implementers
