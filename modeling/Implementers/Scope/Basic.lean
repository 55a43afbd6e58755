import Implementers.Predeclared
import Implementers.Scope.ImportName
import Implementers.Syntax.SourceFile
import Implementers.Text.Slice
import Implementers.Ty.Identity
import Implementers.UnitError

namespace Implementers

/-!
# The scope of a package

The files of a package with their imports, and the types declared at the top level of any of them.
A name is declared at most once in a package.
-/

/-- A parsed source file of a package. -/
structure FileScope where
  /-- The place of the file among the files of its package. -/
  index : Nat
  path : Path
  text : String
  lines : Text.LineIndex
  source : Syntax.SourceFile
  /-- Import paths by import name, the latest import of a name first. -/
  imports : List (String × String)
  /-- Paths of the imports whose names are seen without a qualifier. -/
  dotImports : List String

namespace FileScope

/-- The imports of a file by name, the latest one first. -/
def namedImports
    (specs : List Syntax.ImportSpec) :
    List (String × String) :=
  specs.foldl
    (fun imports spec =>
      match spec.path with
      | none => imports
      | some path =>
          let name := (spec.name.map Syntax.Ident.text).getD (ImportName.ofPath path)
          if spec.dot || name == blankName then imports else (name, path) :: imports)
    []

/-- The scope of a source file. -/
def ofSource
    (index : Nat)
    (path : Path)
    (text : String)
    (source : Syntax.SourceFile) :
    FileScope :=
  { index
    path
    text
    lines := Text.LineIndex.ofText text
    source
    imports := namedImports source.imports
    dotImports := (source.imports.filter Syntax.ImportSpec.dot).filterMap Syntax.ImportSpec.path }

/-- The position of an offset in a file. -/
def position
    (file : FileScope)
    (offset : Nat) :
    Position :=
  let (line, column) := file.lines.lineColumn offset
  ⟨file.path, line, column⟩

/-- The source text of a span in a file. -/
def excerpt
    (file : FileScope)
    (span : Syntax.Span) :
    String :=
  Text.slice span.start span.stop file.text

/-- The path imported under a name. -/
def importPath?
    (file : FileScope)
    (name : String) :
    Option String :=
  file.imports.lookup name

/-- The error that a construct lacks a part. -/
def missing
    (file : FileScope)
    (start : Nat)
    (part : String) :
    UnitError :=
  .invalidSource (file.position start) ("missing " ++ part)

/-- The error that an identifier means nothing. -/
def undefined
    (file : FileScope)
    (ident : Syntax.Ident) :
    UnitError :=
  .undefined (file.position ident.span.start) ident.text

end FileScope

/-- A type declared at the top level of a package. -/
structure TypeDecl where
  name : String
  file : FileScope
  spec : Syntax.TypeSpec
  offset : Nat

namespace TypeDecl

/-- Where the name of a declared type stands. -/
def position
    (decl : TypeDecl) :
    Position :=
  decl.file.position decl.offset

/-- The error that a declaration leads back to itself. -/
def recursive
    (decl : TypeDecl) :
    UnitError :=
  .recursiveType decl.position decl.name

end TypeDecl

/-- The methods of an interface, and whether they are all there is to it. -/
structure InterfaceMethods where
  methods : MethodSet := .empty
  /-- Whether the interface restricts types otherwise than by methods. -/
  isConstraint : Bool := false
  /-- Whether the interface embeds one from a package that is never loaded. -/
  isPartial : Bool := false

/-- What a declared type is underneath its name. -/
inductive Underlying where
  | interface (methods : InterfaceMethods)
  | struct (file : FileScope) (fields : List Syntax.FieldDecl)
  | imported (path : String)
  | other

namespace Underlying

/-- Whether the type underneath is an interface. -/
def isInterface : Underlying → Bool
  | .interface _ => true
  | _ => false

end Underlying

/-- The files of a package and the types that they declare. -/
structure Scope where
  package : PackageId
  files : List FileScope
  decls : List TypeDecl

namespace Scope

/-- The declaration of a name among declarations. -/
def findDecl?
    (decls : List TypeDecl)
    (name : String) :
    Option TypeDecl :=
  decls.find? (·.name == name)

/-- The declaration of a name in a package. -/
def lookup?
    (scope : Scope)
    (name : String) :
    Option TypeDecl :=
  findDecl? scope.decls name

/-- The declarations that the type declarations of a file make, the blank ones left out. -/
def declsOf
    (file : FileScope) :
    List TypeDecl :=
  file.source.types.filterMap fun spec =>
    spec.name.bind fun ident =>
      if ident.text == blankName then
        none
      else
        some ⟨ident.text, file, spec, ident.span.start⟩

/-- Declarations joined to earlier ones, none of which may have the same name. -/
def addDecls
    (earlier : List TypeDecl) :
    List TypeDecl → Except UnitError (List TypeDecl)
  | [] => .ok earlier
  | decl :: rest =>
      match findDecl? earlier decl.name with
      | some previous => .error (.redeclared decl.position decl.name previous.position)
      | none => addDecls (earlier ++ [decl]) rest

/-- The scope of a package's files. -/
def ofFiles
    (package : PackageId)
    (files : List FileScope) :
    Except UnitError Scope := do
  let decls ← addDecls [] (files.flatMap declsOf)
  return ⟨package, files, decls⟩

/-- A method name as the package sees it. -/
def methodName
    (scope : Scope)
    (name : String) :
    MethodName :=
  .inPackage scope.package name

/-- The methods of the predeclared `error` interface. -/
def errorMethods
    (scope : Scope) :
    MethodSet :=
  MethodSet.empty.insert (scope.methodName "Error") (.mk [] [.predeclared "string"] false)

end Scope

end Implementers
