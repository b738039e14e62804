import CodeGraph.Model.Basic
import CodeGraph.Syntax.Source

/-!
# Declarations

A declaration is the place in the syntax where a classifier is declared. Its shape tells what it
looks like, which decides the kind of the classifier and what is read from it later.
-/

namespace CodeGraph

open Syntax

/-- What a declaration looks like. -/
inductive Shape where
  /-- A class. -/
  | plainClass
  /-- An abstract class. -/
  | abstractClass
  /-- An interface. -/
  | interface
  /-- An enumeration. -/
  | enum
  /-- A name for a type. -/
  | typeAlias
  /-- A function. -/
  | function
  /-- A variable that is set to a function. -/
  | arrowFunction
  /-- A React component that is a function. -/
  | functionComponent
  /-- A React component that is a class. -/
  | classComponent
  /-- A React context. -/
  | reactContext
  /-- An Angular component. -/
  | angularComponent
  /-- An Angular service. -/
  | angularInjectable
  /-- An Angular module. -/
  | angularModule
  /-- An Angular directive. -/
  | angularDirective
  /-- An Angular pipe. -/
  | angularPipe
deriving DecidableEq, Repr, Inhabited

namespace Shape

/-- The kind of classifier that a shape declares. -/
def kind : Shape → ClassifierKind
  | .plainClass => .classType
  | .abstractClass => .classType
  | .interface => .interface
  | .enum => .enum
  | .typeAlias => .typeAlias
  | .function => .function
  | .arrowFunction => .function
  | .functionComponent => .component
  | .classComponent => .component
  | .reactContext => .service
  | .angularComponent => .component
  | .angularInjectable => .service
  | .angularModule => .module
  | .angularDirective => .classType
  | .angularPipe => .classType

/-- The shape is that of a class. -/
def isClass : Shape → Bool
  | .plainClass | .abstractClass | .classComponent | .angularComponent | .angularInjectable
  | .angularModule | .angularDirective | .angularPipe => true
  | _ => false

/-- The shape is that of a function. -/
def isFunction : Shape → Bool
  | .function | .arrowFunction | .functionComponent => true
  | _ => false

end Shape

/-- The syntax that declares a classifier. -/
structure Declaration where
  /-- What it looks like. -/
  shape : Shape
  /-- The file it stands in. -/
  source : Source
  /-- The declaring node. -/
  node : Node
  /-- The declared name. -/
  name : String
  /-- The namespaces around it, the outermost first. -/
  scope : List String
  /-- The id of the classifier that it declares. -/
  classifierId : String
  /-- The statement around it. -/
  wrapper : Node
  /-- The function behind it. -/
  function : Option Node := none
  /-- The decorator that gives it its shape. -/
  decorator : Option Node := none

namespace Declaration

/-- The path of the file. -/
def file (declaration : Declaration) : String :=
  declaration.source.path

end Declaration

namespace Syntax.Source

/-- The place of a node. -/
def place (source : Source) (node : Node) : SourceRef :=
  { file := source.path, line := some (source.lineOf node), col := some (source.columnOf node) }

end Syntax.Source

end CodeGraph
