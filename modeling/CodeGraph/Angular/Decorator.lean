import CodeGraph.Draft.Declaration

/-!
# Angular decorators in the syntax

A decorator gives a class its part in an Angular application, and the object passed to it holds
the details.
-/

namespace CodeGraph

open Syntax

namespace Angular

/-- The decorators that give a class a part. -/
inductive Part where
  /-- A component with a template. -/
  | component
  /-- A service. -/
  | injectable
  /-- A module. -/
  | ngModule
  /-- A directive. -/
  | directive
  /-- A pipe. -/
  | pipe
deriving DecidableEq, Repr

namespace Part

/-- The decorator's name. -/
def label : Part → String
  | .component => "Component"
  | .injectable => "Injectable"
  | .ngModule => "NgModule"
  | .directive => "Directive"
  | .pipe => "Pipe"

/-- The role that the class plays. -/
def stereotype : Part → String
  | .component => "AngularComponent"
  | .injectable => "AngularInjectable"
  | .ngModule => "AngularNgModule"
  | .directive => "AngularDirective"
  | .pipe => "AngularPipe"

/-- The shape of the class. -/
def shape : Part → Shape
  | .component => .angularComponent
  | .injectable => .angularInjectable
  | .ngModule => .angularModule
  | .directive => .angularDirective
  | .pipe => .angularPipe

/-- All parts. -/
def all : List Part := [.component, .injectable, .ngModule, .directive, .pipe]

/-- The part with a decorator's name. -/
def ofLabel? (label : String) : Option Part :=
  all.find? (·.label == label)

/-- The class may bind inputs and outputs. -/
def hasBindings : Part → Bool
  | .component | .directive => true
  | _ => false

/-- The class may provide services. -/
def hasProviders : Part → Bool
  | .component | .ngModule | .directive => true
  | _ => false

end Part

/-- The name of a decorator, its last segment, and the call that it is, if it is one. -/
def decoratorParts (source : Source) (decorator : Node) : String × Option Node :=
  match decorator.content.head? with
  | none => ("", none)
  | some expression =>
      if expression.kind == "call_expression" then
        (Text.lastPiece '.' (source.textOf (expression.childIn? "function")), some expression)
      else
        (Text.lastPiece '.' (source.text expression), none)

/-- The part that a decorator gives. -/
def partOf? (source : Source) (decorator : Node) : Option Part :=
  Part.ofLabel? (decoratorParts source decorator).1

/-- The decorators of a class: those inside of it, then those of the export around it. -/
def decoratorsOf (classNode wrapper : Node) : List Node :=
  let isDecorator (node : Node) : Bool := node.kind == "decorator"
  classNode.children.filter isDecorator
    ++ (if wrapper.kind == "export_statement" then wrapper.children.filter isDecorator else [])

/-- The first decorator of a class that gives it a part. -/
def classDecorator? (source : Source) (classNode wrapper : Node) : Option (Part × Node) :=
  (decoratorsOf classNode wrapper).findSome? fun decorator =>
    (partOf? source decorator).map fun part => (part, decorator)

/-- The first argument of a call, comments included. -/
def firstArgument? (call : Node) : Option Node :=
  (call.childIn? "arguments").bind (·.firstNamed?)

/-- The object that is passed to a decorator. -/
def metadata? (source : Source) (decorator : Node) : Option Node :=
  ((decoratorParts source decorator).2.bind (·.childIn? "arguments")).bind (·.namedOf? "object")

/-- The name behind an expression: a dotted name, or the one on which a method is called. The first
argument bounds the number of calls on the way. -/
def referenceWithin? (source : Source) : (fuel : Nat) → Node → Option String
  | 0, _ => none
  | fuel + 1, node =>
      if node.isOneOf ["identifier", "member_expression"] then
        some (source.text node)
      else if node.kind == "call_expression" then
        match node.childIn? "function" with
        | some function =>
            if function.kind == "member_expression" then
              (function.childIn? "object").bind (referenceWithin? source fuel)
            else
              none
        | none => none
      else
        none

/-- The name behind an expression. -/
def reference? (source : Source) (node : Node) : Option String :=
  referenceWithin? source node.depth node

end Angular

end CodeGraph
