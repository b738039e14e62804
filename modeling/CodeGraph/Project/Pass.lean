import CodeGraph.Angular.Route
import CodeGraph.Angular.TemplateLinks
import CodeGraph.Angular.Wiring
import CodeGraph.Draft.Declaring
import CodeGraph.Draft.Members
import CodeGraph.Modules.ImportGraph
import CodeGraph.React.Rendering
import CodeGraph.React.Route

/-!
# Passes

An extraction runs passes over a draft, one after the other. Which passes run depends on the
options; their order is fixed.
-/

namespace CodeGraph

/-- The passes of an extraction. -/
inductive Pass where
  /-- Takes the declarations in. -/
  | declarations
  /-- Adds members and the relations that types make. -/
  | members
  /-- Adds what React makes of components. -/
  | react
  /-- Adds the routes of React applications. -/
  | reactRoutes
  /-- Adds what Angular decorators say. -/
  | angular
  /-- Adds the routes of Angular applications. -/
  | angularRoutes
  /-- Adds what Angular templates use. -/
  | angularTemplates
  /-- Adds the import graph. -/
  | imports
deriving DecidableEq, Repr

namespace Pass

/-- The pass's name. -/
def label : Pass → String
  | .declarations => "declarations"
  | .members => "members"
  | .react => "react"
  | .reactRoutes => "react-routes"
  | .angular => "angular"
  | .angularRoutes => "angular-routes"
  | .angularTemplates => "angular-templates"
  | .imports => "imports"

/-- All passes. -/
def all : List Pass :=
  [.declarations, .members, .react, .reactRoutes, .angular, .angularRoutes, .angularTemplates,
    .imports]

/-- The pass with a name. -/
def ofLabel? (label : String) : Option Pass :=
  all.find? (·.label == label)

/-- What a pass does to a draft. -/
def run : Pass → Draft → Draft
  | .declarations => Draft.declareAll
  | .members => Draft.addMembers
  | .react => Draft.addReact
  | .reactRoutes => Draft.addReactRoutes
  | .angular => Draft.addAngular
  | .angularRoutes => Draft.addAngularRoutes
  | .angularTemplates => Draft.addAngularTemplates
  | .imports => Draft.addImportGraph

/-- The passes that the options ask for, in order. -/
def scheduled (options : ExtractOptions) : List Pass :=
  [.declarations, .members]
    ++ (if options.react then [.react, .reactRoutes] else [])
    ++ (if options.angular then [.angular, .angularRoutes, .angularTemplates] else [])
    ++ (if options.importGraph then [.imports] else [])

end Pass

namespace Draft

/-- The draft after a list of passes. -/
def runPasses (draft : Draft) (passes : List Pass) : Draft :=
  passes.foldl (fun draft pass => pass.run draft) draft

/-- The draft after the passes that its options ask for. -/
def complete (draft : Draft) : Draft :=
  draft.runPasses (Pass.scheduled draft.options)

end Draft

end CodeGraph
