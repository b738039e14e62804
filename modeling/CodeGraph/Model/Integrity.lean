import CodeGraph.Model.Basic

/-!
# Integrity of a model

A model is intact when the ends of its relations, the owners of its classifiers and the parents
of its packages are all elements of it.
-/

namespace CodeGraph

/-- A reference to an element that the model does not have. -/
inductive DanglingRef where
  /-- The relation starts from a missing classifier. -/
  | relationSource (relation source : String)
  /-- The relation leads to a missing classifier. -/
  | relationTarget (relation target : String)
  /-- The classifier is owned by a missing package. -/
  | classifierPackage (classifier package : String)
  /-- The package lies in a missing package. -/
  | packageParent (package parent : String)
deriving DecidableEq, Repr

namespace DanglingRef

/-- The reference in words. -/
def message : DanglingRef → String
  | .relationSource relation source => "relation " ++ relation ++ " has unknown sourceId " ++ source
  | .relationTarget relation target => "relation " ++ relation ++ " has unknown targetId " ++ target
  | .classifierPackage classifier package =>
      "classifier " ++ classifier ++ " references unknown package " ++ package
  | .packageParent package parent =>
      "package " ++ package ++ " references unknown parent " ++ parent

/-- The first ten references in words. -/
def report (refs : List DanglingRef) : String :=
  String.intercalate "; " ((refs.take 10).map message)

end DanglingRef

namespace Model

/-- The references of a model to elements that it does not have: those of relations, then of
classifiers, then of packages. -/
def danglingRefs (model : Model) : List DanglingRef :=
  let classifierIds := model.classifiers.map (·.id)
  let packageIds := model.packages.map (·.id)
  let ofRelations := model.relations.flatMap fun relation =>
    (if classifierIds.contains relation.sourceId then []
      else [DanglingRef.relationSource relation.id relation.sourceId])
    ++ (if classifierIds.contains relation.targetId then []
      else [DanglingRef.relationTarget relation.id relation.targetId])
  let ofClassifiers := model.classifiers.filterMap fun classifier =>
    match classifier.packageId with
    | some package =>
        if packageIds.contains package then none
        else some (DanglingRef.classifierPackage classifier.id package)
    | none => none
  let ofPackages := model.packages.filterMap fun package =>
    match package.parentId with
    | some parent =>
        if packageIds.contains parent then none
        else some (DanglingRef.packageParent package.id parent)
    | none => none
  ofRelations ++ ofClassifiers ++ ofPackages

/-- The model has every element that it refers to. -/
def isIntact (model : Model) : Bool :=
  model.danglingRefs.isEmpty

end Model

end CodeGraph
