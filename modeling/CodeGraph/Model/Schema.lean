import CodeGraph.Json.Schema

/-!
# The published schema of written models

Whoever reads a written model may rely on its schema, which is published with its version.
-/

namespace CodeGraph.Model

open JsonSchema

/-- The schemas of the parts of a written model. -/
def schemaDefinitions : JsonSchema.Definitions :=
  [("taggedValue", object ["key", "value"] [("key", text 1), ("value", text 0)]),
    ("taggedValues", list (ref "taggedValue")),
    ("stereotype", object ["name"] [("name", text 1), ("qualifiedName", text 0)]),
    ("stereotypes", list (ref "stereotype")),
    ("sourceRef",
      object ["file"] [("file", text 0), ("line", integer 1), ("col", integer 1)]),
    ("visibility", choice ["PUBLIC", "PROTECTED", "PACKAGE", "PRIVATE"]),
    ("typeRef",
      object ["kind"]
        [("kind",
            choice
              ["NAMED", "PRIMITIVE", "GENERIC", "ARRAY", "UNION", "INTERSECTION", "UNKNOWN"]),
          ("name", text 0), ("typeArgs", list (ref "typeRef")), ("elementType", ref "typeRef")]),
    ("parameter", object ["name", "type"] [("name", text 0), ("type", ref "typeRef")]),
    ("attribute",
      object ["name", "type"]
        [("id", text 0), ("name", text 0), ("type", ref "typeRef"),
          ("visibility", ref "visibility"), ("isStatic", bool), ("isFinal", bool),
          ("stereotypes", ref "stereotypes"), ("taggedValues", ref "taggedValues"),
          ("source", ref "sourceRef")]),
    ("operation",
      object ["name", "returnType"]
        [("id", text 0), ("name", text 0), ("returnType", ref "typeRef"),
          ("parameters", list (ref "parameter")), ("visibility", ref "visibility"),
          ("isStatic", bool), ("isAbstract", bool), ("isConstructor", bool),
          ("stereotypes", ref "stereotypes"), ("taggedValues", ref "taggedValues"),
          ("source", ref "sourceRef")]),
    ("package",
      object ["id", "name"]
        [("id", text 1), ("name", text 0), ("qualifiedName", text 0), ("parentId", text 0),
          ("taggedValues", ref "taggedValues")]),
    ("classifier",
      object ["id", "name", "kind"]
        [("id", text 1), ("name", text 0), ("qualifiedName", text 0), ("packageId", text 0),
          ("kind",
            choice
              ["CLASS", "INTERFACE", "ENUM", "TYPE_ALIAS", "FUNCTION", "COMPONENT", "SERVICE",
                "MODULE"]),
          ("visibility", ref "visibility"), ("attributes", list (ref "attribute")),
          ("operations", list (ref "operation")), ("stereotypes", ref "stereotypes"),
          ("taggedValues", ref "taggedValues"), ("source", ref "sourceRef")]),
    ("relation",
      object ["id", "kind", "sourceId", "targetId"]
        [("id", text 1),
          ("kind",
            choice
              ["INHERITANCE", "IMPLEMENTATION", "ASSOCIATION", "DEPENDENCY", "RENDER", "DI",
                "ROUTE_TO", "TEMPLATE_USES"]),
          ("sourceId", text 0), ("targetId", text 0), ("name", text 0),
          ("taggedValues", ref "taggedValues"), ("source", ref "sourceRef")])]

/-- The schema of a written model. -/
def schema : JsonSchema :=
  object ["schemaVersion", "packages", "classifiers", "relations"]
    [("schemaVersion", choice ["1.0"]), ("packages", list (ref "package")),
      ("classifiers", list (ref "classifier")), ("relations", list (ref "relation")),
      ("taggedValues", ref "taggedValues")]

/-- A JSON value follows the published schema. -/
def followsSchema (value : Json) : Bool :=
  schema.accepts schemaDefinitions value

end CodeGraph.Model
