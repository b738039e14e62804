import CodeGraph.Text.Wildcard

/-!
# Exclusion rules

A rule keeps files or directories out of an inventory. A pattern with a slash is matched against
the whole path, any other against the last segment. A slash at the end, or a slash and two stars,
restricts the rule to directories.
-/

namespace CodeGraph

/-- A rule that keeps paths out of an inventory. -/
structure ExcludeRule where
  /-- The wildcard pattern. -/
  pattern : String
  /-- The rule is about directories alone. -/
  directoryOnly : Bool
  /-- The pattern is matched against whole paths. -/
  hasSlash : Bool
deriving DecidableEq, Repr

namespace ExcludeRule

/-- The text without a given end, if it has it. -/
def dropEnd? (text tail : String) : Option String :=
  if Text.endsWith text tail then
    some (String.ofList (text.toList.take (text.length - tail.length)))
  else
    none

/-- Drops each "any directory" part in front. -/
def dropAnyDirectory : List Char → List Char
  | '*' :: '*' :: '/' :: rest => dropAnyDirectory rest
  | chars => chars

/-- The rule that a written pattern stands for; blank patterns and comments stand for none. -/
def ofPattern? (written : String) : Option ExcludeRule :=
  let text := Text.replace "\\" "/" (Text.trim written)
  if text.isEmpty || Text.startsWith text "#" then
    none
  else
    let (text, inside) :=
      match dropEnd? text "/**" with
      | some front => (front, true)
      | none => (text, false)
    let (text, below) :=
      if Text.endsWith text "/" then
        (String.ofList (text.toList.reverse.dropWhile (· == '/')).reverse, true)
      else
        (text, false)
    let pattern := String.ofList ((dropAnyDirectory text.toList).dropWhile (· == '/'))
    if pattern.isEmpty then none
    else some { pattern, directoryOnly := inside || below, hasSlash := pattern.toList.contains '/' }

/-- The rule excludes a path, which is that of a directory or of a file. -/
def excludes (rule : ExcludeRule) (path : String) (isDirectory : Bool) : Bool :=
  if rule.pattern.isEmpty || (rule.directoryOnly && !isDirectory) then
    false
  else if rule.hasSlash then
    Text.matchesWildcard (Text.replace "**" "*" rule.pattern) path
      || Text.matchesWildcard (Text.replace "**" "*" (Text.replace "**/" "" rule.pattern)) path
  else
    Text.matchesWildcard rule.pattern (Text.lastPiece '/' path)

/-- What is kept out of every inventory. -/
def standard : List String :=
  ["node_modules/", "dist/", "build/", ".next/", ".cache/", "coverage/", ".git/", ".turbo/",
    ".svelte-kit/", ".angular/", ".nx/", "out/", "*.min.js", "*.d.ts", "*.d.mts", "*.d.cts"]

/-- What is kept out of an inventory without tests. -/
def tests : List String :=
  ["__tests__/", "test/", "tests/", "*.test.*", "*.spec.*"]

/-- The rules of an inventory with these further patterns. -/
def rules (patterns : List String) (includeTests : Bool) : List ExcludeRule :=
  (standard ++ patterns ++ (if includeTests then [] else tests)).filterMap ofPattern?

end ExcludeRule

end CodeGraph
