import CodeGraph.Compiler.Options
import CodeGraph.Syntax.Source
import CodeGraph.Text.Order

/-!
# Module resolution

An import names a module by a specifier. A specifier that begins with a dot is a path from the
importing file; any other is looked up through the path patterns and then below the base URL. A
path leads to the first known file among the path itself, its counterparts in TypeScript, the
path with an extension, and an index file in the directory of that name.
-/

namespace CodeGraph

/-- What specifiers are resolved against. -/
structure ModuleResolver where
  /-- The project's root, without links. -/
  root : Path
  /-- The options that guide the search. -/
  options : CompilerOptions
  /-- The files of the program. -/
  files : List String

namespace ModuleResolver

/-- The specifier is a path from the importing file. -/
def isRelative (specifier : String) : Bool :=
  Text.startsWith specifier "."

/-- The extensions that a specifier may leave out, in the order in which they are tried. -/
def probeExtensions : List String :=
  [".ts", ".tsx", ".d.ts", ".js", ".jsx", ".mjs", ".cjs"]

/-- The extensions in TypeScript that stand behind an extension in JavaScript. -/
def counterparts (extension : String) : List String :=
  if extension == ".js" then [".ts", ".tsx"]
  else if extension == ".jsx" then [".tsx"]
  else if extension == ".mjs" then [".mts"]
  else if extension == ".cjs" then [".cts"]
  else []

/-- The files that a normalised path may lead to, the empty path being the project's root. -/
def candidates (path : String) : List String :=
  if path.isEmpty then
    probeExtensions.map ("index" ++ ·)
  else
    let (stem, extension) := PathText.splitExtension path
    [path] ++ (counterparts extension).map (stem ++ ·) ++ probeExtensions.map (path ++ ·)
      ++ probeExtensions.map (path ++ "/index" ++ ·)

/-- The file that a path from the project's root leads to, unless it is outside of the project or
declares types only. -/
def probe? (resolver : ModuleResolver) (path : String) : Option String :=
  let normal := PathText.normalize path
  if PathText.leavesRoot normal then
    none
  else
    let place := if normal == "." then "" else normal
    ((candidates place).find? resolver.files.contains).filter fun file =>
      !Syntax.isDeclarationPath file

/-- The way from the project's root to a directory inside of it. -/
def inside? (resolver : ModuleResolver) (directory : Path) : Option String :=
  let way := resolver.root.relativeText directory
  if PathText.leavesRoot way then none else some (if way == "." then "" else way)

/-- How a pattern matches a specifier. -/
structure PatternMatch where
  /-- How much the match counts. -/
  rank : Nat
  /-- The text that the star stands for; nothing for a pattern without a star. -/
  captured : String
deriving DecidableEq, Repr

/-- What a pattern without a star counts beyond its length. -/
def exactBonus : Nat := 1000000

/-- How a pattern matches a specifier, if it does. The first star of a pattern counts, and a pattern
with a star counts as much as the text in front of it is long. -/
def matchPattern? (pattern specifier : String) : Option PatternMatch :=
  if pattern.toList.contains '*' then
    let front := pattern.toList.takeWhile (· != '*')
    let back := (pattern.toList.dropWhile (· != '*')).drop 1
    let chars := specifier.toList
    if front.isPrefixOf chars && back.isSuffixOf chars
        && front.length + back.length ≤ chars.length then
      some
        { rank := front.length
          captured := String.ofList
            ((chars.drop front.length).take (chars.length - front.length - back.length)) }
    else
      none
  else if pattern == specifier then
    some { rank := pattern.length + exactBonus, captured := "" }
  else
    none

/-- The matches of the patterns that match a specifier with their targets, in written order. -/
def matching (paths : List (String × List String)) (specifier : String) :
    List (PatternMatch × List String) :=
  paths.filterMap fun (pattern, targets) =>
    (matchPattern? pattern specifier).map fun how => (how, targets)

/-- The paths that targets offer below a directory where a star stands for a text. -/
def offers (base captured : String) (targets : List String) : List String :=
  targets.map fun target => PathText.join base (Text.replace "*" captured target)

/-- The paths that the patterns offer for a specifier, in the order in which they are tried: by
falling rank. -/
def mapped (resolver : ModuleResolver) (specifier : String) : List String :=
  match resolver.options.pathsBase.bind resolver.inside? with
  | none => []
  | some base =>
      let ranked := sortOn (fun left right => decide (right ≤ left)) (·.1.rank)
        (matching resolver.options.paths specifier)
      ranked.flatMap fun (how, targets) => offers base how.captured targets

/-- The file that a specifier in a file leads to. -/
def resolve? (resolver : ModuleResolver) (specifier fromFile : String) : Option String :=
  if specifier.isEmpty then
    none
  else if isRelative specifier then
    resolver.probe? (PathText.join (PathText.parent fromFile) specifier)
  else if Text.startsWith specifier "/" then
    none
  else
    match (resolver.mapped specifier).findSome? resolver.probe? with
    | some file => some file
    | none =>
        (resolver.options.baseUrl.bind resolver.inside?).bind fun base =>
          resolver.probe? (PathText.join base specifier)

end ModuleResolver

end CodeGraph
