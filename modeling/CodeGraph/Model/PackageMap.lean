import CodeGraph.Files.PathText
import CodeGraph.Model.Identity
import CodeGraph.Ordered
import CodeGraph.Text.Order

/-!
# Packages by directory

Every directory that holds a file is a package, and so is every directory above it, up to the
project's root, which is known by the empty path. A directory whose path has no encoding can be no
package, since it gets no id.
-/

namespace CodeGraph

/-- The packages of a project, by directory. -/
abbrev PackageMap := Ordered Package

namespace PackageMap

/-- The directory of a file. -/
def directoryOf (file : String) : String :=
  let parent := PathText.parent (PathText.withSlashes file)
  if parent == "." then "" else parent

/-- The full name of the package of a directory. -/
def qualifiedName (directory : String) : String :=
  if directory.isEmpty then rootPackageName else Text.replace "/" "." directory

/-- The package of the project's root. -/
def rootPackage : Package :=
  { id := packageId "", name := rootPackageName, qualifiedName := some rootPackageName }

/-- The package of a directory below another one. -/
def packageOf (directory name parent : String) : Package :=
  { id := packageId directory
    name
    qualifiedName := some (qualifiedName directory)
    parentId := some (packageId parent) }

/-- Adds the packages of a directory and of those above it that are not there yet. The segments of
the directory stand in reverse order. -/
def ensureSegments (packages : PackageMap) : List String → PackageMap
  | [] => if (packages.get? "").isSome then packages else packages ++ [("", rootPackage)]
  | name :: above =>
      let directory := PathText.ofSegments (name :: above).reverse
      if (packages.get? directory).isSome then
        packages
      else if directory.isEmpty then
        packages ++ [("", rootPackage)]
      else
        ensureSegments
          (packages ++ [(directory, packageOf directory name (PathText.ofSegments above.reverse))])
          above

/-- Adds the packages of a directory and of those above it that are not there yet. -/
def ensureDirectory (packages : PackageMap) (directory : String) : PackageMap :=
  ensureSegments packages
    (if directory.isEmpty then [] else (PathText.segments directory).reverse)

/-- The packages of files, which are taken in order. -/
def ofFiles (files : List String) : PackageMap :=
  (sortOn textLe id files).foldl
    (fun packages file => ensureDirectory packages (directoryOf file)) []

/-- Adds the packages whose directories are not there yet. -/
def fill (packages added : PackageMap) : PackageMap :=
  packages ++ added.filter fun (directory, _) => (packages.get? directory).isNone

/-- Adds what the package of a further file needs. -/
def ensureFile (packages : PackageMap) (file : String) : PackageMap :=
  if (packages.get? (directoryOf file)).isSome then packages else packages.fill (ofFiles [file])

/-! ## Refusals -/

/-- Makes the ids of the packages of directories, one after the other. -/
def hashAll (directories : List String) : Except Unencodable (List String) :=
  directories.mapM fun directory => (IdKey.ofPackage directory).hash

/-- The packages of files, whose ids are made in the order in which they are added: the first one
that is refused ends the work. -/
def build (files : List String) : Except Unencodable PackageMap :=
  (hashAll (Ordered.keys (ofFiles files))).map fun _ => ofFiles files

/-- Adds what the package of a further file needs, if it can be built. What is there already is not
built again. -/
def addFile (packages : PackageMap) (file : String) : Except Unencodable PackageMap :=
  if (packages.get? (directoryOf file)).isSome then .ok packages
  else (build [file]).map packages.fill

end PackageMap

end CodeGraph
