import TodoLedger.Glob
import TodoLedger.Sorted
import TodoLedger.Workspace
/-!
# Discovery

The source files directly in a directory that have one of the wanted extensions and match none of
the excluded patterns.
-/

namespace TodoLedger

def defaultExtensions : List Text := [
  ".cs", ".js", ".ts", ".jsx", ".tsx", ".py", ".java", ".cpp", ".c", ".h", ".hpp", ".go", ".rs",
  ".rb", ".php", ".scala", ".kt", ".swift", ".dart", ".lua", ".sh", ".bash", ".ps1", ".pl", ".sql",
  ".html", ".xml", ".css", ".scss", ".less"]

def defaultExclusions : List Text := [
  "bin/**", "obj/**", "node_modules/**", "dist/**", "build/**", "target/**", ".git/**", ".svn/**",
  "**/*.test.*", "**/*.spec.*", "**/vendor/**", "**/.vs/**", "**/.vscode/**"]

/-- An extension with its dot. -/
def dotted (extension : Text) : Text :=
  if extension.head? = some (Rune.ofChar '.') then extension else Rune.ofChar '.' :: extension

/-- Which files are wanted. -/
structure Selection where
  extensions : List Text
  exclusions : List Text

namespace Selection

def hasExtension (s : Selection) (name : Text) : Bool :=
  s.extensions.any fun e => dotted (Text.lower e) = Text.lower (Path.suffixOf name)

def excludes (s : Selection) (name : Text) : Bool :=
  s.exclusions.any fun pattern => Glob.matchesPath pattern name

end Selection

open Work

/-- Paths in ascending order of their texts. -/
def ascending (paths : List Path) : List Path := sorted (fun p q => Text.le p.text q.text) paths

def Node.isFile : Node → Bool
  | .file _ => true
  | .directory => false

/-- The names in a directory listing that stand for files with a wanted extension. -/
def candidates (s : Selection) (listing : List (Text × Node)) : List Text :=
  (listing.filter fun e => e.2.isFile && s.hasExtension e.1).map Prod.fst

/-- The wanted files of a directory, in ascending order of their paths. -/
def discover (directory : Path) (s : Selection) : Work (List Path) := do
  if !(← isDirectory directory) then throw (.directoryMissing directory)
  let w ← get
  let names := candidates s (w.tree.children (← ask (·.locate directory)))
  (names.filter s.excludes).forM fun name => report (.fileExcluded name)
  let files := ascending ((names.filter fun n => !s.excludes n).map directory.child)
  report (.filesDiscovered directory files.length)
  return files

end TodoLedger
