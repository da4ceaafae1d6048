import TodoLedger.Path
/-!
# Comment syntax

How each family of languages writes its comments, found by the extension of a file. A file of an
unknown kind is read like a file of the C family.
-/

namespace TodoLedger

/-- A form in which a comment can hold a marked task. -/
inductive CommentForm
  | toLineEnd (opener : Text)
  | block (opener closer : Text)
deriving DecidableEq

structure CommentSyntax where
  family : Text
  forms : List CommentForm
  /-- What turns the rest of a line into a comment. -/
  opening : Text
  /-- What ends such a comment where the line does not. -/
  closing : Text
  blockStart : Option Text
  blockEnd : Option Text
deriving DecidableEq

namespace CommentSyntax

def cFamily : CommentSyntax :=
  ⟨"c", [.toLineEnd "//", .block "/*" "*/"], "//", "", some "/*", some "*/"⟩

def python : CommentSyntax :=
  ⟨"python", [.toLineEnd "#", .block "'''" "'''", .block "\"\"\"" "\"\"\""], "#", "", none, none⟩

def hash : CommentSyntax := ⟨"hash", [.toLineEnd "#"], "#", "", none, none⟩

def ruby : CommentSyntax := ⟨"ruby", [.toLineEnd "#"], "#", "", some "=begin", some "=end"⟩

def powershell : CommentSyntax :=
  ⟨"powershell", [.toLineEnd "#", .block "<#" "#>"], "#", "", some "<#", some "#>"⟩

def php : CommentSyntax :=
  ⟨"php", [.toLineEnd "//", .toLineEnd "#"], "//", "", some "/*", some "*/"⟩

def dash : CommentSyntax := ⟨"dash", [.toLineEnd "--"], "--", "", some "/*", some "*/"⟩

def lua : CommentSyntax := ⟨"lua", [.toLineEnd "--"], "--", "", some "--[[", some "]]"⟩

def markup : CommentSyntax :=
  ⟨"markup", [.block "<!--" "-->"], "<!--", "-->", some "<!--", some "-->"⟩

def css : CommentSyntax := ⟨"css", [.block "/*" "*/"], "/*", "*/", some "/*", some "*/"⟩

/-- The families and the lower-case extensions of their files. -/
def families : List (CommentSyntax × List String) := [
  (cFamily, [".cs", ".js", ".ts", ".jsx", ".tsx", ".java", ".cpp", ".c", ".h", ".hpp", ".go", ".rs",
    ".swift", ".dart", ".scala", ".kt", ".scss", ".less"]),
  (python, [".py"]), (ruby, [".rb"]), (php, [".php"]), (hash, [".sh", ".bash", ".pl"]),
  (powershell, [".ps1"]), (lua, [".lua"]), (dash, [".sql"]), (markup, [".html", ".xml"]),
  (css, [".css"])]

/-- The syntax that belongs to a lower-case extension. -/
def ofExtension? (extension : Text) : Option CommentSyntax :=
  (families.find? fun f => f.2.any fun e => e.toText = extension).map Prod.fst

def extensionOf (path : Path) : Text := Text.lower path.suffix

def ofPath (path : Path) : CommentSyntax := (ofExtension? (extensionOf path)).getD cFamily

/-- The upper-case extension of a file of a known kind. -/
def styleOf (path : Path) : Text :=
  match ofExtension? (extensionOf path) with
  | some _ => Text.upper ((extensionOf path).drop 1)
  | none => "UNKNOWN"

end CommentSyntax

end TodoLedger
