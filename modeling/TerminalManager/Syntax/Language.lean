import TerminalManager.Editor.Buffer
import Mathlib.Data.List.DropRight

/-!
# Languages

`Language` (`src/syntax.rs`): the language of a file, taken from its name, and the rules that the
scanner follows for it.

* `Language.fromPath`         by the name of the file, or by its extension;
* `Language.lineCommentPrefix`, `Language.blockComment`, `Language.stringQuotes`   the rules;
* `Language.isKeyword`        the tables of words.
-/

namespace TerminalManager.Syntax
open Editor (Line)

inductive Language
  | rust
  | typeScript
  | tsx
  | javaScript
  | python
  | go
  | cSharp
  | json
  | toml
  | yaml
  | markdown
  | shell
  | powerShell
  | c
  | cpp
  | java
  | kotlin
  | swift
  | ruby
  | php
  | sql
  | css
  | lua
  | zig
  | dockerfile
  | makefile
  | plain
  deriving DecidableEq, Repr

/-! ## the words -/

/-- `JS` -/
def jsWords : List String :=
  ["async", "await", "break", "case", "catch", "class", "const", "continue", "default", "delete", "do",
    "else", "export", "extends", "false", "finally", "for", "from", "function", "if", "import", "in",
    "instanceof", "let", "new", "null", "of", "return", "static", "super", "switch", "this", "throw", "true",
    "try", "typeof", "undefined", "var", "void", "while", "yield"]

/-- `TS` -/
def tsWords : List String :=
  ["abstract", "as", "async", "await", "break", "case", "catch", "class", "const", "continue", "declare",
    "default", "delete", "do", "else", "enum", "export", "extends", "false", "finally", "for", "from",
    "function", "if", "implements", "import", "in", "instanceof", "interface", "keyof", "let", "namespace",
    "new", "null", "of", "private", "protected", "public", "readonly", "return", "satisfies", "static",
    "super", "switch", "this", "throw", "true", "try", "type", "typeof", "undefined", "var", "void", "while",
    "yield"]

/-- `RUST` -/
def rustWords : List String :=
  ["as", "async", "await", "break", "const", "continue", "crate", "dyn", "else", "enum", "extern", "false",
    "fn", "for", "if", "impl", "in", "let", "loop", "match", "mod", "move", "mut", "pub", "ref", "return",
    "self", "Self", "static", "struct", "super", "trait", "true", "type", "unsafe", "use", "where", "while"]

/-- `PYTHON` -/
def pythonWords : List String :=
  ["False", "None", "True", "and", "as", "assert", "async", "await", "break", "class", "continue", "def",
    "del", "elif", "else", "except", "finally", "for", "from", "global", "if", "import", "in", "is", "lambda",
    "nonlocal", "not", "or", "pass", "raise", "return", "try", "while", "with", "yield"]

/-- `GO` -/
def goWords : List String :=
  ["break", "case", "chan", "const", "continue", "default", "defer", "else", "fallthrough", "false", "for",
    "func", "go", "goto", "if", "import", "interface", "map", "nil", "package", "range", "return", "select",
    "struct", "switch", "true", "type", "var"]

/-- `CSHARP` -/
def cSharpWords : List String :=
  ["abstract", "as", "async", "await", "base", "bool", "break", "case", "catch", "class", "const", "continue",
    "default", "delegate", "do", "else", "enum", "event", "false", "finally", "for", "foreach", "get", "if",
    "in", "int", "interface", "internal", "is", "lock", "namespace", "new", "null", "object", "out",
    "override", "private", "protected", "public", "readonly", "ref", "return", "sealed", "set", "static",
    "string", "struct", "switch", "this", "throw", "true", "try", "using", "var", "virtual", "void", "while",
    "yield"]

/-- `JSON` -/
def jsonWords : List String :=
  ["false", "null", "true"]

/-- `TOML` -/
def tomlWords : List String :=
  ["false", "inf", "nan", "true"]

/-- `YAML` -/
def yamlWords : List String :=
  ["False", "Null", "TRUE", "True", "false", "no", "null", "off", "on", "true", "yes"]

/-- `SHELL` -/
def shellWords : List String :=
  ["alias", "case", "declare", "do", "done", "elif", "else", "esac", "eval", "exec", "exit", "export", "fi",
    "for", "function", "if", "in", "local", "readonly", "return", "select", "set", "shift", "source", "then",
    "trap", "typeset", "unset", "until", "while"]

/-- `POWERSHELL` -/
def powerShellWords : List String :=
  ["$false", "$null", "$true", "begin", "break", "catch", "class", "continue", "data", "do", "dynamicparam",
    "else", "elseif", "end", "enum", "exit", "filter", "finally", "for", "foreach", "function", "hidden",
    "if", "in", "param", "process", "return", "static", "switch", "throw", "trap", "try", "until", "using",
    "while", "workflow"]

/-- `C` -/
def cWords : List String :=
  ["NULL", "auto", "break", "case", "char", "const", "continue", "default", "do", "double", "else", "enum",
    "extern", "float", "for", "goto", "if", "inline", "int", "long", "register", "restrict", "return",
    "short", "signed", "sizeof", "static", "struct", "switch", "typedef", "union", "unsigned", "void",
    "volatile", "while"]

/-- `CPP_EXTRA` -/
def cppExtraWords : List String :=
  ["bool", "catch", "class", "constexpr", "consteval", "decltype", "delete", "explicit", "false", "friend",
    "mutable", "namespace", "new", "noexcept", "nullptr", "operator", "override", "private", "protected",
    "public", "template", "this", "throw", "true", "try", "typeid", "typename", "using", "virtual"]

/-- `JAVA` -/
def javaWords : List String :=
  ["abstract", "assert", "boolean", "break", "byte", "case", "catch", "char", "class", "const", "continue",
    "default", "do", "double", "else", "enum", "extends", "false", "final", "finally", "float", "for", "if",
    "implements", "import", "instanceof", "int", "interface", "long", "native", "new", "null", "package",
    "private", "protected", "public", "record", "return", "sealed", "short", "static", "strictfp", "super",
    "switch", "synchronized", "this", "throw", "throws", "transient", "true", "try", "var", "void",
    "volatile", "while", "yield"]

/-- `KOTLIN` -/
def kotlinWords : List String :=
  ["as", "break", "by", "catch", "class", "companion", "const", "constructor", "continue", "crossinline",
    "data", "do", "else", "enum", "external", "false", "final", "finally", "for", "fun", "if", "import", "in",
    "infix", "init", "inline", "interface", "internal", "is", "lateinit", "null", "object", "open",
    "operator", "out", "override", "package", "private", "protected", "public", "reified", "return", "sealed",
    "super", "suspend", "this", "throw", "true", "try", "typealias", "val", "var", "vararg", "when", "while"]

/-- `SWIFT` -/
def swiftWords : List String :=
  ["as", "associatedtype", "async", "await", "break", "case", "catch", "class", "continue", "default",
    "defer", "deinit", "do", "else", "enum", "extension", "fallthrough", "false", "fileprivate", "final",
    "for", "func", "guard", "if", "import", "in", "init", "inout", "internal", "is", "let", "mutating", "nil",
    "open", "operator", "private", "protocol", "public", "repeat", "rethrows", "return", "self", "static",
    "struct", "subscript", "super", "switch", "throw", "throws", "true", "try", "typealias", "var", "weak",
    "where", "while"]

/-- `RUBY` -/
def rubyWords : List String :=
  ["alias", "and", "begin", "break", "case", "class", "def", "do", "else", "elsif", "end", "ensure", "false",
    "for", "if", "in", "module", "next", "nil", "not", "or", "redo", "require", "require_relative", "rescue",
    "retry", "return", "self", "super", "then", "true", "undef", "unless", "until", "when", "while", "yield"]

/-- `PHP` -/
def phpWords : List String :=
  ["abstract", "and", "array", "as", "break", "callable", "case", "catch", "class", "clone", "const",
    "continue", "declare", "default", "do", "echo", "else", "elseif", "empty", "enum", "extends", "false",
    "final", "finally", "fn", "for", "foreach", "function", "global", "if", "implements", "include",
    "include_once", "instanceof", "insteadof", "interface", "isset", "list", "match", "namespace", "new",
    "null", "or", "print", "private", "protected", "public", "readonly", "require", "require_once", "return",
    "static", "switch", "throw", "trait", "true", "try", "unset", "use", "var", "while", "xor", "yield"]

/-- `SQL` -/
def sqlWords : List String :=
  ["add", "all", "alter", "and", "as", "asc", "begin", "between", "boolean", "by", "case", "column", "commit",
    "constraint", "create", "cross", "default", "delete", "desc", "distinct", "drop", "else", "end", "exists",
    "foreign", "from", "full", "group", "having", "in", "index", "inner", "insert", "int", "integer", "into",
    "is", "join", "key", "left", "like", "limit", "not", "null", "offset", "on", "or", "order", "outer",
    "primary", "references", "returning", "right", "rollback", "select", "set", "table", "text", "then",
    "timestamp", "union", "unique", "update", "values", "varchar", "view", "when", "where", "with"]

/-- `CSS` -/
def cssWords : List String :=
  ["and", "charset", "font-face", "import", "inherit", "initial", "keyframes", "media", "not", "only",
    "revert", "supports", "unset"]

/-- `LUA` -/
def luaWords : List String :=
  ["and", "break", "do", "else", "elseif", "end", "false", "for", "function", "goto", "if", "in", "local",
    "nil", "not", "or", "repeat", "return", "then", "true", "until", "while"]

/-- `ZIG` -/
def zigWords : List String :=
  ["align", "allowzero", "and", "anyframe", "anytype", "asm", "async", "await", "break", "catch", "comptime",
    "const", "continue", "defer", "else", "enum", "errdefer", "error", "export", "extern", "false", "fn",
    "for", "if", "inline", "linksection", "noalias", "nosuspend", "null", "opaque", "or", "orelse", "packed",
    "pub", "resume", "return", "struct", "suspend", "switch", "test", "threadlocal", "try", "undefined",
    "union", "unreachable", "usingnamespace", "var", "volatile", "while"]

/-- `DOCKERFILE` -/
def dockerfileWords : List String :=
  ["add", "arg", "as", "cmd", "copy", "entrypoint", "env", "expose", "from", "healthcheck", "label",
    "maintainer", "onbuild", "run", "shell", "stopsignal", "user", "volume", "workdir"]

/-- `MAKEFILE` -/
def makefileWords : List String :=
  ["define", "else", "endef", "endif", "export", "ifdef", "ifeq", "ifndef", "ifneq", "include", "override",
    "unexport", "vpath"]

namespace Language

/-! ## the rules -/

/-- what follows the last separator, of either kind, in lower case -/
def basename (path : Line) : Line :=
  (path.rtakeWhile fun c => c ≠ '/' ∧ c ≠ '\\').map Char.toLower

/-- the language of an extension, without its dot -/
def ofExtension (ext : Line) : Language :=
  if ext = "rs".toList then .rust
  else if ext ∈ ["ts".toList, "mts".toList, "cts".toList] then .typeScript
  else if ext = "tsx".toList then .tsx
  else if ext ∈ ["js".toList, "mjs".toList, "cjs".toList, "jsx".toList] then .javaScript
  else if ext ∈ ["py".toList, "pyi".toList] then .python
  else if ext = "go".toList then .go
  else if ext = "cs".toList then .cSharp
  else if ext = "json".toList then .json
  else if ext = "toml".toList then .toml
  else if ext ∈ ["yaml".toList, "yml".toList] then .yaml
  else if ext ∈ ["md".toList, "markdown".toList] then .markdown
  else if ext ∈ ["sh".toList, "bash".toList, "zsh".toList] then .shell
  else if ext ∈ ["ps1".toList, "psm1".toList, "psd1".toList] then .powerShell
  else if ext ∈ ["c".toList, "h".toList] then .c
  else if ext ∈ ["cc".toList, "cpp".toList, "cxx".toList, "hpp".toList, "hxx".toList] then .cpp
  else if ext = "java".toList then .java
  else if ext ∈ ["kt".toList, "kts".toList] then .kotlin
  else if ext = "swift".toList then .swift
  else if ext = "rb".toList then .ruby
  else if ext = "php".toList then .php
  else if ext = "sql".toList then .sql
  else if ext ∈ ["css".toList, "scss".toList] then .css
  else if ext = "lua".toList then .lua
  else if ext = "zig".toList then .zig
  else .plain

def fromPath (path : Line) : Language :=
  let name := basename path
  if name = "dockerfile".toList then .dockerfile
  else if name = "makefile".toList ∨ name = "gnumakefile".toList then .makefile
  else
    match Editor.rsplitOnce '.' name with
    | some (_, ext) => ofExtension ext
    | none => .plain

/-- what starts a comment that runs to the end of the line -/
def lineCommentPrefix : Language → Option Line
  | .rust | .typeScript | .tsx | .javaScript | .go | .cSharp | .c | .cpp | .java | .kotlin | .swift | .php
  | .zig => some "//".toList
  | .python | .shell | .powerShell | .ruby | .yaml | .toml | .makefile | .dockerfile => some "#".toList
  | .sql | .lua => some "--".toList
  | .json | .css | .markdown | .plain => none

/-- whether such a comment starts at the beginning of the line or after whitespace only -/
def lineCommentNeedsBoundary : Language → Bool
  | .shell | .powerShell | .yaml | .toml | .ruby | .makefile | .dockerfile => true
  | _ => false

/-- what opens and what closes a block comment -/
def blockComment : Language → Option (Line × Line)
  | .rust | .typeScript | .tsx | .javaScript | .go | .cSharp | .c | .cpp | .java | .kotlin | .swift | .php
  | .css | .sql => some ("/*".toList, "*/".toList)
  | .powerShell => some ("<#".toList, "#>".toList)
  | .lua => some ("--[[".toList, "]]".toList)
  | _ => none

def hasBlockComments (lang : Language) : Bool := lang.blockComment.isSome

/-- the character before `a` -/
def backtick : Char := Char.ofNat 96

def stringQuotes : Language → List Char
  | .rust | .go | .cSharp | .swift => ['"']
  | .json => ['"']
  | .markdown | .plain => []
  | .ruby => ['"', '\'', backtick]
  | .python | .c | .cpp | .java | .kotlin | .zig | .php | .sql | .css | .lua | .yaml | .toml | .shell
  | .powerShell | .dockerfile | .makefile => ['"', '\'']
  | .typeScript | .tsx | .javaScript => ['"', '\'', backtick]

def keywordsIgnoreCase : Language → Bool
  | .sql | .powerShell | .dockerfile => true
  | _ => false

/-- the table of a language; that of C++ is the one of C and more -/
def words : Language → List String
  | .rust => rustWords
  | .typeScript | .tsx => tsWords
  | .javaScript => jsWords
  | .python => pythonWords
  | .go => goWords
  | .cSharp => cSharpWords
  | .json => jsonWords
  | .toml => tomlWords
  | .yaml => yamlWords
  | .shell => shellWords
  | .powerShell => powerShellWords
  | .c => cWords
  | .cpp => cWords ++ cppExtraWords
  | .java => javaWords
  | .kotlin => kotlinWords
  | .swift => swiftWords
  | .ruby => rubyWords
  | .php => phpWords
  | .sql => sqlWords
  | .css => cssWords
  | .lua => luaWords
  | .zig => zigWords
  | .dockerfile => dockerfileWords
  | .makefile => makefileWords
  | .markdown | .plain => []

def isKeyword (lang : Language) (word : Line) : Bool :=
  if lang.keywordsIgnoreCase then
    lang.words.any fun k => word.map Char.toLower = k.toList.map Char.toLower
  else lang.words.any fun k => word = k.toList

end Language
end TerminalManager.Syntax
