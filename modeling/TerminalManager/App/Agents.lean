import TerminalManager.App.State
import TerminalManager.Editor.Buffer

/-!
# The agents that the app knows

* `PROFILES`         the agents: their ids, their labels, the words that name them in a title;
* `AgentTag.label`   the label of a tagged pane;
* `classifyTitle`    the agent that a window title names.

A title is classified as the list of its characters.
-/

namespace TerminalManager.App
open Editor (CharTable isWhitespace)

structure AgentProfile where
  id : String
  label : String
  titleNeedles : List (List Char)
  restoreKind : Option AgentKind
deriving DecidableEq, Repr

def PROFILES : List AgentProfile :=
  [⟨"claude", "Claude Code", [['c', 'l', 'a', 'u', 'd', 'e']], some .claude⟩,
    ⟨"codex", "Codex", [['c', 'o', 'd', 'e', 'x']], some .codex⟩,
    ⟨"gemini", "Gemini CLI", [['g', 'e', 'm', 'i', 'n', 'i']], none⟩,
    ⟨"opencode", "OpenCode", [['o', 'p', 'e', 'n', 'c', 'o', 'd', 'e']], none⟩,
    ⟨"aider", "Aider", [['a', 'i', 'd', 'e', 'r']], none⟩,
    ⟨"copilot", "Copilot CLI", [['c', 'o', 'p', 'i', 'l', 'o', 't']], none⟩,
    ⟨"openrouter", "OpenRouter agent", [['o', 'p', 'e', 'n', 'r', 'o', 'u', 't', 'e', 'r']], none⟩]

def DEFAULT_PROFILE_ID : String := "claude"

def profile (id : String) : Option AgentProfile := PROFILES.find? (·.id == id)

/-- the id stands for a profile that is not known -/
def AgentTag.label (tag : AgentTag) : String := ((App.profile tag.profile).map (·.label)).getD tag.profile

def AgentKind.label : AgentKind → String
  | claude => "Claude"
  | codex => "Codex"

def profileForRestoreKind (kind : AgentKind) : Option AgentProfile :=
  PROFILES.find? (·.restoreKind == some kind)

/-- the status glyphs in front of a title of Claude Code -/
def CLAUDE_TITLE_GLYPHS : List Char :=
  ['\u2733', '\u2736', '\u273B', '\u273D', '\u2722', '\u00B7', '\u25D0', '\u25D3', '\u25D1', '\u25D2']

def isSeparator (c : Char) : Bool := c == '\\' || c == '/'

/-- `str::trim` -/
def trim (title : List Char) : List Char :=
  ((title.dropWhile isWhitespace).reverse.dropWhile isWhitespace).reverse

/-- the path of an executable, and nothing else -/
def looksLikeExePath (title : List Char) : Bool :=
  ['.', 'e', 'x', 'e'].isSuffixOf (title.map Char.toLower) && !title.contains ' ' && title.any isSeparator

/-- the name of the executable without its path -/
def basename (title : List Char) : List Char := (title.reverse.takeWhile (!isSeparator ·)).reverse

def exeStem (title : List Char) : List Char :=
  if looksLikeExePath title then (basename title).dropLast.dropLast.dropLast.dropLast else title

/-- the needle, with no letter or digit on either side; `prev` is the character before the token -/
def containsWordFrom (t : CharTable) (needle : List Char) : Option Char → List Char → Bool
  | _, [] => false
  | prev, c :: rest =>
    (needle.isPrefixOf (c :: rest) && !prev.any t.isAlphanumeric &&
        !((c :: rest).drop needle.length).head?.any t.isAlphanumeric) ||
      containsWordFrom t needle (some c) rest

def containsWord (t : CharTable) (token needle : List Char) : Bool := containsWordFrom t needle none token

/-- the profile that the title names: by a glyph in front, or by a word outside of any path -/
def classifyTitle (t : CharTable) (title : String) : Option AgentProfile :=
  match trim title.toList with
  | [] => none
  | first :: rest =>
    if CLAUDE_TITLE_GLYPHS.contains first then
      profile "claude"
    else
      let tokens := ((exeStem (first :: rest)).map Char.toLower).splitOnP isWhitespace
      (tokens.filter fun token => !token.any isSeparator).findSome? fun token =>
        PROFILES.find? fun p => p.titleNeedles.any (containsWord t token)

example : (classifyTitle ⟨Char.isAlphanum⟩ "C:\\bin\\Claude.exe").map (·.label) = some "Claude Code" := by decide

end TerminalManager.App
