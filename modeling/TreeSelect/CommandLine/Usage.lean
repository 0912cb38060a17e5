import TreeSelect.CommandLine.Request
import TreeSelect.Selector.Error
import TreeSelect.Text.Cut

namespace TreeSelect.CommandLine

def programName : String := "code-query"

def programVersion : String := "1.0.0"

def usageLine : String := s!"Usage: {programName} [OPTIONS] SELECTOR [GLOB]"

def helpLines : List String :=
  [usageLine,
    "",
    "  Queries files for a given AST SELECTOR (CSS like).",
    "",
    "  GLOB selects the files to search, relative to the current directory (default:",
    "  **/*.\x7bcjs,js,jsx,mjs,ts,tsx\x7d). Files listed in the .gitignore of the current",
    "  working directory are ignored.",
    "",
    "Options:",
    "  --verbose                       Logs additional information",
    "  --include-code-frame            Logs the codeframe of each query result.",
    "  --log-level [debug|info|warning|error|critical]",
    "                                  Diagnostic log level on stderr (default:",
    "                                  CODE_QUERY_LOG_LEVEL or WARNING)",
    "  --version                       Show the version and exit.",
    "  --help                          Show this message and exit.",
    "",
    "  Examples:",
    "    code-query \"TSAsExpression\"",
    "    code-query \"CallExpression[function.property=log]\" \"src/**/*.ts\" --include-code-frame"]

def Notice.text : Notice → String
  | .help => String.intercalate "\n" helpLines
  | .version => s!"{programName}, version {programVersion}"

def Mistake.text (m : Mistake) : String :=
  (if m.showsUsage then
    s!"{usageLine}\nTry '{programName} --help' for help.\n\n"
  else "") ++ "Error: " ++ m.message

/-- How many columns a text takes from a column on; tabs stand eight columns apart and a carriage
return begins at the first. -/
def columnsFrom (column : Nat) : List Char → Nat
  | [] => 0
  | '\t' :: r => 8 - column % 8 + columnsFrom 0 r
  | '\r' :: r => 1 + columnsFrom 0 r
  | _ :: r => 1 + columnsFrom (column + 1) r

/-- The most characters that are shown on each side of a bad character. -/
def contextWidth : Nat := 40

/-- The line around a bad character, with a mark under the character. -/
def contextOf (selector : List Char) (e : Selector.SyntaxError) : String :=
  let line := ((Text.split '\n' selector)[e.line - 1]?).getD []
  let before := line.take (e.column - 1)
  let before := before.drop (before.length - contextWidth)
  let after := (line.drop (e.column - 1)).take contextWidth
  String.ofList (before ++ after ++ '\n' :: List.replicate (columnsFrom 0 before) ' ' ++ ['^'])

/-- How a bad selector is told; the line is shown only where no token stands at fault. -/
def selectorMessage (selector : String) (e : Selector.Error) : String :=
  match e with
  | .malformed s =>
    match s.found with
    | .character _ => s.message ++ "\n\n" ++ contextOf selector.toList s
    | _ => s.message
  | _ => e.message

end TreeSelect.CommandLine
