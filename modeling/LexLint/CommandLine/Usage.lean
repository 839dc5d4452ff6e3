import LexLint.Text.Split

/-!
The texts that explain how the program and its commands are called.
-/

namespace LexLint.CommandLine

/-- Lines, each with a newline at its end. -/
def textOfLines (lines : List String) : String := joinStrings "\n" lines ++ "\n"

/-- How the program is called, in short. -/
def mainUsage : List String :=
  ["usage: tesseract-lint [-h] [--version] [-v] <command> ..."]

/-- What is explained beyond the short form for the program. -/
def mainDetails : List String :=
  ["Lexical linter for the Tesseract scripting language",
   "",
   "options:",
   "  -h, --help     show this help message and exit",
   "  --version      show program's version number and exit",
   "  -v, --verbose  Increase log verbosity (repeatable)",
   "",
   "commands:",
   "  available commands",
   "",
   "  <command>",
   "    check        Lint Tesseract source files",
   "    list-checkers",
   "                 List the available checkers and their finding codes",
   "    vocab        Show Tesseract keywords, built-ins and types",
   "",
   "examples:",
   "  tesseract-lint check main.tes",
   "  tesseract-lint check - --format gcc < main.tes",
   "  tesseract-lint check src/*.tes --disable undeclared --format json",
   "  tesseract-lint list-checkers --options",
   "  tesseract-lint vocab ::print"]

/-- How the command `check` is called, in short. -/
def checkUsage : List String :=
  ["usage: tesseract-lint check [-h] [-f \x7btext,json,gcc,sarif,html,summary\x7d]",
   "                            [-o OUTPUT] [--checkers NAMES] [--disable NAMES]",
   "                            [--suppress CODES] [--raw-brackets] [--color]",
   "                            [--no-color] [-v]",
   "                            PATH [PATH ...]"]

/-- What is explained beyond the short form for the command `check`. -/
def checkDetails : List String :=
  ["Run the checkers on each file and report the findings.",
   "",
   "positional arguments:",
   "  PATH                  Source files to lint (use '-' for stdin)",
   "",
   "options:",
   "  -h, --help            show this help message and exit",
   "  -f \x7btext,json,gcc,sarif,html,summary\x7d, --format \x7btext,json,gcc,sarif,html,summary\x7d",
   "                        Output format (default: text)",
   "  -o OUTPUT, --output OUTPUT",
   "                        Write the report to this file instead of stdout",
   "  --checkers NAMES      Comma-separated checkers to run (default: all)",
   "  --disable NAMES       Comma-separated checkers to skip",
   "  --suppress CODES      Comma-separated finding codes to drop",
   "  --raw-brackets        Match brackets over the raw text, including strings",
   "                        and comments",
   "  --color               Force coloured output",
   "  --no-color            Disable coloured output",
   "  -v, --verbose         Increase log verbosity (repeatable)"]

/-- How the command `list-checkers` is called, in short. -/
def listCheckersUsage : List String :=
  ["usage: tesseract-lint list-checkers [-h] [--options]"]

/-- What is explained beyond the short form for the command `list-checkers`. -/
def listCheckersDetails : List String :=
  ["options:",
   "  -h, --help  show this help message and exit",
   "  --options   Also list the tunable options and their defaults"]

/-- How the command `vocab` is called, in short. -/
def vocabUsage : List String :=
  ["usage: tesseract-lint vocab [-h]",
   "                            [--kind \x7bkeyword,operator,value,builtin,type\x7d]",
   "                            [word]"]

/-- What is explained beyond the short form for the command `vocab`. -/
def vocabDetails : List String :=
  ["positional arguments:",
   "  word                  Show a single entry (accepts 'if$', '::print',",
   "                        '<stack>')",
   "",
   "options:",
   "  -h, --help            show this help message and exit",
   "  --kind \x7bkeyword,operator,value,builtin,type\x7d",
   "                        Restrict the listing to one kind of word"]

/-- The short form, an empty line, and the details. -/
def helpText (usage details : List String) : String := textOfLines (usage ++ "" :: details)

end LexLint.CommandLine
