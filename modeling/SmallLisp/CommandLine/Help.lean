import SmallLisp.CommandLine.Request

/-! # Help

What the command says about its own use: the usage line, the help, and the report
of a misuse below the usage line. -/

namespace SmallLisp.CommandLine

/-- The command or a subcommand of it. -/
def programName : Option String → String
  | none => "ssli"
  | some command => "ssli " ++ command

def usage : Option String → String
  | some "eval" => "usage: ssli eval [-h] expression\n"
  | some "file" => "usage: ssli file [-h] file\n"
  | some command => "usage: ssli " ++ command ++ " [-h]\n"
  | none =>
    "usage: ssli [-h] [--version] [--log-level LOG_LEVEL]\n" ++
      "            \x7beval,file,interactive\x7d ...\n"

/-- The lines about arguments and options. -/
def helpBody : Option String → List String
  | some "eval" =>
    ["positional arguments:", "  expression  The expression to evaluate", "",
      "options:", "  -h, --help  show this help message and exit"]
  | some "file" =>
    ["positional arguments:", "  file        The file to evaluate", "",
      "options:", "  -h, --help  show this help message and exit"]
  | some _ => ["options:", "  -h, --help  show this help message and exit"]
  | none =>
    ["Small S-expression scripting language", "",
      "positional arguments:",
      "  \x7beval,file,interactive\x7d",
      "    eval                Evaluate a string",
      "    file                Evaluate a file",
      "    interactive         Start an interactive session", "",
      "options:",
      "  -h, --help            show this help message and exit",
      "  --version             show program's version number and exit",
      "  --log-level LOG_LEVEL",
      "                        logging level (default: $SSLI_LOG_LEVEL or WARNING)"]

def helpText (command : Option String) : String :=
  usage command ++ "\n" ++ String.join ((helpBody command).map (· ++ "\n"))

def versionText : String := "ssli 0.3.0\n"

/-- The report of a misuse. -/
def misuseText (command : Option String) (what : Misuse) : String :=
  usage command ++ programName command ++ ": error: " ++ what.reason ++ "\n"

end SmallLisp.CommandLine
