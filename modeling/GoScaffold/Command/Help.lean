import GoScaffold.Command.Arguments

set_option autoImplicit false

/-! # Help

What is shown when a command line is not carried out. -/

namespace GoScaffold

/-- How the commands are used. -/
def usageText : String := Text.join "\n" [
  "Usage: ddlgen [-v] COMMAND",
  "",
  "Commands:",
  "  generate [-i FILE] [-o DIRECTORY] [-c FILE] [--lines A:B] [-p PACKAGE] [-m MODULE]",
  "           [--service-name NAME] [--no-banner] [--no-model] [--no-crud] [--router]",
  "           [--service] [--doc] [--asc COLUMNS] [--desc COLUMNS] [--logic COLUMN=VALUE]",
  "           [--round s|ms|us] [--orm] [--panic] [--no-fmt]",
  "  validate [-i FILE]",
  "  line [PATH]...",
  "  version",
  "  help [COMMAND]",
  ""]

namespace UsageError

/-- What is shown: for help and the version as asked, else a complaint. -/
def text : UsageError → String
  | help | noArguments => usageText
  | version => "ddlgen 0.1.0\n"
  | missingSubcommand => "error: a command is missing\n"
  | unknownSubcommand name => "error: unrecognized command '" ++ name ++ "'\n"
  | unknownArgument argument => "error: unexpected argument '" ++ argument ++ "'\n"
  | missingValue option => "error: a value is required for '" ++ option ++ "'\n"
  | repeated option => "error: the argument '" ++ option ++ "' cannot be used multiple times\n"
  | unwantedValue option => "error: '" ++ option ++ "' takes no value\n"
  | refusedValue option reason => "error: invalid value for '" ++ option ++ "': " ++ reason ++ "\n"

/-- Whether it was asked for, and so is no error. -/
def isAnswer : UsageError → Bool
  | help | version => true
  | _ => false

end UsageError

end GoScaffold
