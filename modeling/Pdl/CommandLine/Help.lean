/-!
# Help

What the command line prints about itself.
-/

namespace Pdl.CommandLine

/-- The name and the version of the program. -/
def versionText : String := "analizador 0.1.0\n"

/-- How the program is used. -/
def helpText : String :=
  "Lexical and syntactic analyzer for JS-PdL programs\n"
    ++ "\nUsage: analizador [OPTIONS] [INPUT]\n"
    ++ "\nArguments:\n"
    ++ "  [INPUT]  Source file to analyze\n"
    ++ "\nOptions:\n"
    ++ "  -o, --output-dir <OUTPUT_DIR>  Directory for the reports\n"
    ++ "  -c, --config <CONFIG>          Configuration file [env: ANALIZADOR_CONFIG=]\n"
    ++ "  -v, --verbose                  Log every step [env: ANALIZADOR_VERBOSE=]\n"
    ++ "      --no-color                 Log without colors [env: ANALIZADOR_NO_COLOR=]\n"
    ++ "      --no-reports               Do not write the reports\n"
    ++ "      --emit <EMIT>              Print a report [possible values: tokens, rules, symbols]\n"
    ++ "      --write-config <FILE>      Write the configuration to a file and exit\n"
    ++ "  -h, --help                     Print help\n"
    ++ "  -V, --version                  Print version\n"

end Pdl.CommandLine
