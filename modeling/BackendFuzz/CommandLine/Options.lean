/-!
# Options

The options of the program, in order, and its usage and help texts.
-/

namespace BackendFuzz

inductive Flag where
  | help
  | version
  | compilerVersions
  | compilerSettings
  | rewrites
  | rewriteDepth
  | numTests
  | save
  | testCallFunction
  | testEof
  | verbose
  | timeLimit
  | output
  | seed
  deriving DecidableEq, Repr

inductive Arity where
  | none
  | one
  | oneOrMore
  deriving DecidableEq, Repr

namespace Flag

def all : List Flag :=
  [help, version, compilerVersions, compilerSettings, rewrites, rewriteDepth, numTests, save,
    testCallFunction, testEof, verbose, timeLimit, output, seed]

def names : Flag → List String
  | help => ["-h", "--help"]
  | version => ["--version"]
  | compilerVersions => ["--compiler-versions"]
  | compilerSettings => ["--compiler-settings"]
  | rewrites => ["--rewrites"]
  | rewriteDepth => ["--rewrite-depth"]
  | numTests => ["--num-tests"]
  | save => ["--save"]
  | testCallFunction => ["--test-call-function"]
  | testEof => ["--test-eof"]
  | verbose => ["--verbose"]
  | timeLimit => ["--time-limit"]
  | output => ["--output"]
  | seed => ["--seed"]

def arity : Flag → Arity
  | help | version | save | testEof => .none
  | compilerVersions => .oneOrMore
  | _ => .one

def label (f : Flag) : String := "/".intercalate f.names

def table : List (String × Flag) := all.flatMap fun f => f.names.map (·, f)

end Flag

def programName : String := "solc-fuzz"

def programVersion : String := "0.1.0"

def usageText : String := "\n".intercalate [
  "usage: solc-fuzz [-h] [--version] [--compiler-versions VERSION [VERSION ...]]",
  "                 [--compiler-settings JSON] [--rewrites PATH]",
  "                 [--rewrite-depth N] [--num-tests N] [--save]",
  "                 [--test-call-function NAME] [--test-eof] [--verbose LEVEL]",
  "                 [--time-limit MS] [--output DIR] [--seed N]",
  "                 [seeds ...]",
  ""]

def helpText : String := usageText ++ "\n".intercalate [
  "",
  "Differential fuzzer for Solidity compiler backends",
  "",
  "positional arguments:",
  "  seeds                 Seed Solidity files",
  "",
  "options:",
  "  -h, --help            show this help message and exit",
  "  --version             show program's version number and exit",
  "  --compiler-versions VERSION [VERSION ...]",
  "                        solc versions to compare, in order (default:",
  "                        DEFAULT_SOLC_VERSION)",
  "  --compiler-settings JSON",
  "                        Standard-JSON 'settings' object passed to every solc",
  "                        compile",
  "  --rewrites PATH       Rewrite rules file",
  "  --rewrite-depth N     Rewrites applied per variant (default: 1)",
  "  --num-tests N         Variants to test (default: 1, or unbounded with",
  "                        --time-limit)",
  "  --save                Save every variant's source",
  "  --test-call-function NAME",
  "                        Function of the target contract to call after",
  "                        deployment",
  "  --test-eof            Also compile with the EOF solc build (requires --test-",
  "                        call-function)",
  "  --verbose LEVEL       0: progress, 1: debug logging, 2: also print each",
  "                        variant",
  "  --time-limit MS       Stop after this many milliseconds (checked between",
  "                        tests)",
  "  --output DIR          Directory for results and saved variants (default:",
  "                        fuzzer-results)",
  "  --seed N              Random seed for variant generation",
  ""]

def versionText : String := s!"{programName} {programVersion}\n"

end BackendFuzz
