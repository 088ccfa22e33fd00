import BackendFuzz.Number.Binary64

/-!
# Settings

Where the tools are and how long they may take.
-/

namespace BackendFuzz

structure Settings where
  solcPath : String := "solc"
  solcWrapperPath : String := "solc_wrapper.sh"
  solcVersionWrapperPath : String := "solc_version_wrapper.sh"
  defaultSolcVersion : String := "0.8.27"
  solcInstallMissing : Bool := true
  compileTimeout : Binary64 := Binary64.ofInt 120
  evmPath : String := "evmone.so"
  evmcPath : String := "evmc"
  vmTimeout : Binary64 := Binary64.ofInt 60
  rewriterPath : String := "sol-fuzz-rewrite"
  rewriteTimeout : Binary64 := Binary64.ofInt 60
  logLevel : String := "INFO"
  logPretty : Bool := true
  deriving DecidableEq, Repr

end BackendFuzz
