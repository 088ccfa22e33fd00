import BackendFuzz.Proofs.Compiler.Run
import Mathlib.Data.List.Forall2

/-!
# Which contract is compiled

A standard compiler reports contracts by file and name, and the target contract
is looked up among them. The wrapper of the object-format build lists an entry
for each contract, and the first one is taken, whichever contract it is for. So
both agree if the target contract is listed first.
-/

namespace BackendFuzz

structure CompiledContract where
  name : String
  bytecode : String
  selectors : Fields
  compiled : bytecode ≠ ""

namespace CompiledContract

def outcome (c : CompiledContract) (backend : Backend) : CompileOutcome where
  backend
  success := true
  bytecode := .text c.bytecode
  selectors := .ofFields c.selectors

def InStandard (c : CompiledContract) (entry : Json) : Prop :=
  ∃ evm code, entry.field? "evm" = .ok (some evm) ∧ evm.field? "bytecode" = .ok (some code) ∧
    code.field? "object" = .ok (some (.text c.bytecode)) ∧
    evm.field? "methodIdentifiers" = .ok (some (.object c.selectors))

def InCombined (file : String) (c : CompiledContract) (entry : String × Json) : Prop :=
  entry.1 = file ++ ":" ++ c.name ∧ entry.2.field? "bin" = .ok (some (.text c.bytecode)) ∧
    entry.2.field? "hashes" = .ok (some (.object c.selectors))

end CompiledContract

/-- The end of a standard compiler's run that reports contracts and no errors. -/
structure StandardReport (contracts : List CompiledContract) (ended : Ended) : Prop where
  code : ended.code = 0
  prints : ∃ output files entries warnings, Json.parse ended.output = .ok output ∧
    output.field? "contracts" = .ok (some files) ∧
    files.field? variantFileName = .ok (some entries) ∧
    (∀ c ∈ contracts, ∃ entry, entries.field? c.name = .ok (some entry) ∧ c.InStandard entry) ∧
    output.fieldOr "errors" (.array []) = .ok (.array warnings) ∧
    ∀ w ∈ warnings, StandardOutput.isError w = .ok false

/-- The end of the wrapper's run that lists contracts in order and no errors. -/
structure CombinedReport (listed : List CompiledContract) (ended : Ended) : Prop where
  code : ended.code = 0
  errors : Json.occursIn "Error:".toList ended.errors.toList = false
  prints : ∃ output entries file, Json.parse ended.output = .ok output ∧
    output.field? "contracts" = .ok (some (.object entries)) ∧
    List.Forall₂ (CompiledContract.InCombined file) listed entries

/-! ## Reports -/

theorem Json.fieldOr_of_field? {j v : Json} {name : String} (h : j.field? name = .ok (some v))
    (default : Json) : j.fieldOr name default = .ok v := by
  unfold Json.fieldOr
  rw [h]
  rfl

theorem Json.not_null_of_field? {j v : Json} {name : String}
    (h : j.field? name = .ok (some v)) : j.isNull = false := by
  cases j <;> first | rfl | cases h

theorem StandardOutput.byKey_of_field? {j v : Json} {name : String}
    (h : j.field? name = .ok (some v)) : byKey j (.text name) = .ok v := by
  unfold Json.field? at h
  cases hf : j.fieldsFor "get" with
  | error cause => rw [hf] at h; cases h
  | ok fields =>
    rw [hf] at h
    have hget : fields.get? name = some v := Except.ok.inj h
    rw [byKey, hf, ok_bind, Json.checkKey.eq_def]
    simp only [hget, ok_bind]
    rfl

theorem StandardOutput.diagnostics_of_warnings {warnings : List Json}
    (h : ∀ w ∈ warnings, isError w = .ok false) : diagnostics warnings = .ok [] := by
  induction warnings with
  | nil => rfl
  | cons w warnings ih =>
    rw [List.forall_mem_cons] at h
    rw [diagnostics, h.1, ih h.2]
    rfl

theorem CompiledContract.truthy (c : CompiledContract) : (Json.text c.bytecode).truthy = true := by
  have hne : c.bytecode.isEmpty = false := String.isEmpty_eq_false_iff.mpr c.compiled
  simp [Json.truthy, hne]

theorem StandardReport.reads {contracts : List CompiledContract} {ended : Ended}
    (h : StandardReport contracts ended) : ∃ output, StandardCompiler.outputOf ended = .ok output ∧
      ∀ c ∈ contracts, ∀ backend,
        Dispatcher.ofStandard backend output (.text c.name) = .ok (c.outcome backend) := by
  obtain ⟨output, files, entries, warnings, hparse, hcontracts, hfile, hentries, herrors, hnone⟩ :=
    h.prints
  refine ⟨{ contracts := files, errors := [] }, ?_, ?_⟩
  · unfold StandardCompiler.outputOf StandardOutput.parse
    simp only [h.code, ne_eq, not_true_eq_false, ite_false, hparse]
    rw [mapError_ok, ok_bind, herrors, ok_bind, Json.items, ok_bind,
      StandardOutput.diagnostics_of_warnings hnone, ok_bind, Json.fieldOr_of_field? hcontracts]
    rfl
  · intro c hc backend
    obtain ⟨entry, hentry, evm, code, hevm, hbytecode, hobject, hmethods⟩ := hentries c hc
    have hfiles : files.fieldOr variantFileName (.object []) = .ok entries :=
      Json.fieldOr_of_field? hfile _
    have hcontract : StandardOutput.contract { contracts := files } (.text c.name) = .ok entry := by
      simp only [StandardOutput.contract, Json.isNull, Bool.false_eq_true, ite_false, hfiles, ok_bind,
        StandardOutput.byKey_of_field? hentry]
    have hcode : StandardOutput.bytecode { contracts := files } (.text c.name) =
        .ok (.text c.bytecode) := by
      simp only [StandardOutput.bytecode, hcontract, ok_bind, Json.not_null_of_field? hevm,
        Json.fieldOr_of_field? hevm, Json.fieldOr_of_field? hbytecode, Json.field,
        Json.fieldOr_of_field? hobject, c.truthy, Bool.false_eq_true, ite_true, ite_false]
      rfl
    have hselectors : StandardOutput.selectors { contracts := files } (.text c.name) =
        .ok (.ofFields c.selectors) := by
      simp only [StandardOutput.selectors, hcontract, ok_bind, Json.not_null_of_field? hevm,
        Json.fieldOr_of_field? hevm, Json.fieldOr_of_field? hmethods, Bool.false_eq_true, ite_false]
      rfl
    simp only [Dispatcher.ofStandard, StandardOutput.success, List.isEmpty_nil, ite_true, hcode,
      hselectors, ok_bind]
    rfl

theorem CombinedReport.reads {first : CompiledContract} {rest : List CompiledContract}
    {ended : Ended} (h : CombinedReport (first :: rest) ended) (command : List String) :
    ∃ output, EofCompiler.outputOf command ended = .ok output ∧
      ∀ backend, Dispatcher.ofCombined backend output = .ok (first.outcome backend) := by
  obtain ⟨output, entries, file, hparse, hcontracts, hlisted⟩ := h.prints
  cases hlisted with
  | @cons _ entry _ entries hentry hrest =>
    obtain ⟨-, hbin, hhashes⟩ := hentry
    refine ⟨{ contracts := .object (entry :: entries), errors := [] }, ?_, ?_⟩
    · unfold EofCompiler.outputOf
      simp only [h.code, h.errors, ne_eq, not_true_eq_false, ite_false, Bool.false_eq_true, hparse]
      rw [mapError_ok, ok_bind, Json.fieldOr_of_field? hcontracts]
      rfl
    · intro backend
      have hfirst : CombinedOutput.firstEntry { contracts := .object (entry :: entries) } =
          .ok entry.2 := rfl
      have hcode : CombinedOutput.bytecode { contracts := .object (entry :: entries) } =
          .ok (.text first.bytecode) := by
        simp only [CombinedOutput.bytecode, hfirst, ok_bind, Json.not_null_of_field? hbin, Json.field,
          Json.fieldOr_of_field? hbin, first.truthy, Bool.false_eq_true, ite_true, ite_false]
        rfl
      have hselectors : CombinedOutput.selectors { contracts := .object (entry :: entries) } =
          .ok (.ofFields first.selectors) := by
        simp only [CombinedOutput.selectors, hfirst, ok_bind, Json.not_null_of_field? hbin,
          Json.fieldOr_of_field? hhashes, Bool.false_eq_true, ite_false]
        rfl
      simp only [Dispatcher.ofCombined, CombinedOutput.success, List.isEmpty_nil, ite_true, hcode,
        hselectors, ok_bind]
      rfl

/-! ## Both compilers -/

structure BothCompile (d : Dispatcher) (o : Outside) (variant : Variant) (standard eof : Backend)
    (contracts listed : List CompiledContract) (b b₀ : Bench) : Prop where
  isStandard : standard.isEof = false
  isEof : eof.isEof = true
  order : listed.Perm contracts
  standardRun : ∃ source b₁ b₂ ended, (d.render variant.tree standard).run o b = (.ok source, b₁) ∧
    (StandardCompiler.ensureInstalled d.settings standard.version).run o b₁ = (.ok (), b₂) ∧
    o.compiler b₂.asked standard.version = .ended ended ∧ StandardReport contracts ended
  eofRun : ∃ text bytes b₁ ended, (d.render variant.tree eof).run o b₀ = (.ok (.text text), b₁) ∧
    Text.encode text = .ok bytes ∧ b₁.files.Unused EofCompiler.scratchPlace ∧
    o.eofCompiler b₁.asked = .ended ended ∧ CombinedReport listed ended

section
variable {d : Dispatcher} {o : Outside} {variant : Variant} {standard eof : Backend}
  {contracts listed : List CompiledContract} {b b₀ : Bench} {c : CompiledContract}

theorem BothCompile.run_standard (h : BothCompile d o variant standard eof contracts listed b b₀)
    (hc : c ∈ contracts) (hname : Dispatcher.targetName variant = .ok (.text c.name)) :
    ∃ b', (d.compile variant standard).run o b = (.ok (c.outcome standard), b') := by
  obtain ⟨source, b₁, b₂, ended, hrender, hinstalled, hcompiler, hreport⟩ := h.standardRun
  obtain ⟨output, houtput, hreads⟩ := hreport.reads
  obtain ⟨events, hrun⟩ := StandardCompiler.run_compile hinstalled source d.user
  obtain ⟨events', hcompile⟩ := Dispatcher.run_compile_standard h.isStandard hrender hname hrun
  rw [hcompiler, StandardCompiler.verdict_ended, houtput, ok_bind, hreads c hc standard] at hcompile
  exact ⟨_, hcompile⟩

theorem BothCompile.run_eof (h : BothCompile d o variant standard eof contracts listed b b₀)
    {name : Json} (hname : Dispatcher.targetName variant = .ok name) {first : CompiledContract}
    {rest : List CompiledContract} (hlisted : listed = first :: rest) :
    ∃ b', (d.compile variant eof).run o b₀ = (.ok (first.outcome eof), b') := by
  obtain ⟨text, bytes, b₁, ended, hrender, hencode, hunused, hcompiler, hreport⟩ := h.eofRun
  subst hlisted
  obtain ⟨output, houtput, hreads⟩ := hreport.reads
    (EofCompiler.command d.settings)
  obtain ⟨events, hrun⟩ := @EofCompiler.run_compile o b₁ d.settings text bytes hunused hencode
  have hcompile := Dispatcher.run_compile_eof h.isEof hrender hname hrun
  rw [hcompiler, EofCompiler.verdict_ended, houtput, ok_bind, hreads eof] at hcompile
  exact ⟨_, hcompile⟩

theorem CompiledContract.outcome_agree_iff (c c' : CompiledContract) (backend backend' : Backend) :
    ((c.outcome backend).bytecode = (c'.outcome backend').bytecode ∧
      (c.outcome backend).selectors = (c'.outcome backend').selectors) ↔
    c.bytecode = c'.bytecode ∧ c.selectors = c'.selectors := by
  have hinj : Function.Injective fun f : String × Json => (Json.text f.1, f.2) := by
    rintro ⟨n, v⟩ ⟨n', v'⟩ h
    simpa using h
  simp only [outcome, Json.text.injEq, Selectors.ofFields, Selectors.mk.injEq,
    hinj.list_map.eq_iff]

end

/-! ## A unit of two contracts -/

namespace Sample

def first : CompiledContract := ⟨"A", "a0", [], by decide⟩

def target : CompiledContract := ⟨"C", "c0", [("f()", .text "26121ff0")], by decide⟩

def tree : SyntaxTree where
  unit := .object [("nodes", .array [
    .object [("nodeType", .text "ContractDefinition"), ("name", .text "C"),
      ("nodes", .array [.object [("nodeType", .text "FunctionDefinition"), ("name", .text "f")]])],
    .object [("nodeType", .text "ContractDefinition"), ("name", .text "A")]])]
  fileName := "c.sol"

def variant : Variant := { index := 0, tree, seed := tree }

def standardEnd : Ended where
  output :=
    "\x7b\"contracts\":\x7b\"foo.sol\":\x7b" ++
    "\"A\":\x7b\"evm\":\x7b\"bytecode\":\x7b\"object\":\"a0\"\x7d,\"methodIdentifiers\":\x7b\x7d\x7d\x7d," ++
    "\"C\":\x7b\"evm\":\x7b\"bytecode\":\x7b\"object\":\"c0\"\x7d,\"methodIdentifiers\":\x7b" ++
    "\"f()\":\"26121ff0\"\x7d\x7d\x7d\x7d\x7d\x7d"

def combinedEnd : Ended where
  output :=
    "\x7b\"contracts\":\x7b\"x:A\":\x7b\"bin\":\"a0\",\"hashes\":\x7b\x7d\x7d," ++
    "\"x:C\":\x7b\"bin\":\"c0\",\"hashes\":\x7b\"f()\":\"26121ff0\"\x7d\x7d\x7d\x7d"

def rendered : Ended where
  output := "\x7b\"source\":\"x\"\x7d"

def outside : Outside := { Outside.alone ⟨2024, 1, 1, 0, 0, 0, 0⟩ with
  engine := fun _ _ => .ended rendered
  compiler := fun _ _ => .ended standardEnd
  eofCompiler := fun _ => .ended combinedEnd }

def bench : Bench where
  memory := { installed := ["0.8.21"], versions := [(Settings.solcPath {}, "0.8.21")] }

theorem checkReply_rendered (command : List String) :
    Engine.checkReply .render command rendered = .ok (.object [("source", .text "x")]) := by
  have hparse : Json.parse rendered.output = .ok (.object [("source", .text "x")]) := by
    unfold Json.parse Json.parseWithin
    simp only [rendered, String.reduceToList]
    rfl
  simp only [Engine.checkReply, hparse]
  rfl

set_option maxRecDepth 2000 in
theorem standard_report : StandardReport [target, first] standardEnd where
  code := rfl
  prints := by
    have hparse : Json.parse standardEnd.output = .ok (.object [("contracts", .object [("foo.sol",
        .object [
          ("A", .object [("evm", .object [("bytecode", .object [("object", .text "a0")]),
            ("methodIdentifiers", .object [])])]),
          ("C", .object [("evm", .object [("bytecode", .object [("object", .text "c0")]),
            ("methodIdentifiers", .object [("f()", .text "26121ff0")])])])])])]) := by
      unfold Json.parse Json.parseWithin
      simp only [standardEnd, String.reduceAppend, String.reduceToList]
      rfl
    refine ⟨_, _, _, [], hparse, rfl, rfl, ?_, rfl, by simp⟩
    intro c hc
    rcases List.mem_pair.mp hc with rfl | rfl
    · exact ⟨_, rfl, _, _, rfl, rfl, rfl, rfl⟩
    · exact ⟨_, rfl, _, _, rfl, rfl, rfl, rfl⟩

theorem combined_report : CombinedReport [first, target] combinedEnd where
  code := rfl
  errors := rfl
  prints := by
    have hparse : Json.parse combinedEnd.output = .ok (.object [("contracts", .object [
        ("x:A", .object [("bin", .text "a0"), ("hashes", .object [])]),
        ("x:C", .object [("bin", .text "c0"),
          ("hashes", .object [("f()", .text "26121ff0")])])])]) := by
      unfold Json.parse Json.parseWithin
      simp only [combinedEnd, String.reduceAppend, String.reduceToList]
      rfl
    refine ⟨_, _, "x", hparse, rfl, .cons ⟨by decide, rfl, rfl⟩ (.cons ⟨by decide, rfl, rfl⟩ .nil)⟩

theorem both_compile : BothCompile { settings := {} } outside variant ⟨"0.8.21"⟩ ⟨"eof"⟩
    [target, first] [first, target] bench bench where
  isStandard := rfl
  isEof := rfl
  order := List.Perm.swap target first []
  standardRun := by
    obtain ⟨r, hrender⟩ := @Dispatcher.run_render outside bench bench _ { settings := {} } ⟨"0.8.21"⟩
      _ "0.8.21" tree _ rfl rfl (checkReply_rendered _) rfl
    exact ⟨.text "x", _, _, _, hrender, StandardCompiler.run_ensureInstalled rfl, rfl, standard_report⟩
  eofRun := by
    obtain ⟨r, hrender⟩ := @Dispatcher.run_render outside bench bench _ { settings := {} } ⟨"eof"⟩
      _ "0.8.21" tree _ rfl rfl (checkReply_rendered _) rfl
    exact ⟨"x", _, _, _, hrender, rfl, List.forall_mem_nil _, rfl, combined_report⟩

end Sample

/-! ## The selected contracts -/

section
variable {d : Dispatcher} {o : Outside} {variant : Variant} {standard eof : Backend}
  {contracts listed : List CompiledContract} {b b₀ : Bench} {c : CompiledContract}

/-- The standard compiler gives the target contract, and the object-format build the contract that
is listed first: both agree exactly if these have the same bytecode and selectors. -/
theorem target_and_first_contract_selected
    (h : BothCompile d o variant standard eof contracts listed b b₀) (hc : c ∈ contracts)
    (hname : Dispatcher.targetName variant = .ok (.text c.name)) :
    ∃ first outcome outcome' b' b₀', listed.head? = some first ∧
      (d.compile variant standard).run o b = (.ok outcome, b') ∧
      (d.compile variant eof).run o b₀ = (.ok outcome', b₀') ∧
      outcome = c.outcome standard ∧ outcome' = first.outcome eof ∧
      (outcome.bytecode = outcome'.bytecode ∧ outcome.selectors = outcome'.selectors ↔
        c.bytecode = first.bytecode ∧ c.selectors = first.selectors) := by
  obtain ⟨b', hstandard⟩ := h.run_standard hc hname
  cases hl : listed with
  | nil =>
    have hempty : contracts = [] := List.nil_perm.mp (hl ▸ h.order)
    rw [hempty] at hc
    cases hc
  | cons first rest =>
    obtain ⟨b₀', heof⟩ := h.run_eof hname hl
    exact ⟨first, _, _, b', b₀', rfl, hstandard, heof, rfl, rfl, c.outcome_agree_iff first _ _⟩

end

theorem target_and_first_contract_selected_of_two : ∃ outcome outcome' b' b₀',
    (Dispatcher.compile { settings := {} } Sample.variant ⟨"0.8.21"⟩).run Sample.outside
      Sample.bench = (.ok outcome, b') ∧
    (Dispatcher.compile { settings := {} } Sample.variant ⟨"eof"⟩).run Sample.outside
      Sample.bench = (.ok outcome', b₀') ∧
    outcome.bytecode = .text "c0" ∧ outcome'.bytecode = .text "a0" := by
  have hmem : Sample.target ∈ [Sample.target, Sample.first] := by simp
  obtain ⟨first, outcome, outcome', b', b₀', hfirst, hrun, hrun', houtcome, houtcome', -⟩ :=
    target_and_first_contract_selected Sample.both_compile hmem rfl
  cases hfirst
  refine ⟨outcome, outcome', b', b₀', hrun, hrun', ?_, ?_⟩
  · rw [houtcome]; rfl
  · rw [houtcome']; rfl

/-- The target contract is not always selected for both. -/
theorem other_contract_selected : ¬ ∀ {d : Dispatcher} {o : Outside} {variant : Variant}
    {standard eof : Backend} {contracts listed : List CompiledContract} {b b₀ : Bench}
    {c : CompiledContract}, BothCompile d o variant standard eof contracts listed b b₀ →
    c ∈ contracts → Dispatcher.targetName variant = .ok (.text c.name) →
    ∃ b' b₀', (d.compile variant standard).run o b = (.ok (c.outcome standard), b') ∧
      (d.compile variant eof).run o b₀ = (.ok (c.outcome eof), b₀') := by
  intro h
  have hmem : Sample.target ∈ [Sample.target, Sample.first] := by simp
  obtain ⟨_, _, -, htarget⟩ := h Sample.both_compile hmem rfl
  obtain ⟨_, hfirst⟩ := Sample.both_compile.run_eof rfl rfl
  rw [htarget] at hfirst
  have hcode := congrArg CompileOutcome.bytecode (Except.ok.inj (Prod.mk.inj hfirst).1)
  exact absurd (Json.text.inj hcode) (by decide)

end BackendFuzz
