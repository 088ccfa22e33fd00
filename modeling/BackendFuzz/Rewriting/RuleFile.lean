import BackendFuzz.Rewriting.Engine

/-!
# Rule files

Reading a rule file and having it parsed. A file without rewrite rules leaves
nothing to do.
-/

namespace BackendFuzz

def loadRules (settings : Settings) (path : Option Path) : Session RuleSet := do
  match path with
  | none => throw (.nothingToDo .noRules)
  | some path =>
    let text ← tryCatch (Session.readTextFile path) fun
      | .file fault => throw (.configuration (.rulesUnreadable path.text fault))
      | fault => throw fault
    let rules ← tryCatch (Engine.parseRules settings text) fun
      | .rewrite fault => throw (.configuration (.rulesRejected fault))
      | fault => throw fault
    if rules.isEmpty then throw (.nothingToDo .noRules)
    Session.info .rules
      (s!"Loaded {rules.rewrites.length} rewrite rules and {rules.generators.length} generators " ++
        s!"from {path.text}")
    return { rules with path := some path }

end BackendFuzz
