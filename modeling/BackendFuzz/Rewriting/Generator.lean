import BackendFuzz.Rewriting.Engine

/-!
# Variant generation

Each iteration draws a seed and, unless the depth is zero, a number that decides
the rewrites. Both come from the session's own generator, so one start of it
reproduces a whole session.
-/

namespace BackendFuzz

structure Generator where
  settings : Settings
  rules : RuleSet
  depth : Int
  /-- How a seed is picked; by the session's own generator if nothing is given. -/
  selector : Option (List SyntaxTree → Session SyntaxTree) := none

namespace Generator

def make (settings : Settings) (rules : RuleSet) (depth : Int)
    (selector : Option (List SyntaxTree → Session SyntaxTree)) : Except Fault Generator :=
  if rules.isEmpty then .error (.rewrite .noRules)
  else if depth < 0 then .error (.rewrite (.negativeDepth depth))
  else .ok { settings, rules, depth, selector }

def mutationBits : Nat := 64

def generate (g : Generator) (seeds : List SyntaxTree) (index : Int) : Session Variant := do
  if seeds.isEmpty then throw (.configuration .noSeeds)
  let seed ← match g.selector with
    | some select => select seeds
    | none => Session.pick seeds
  if g.depth = 0 then return { index, tree := seed, seed }
  let mutation ← Session.sessionBits mutationBits
  let tree ← Engine.rewrite g.settings seed g.rules g.depth mutation
  Session.debug .rules s!"Variant {index}: {g.depth} rewrites on {seed.fileName}"
  return { index, tree, seed, depth := g.depth }

end Generator

end BackendFuzz
