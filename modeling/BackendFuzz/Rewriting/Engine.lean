import BackendFuzz.Json.Printer
import BackendFuzz.Session
import BackendFuzz.Settings.Basic
import BackendFuzz.SyntaxTree

/-!
# The rewrite engine

An outside program that owns the rules: it is asked by one JSON object for a
rule set, a rewritten tree, or the source text of a tree, and answers by another
one, which holds a value or an error.
-/

namespace BackendFuzz

structure RuleSet where
  text : String
  generators : List Json := []
  rewrites : List Json := []
  path : Option Path := none

def RuleSet.isEmpty (r : RuleSet) : Bool := r.rewrites.isEmpty

namespace Engine

def refusal (action : RewriteAction) (error : Json) : Except Misuse RewriteFault := do
  let location ←
    if ← error.has "line" then
      let line ← error.entry "line"
      pure (some (line, ← error.fieldOr "column" (.int 0)))
    else pure none
  return .rejected action location (← error.fieldOr "message" (.text ""))

def checkReply (action : RewriteAction) (command : List String) (ended : Ended) :
    Except Fault Json := do
  let onSyntax (fault : Json.SyntaxFault) : Fault :=
    .process { cause := .engineOutput fault, command := command.map .text, code := some ended.code,
               output := ended.output, errors := ended.errors }
  let reply ← (Json.parse ended.output).mapError (Fault.ofParse onSyntax)
  if ← (reply.has "error").mapError Fault.misuse then
    let error ← (reply.entry "error").mapError Fault.misuse
    throw (.rewrite (← (refusal action error).mapError Fault.misuse))
  else if ended.code ≠ 0 then throw (.rewrite (.exited ended.code ended.errors))
  else return reply

def call (settings : Settings) (action : RewriteAction) (fields : Fields) : Session Json := do
  let command := [settings.rewriterPath]
  let input := (Json.object (("action", .text action.name) :: fields)).print
  let before ← Session.note (.engine command settings.rewriteTimeout input)
  match (← read).engine before input with
  | .ended ended => Session.ofExcept (checkReply action command ended)
  | .timedOut =>
    throw (.process { cause := .engineTimeout settings.rewriteTimeout,
                      command := command.map .text })
  | .missing => throw (.configuration (.engineMissing settings.rewriterPath))
  | other => do
    let ended ← Session.settled settings.rewriterPath (throw .interrupted) other
    Session.ofExcept (checkReply action command ended)

def parseRules (settings : Settings) (text : String) : Session RuleSet := do
  let reply ← call settings .parse [("rules", .text text)]
  Session.looking do
    let generators ← (← reply.fieldOr "generators" (.array [])).items
    let rewrites ← (← reply.fieldOr "rewrites" (.array [])).items
    return { text, generators, rewrites }

/-- A tree after `depth` rewrites, which `seed` decides. -/
def rewrite (settings : Settings) (tree : SyntaxTree) (rules : RuleSet) (depth seed : Int) :
    Session SyntaxTree := do
  let reply ← call settings .rewrite
    [("ast", tree.unit), ("rules", .text rules.text), ("depth", .int depth), ("seed", .int seed)]
  return { unit := ← Session.looking (reply.entry "ast"), fileName := tree.fileName }

def render (settings : Settings) (tree : SyntaxTree) (version : String) : Session Json := do
  let reply ← call settings .render [("ast", tree.unit), ("version", .text version)]
  Session.looking (reply.entry "source")

end Engine

end BackendFuzz
