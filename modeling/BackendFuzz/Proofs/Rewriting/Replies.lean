import BackendFuzz.Proofs.Campaign.Tools

/-!
# Replies of the rewrite engine

The engine is asked by one request. Its reply is a value, or an error that it
reports, or it says by its exit code, its silence or its absence that it failed.
-/

namespace BackendFuzz

open Session

namespace Engine

def timeout (settings : Settings) : ProcessFault where
  cause := .engineTimeout settings.rewriteTimeout
  command := [.text settings.rewriterPath]

def unparsable (settings : Settings) (ended : Ended) (fault : Json.SyntaxFault) : ProcessFault where
  cause := .engineOutput fault
  command := [.text settings.rewriterPath]
  code := some ended.code
  output := ended.output
  errors := ended.errors

def verdict (settings : Settings) (action : RewriteAction) : ProgramReply → Except Fault Json
  | .ended ended => checkReply action [settings.rewriterPath] ended
  | .timedOut => .error (.process (timeout settings))
  | .missing => .error (.configuration (.engineMissing settings.rewriterPath))
  | .denied => .error (.file ⟨.denied, settings.rewriterPath⟩)
  | .interrupted => .error .interrupted

theorem run_call_verdict (settings : Settings) (action : RewriteAction) (fields : Fields)
    (o : Outside) (b : Bench) : (call settings action fields).run o b =
      (verdict settings action (o.engine b.asked (input action fields)),
        { b with asked := b.asked ++ [request settings action fields] }) := by
  unfold call
  dsimp only
  rw [run_bind_ok (run_note o b _), run_bind_ok (run_read o _)]
  unfold input
  cases o.engine b.asked (Json.object (("action", .text action.name) :: fields)).print with
  | ended ended => exact run_ofExcept o _ _
  | timedOut => rfl
  | missing => rfl
  | denied => rfl
  | interrupted => rfl

section
variable {settings : Settings} {o : Outside} {b b' : Bench}

theorem asked_call {action : RewriteAction} {fields : Fields} {r : Except Fault Json}
    (h : (call settings action fields).run o b = (r, b')) :
    b'.asked = b.asked ++ [request settings action fields] := by
  rw [run_call_verdict] at h
  exact (congrArg (·.2.asked) h).symm

/-- Whatever comes of it, a tree is rewritten by one request. -/
theorem asked_rewrite {tree : SyntaxTree} {rules : RuleSet} {depth seed : Int}
    {r : Except Fault SyntaxTree}
    (h : (rewrite settings tree rules depth seed).run o b = (r, b')) :
    b'.asked = b.asked ++ [request settings .rewrite [("ast", tree.unit),
      ("rules", .text rules.text), ("depth", .int depth), ("seed", .int seed)]] := by
  rcases run_bind_cases h with ⟨fault, -, hcall⟩ | ⟨reply, b₁, hcall, h⟩
  · exact asked_call hcall
  · have hlast : b' = b₁ := by
      rcases run_bind_cases h with ⟨fault, -, hentry⟩ | ⟨unit, b₂, hentry, h⟩
      · exact congrArg Prod.snd (hentry.symm.trans (run_looking o _ _))
      · cases h
        exact congrArg Prod.snd (hentry.symm.trans (run_looking o _ _))
    rw [hlast]
    exact asked_call hcall

end

section
variable {settings : Settings} {action : RewriteAction} {ended : Ended} {fields : Fields}

theorem verdict_unread {cause : Json.ParseFault} (h : Json.parse ended.output = .error cause) :
    verdict settings action (.ended ended) =
      .error (Fault.ofParse (fun fault => .process (unparsable settings ended fault)) cause) := by
  simp only [verdict, checkReply, h, mapError_error, error_bind]
  rfl

variable (h : Json.parse ended.output = .ok (.object fields))
include h

theorem verdict_error {error : Json} (herror : fields.get? "error" = some error) :
    verdict settings action (.ended ended) = (do
      throw (.rewrite (← (refusal action error).mapError .misuse))) := by
  simp only [verdict, checkReply, h, Json.has, Json.entry, herror, mapError_ok, ok_bind,
    Option.isSome_some, if_true]

theorem verdict_accepted (herror : fields.get? "error" = none) :
    verdict settings action (.ended ended) =
      if ended.code ≠ 0 then .error (.rewrite (.exited ended.code ended.errors))
      else .ok (.object fields) := by
  simp only [verdict, checkReply, h, Json.has, herror, mapError_ok, ok_bind, Option.isSome_none,
    Bool.false_eq_true, if_false]
  rfl

end

def refusalOf (action : RewriteAction) (error : Fields) : RewriteFault :=
  .rejected action
    ((error.get? "line").map fun line => (line, (error.get? "column").getD (.int 0)))
    ((error.get? "message").getD (.text ""))

theorem refusal_object (action : RewriteAction) (error : Fields) :
    refusal action (.object error) = .ok (refusalOf action error) := by
  cases hline : error.get? "line" <;>
    simp [refusal, refusalOf, Json.has, Json.entry, Json.fieldOr, Json.field?, Json.fieldsFor,
      hline, bind, Except.bind, pure, Except.pure]

theorem refusal_of_not_object (action : RewriteAction) {error : Json}
    (h : ∀ fields, error ≠ .object fields) : ∃ cause, refusal action error = .error cause := by
  cases error with
  | object fields => exact absurd rfl (h fields)
  | null => exact ⟨_, rfl⟩
  | bool _ => exact ⟨_, rfl⟩
  | int _ => exact ⟨_, rfl⟩
  | real _ => exact ⟨_, rfl⟩
  | text s =>
    by_cases hline : Json.occursIn "line".toList s.toList
    · exact ⟨.entryOfText, by simp only [refusal, Json.has, hline, ok_bind]; rfl⟩
    · exact ⟨.feature "str" "get", by simp only [refusal, Json.has, hline, ok_bind]; rfl⟩
  | array items =>
    by_cases hline : items.any (·.isText "line")
    · exact ⟨.entryOfArray, by simp only [refusal, Json.has, hline, ok_bind]; rfl⟩
    · exact ⟨.feature "list" "get", by simp only [refusal, Json.has, hline, ok_bind]; rfl⟩

end Engine

end BackendFuzz
