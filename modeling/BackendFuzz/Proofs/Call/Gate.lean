import BackendFuzz.Proofs.Call.Words

/-!
# The gate and the planner

The gate looks at a seed, the planner at a variant. Both refuse a tree for its
first defect: on the way to the target function, in the list of its parameters,
or in one of them. A refusal draws nothing; a plan has the draws of each type, in
the order of the parameters, and no others.
-/

namespace BackendFuzz

open Session

/-! ## The first failure in a list -/

theorem mapM_error_iff {α β ε : Type} {f : α → Except ε β} {l : List α} {e : ε} :
    l.mapM f = .error e ↔ ∃ before a after bs, l = before ++ a :: after ∧
      List.Forall₂ (fun a b => f a = .ok b) before bs ∧ f a = .error e := by
  induction l with
  | nil => simp [pure, Except.pure]
  | cons a l ih =>
    rw [List.mapM_cons]
    cases ha : f a with
    | error e' =>
      rw [error_bind, Except.error.injEq]
      constructor
      · rintro rfl
        exact ⟨[], a, l, [], rfl, .nil, ha⟩
      · rintro ⟨before, a', after, bs, hl, hbefore, he⟩
        cases hbefore with
        | nil => cases hl; simpa [ha] using he
        | cons hb _ => cases hl; simp [ha] at hb
    | ok b =>
      have hrest : (do return b :: (← l.mapM f) : Except ε (List β)) = .error e ↔
          l.mapM f = .error e := by
        cases l.mapM f <;> simp [error_bind, ok_bind, pure, Except.pure]
      refine hrest.trans (ih.trans ⟨?_, ?_⟩)
      · rintro ⟨before, a', after, bs, rfl, hbefore, he⟩
        exact ⟨a :: before, a', after, b :: bs, rfl, .cons ha hbefore, he⟩
      · rintro ⟨before, a', after, bs, hl, hbefore, he⟩
        cases hbefore with
        | nil => cases hl; simp [ha] at he
        | cons _ hbefore => cases hl; exact ⟨_, a', after, _, rfl, hbefore, he⟩

/-! ## Draws of a type -/

/-- All bits of an unsigned value at once; of a signed one the magnitude, then the sign. -/
def IntegerType.draws (t : IntegerType) : List Request :=
  if t.signed then [.callBits (t.bits - 1), .callBits 1] else [.callBits t.bits]

section
variable (o : Outside) (b : Bench)

theorem run_drawInteger_draws (t : IntegerType) : ∃ value, (drawInteger t).run o b =
    (.ok value, { b with asked := b.asked ++ t.draws }) := by
  obtain ⟨signed, bits⟩ := t
  cases signed with
  | true =>
    have hasked : b.asked ++ [.callBits (bits - 1)] ++ [.callBits 1] =
        b.asked ++ IntegerType.draws ⟨true, bits⟩ := by simp [IntegerType.draws]
    exact ⟨_, hasked ▸ run_drawInteger_signed bits o b⟩
  | false => exact ⟨_, run_drawInteger_unsigned bits o b⟩

theorem run_mapM_drawInteger_draws (types : List IntegerType) : ∃ values,
    (types.mapM drawInteger).run o b =
      (.ok values, { b with asked := b.asked ++ types.flatMap IntegerType.draws }) := by
  induction types generalizing b with
  | nil => exact ⟨[], by simp⟩
  | cons t types ih =>
    obtain ⟨value, hvalue⟩ := run_drawInteger_draws o b t
    obtain ⟨values, hvalues⟩ := ih { b with asked := b.asked ++ t.draws }
    refine ⟨value :: values, ?_⟩
    rw [List.mapM_cons, run_bind_ok hvalue, run_bind_ok hvalues, run_pure]
    simp

end

namespace Planner

/-! ## Defects of a tree -/

section
variable {p : Planner} {tree : SyntaxTree} {fault : Fault}

/-- The parameters that the target function declares, and a type for each, in order. -/
structure Accepts (p : Planner) (tree : SyntaxTree) (declared : List Json)
    (types : List IntegerType) : Prop where
  listed : ∃ function, target p.functionName tree = .ok function ∧
    parameters function = .ok declared
  resolved : List.Forall₂ (fun parameter t => resolveType parameter = .ok t) declared types

/-- The first defect of a tree: what comes before it in the order of reading is in order. -/
inductive Defect (p : Planner) (tree : SyntaxTree) : Fault → Prop
  | target {fault : Fault} (h : target p.functionName tree = .error fault) : Defect p tree fault
  | parameters {function : Json} {cause : Misuse}
    (ht : Planner.target p.functionName tree = .ok function)
    (h : parameters function = .error cause) : Defect p tree (.misuse cause)
  | parameter {function parameter : Json} {before after : List Json} {types : List IntegerType}
    {fault : Fault} (ht : Planner.target p.functionName tree = .ok function)
    (hp : Planner.parameters function = .ok (before ++ parameter :: after))
    (hbefore : List.Forall₂ (fun parameter t => resolveType parameter = .ok t) before types)
    (h : resolveType parameter = .error fault) : Defect p tree fault

theorem parameterTypes_ok_iff {types : List IntegerType} :
    p.parameterTypes tree = .ok types ↔ ∃ declared, p.Accepts tree declared types := by
  constructor
  · intro h
    obtain ⟨function, ht, h⟩ := bind_ok_inv h
    obtain ⟨declared, hp, h⟩ := bind_ok_inv h
    exact ⟨declared, ⟨function, ht, mapError_ok_iff.mp hp⟩, mapM_ok_iff.mp h⟩
  · rintro ⟨declared, ⟨function, ht, hp⟩, hresolved⟩
    rw [parameterTypes, ht, ok_bind, hp, mapError_ok, ok_bind]
    exact mapM_ok_iff.mpr hresolved

theorem parameterTypes_error_iff : p.parameterTypes tree = .error fault ↔ p.Defect tree fault := by
  -- The constructors are the steps in their order: each rules out the others by what came before.
  unfold parameterTypes
  cases ht : target p.functionName tree with
  | error fault' =>
    rw [error_bind, Except.error.injEq]
    constructor
    · rintro rfl
      exact .target ht
    · intro h
      cases h <;> simp_all
  | ok function =>
    rw [ok_bind]
    cases hp : parameters function with
    | error cause =>
      rw [mapError_error, error_bind, Except.error.injEq]
      constructor
      · rintro rfl
        exact .parameters ht hp
      · intro h
        cases h <;> simp_all
    | ok declared =>
      rw [mapError_ok, ok_bind, mapM_error_iff]
      constructor
      · rintro ⟨before, parameter, after, types, rfl, hbefore, h⟩
        exact .parameter ht hp hbefore h
      · intro h
        cases h with
        | target h => simp [ht] at h
        | parameters ht' h => cases ht.symm.trans ht'; simp [hp] at h
        | parameter ht' hp' hbefore h =>
          cases ht.symm.trans ht'
          cases hp.symm.trans hp'
          exact ⟨_, _, _, _, rfl, hbefore, h⟩

theorem check_error_iff : p.check tree = .error fault ↔ p.Defect tree fault := by
  rw [← parameterTypes_error_iff, check]
  cases p.parameterTypes tree <;> simp [error_bind, ok_bind, pure, Except.pure]

/-! ## Plans -/

variable (o : Outside) (b : Bench)

theorem run_plan_refused (h : p.parameterTypes tree = .error fault) :
    (p.plan tree).run o b = (.error fault, b) := by
  unfold plan
  rw [h, run_bind_error (run_ofExcept o b _)]

theorem run_plan_accepted {types : List IntegerType} (h : p.parameterTypes tree = .ok types) :
    ∃ plan event, plan.types = types.map IntegerType.canonical ∧ (p.plan tree).run o b = (.ok plan,
      { b with
        asked := b.asked ++ types.flatMap IntegerType.draws, events := b.events ++ [event] }) := by
  obtain ⟨values, hdraws⟩ := run_mapM_drawInteger_draws o b types
  unfold plan
  rw [h, run_bind_ok (run_ofExcept o b _), run_bind_ok hdraws]
  exact ⟨_, _, rfl, rfl⟩

/-- The gate and the planner refuse a tree for the same defect. A refused plan leaves everything as
it was, and a plan that is made has drawn what the types of the declared parameters ask for. -/
theorem gate_and_planner_agree (p : Planner) (tree : SyntaxTree) (o : Outside) (b : Bench) :
    (∀ fault, p.check tree = .error fault ↔ p.Defect tree fault) ∧
    (∀ fault, (∃ b', (p.plan tree).run o b = (.error fault, b')) ↔ p.Defect tree fault) ∧
    (∀ fault b', (p.plan tree).run o b = (.error fault, b') → b' = b) ∧
    ∀ plan b', (p.plan tree).run o b = (.ok plan, b') → ∃ declared types event,
      p.Accepts tree declared types ∧ plan.types = types.map IntegerType.canonical ∧
      b' = { b with
        asked := b.asked ++ types.flatMap IntegerType.draws, events := b.events ++ [event] } := by
  -- Both are decided by the types that are read before the first draw.
  simp only [← parameterTypes_error_iff]
  refine ⟨fun fault => ?_, ?_⟩
  · rw [parameterTypes_error_iff, check_error_iff]
  cases h : p.parameterTypes tree with
  | error fault' =>
    rw [run_plan_refused o b h]
    simp [eq_comm]
  | ok types =>
    obtain ⟨plan, event, htypes, hplan⟩ := run_plan_accepted o b h
    obtain ⟨declared, haccepts⟩ := parameterTypes_ok_iff.mp h
    rw [hplan]
    refine ⟨by simp, by simp, fun plan' b' heq => ?_⟩
    cases heq
    exact ⟨declared, types, event, haccepts, htypes, rfl⟩

end

end Planner

namespace Sample

def flaggedTree : SyntaxTree where
  unit := .object [("nodes", .array [
    .object [("nodeType", .text "ContractDefinition"), ("name", .text "C"),
      ("nodes", .array [
        .object [("nodeType", .text "FunctionDefinition"), ("name", .text "f"),
          ("parameters", .object [("parameters",
            .array [parameter "int8", parameter "uint256", parameter "bool"])])]])]])]
  fileName := "c.sol"

end Sample

/-- Without its last parameter the tree has a plan, of three draws; with it there are none. -/
theorem gate_and_planner_agree_flagged :
    (Planner.mk "f" "a").check Sample.flaggedTree = .error (.parameter ⟨"bool", .text ""⟩) ∧
    ((Planner.mk "f" "a").plan Sample.flaggedTree).run Sample.onesDrawn {} =
      (.error (.parameter ⟨"bool", .text ""⟩), {}) ∧
    ∃ plan b', ((Planner.mk "f" "a").plan Sample.pairTree).run Sample.onesDrawn {} =
      (.ok plan, b') ∧ b'.asked = [.callBits 7, .callBits 1, .callBits 256] := by
  have hcheck : (Planner.mk "f" "a").check Sample.flaggedTree =
      .error (.parameter ⟨"bool", .text ""⟩) := rfl
  obtain ⟨hgate, hplanner, hsame, -⟩ :=
    Planner.gate_and_planner_agree ⟨"f", "a"⟩ Sample.flaggedTree Sample.onesDrawn {}
  obtain ⟨b', hrun⟩ := (hplanner _).mpr ((hgate _).mp hcheck)
  obtain ⟨plan, event, -, hplan⟩ :=
    Planner.run_plan_accepted Sample.onesDrawn {} Sample.parameterTypes_pairTree
  exact ⟨hcheck, hsame _ b' hrun ▸ hrun, plan, _, hplan, rfl⟩

end BackendFuzz
