import BackendFuzz.Proofs.Divergence.Origins

/-!
# Outcomes and their records

Outcomes without a divergence form classes, and those of one status in a class are the
same for the classifier. Events are read back from their JSON, and outcomes are the same
exactly if their JSON is; so a record tells the outcome that it was made from up to that.
-/

namespace BackendFuzz

/-! ## Values made in one way -/

namespace Json

theorem same_array_map {α : Type} {f : α → Json}
    (hf : ∀ x y, (f x).same (f y) = true ↔ x = y) (xs ys : List α) :
    (array (xs.map f)).same (array (ys.map f)) = true ↔ xs = ys := by
  rw [same, sameItems_iff, List.forall₂_map_left_iff, List.forall₂_map_right_iff]
  simp only [hf, List.forall₂_eq_eq_eq]

theorem same_text (s t : String) : (text s).same (text t) = true ↔ s = t := by
  simp [same]

theorem same_texts (ss ts : List String) : (texts ss).same (texts ts) = true ↔ ss = ts :=
  same_array_map same_text ss ts

/-- Objects that name the same fields in the same order agree field by field. -/
theorem same_object {fs gs : Fields} (hnames : fs.map (·.1) = gs.map (·.1))
    (hnodup : (gs.map (·.1)).Nodup) : (object fs).same (object gs) = true ↔
      List.Forall₂ (fun f g => f.2.same g.2 = true) fs gs := by
  have hlength : fs.length = gs.length := by simpa using congrArg List.length hnames
  have hname : ∀ i (hf : i < fs.length) (hg : i < gs.length), fs[i].1 = gs[i].1 := by
    intro i hf hg
    have hi := congrArg (·[i]?) hnames
    simpa [hf, hg] using hi
  have hfind : ∀ i (hf : i < fs.length) (hg : i < gs.length),
      gs.lookup fs[i].1 = some gs[i].2 := fun i hf hg =>
    hname i hf hg ▸ lookup_of_mem hnodup (List.getElem_mem hg)
  rw [same, Bool.and_eq_true, beq_iff_eq, sameFields_iff, List.forall₂_iff_get]
  refine and_congr_right fun _ => ⟨fun h i hf hg => ?_, fun h f hf => ?_⟩
  · obtain ⟨w, hw, hsame⟩ := h _ (List.getElem_mem hf)
    rw [hfind i hf hg, Option.some.injEq] at hw
    exact hw ▸ hsame
  · obtain ⟨i, hi, rfl⟩ := List.getElem_of_mem hf
    exact ⟨gs[i].2, hfind i hi (hlength ▸ hi), h i hi (hlength ▸ hi)⟩

end Json

/-! ## Events -/

namespace LogEntry

theorem ofJson_toJson (e : LogEntry) : ofJson e.toJson = .ok e := by
  have htopics : (e.topics.map Json.text).map Json.display = e.topics := by
    simp [List.map_map, Function.comp_def, Json.display]
  calc ofJson e.toJson
      = .ok ⟨e.address, (e.topics.map Json.text).map Json.display, e.data⟩ := rfl
    _ = .ok e := by rw [htopics]

theorem same_toJson (e f : LogEntry) : e.toJson.same f.toJson = true ↔ e = f := by
  refine (Json.same_object (by rfl) (by simp)).trans ?_
  cases e
  cases f
  simp [Json.same_text, Json.same_texts]

end LogEntry

/-! ## Outcomes -/

namespace RunOutcome

theorem same_toJson (a b : RunOutcome) : a.toJson.same b.toJson = true ↔ a.same b = true := by
  have hresult : (Json.object [("result", .text a.status), ("output", .text a.output)]).same
      (.object [("result", .text b.status), ("output", .text b.output)]) = true ↔
      a.status = b.status ∧ a.output = b.output := by
    refine (Json.same_object (by rfl) (by simp)).trans ?_
    simp [Json.same_text]
  have hlogs := Json.same_array_map LogEntry.same_toJson a.logs b.logs
  refine (Json.same_object (by rfl) (by simp [fields])).trans ?_
  simp [fields, same, hresult, hlogs, and_assoc]

theorem divergencesFrom_comm {a b : RunOutcome} (ha : a.Proper) (hb : b.Proper) :
    a.divergencesFrom b = b.divergencesFrom a := by
  have hstorage : a.storage.same b.storage = b.storage.same a.storage := by
    rw [Bool.eq_iff_iff]
    exact ⟨Json.same_symm ha hb, Json.same_symm hb ha⟩
  rw [divergencesFrom, divergencesFrom, hstorage]
  simp only [eq_comm]

theorem divergencesFrom_trans {a b c : RunOutcome} (hab : a.divergencesFrom b = [])
    (hbc : b.divergencesFrom c = []) : a.divergencesFrom c = [] := by
  rw [divergencesFrom_eq_nil] at hab hbc ⊢
  exact ⟨hab.1.trans hbc.1, Json.same_trans hab.2.1 hbc.2.1, hab.2.2.trans hbc.2.2⟩

theorem agreement_equivalence :
    Equivalence fun a b : {o : RunOutcome // o.Proper} => a.1.divergencesFrom b.1 = [] where
  refl a := ((same_iff a.1 a.1).mp (same_refl a.2)).2
  symm {a b} h := divergencesFrom_comm a.2 b.2 ▸ h
  trans := divergencesFrom_trans

end RunOutcome

/-! ## Records of outcomes -/

def DivergenceRecord.MadeFrom (record : DivergenceRecord) (o : RunOutcome) : Prop :=
  ∃ category file plan r error kinds,
    Classifier.callRecord category file plan r (some o) error kinds = .ok record

theorem DivergenceRecord.MadeFrom.runResult_eq {record : DivergenceRecord} {o : RunOutcome}
    (h : record.MadeFrom o) : record.runResult = some o.fields := by
  obtain ⟨category, file, plan, r, error, kinds, hc⟩ := h
  obtain ⟨call, -, rfl⟩ := callRecord_inv hc
  rfl

theorem Origin.madeFrom {results : List BackendResult} {file : String} {plan : Option CallPlan}
    {record : DivergenceRecord} (h : Origin results file plan record) {shown : Fields}
    (hshown : record.runResult = some shown) : ∃ r ∈ results, ∃ o, record.MadeFrom o ∧
      (r.run = some o ∨ r.missingExecution = true ∧ o = .noOp) := by
  cases h with
  | rejected hr hs => cases hshown
  | notRun hr hp hm hc => exact ⟨_, hr, _, ⟨_, _, _, _, _, _, hc⟩, .inr ⟨hm, rfl⟩⟩
  | broken hr hp he hc =>
    obtain ⟨call, -, rfl⟩ := callRecord_inv hc
    cases hshown
  | diverged hr hp hrun hc => exact ⟨_, hr, _, ⟨_, _, _, _, _, _, hc⟩, .inl hrun⟩

/-- Outcomes, whose storages name no slot twice, are compared as their JSON is: the same exactly
if they have one status and no divergence, which is symmetric and an equivalence. Events are read
back from their JSON. Every record that shows a run was made from an outcome of its variant, and
two records show the same exactly if the outcomes they were made from are the same. -/
theorem outcomes_are_compared_as_their_json :
    (∀ a b : RunOutcome, a.same b = true ↔ a.status = b.status ∧ a.divergencesFrom b = []) ∧
    (∀ a b : RunOutcome, a.Proper → b.Proper → a.divergencesFrom b = b.divergencesFrom a) ∧
    (Equivalence fun a b : {o : RunOutcome // o.Proper} => a.1.divergencesFrom b.1 = []) ∧
    (∀ a b : RunOutcome, a.same b = true ↔ a.toJson.same b.toJson = true) ∧
    (∀ e : LogEntry, LogEntry.ofJson e.toJson = .ok e) ∧
    (∀ results file plan records, classify results file plan = .ok records →
      ∀ record ∈ records, ∀ shown, record.runResult = some shown →
        ∃ r ∈ results, ∃ o, record.MadeFrom o ∧
          (r.run = some o ∨ r.missingExecution = true ∧ o = .noOp)) ∧
    ∀ (record record' : DivergenceRecord) (a b : RunOutcome), record.MadeFrom a →
      record'.MadeFrom b → ∃ shown shown', record.runResult = some shown ∧
        record'.runResult = some shown' ∧
        ((Json.object shown).same (.object shown') = true ↔ a.same b = true) :=
  ⟨RunOutcome.same_iff, fun _ _ => RunOutcome.divergencesFrom_comm,
    RunOutcome.agreement_equivalence, fun a b => (RunOutcome.same_toJson a b).symm,
    LogEntry.ofJson_toJson,
    fun _ _ _ _ h _ hm _ => (origin_of_mem h hm).madeFrom,
    fun _ _ a b ha hb => ⟨a.fields, b.fields, ha.runResult_eq, hb.runResult_eq,
      RunOutcome.same_toJson a b⟩⟩

namespace Sample

def stored (slots : Fields) : RunOutcome where
  status := "success"
  output := "05"
  storage := .object slots
  logs := [{ address := "0x01", topics := ["0x02", "0x03"] }]

def recordOf (o : RunOutcome) : DivergenceRecord where
  category := .outputMismatch
  file := "v.sol"
  version := "a"
  functionName := some "f"
  callParameters := some []
  runResult := some o.fields

def one : Json := .real (.finite false (2 ^ 52) (-52))

/-- The same slots in two orders, with the number 1 as an integer, a real and a truth value. -/
def slots : Fields := [("0x0", .int 1), ("0x1", .array [one, .null])]

def slots' : Fields := [("0x1", .array [.bool true, .null]), ("0x0", one)]

end Sample

theorem outcomes_are_compared_as_their_json_reordered :
    (Sample.stored Sample.slots).divergencesFrom (Sample.stored Sample.slots') = [] ∧
    (Sample.stored Sample.slots').divergencesFrom (Sample.stored Sample.slots) = [] ∧
    (Json.object (Sample.stored Sample.slots).fields).same
      (.object (Sample.stored Sample.slots').fields) = true := by
  obtain ⟨hsame, hcomm, -, -, -, -, hrecords⟩ := outcomes_are_compared_as_their_json
  have hproper : (Sample.stored Sample.slots).Proper := by
    simp [RunOutcome.Proper, Sample.stored, Sample.slots, Sample.one, Json.Proper, Json.ProperFields,
      Json.ProperItems]
  have hproper' : (Sample.stored Sample.slots').Proper := by
    simp [RunOutcome.Proper, Sample.stored, Sample.slots', Sample.one, Json.Proper, Json.ProperFields,
      Json.ProperItems]
  have hmade : ∀ slots, (Sample.recordOf (Sample.stored slots)).MadeFrom (Sample.stored slots) :=
    fun slots => ⟨.outputMismatch, "v.sol", ⟨"f", [], [], ""⟩,
      { compile := { backend := ⟨"a"⟩, success := true } }, none, none, rfl⟩
  have hstored : (Sample.stored Sample.slots).same (Sample.stored Sample.slots') = true := by
    decide +kernel
  have hnone := ((hsame _ _).mp hstored).2
  obtain ⟨shown, shown', hshown, hshown', hiff⟩ := hrecords _ _ _ _ (hmade Sample.slots)
    (hmade Sample.slots')
  cases hshown
  cases hshown'
  exact ⟨hnone, hcomm _ _ hproper hproper' ▸ hnone, hiff.mpr hstored⟩

end BackendFuzz
