import BackendFuzz.Proofs.Rewriting.Replies
import BackendFuzz.Proofs.Session.TextFiles
import BackendFuzz.Rewriting.RuleFile

/-!
# Loading rules

A rule file is read and its text parsed by the engine, so what comes of it
depends on the path, on the bytes there and on the reply of the engine.
-/

namespace BackendFuzz

open Session

/-! ## Rule sets in replies -/

namespace Rules

/-- A name stands for a list; for the empty one if it is absent. -/
def Lists (fields : Fields) (name : String) (items : List Json) : Prop :=
  (Fields.get? fields name).getD (.array []) = .array items

/-- A reply by which a rule set is accepted: no error, exit code 0, and lists of both kinds. -/
structure Accepts (ended : Ended) (generators rewrites : List Json) : Prop where
  code : ended.code = 0
  lists : ∃ fields : Fields, Json.parse ended.output = .ok (.object fields) ∧ fields.get? "error" = none ∧
    Lists fields "generators" generators ∧ Lists fields "rewrites" rewrites

/-- A reply by which a rule text is rejected: an error object, or else an exit code other than 0. -/
inductive Rejects (ended : Ended) : RewriteFault → Prop
  | error {fields error : Fields} (hparse : Json.parse ended.output = .ok (.object fields))
    (herror : fields.get? "error" = some (.object error)) :
    Rejects ended (Engine.refusalOf .parse error)
  | exited {fields : Fields} (hparse : Json.parse ended.output = .ok (.object fields))
    (herror : fields.get? "error" = none) (hcode : ended.code ≠ 0) :
    Rejects ended (.exited ended.code ended.errors)

/-- The replies that an engine gives as agreed: none in time or none at all, a text that is not
read as JSON, an object with an error, or one with lists of generators and rewrites. -/
inductive Agreed : ProgramReply → Prop
  | timedOut : Agreed .timedOut
  | missing : Agreed .missing
  | unread {ended : Ended} {cause : Json.ParseFault} (hparse : Json.parse ended.output = .error cause) :
    Agreed (.ended ended)
  | error {ended : Ended} {fields : Fields} {error : Json}
    (hparse : Json.parse ended.output = .ok (.object fields))
    (herror : fields.get? "error" = some error) : Agreed (.ended ended)
  | lists {ended : Ended} {fields : Fields} {generators rewrites : List Json}
    (hparse : Json.parse ended.output = .ok (.object fields)) (herror : fields.get? "error" = none)
    (hgenerators : Lists fields "generators" generators)
    (hrewrites : Lists fields "rewrites" rewrites) : Agreed (.ended ended)

def input (text : String) : String := Engine.input .parse [("rules", .text text)]

def reply (o : Outside) (b : Bench) (text : String) : ProgramReply := o.engine b.asked (input text)

inductive Loads (settings : Settings) (o : Outside) (b : Bench) :
    Option Path → Except Fault RuleSet → Prop
  | noPath : Loads settings o b none (.error (.nothingToDo .noRules))
  | unreadable {path : Path} {fault : FileFault} (hread : b.files.Reads path (.error (.file fault))) :
    Loads settings o b (some path) (.error (.configuration (.rulesUnreadable path.text fault)))
  | engineMissing {path : Path} {text : String} (hread : b.files.Reads path (.ok text))
    (hreply : reply o b text = .missing) :
    Loads settings o b (some path)
      (.error (.configuration (.engineMissing settings.rewriterPath)))
  | timedOut {path : Path} {text : String} (hread : b.files.Reads path (.ok text))
    (hreply : reply o b text = .timedOut) :
    Loads settings o b (some path) (.error (.process (Engine.timeout settings)))
  | malformed {path : Path} {text : String} {ended : Ended} {fault : Json.SyntaxFault}
    (hread : b.files.Reads path (.ok text)) (hreply : reply o b text = .ended ended)
    (hparse : Json.parse ended.output = .error (.malformed fault)) :
    Loads settings o b (some path) (.error (.process (Engine.unparsable settings ended fault)))
  | rejected {path : Path} {text : String} {ended : Ended} {fault : RewriteFault}
    (hread : b.files.Reads path (.ok text)) (hreply : reply o b text = .ended ended)
    (hrejects : Rejects ended fault) :
    Loads settings o b (some path) (.error (.configuration (.rulesRejected fault)))
  | noRewrites {path : Path} {text : String} {ended : Ended} {generators : List Json}
    (hread : b.files.Reads path (.ok text)) (hreply : reply o b text = .ended ended)
    (haccepts : Accepts ended generators []) :
    Loads settings o b (some path) (.error (.nothingToDo .noRules))
  | loaded {path : Path} {text : String} {ended : Ended} {generators rewrites : List Json}
    (hread : b.files.Reads path (.ok text)) (hreply : reply o b text = .ended ended)
    (haccepts : Accepts ended generators rewrites) (hsome : rewrites ≠ []) :
    Loads settings o b (some path) (.ok { text, generators, rewrites, path := some path })

/-- The other faults that loading rules can end with: those of a path that has a flaw, of a file
that is not UTF-8, of JSON that is refused for its size, and of an error that is no object. -/
inductive Escapes (o : Outside) (b : Bench) (path : Path) : Fault → Prop
  | flawed {flaw : Path.Flaw} (hread : b.files.Reads path (.error (.path flaw))) :
    Escapes o b path (.path flaw)
  | undecodable {fault : Text.Utf8Fault} (hread : b.files.Reads path (.error (.encoding fault))) :
    Escapes o b path (.encoding fault)
  | tooLong {text : String} {ended : Ended} {digits : Nat} (hread : b.files.Reads path (.ok text))
    (hreply : reply o b text = .ended ended)
    (hparse : Json.parse ended.output = .error (.tooLong digits)) :
    Escapes o b path (.misuse (.digits digits))
  | tooDeep {text : String} {ended : Ended} {nest : Json.Nest}
    (hread : b.files.Reads path (.ok text)) (hreply : reply o b text = .ended ended)
    (hparse : Json.parse ended.output = .error (.tooDeep nest)) : Escapes o b path (.tooDeep nest)
  | shapeless {text : String} {ended : Ended} {fields : Fields} {error : Json} {cause : Misuse}
    (hread : b.files.Reads path (.ok text)) (hreply : reply o b text = .ended ended)
    (hparse : Json.parse ended.output = .ok (.object fields))
    (herror : fields.get? "error" = some error) (hcause : Engine.refusal .parse error = .error cause) :
    Escapes o b path (.misuse cause)

/-! ## The two steps -/

def ofReply (text : String) (reply : Json) : Except Fault RuleSet :=
  Except.mapError Fault.misuse do
    let generators ← (← reply.fieldOr "generators" (.array [])).items
    let rewrites ← (← reply.fieldOr "rewrites" (.array [])).items
    return { text, generators, rewrites }

theorem ofReply_lists {text : String} {fields : Fields} {generators rewrites : List Json}
    (hgenerators : Lists fields "generators" generators)
    (hrewrites : Lists fields "rewrites" rewrites) :
    ofReply text (.object fields) = .ok { text, generators, rewrites } := by
  have hfield : ∀ name items, Lists fields name items →
      (Json.object fields).fieldOr name (.array []) = .ok (.array items) := by
    intro name items h
    rw [Lists] at h
    simp only [Json.fieldOr, Json.field?, Json.fieldsFor, ok_bind, pure, Except.pure, h]
  simp only [ofReply, hfield _ _ hgenerators, hfield _ _ hrewrites, ok_bind]
  rfl

def settle (path : Path) : Except Fault RuleSet → Except Fault RuleSet
  | .error (.rewrite fault) => .error (.configuration (.rulesRejected fault))
  | .error fault => .error fault
  | .ok rules =>
    if rules.isEmpty then .error (.nothingToDo .noRules) else .ok { rules with path := some path }

section
variable {settings : Settings} {o : Outside} {b : Bench} {path : Path}

theorem run_parseRules (text : String) : (Engine.parseRules settings text).run o b =
    (Engine.verdict settings .parse (reply o b text) >>= ofReply text,
      { b with asked := b.asked ++ [Engine.request settings .parse [("rules", .text text)]] }) := by
  unfold Engine.parseRules
  rw [run_bind, Engine.run_call_verdict]
  unfold reply input
  cases Engine.verdict settings .parse
    (o.engine b.asked (Engine.input .parse [("rules", .text text)])) with
  | error fault => rfl
  | ok reply => exact run_looking o _ _

theorem run_load_unread {fault : Fault} (hread : b.files.Reads path (.error fault)) :
    ((loadRules settings (some path)).run o b).1 = .error (match fault with
      | .file fault => .configuration (.rulesUnreadable path.text fault)
      | fault => fault) := by
  have hrun := run_readTextFile_of_reads hread o rfl
  unfold loadRules
  rw [run_bind, run_tryCatch, hrun]
  cases hread <;> rfl

theorem run_load_read {text : String} (hread : b.files.Reads path (.ok text)) :
    ((loadRules settings (some path)).run o b).1 =
      settle path (Engine.verdict settings .parse (reply o b text) >>= ofReply text) := by
  have hrun := run_readTextFile_of_reads hread o rfl
  unfold loadRules
  rw [run_bind, run_tryCatch, hrun]
  dsimp only
  rw [run_bind, run_tryCatch, run_parseRules]
  cases Engine.verdict settings .parse (reply o b text) >>= ofReply text with
  | error fault => cases fault <;> rfl
  | ok rules =>
    by_cases hempty : rules.isEmpty
    · simp only [settle, hempty, if_true, run_bind, run_throw]
    · simp only [settle, hempty, if_false, Bool.false_eq_true, run_bind, run_info, run_pure]

theorem Loads.run {path : Option Path} {r : Except Fault RuleSet} (h : Loads settings o b path r) :
    ((loadRules settings path).run o b).1 = r := by
  cases h with
  | noPath => rfl
  | unreadable hread => rw [run_load_unread hread]
  | engineMissing hread hreply =>
    rw [run_load_read hread, hreply]
    rfl
  | timedOut hread hreply =>
    rw [run_load_read hread, hreply]
    rfl
  | malformed hread hreply hparse =>
    rw [run_load_read hread, hreply, Engine.verdict_unread hparse]
    rfl
  | rejected hread hreply hrejects =>
    rw [run_load_read hread, hreply]
    cases hrejects with
    | error hparse herror =>
      rw [Engine.verdict_error hparse herror, Engine.refusal_object]
      rfl
    | exited hparse herror hcode =>
      rw [Engine.verdict_accepted hparse herror, if_pos hcode]
      rfl
  | noRewrites hread hreply haccepts =>
    obtain ⟨hcode, fields, hparse, herror, hgenerators, hrewrites⟩ := haccepts
    rw [run_load_read hread, hreply, Engine.verdict_accepted hparse herror,
      if_neg (not_not.mpr hcode), ok_bind, ofReply_lists hgenerators hrewrites]
    rfl
  | loaded hread hreply haccepts hsome =>
    obtain ⟨hcode, fields, hparse, herror, hgenerators, hrewrites⟩ := haccepts
    rw [run_load_read hread, hreply, Engine.verdict_accepted hparse herror,
      if_neg (not_not.mpr hcode), ok_bind, ofReply_lists hgenerators hrewrites]
    simp [settle, RuleSet.isEmpty, hsome]

theorem Escapes.run {fault : Fault} (h : Escapes o b path fault) :
    ((loadRules settings (some path)).run o b).1 = .error fault := by
  cases h with
  | flawed hread => rw [run_load_unread hread]
  | undecodable hread => rw [run_load_unread hread]
  | tooLong hread hreply hparse =>
    rw [run_load_read hread, hreply, Engine.verdict_unread hparse]
    rfl
  | tooDeep hread hreply hparse =>
    rw [run_load_read hread, hreply, Engine.verdict_unread hparse]
    rfl
  | shapeless hread hreply hparse herror hcause =>
    rw [run_load_read hread, hreply, Engine.verdict_error hparse herror, hcause]
    rfl

theorem Escapes.not_loads {fault : Fault} (h : Escapes o b path fault) :
    ¬ Loads settings o b (some path) (.error fault) := by
  intro hloads
  cases h <;> cases hloads

theorem loads_or_escapes_of_agreed {text : String} (hread : b.files.Reads path (.ok text))
    (hagreed : Agreed (reply o b text)) :
    (∃ r, Loads settings o b (some path) r) ∨ ∃ fault, Escapes o b path fault := by
  cases hreply : reply o b text with
  | timedOut => exact Or.inl ⟨_, .timedOut hread hreply⟩
  | missing => exact Or.inl ⟨_, .engineMissing hread hreply⟩
  | denied => rw [hreply] at hagreed; cases hagreed
  | interrupted => rw [hreply] at hagreed; cases hagreed
  | ended ended =>
    rw [hreply] at hagreed
    cases hagreed with
    | @unread _ cause hparse =>
      cases cause with
      | malformed fault => exact Or.inl ⟨_, .malformed hread hreply hparse⟩
      | tooLong digits => exact Or.inr ⟨_, .tooLong hread hreply hparse⟩
      | tooDeep nest => exact Or.inr ⟨_, .tooDeep hread hreply hparse⟩
    | @error _ fields error hparse herror =>
      by_cases hobject : ∃ inner, error = .object inner
      · obtain ⟨inner, rfl⟩ := hobject
        exact Or.inl ⟨_, .rejected hread hreply (.error hparse herror)⟩
      · obtain ⟨cause, hcause⟩ :=
          Engine.refusal_of_not_object .parse fun inner h => hobject ⟨inner, h⟩
        exact Or.inr ⟨_, .shapeless hread hreply hparse herror hcause⟩
    | @lists _ fields generators rewrites hparse herror hgenerators hrewrites =>
      by_cases hcode : ended.code = 0
      · have haccepts : Accepts ended generators rewrites :=
          ⟨hcode, fields, hparse, herror, hgenerators, hrewrites⟩
        by_cases hsome : rewrites = []
        · subst hsome
          exact Or.inl ⟨_, .noRewrites hread hreply haccepts⟩
        · exact Or.inl ⟨_, .loaded hread hreply haccepts hsome⟩
      · exact Or.inl ⟨_, .rejected hread hreply (.exited hparse herror hcode)⟩

theorem loads_or_escapes
    (hagreed : ∀ text, b.files.Reads path (.ok text) → Agreed (reply o b text)) :
    (∃ r, Loads settings o b (some path) r) ∨ ∃ fault, Escapes o b path fault := by
  obtain ⟨r, hread, -⟩ := run_readTextFile path o b
  cases r with
  | ok text => exact loads_or_escapes_of_agreed hread (hagreed text hread)
  | error fault =>
    cases fault with
    | file fault => exact Or.inl ⟨_, .unreadable hread⟩
    | path flaw => exact Or.inr ⟨_, .flawed hread⟩
    | encoding fault => exact Or.inr ⟨_, .undecodable hread⟩
    | _ => cases hread

/-- Loading rules ends as documented exactly if no fault escapes, and whichever of the two it is
says with what. -/
theorem load_as_documented_unless_escaped (settings : Settings) (path : Option Path)
    (hagreed : ∀ p text, path = some p → b.files.Reads p (.ok text) → Agreed (reply o b text)) :
    (∀ r, Loads settings o b path r → ((loadRules settings path).run o b).1 = r) ∧
    (∀ p fault, path = some p → Escapes o b p fault →
      ((loadRules settings path).run o b).1 = .error fault) ∧
    (Loads settings o b path ((loadRules settings path).run o b).1 ↔
      ¬ ∃ p fault, path = some p ∧ Escapes o b p fault) := by
  refine ⟨fun r h => h.run, ?_, ?_, ?_⟩
  · rintro p fault rfl h
    exact h.run
  · rintro hloads ⟨p, fault, rfl, h⟩
    rw [h.run] at hloads
    exact h.not_loads hloads
  · intro hnone
    have hloads : ∃ r, Loads settings o b path r := by
      cases path with
      | none => exact ⟨_, .noPath⟩
      | some p =>
        rcases @loads_or_escapes settings o b p (hagreed p · rfl) with h | ⟨fault, h⟩
        · exact h
        · exact absurd ⟨p, fault, rfl, h⟩ hnone
    obtain ⟨r, hr⟩ := hloads
    rwa [hr.run]

end

end Rules

/-! ## A file of rules, and one that is no text -/

namespace Sample

def rulesPath : Path := ⟨"", ["c.rules"]⟩

def benchWithRuleFile (content : ByteArray) : Bench where
  files := ⟨[(⟨false, 0, ["c.rules"]⟩, .file content)]⟩

def oneRewrite : Ended where
  output := "\x7b\"rewrites\":[\"r\"]\x7d"

def parsing : Outside := { Outside.alone ⟨2024, 1, 1, 0, 0, 0, 0⟩ with
  engine := fun _ _ => .ended oneRewrite }

theorem reads_empty_rules :
    (benchWithRuleFile .empty).files.Reads rulesPath (.ok (String.ofList (Text.unifyLines []))) :=
  .text (s := "") rfl rfl (by decide +kernel)

theorem reads_broken_rules : (benchWithRuleFile ⟨#[0xff]⟩).files.Reads rulesPath
    (.error (.encoding ⟨.startByte, 0xff, 0, 0⟩)) :=
  .undecodable rfl rfl (by decide +kernel)

theorem accepts_oneRewrite : Rules.Accepts oneRewrite [] [.text "r"] := by
  have hparse : Json.parse oneRewrite.output = .ok (.object [("rewrites", .array [.text "r"])]) := by
    unfold Json.parse Json.parseWithin
    simp only [oneRewrite, String.reduceToList]
    rfl
  exact ⟨rfl, _, hparse, rfl, rfl, rfl⟩

theorem agreed_parsing (b : Bench) (text : String) : Rules.Agreed (Rules.reply parsing b text) := by
  obtain ⟨-, fields, hparse, herror, hgenerators, hrewrites⟩ := accepts_oneRewrite
  exact .lists hparse herror hgenerators hrewrites

end Sample

theorem rules_loaded_unless_file_broken :
    ((loadRules {} (some Sample.rulesPath)).run Sample.parsing
      (Sample.benchWithRuleFile .empty)).1 =
        .ok { text := "", rewrites := [.text "r"], path := some Sample.rulesPath } ∧
    ((loadRules {} (some Sample.rulesPath)).run Sample.parsing
      (Sample.benchWithRuleFile ⟨#[0xff]⟩)).1 = .error (.encoding ⟨.startByte, 0xff, 0, 0⟩) := by
  obtain ⟨hloads, -, -⟩ := Rules.load_as_documented_unless_escaped {} (some Sample.rulesPath)
    (o := Sample.parsing) (b := Sample.benchWithRuleFile .empty)
    fun _ text _ _ => Sample.agreed_parsing _ text
  obtain ⟨-, hescapes, -⟩ := Rules.load_as_documented_unless_escaped {} (some Sample.rulesPath)
    (o := Sample.parsing) (b := Sample.benchWithRuleFile ⟨#[0xff]⟩)
    fun _ text _ _ => Sample.agreed_parsing _ text
  constructor
  · exact hloads _ (.loaded Sample.reads_empty_rules rfl Sample.accepts_oneRewrite (by simp))
  · exact hescapes _ _ rfl (.undecodable Sample.reads_broken_rules)

end BackendFuzz
