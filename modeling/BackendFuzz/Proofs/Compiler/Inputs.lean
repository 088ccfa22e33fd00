import BackendFuzz.Proofs.Compiler.Turns
import BackendFuzz.Proofs.Json.Roundtrip

/-!
# What tools are given to read

A compiler is given one source and the user's settings, of which only the
selection of outputs is replaced; the rewrite engine is given the tree of a seed.
Whoever reads the text as JSON gets them back as they were, and for a seed the
text of its file with its line ends unified.
-/

namespace BackendFuzz

open Session

/-! ## Texts of files -/

namespace Json

open Text

theorem unpaired_cons {c : Char} {cs : List Char} (hc : isHighSurrogate (point c) = false)
    (h : Unpaired cs) : Unpaired (c :: cs) := by
  cases cs with
  | nil => exact .singleton c
  | cons d cs => exact List.isChain_cons_cons.mpr ⟨arePair_of_not_high hc _, h⟩

theorem not_high_of_low {n : Nat} (h : isLowSurrogate n = true) : isHighSurrogate n = false := by
  simp only [isLowSurrogate, isHighSurrogate, Bool.and_eq_true, decide_eq_true_eq,
    Bool.and_eq_false_iff, decide_eq_false_iff_not] at *
  omega

theorem point_standIn {n : Nat} (h : isSurrogate n = true) : point (standIn n) = n := by
  have hrange : 0xD800 ≤ n ∧ n ≤ 0xDFFF := by
    simpa [isSurrogate] using h
  have hvalid : Nat.isValidChar (0x100000 + n) := Or.inr ⟨by omega, by omega⟩
  have hself : (standIn n).toNat = 0x100000 + n := by
    rw [standIn, Char.ofNat, dif_pos hvalid]
    rfl
  have hstandIn : isStandIn (0x100000 + n) = true := by
    simp only [isStandIn, Bool.and_eq_true, decide_eq_true_eq]
    omega
  rw [point, hself, if_pos hstandIn]
  omega

/-- Characters as they are held are no halves of each other. -/
theorem unpaired_hold (cs : List Char) : Unpaired (hold cs) := by
  induction cs with
  | nil => exact .nil
  | cons c cs ih =>
    rw [hold, List.flatMap_cons, held, not_surrogate c, if_neg Bool.false_ne_true]
    cases hs : isStandIn c.toNat with
    | false =>
      have hpoint : point c = c.toNat := by rw [point, hs, if_neg Bool.false_ne_true]
      have hhigh : isHighSurrogate (point c) = false := by
        rw [hpoint, Bool.eq_false_iff]
        intro hhigh
        cases (isSurrogate_of_high hhigh).symm.trans (not_surrogate c)
      rw [if_neg Bool.false_ne_true, Char.ofNat_toNat]
      exact unpaired_cons hhigh ih
    | true =>
      have hrange : 0x10D800 ≤ c.toNat ∧ c.toNat ≤ 0x10DFFF := by
        simpa [isStandIn] using hs
      have hhigh : isSurrogate (0xD800 + (c.toNat - 0x10000) / 0x400) = true := by
        simp only [isSurrogate, Bool.and_eq_true, decide_eq_true_eq]
        omega
      have hlow : isLowSurrogate (0xDC00 + (c.toNat - 0x10000) % 0x400) = true := by
        simp only [isLowSurrogate, Bool.and_eq_true, decide_eq_true_eq]
        omega
      have hlow' : isSurrogate (0xDC00 + (c.toNat - 0x10000) % 0x400) = true := by
        simp only [isSurrogate, Bool.and_eq_true, decide_eq_true_eq]
        omega
      have hpair : pairPoint (0xD800 + (c.toNat - 0x10000) / 0x400)
          (0xDC00 + (c.toNat - 0x10000) % 0x400) = c.toNat := by
        rw [pairPoint_add]
        omega
      refine List.isChain_cons_cons.mpr ⟨?_, unpaired_cons ?_ ih⟩
      · simp [arePair, point_standIn hhigh, point_standIn hlow', hpair, hs]
      · rw [point_standIn hlow']
        exact not_high_of_low hlow

theorem unifyLines_head (c : Char) (cs : List Char) :
    ∃ more, unifyLines (c :: cs) = (if c = '\r' then '\n' else c) :: more := by
  by_cases hc : c = '\r'
  · subst hc
    rw [if_pos rfl]
    by_cases hnext : ∃ rest, cs = '\n' :: rest
    · obtain ⟨rest, rfl⟩ := hnext
      exact ⟨_, unifyLines.eq_2 rest⟩
    · exact ⟨_, unifyLines.eq_3 cs fun rest h => hnext ⟨rest, h⟩⟩
  · rw [if_neg hc]
    exact ⟨_, unifyLines.eq_4 c cs (fun _ h _ => hc h) hc⟩

theorem unpaired_unifyLines {cs : List Char} (h : Unpaired cs) : Unpaired (unifyLines cs) := by
  have hfeed : isHighSurrogate (point '\n') = false := by decide
  have htail : ∀ {c : Char} {cs : List Char}, Unpaired (c :: cs) → Unpaired cs := by
    intro c cs h
    cases cs with
    | nil => exact .nil
    | cons d cs => exact (List.isChain_cons_cons.mp h).2
  induction cs using unifyLines.induct with
  | case1 => exact .nil
  | case2 rest ih =>
    rw [unifyLines]
    exact unpaired_cons hfeed (ih (htail (htail h)))
  | case3 rest hrest ih =>
    rw [unifyLines.eq_3 rest hrest]
    exact unpaired_cons hfeed (ih (htail h))
  | case4 c rest hc hc' ih =>
    rw [unifyLines.eq_4 c rest hc hc']
    have hrest := ih (htail h)
    cases rest with
    | nil => exact .singleton c
    | cons d rest =>
      have hpair := (List.isChain_cons_cons.mp h).1
      obtain ⟨more, hmore⟩ := unifyLines_head d rest
      rw [hmore] at hrest ⊢
      -- What follows is as it was, or a line feed, and neither makes a pair with what stood before.
      refine List.isChain_cons_cons.mpr ⟨?_, hrest⟩
      split
      · exact arePair_of_not_low (by decide) _
      · exact hpair

end Json

theorem FileStore.Reads.unpaired {files : FileStore} {path : Path} {text : String}
    (h : files.Reads path (.ok text)) : Json.Unpaired text.toList := by
  generalize hr : (Except.ok text : Except Fault String) = r at h
  cases h with
  | @text content s hflaw hread hdecode =>
    cases hr
    rw [String.toList_ofList]
    apply Json.unpaired_unifyLines
    unfold Text.decode at hdecode
    split at hdecode
    · cases hdecode
      rw [String.toList_ofList]
      exact Json.unpaired_hold _
    · cases hdecode
  | _ => cases hr

/-! ## Inputs of compilers -/

namespace StandardCompiler

/-- A text that is read, with some room, as an input with one source and with the user's settings,
but for the selection of outputs. -/
def Conveys (room : Nat) (input content : String) (user : Option Fields) (selection : Json) : Prop :=
  ∃ fields fileName given, Json.parseWithin room input = .ok (.object fields) ∧
    Fields.get? fields "sources" = some (.object [(fileName, .object [("content", .text content)])]) ∧
    Fields.get? fields "settings" = some (.object given) ∧
    Fields.get? given "outputSelection" = some selection ∧
    ∀ name, name ≠ "outputSelection" → Fields.get? given name = Fields.get? (user.getD []) name

section
variable {room : Nat} {user : Option Fields} {selection : Json}

theorem legible_withSelection (huser : (Json.object (user.getD [])).Legible)
    (hselection : selection.Legible) : (withSelection user selection).Legible := by
  cases huser with
  | object hnames hvalues =>
    refine .object (fun f hf => ?_) fun f hf => ?_
    · have hname := (Fields.mem_names_put _ _ _).mp (List.mem_map_of_mem hf)
      rcases hname with hname | hname
      · obtain ⟨g, hg, hname⟩ := List.mem_map.mp hname
        rw [← hname]
        exact hnames g hg
      · rw [hname]
        decide
    · rcases Fields.of_mem_put hf with hf | hf
      · exact hvalues f hf
      · rw [hf]
        exact hselection

theorem fits_withSelection (huser : (Json.object (user.getD [])).Fits (room + 1))
    (hselection : selection.Fits room) : (withSelection user selection).Fits (room + 1) := by
  cases huser with
  | object hnames hvalues =>
    refine .object (Fields.nodup_put hnames _ _) fun f hf => ?_
    rcases Fields.of_mem_put hf with hf | hf
    · exact hvalues f hf
    · rw [hf]
      exact hselection

theorem readsAs_source {content : String} (hcontent : Json.Unpaired content.toList)
    (fileName : String) : Json.ReadsAs (room + 2)
      (.object [(fileName, .object [("content", .text content)])])
      (.object [(String.ofList (Json.paired fileName.toList),
        .object [("content", .text content)])]) := by
  have hvalue : Json.ReadsAs room (.text content) (.text content) :=
    Json.readsAs_text (Json.textReadsAs_self hcontent)
  have hfield : Json.FieldReadsAs room ("content", .text content) ("content", .text content) :=
    Json.readsAs_field (by decide) hvalue
  have hsource := Json.readsAs_object (.cons hfield .nil) (by simp)
  exact Json.readsAs_object (.cons ⟨Json.textReadsAs_paired fileName, hsource⟩ .nil) (by simp)

/-- An input is read wherever its settings are, inside one object more. -/
theorem conveys_of_readsAs {given : Option Fields}
    (hsettings : Json.ReadsAs (room + 2) (withSelection given selection)
      (withSelection user selection))
    {content : String} (hcontent : Json.Unpaired content.toList) (fileName : String) :
    Conveys (room + 3) (input fileName (.text content) given selection).print content user
      selection := by
  have hlanguage : Json.ReadsAs (room + 2) (.text "Solidity") (.text "Solidity") :=
    Json.readsAs_text (Json.textReadsAs_self (by decide))
  have hsources := @readsAs_source room content hcontent fileName
  have hinput : Json.ReadsAs (room + 3) (input fileName (.text content) given selection) _ :=
    Json.readsAs_object (.cons (Json.readsAs_field (by decide) hlanguage)
      (.cons (Json.readsAs_field (by decide) hsources)
        (.cons (Json.readsAs_field (by decide) hsettings) .nil))) (by simp)
  have hparse := hinput.parseWithin (Or.inl rfl)
  rw [String.append_empty] at hparse
  refine ⟨_, _, _, hparse, rfl, rfl, Fields.get?_put_self _ _ _, fun name hname => ?_⟩
  exact Fields.get?_put_of_ne _ hname _

theorem conveys_input (hroom : 4 ≤ room) (huser : (Json.object (user.getD [])).Legible)
    (hfits : (Json.object (user.getD [])).Fits room) (hselection : selection.Legible)
    (hselectionFits : selection.Fits 3) {content : String}
    (hcontent : Json.Unpaired content.toList) (fileName : String) :
    Conveys (room + 1) (input fileName (.text content) user selection).print content user
      selection := by
  obtain ⟨room, rfl⟩ := Nat.exists_eq_add_of_le' hroom
  have hsettings : Json.ReadsAs (room + 4) (withSelection user selection)
      (withSelection user selection) :=
    Json.readsAs_self (legible_withSelection huser hselection)
      (fits_withSelection hfits (hselectionFits.mono (by omega)))
  exact conveys_of_readsAs hsettings hcontent fileName

/-- A text conveys one source and one value of every setting that is the user's. -/
theorem Conveys.unique {text content content' : String} {user' : Option Fields} {selection' : Json}
    (h : Conveys room text content user selection)
    (h' : Conveys room text content' user' selection') : content = content' ∧
      ∀ name, name ≠ "outputSelection" →
        Fields.get? (user.getD []) name = Fields.get? (user'.getD []) name := by
  obtain ⟨fields, fileName, given, hparse, hsources, hsettings, -, hgiven⟩ := h
  obtain ⟨fields', fileName', given', hparse', hsources', hsettings', -, hgiven'⟩ := h'
  obtain rfl : fields = fields' := Json.object.inj (Except.ok.inj (hparse.symm.trans hparse'))
  obtain rfl : given = given' :=
    Json.object.inj (Option.some.inj (hsettings.symm.trans hsettings'))
  have hsource := Option.some.inj (hsources.symm.trans hsources')
  simp only [Json.object.injEq, List.cons.injEq, Prod.mk.injEq, Json.text.injEq, true_and,
    and_true] at hsource
  exact ⟨hsource.2, fun name hname => (hgiven name hname).symm.trans (hgiven' name hname)⟩

theorem legible_selection {name : String} (hname : Json.Unpaired name.toList) {outputs : List String}
    (houtputs : ∀ s ∈ outputs, Json.Unpaired s.toList) :
    (Json.object [("*", .object [(name, Json.texts outputs)])]).Legible := by
  have hstar : Json.Unpaired "*".toList := by decide
  refine .object (List.forall_mem_singleton.mpr hstar) (List.forall_mem_singleton.mpr ?_)
  refine .object (List.forall_mem_singleton.mpr hname) (List.forall_mem_singleton.mpr ?_)
  refine .array fun x hx => ?_
  obtain ⟨s, hs, rfl⟩ := List.mem_map.mp hx
  exact .text (houtputs s hs)

theorem fits_selection (name : String) (outputs : List String) :
    (Json.object [("*", .object [(name, Json.texts outputs)])]).Fits 3 :=
  .object (by simp) (List.forall_mem_singleton.mpr
    (.object (by simp) (List.forall_mem_singleton.mpr (Json.fits_texts 0 outputs))))

theorem legible_variantSelection : variantSelection.Legible :=
  legible_selection (by decide) (by decide)

theorem legible_seedSelection : seedSelection.Legible := legible_selection (by decide) (by decide)

end

def ConveysVariant (room : Nat) (settings : Settings) (version source : String)
    (user : Option Fields) (r : Request) : Prop :=
  ∃ input, r = .compiler [executable version, "--standard-json"] settings.compileTimeout input ∧
    Conveys room input source user variantSelection

/-- A seed's request whose input conveys the text of its file with its line ends unified, and so
the text as it is if there is no carriage return in it. -/
def ConveysSeed (room : Nat) (files : FileStore) (version : String) (user : Option Fields)
    (path : Path) (r : Request) : Prop :=
  ∃ input content text, r = .parseSeed input version "." ∧ files.read path = .ok content ∧
    Text.decode content = .ok text ∧
    Conveys room input (String.ofList (Text.unifyLines text.toList)) user seedSelection ∧
    ('\r' ∉ text.toList → Conveys room input text user seedSelection)

end StandardCompiler

/-! ## Requests for trees -/

namespace Session

theorem run_isFile (path : Path) (o : Outside) (b : Bench) :
    ∃ r, (isFile path).run o b = (r, b) := by
  unfold isFile
  split
  · exact ⟨_, run_pure o b _⟩
  · rw [run_bind_ok (run_get o b)]
    cases b.files.isFile path with
    | ok there => exact ⟨_, run_pure o b _⟩
    | error fault => exact ⟨_, run_throw o b _⟩

end Session

theorem FileStore.isFile_of_read {files : FileStore} {path : Path} {content : ByteArray}
    (h : files.read path = .ok content) : files.isFile path = .ok true := by
  unfold FileStore.read at h
  unfold FileStore.isFile FileStore.node?
  cases hlocate : files.locate path with
  | error fault =>
    rw [hlocate] at h
    cases h
  | ok place =>
    rw [hlocate, ok_bind] at h
    cases hnode : files.at? place with
    | none =>
      rw [hnode] at h
      cases h
    | some node =>
      cases node with
      | directory =>
        rw [hnode] at h
        cases h
      | file bytes =>
        dsimp only
        rw [hnode]
        rfl

theorem FileStore.Reads.run_isFile {path : Path} {text : String} {o : Outside} {b : Bench}
    (h : b.files.Reads path (.ok text)) : (Session.isFile path).run o b = (.ok true, b) := by
  generalize hr : (Except.ok text : Except Fault String) = r at h
  cases h with
  | text hflaw hread hdecode =>
    unfold Session.isFile
    rw [hflaw, Option.isSome_none, if_neg Bool.false_ne_true, run_bind_ok (run_get o b),
      FileStore.isFile_of_read hread]
    rfl
  | _ => cases hr

section
variable {version : String} {user : Option Fields} {o : Outside} {b b' : Bench}

def IsSeedRequest (files : FileStore) (version : String) (user : Option Fields) (path : Path)
    (r : Request) : Prop :=
  ∃ text, files.Reads path (.ok text) ∧
    r = .parseSeed (StandardCompiler.input path.name (.text text) user
      StandardCompiler.seedSelection).print version "."

theorem asked_loadSeed {path : Path} {text : String} {r : Except Fault SyntaxTree}
    (hreads : b.files.Reads path (.ok text))
    (h : (loadSeed path version user).run o b = (r, b')) :
    ∃ request, IsSeedRequest b.files version user path request ∧
      b'.asked = b.asked ++ [request] ∧ b'.files = b.files := by
  unfold loadSeed at h
  rw [run_bind_ok hreads.run_isFile] at h
  simp only [Bool.not_true, Bool.false_eq_true, if_false] at h
  rw [run_bind_ok (run_readTextFile_of_reads hreads o rfl), run_bind_ok (run_note o b _),
    run_bind_ok (run_read o _)] at h
  have hleft := Leaves.of_run (R := Bench.Left (fun _ => False) Eq) ?_ h
  · exact ⟨_, ⟨text, hreads, rfl⟩, hleft.asked_eq, hleft.files.symm⟩
  · split
    · exact leaves_throw _
    · exact leaves_bind (leaves_ofExcept _) fun _ => leaves_bind (leaves_debug _ _) fun _ =>
        leaves_pure _

theorem run_loadSeed_unread {path : Path} (hunread : ∀ text, ¬ b.files.Reads path (.ok text)) :
    ∃ fault, (loadSeed path version user).run o b = (.error fault, b) := by
  unfold loadSeed
  obtain ⟨there, hthere⟩ := run_isFile path o b
  cases there with
  | error fault => exact ⟨fault, run_bind_error hthere _⟩
  | ok there =>
    rw [run_bind_ok hthere]
    cases there with
    | false => exact ⟨_, rfl⟩
    | true =>
      obtain ⟨content, hreads, hcontent⟩ := run_readTextFile path o b
      cases content with
      | ok text => exact absurd hreads (hunread text)
      | error fault => exact ⟨fault, run_bind_error hcontent _⟩

/-- Seeds are asked for in order, each once its file is read, up to one that cannot be loaded. -/
theorem asked_loadEach {paths : List Path} {r : Except Fault (List SyntaxTree)}
    (h : (paths.mapM fun path => loadSeed path version user).run o b = (r, b')) :
    ∃ read sent, read <+: paths ∧ b'.asked = b.asked ++ sent ∧
      List.Forall₂ (IsSeedRequest b.files version user) read sent ∧
      (∀ path text, paths.head? = some path → b.files.Reads path (.ok text) →
        read.head? = some path) ∧
      ∀ trees, r = .ok trees → read = paths := by
  induction paths generalizing b r with
  | nil =>
    cases h
    exact ⟨[], [], List.prefix_refl [], (List.append_nil _).symm, .nil, nofun, fun _ _ => rfl⟩
  | cons path paths ih =>
    rw [List.mapM_cons] at h
    by_cases hunread : ∀ text, ¬ b.files.Reads path (.ok text)
    · obtain ⟨fault, hload⟩ := @run_loadSeed_unread version user o b path hunread
      rw [run_bind_error hload] at h
      cases h
      refine ⟨[], [], List.nil_prefix, (List.append_nil _).symm, .nil, ?_, nofun⟩
      rintro path text ⟨⟩ hreads
      exact absurd hreads (hunread text)
    · obtain ⟨text, hreads⟩ := not_forall_not.mp hunread
      rcases run_bind_cases h with ⟨fault, rfl, hload⟩ | ⟨tree, b₁, hload, h⟩
      · obtain ⟨request, hrequest, hasked, -⟩ := asked_loadSeed hreads hload
        exact ⟨[path], [request], List.cons_prefix_cons.mpr ⟨rfl, List.nil_prefix⟩, hasked,
          .cons hrequest .nil, fun _ _ hpath _ => hpath, nofun⟩
      · obtain ⟨request, hrequest, hasked, hfiles⟩ := asked_loadSeed hreads hload
        have hrest : ∃ r', (paths.mapM fun path => loadSeed path version user).run o b₁ = (r', b') ∧
            ∀ trees, r = .ok trees → ∃ trees', r' = .ok trees' := by
          rcases run_bind_cases h with ⟨fault, rfl, hmap⟩ | ⟨trees, b₂, hmap, hpure⟩
          · exact ⟨_, hmap, nofun⟩
          · cases hpure
            exact ⟨_, hmap, fun _ _ => ⟨trees, rfl⟩⟩
        obtain ⟨r', hrun, hok⟩ := hrest
        obtain ⟨read, sent, hprefix, hasked', hsent, -, hall⟩ := ih hrun
        -- Loading a seed changes no file, so the next ones are still read from the first bench.
        rw [hfiles] at hsent
        refine ⟨path :: read, request :: sent, List.cons_prefix_cons.mpr ⟨rfl, hprefix⟩, ?_,
          .cons hrequest hsent, fun _ _ hpath _ => hpath, fun trees h => ?_⟩
        · rw [hasked', hasked, List.append_assoc]
          rfl
        · obtain ⟨trees', htrees⟩ := hok trees h
          rw [hall trees' htrees]

theorem asked_loadSeeds {settings : Settings} {paths : List Path} {b₁ : Bench}
    {searched : Except Fault Unit} {r : Except Fault (List SyntaxTree)}
    (hsearch : (StandardCompiler.ensureInstalled settings version).run o b = (searched, b₁))
    (h : (loadSeeds settings paths version user).run o b = (r, b')) :
    ∃ read sent, read <+: paths ∧ b'.asked = b₁.asked ++ sent ∧
      List.Forall₂ (IsSeedRequest b.files version user) read sent ∧
      (searched = .ok () → ∀ path text, paths.head? = some path → b.files.Reads path (.ok text) →
        read.head? = some path) ∧
      ∀ trees, r = .ok trees → read = paths := by
  have hfiles : b₁.files = b.files := by
    cases StandardCompiler.ensured hsearch <;> rfl
  unfold loadSeeds at h
  cases searched with
  | error fault =>
    rw [run_bind_error hsearch] at h
    cases h
    exact ⟨[], [], List.nil_prefix, (List.append_nil _).symm, .nil, nofun, nofun⟩
  | ok _ =>
    rw [run_bind_ok hsearch] at h
    obtain ⟨read, sent, hprefix, hasked, hsent, hhead, hall⟩ := asked_loadEach h
    rw [hfiles] at hsent hhead
    exact ⟨read, sent, hprefix, hasked, hsent, fun _ => hhead, hall⟩

theorem StandardCompiler.asked_compile {settings : Settings} {source : Json} {b₁ : Bench}
    {searched : Except Fault Unit}
    (hsearch : (ensureInstalled settings version).run o b = (searched, b₁)) :
    ((compile settings source version user).run o b).2.asked =
      b₁.asked ++ match searched with
        | .ok () => [request settings source version user]
        | .error _ => [] := by
  cases searched with
  | error fault =>
    rw [compile_eq, run_bind_error hsearch]
    exact (List.append_nil _).symm
  | ok _ =>
    obtain ⟨events, hrun⟩ := run_compile hsearch source user
    rw [hrun]

end

/-! ## Requests of the rewrite engine -/

namespace Engine

def ConveysTree (room : Nat) (input : String) (unit : Json) : Prop :=
  ∃ fields, Json.parseWithin room input = .ok (.object fields) ∧
    Fields.get? fields "action" = some (.text "rewrite") ∧ Fields.get? fields "ast" = some unit

theorem conveys_rewrite {room : Nat} {unit : Json} (hunit : unit.Legible) (hfits : unit.Fits room)
    (rules : String) {depth seed : Int} (hdepth : Json.digitCount depth ≤ maxDigits)
    (hseed : Json.digitCount seed ≤ maxDigits) :
    ConveysTree (room + 1) (input .rewrite [("ast", unit), ("rules", .text rules),
      ("depth", .int depth), ("seed", .int seed)]) unit := by
  have haction : Json.FieldReadsAs room ("action", .text "rewrite") ("action", .text "rewrite") :=
    Json.readsAs_field (by decide) (Json.readsAs_text (Json.textReadsAs_self (by decide)))
  have hast : Json.FieldReadsAs room ("ast", unit) ("ast", unit) :=
    Json.readsAs_field (by decide) (Json.readsAs_self hunit hfits)
  have hrules : Json.FieldReadsAs room ("rules", .text rules)
      ("rules", .text (String.ofList (Json.paired rules.toList))) :=
    Json.readsAs_field (by decide) (Json.readsAs_text (Json.textReadsAs_paired rules))
  have hdepth : Json.FieldReadsAs room ("depth", .int depth) ("depth", .int depth) :=
    Json.readsAs_field (by decide) (Json.readsAs_int hdepth)
  have hseed : Json.FieldReadsAs room ("seed", .int seed) ("seed", .int seed) :=
    Json.readsAs_field (by decide) (Json.readsAs_int hseed)
  have hinput := Json.readsAs_object
    (.cons haction (.cons hast (.cons hrules (.cons hdepth (.cons hseed .nil))))) (by simp)
  have hparse := hinput.parseWithin (Or.inl rfl)
  rw [String.append_empty] at hparse
  exact ⟨_, hparse, rfl, rfl⟩

end Engine

/-! ## What is conveyed -/

section
variable {room : Nat} {user : Option Fields}

theorem conveysSeed_of_request (hroom : 4 ≤ room) (huser : (Json.object (user.getD [])).Legible)
    (hfits : (Json.object (user.getD [])).Fits room) {files : FileStore} {version : String}
    {path : Path} {r : Request} (h : IsSeedRequest files version user path r) :
    StandardCompiler.ConveysSeed (room + 1) files version user path r := by
  obtain ⟨s, hreads, rfl⟩ := h
  have hconveys := StandardCompiler.conveys_input hroom huser hfits
    StandardCompiler.legible_seedSelection (StandardCompiler.fits_selection "" ["ast"])
    hreads.unpaired path.name
  -- The text occurs in its own input, which must stay as it is when the text is rewritten below.
  generalize (StandardCompiler.input path.name (.text s) user
    StandardCompiler.seedSelection).print = input at hconveys ⊢
  generalize hr : (Except.ok s : Except Fault String) = r at hreads
  cases hreads with
  | @text content text hflaw hread hdecode =>
    cases hr
    refine ⟨input, content, text, rfl, hread, hdecode, hconveys, fun hreturn => ?_⟩
    rwa [Text.unifyLines_of_no_return hreturn, String.ofList_toList] at hconveys
  | _ => cases hr

/-- What tools are sent is read, wherever there is room for it, as what users and seeds supply. A
compiler that is there is sent a source as it is, or the text of a seed's file with its line ends
unified, for each seed up to one that cannot be loaded, beside the user's settings with an own
selection of outputs; the engine is sent the tree that it is to rewrite. No text in settings and
trees may hold halves of one character next to each other. -/
theorem supplied_values_conveyed (hroom : 4 ≤ room) (huser : (Json.object (user.getD [])).Legible)
    (hfits : (Json.object (user.getD [])).Fits room) (settings : Settings) (o : Outside) (b : Bench) :
    (∀ version searched b₁,
      (StandardCompiler.ensureInstalled settings version).run o b = (searched, b₁) →
      (∀ source : String, Json.Unpaired source.toList → ∃ sent,
        ((StandardCompiler.compile settings (.text source) version user).run o b).2.asked =
          b₁.asked ++ sent ∧
        (∀ r ∈ sent,
          StandardCompiler.ConveysVariant (room + 1) settings version source user r) ∧
        (searched = .ok () → sent.length = 1)) ∧
      ∀ paths r b', (loadSeeds settings paths version user).run o b = (r, b') →
        ∃ read sent, read <+: paths ∧ b'.asked = b₁.asked ++ sent ∧
          List.Forall₂ (StandardCompiler.ConveysSeed (room + 1) b.files version user) read sent ∧
          (searched = .ok () → ∀ path text, paths.head? = some path →
            b.files.Reads path (.ok text) → read.head? = some path) ∧
          ∀ trees, r = .ok trees → read = paths) ∧
    ∀ tree rules depth seed r b', tree.unit.Legible → tree.unit.Fits room →
      Json.digitCount depth ≤ maxDigits → Json.digitCount seed ≤ maxDigits →
      (Engine.rewrite settings tree rules depth seed).run o b = (r, b') →
      ∃ input, b'.asked =
          b.asked ++ [.engine [settings.rewriterPath] settings.rewriteTimeout input] ∧
        Engine.ConveysTree (room + 1) input tree.unit := by
  refine ⟨fun version searched b₁ hsearch => ⟨fun source hsource => ?_, fun paths r b' h => ?_⟩, ?_⟩
  · refine ⟨_, StandardCompiler.asked_compile hsearch, fun r hr => ?_, ?_⟩
    · cases searched with
      | error fault => cases hr
      | ok _ =>
        obtain rfl := List.mem_singleton.mp hr
        exact ⟨_, rfl, StandardCompiler.conveys_input hroom huser hfits
          StandardCompiler.legible_variantSelection (StandardCompiler.fits_selection _ _) hsource _⟩
    · rintro rfl
      rfl
  · obtain ⟨read, sent, hprefix, hasked, hsent, hrest⟩ := asked_loadSeeds hsearch h
    exact ⟨read, sent, hprefix, hasked,
      hsent.imp fun _ _ h => conveysSeed_of_request hroom huser hfits h, hrest⟩
  · intro tree rules depth seed r b' hunit hunitFits hdepth hseed h
    exact ⟨_, Engine.asked_rewrite h,
      Engine.conveys_rewrite hunit hunitFits rules.text hdepth hseed⟩

end

namespace Sample

def seedPath : Path := ⟨"", ["Seed.sol"]⟩

def benchWithSeed (content : String) : Bench where
  files := ⟨[(⟨false, 0, ["Seed.sol"]⟩, .file content.toUTF8)]⟩
  memory := { installed := ["0.8.27"] }

def silent : Outside := Outside.alone ⟨2024, 1, 1, 0, 0, 0, 0⟩

def viaIR : Fields := [("outputSelection", .null), ("viaIR", .bool true)]

/-- The user's settings are a text of two halves of one character. -/
def halves : Fields :=
  [("label", .text (String.ofList [Text.standIn 0xD83D, Text.standIn 0xDC80]))]

end Sample

theorem settings_conveyed_at_maxDepth :
    4 ≤ 984 ∧ (Json.object ((some Sample.viaIR).getD [])).Legible ∧
    (Json.object ((some Sample.viaIR).getD [])).Fits 984 ∧
    (∃ r, ((StandardCompiler.compile {} (.text "x") "0.8.27" (some Sample.viaIR)).run Sample.silent
        (Sample.benchWithSeed "a")).2.asked = [r] ∧
      StandardCompiler.ConveysVariant Json.maxDepth {} "0.8.27" "x" (some Sample.viaIR) r) ∧
    ∃ r, ((loadSeeds {} [Sample.seedPath] "0.8.27" (some Sample.viaIR)).run Sample.silent
        (Sample.benchWithSeed "a")).2.asked = [r] ∧
      StandardCompiler.ConveysSeed Json.maxDepth (Sample.benchWithSeed "a").files "0.8.27"
        (some Sample.viaIR) Sample.seedPath r := by
  have hlegible : (Json.object ((some Sample.viaIR).getD [])).Legible := by
    refine .object (by decide) fun f hf => ?_
    rcases List.mem_pair.mp hf with rfl | rfl
    · exact .null
    · exact .bool
  have hfits : (Json.object ((some Sample.viaIR).getD [])).Fits 984 := by
    refine .object (by decide) fun f hf => ?_
    rcases List.mem_pair.mp hf with rfl | rfl
    · exact .null
    · exact .bool
  obtain ⟨hversions, -⟩ := supplied_values_conveyed (by decide) hlegible hfits {} Sample.silent
    (Sample.benchWithSeed "a")
  obtain ⟨hcompile, hload⟩ := hversions "0.8.27" _ _ (StandardCompiler.run_ensureInstalled rfl)
  refine ⟨by decide, hlegible, hfits, ?_, ?_⟩
  · obtain ⟨sent, hasked, hsent, hone⟩ := hcompile "x" (by decide)
    obtain ⟨r, rfl⟩ := List.length_eq_one_iff.mp (hone rfl)
    exact ⟨r, hasked, hsent r (List.mem_singleton_self r)⟩
  · obtain ⟨read, sent, hprefix, hasked, hsent, hhead, -⟩ := hload [Sample.seedPath] _ _ rfl
    have hreads : (Sample.benchWithSeed "a").files.Reads Sample.seedPath
        (.ok (String.ofList (Text.unifyLines "a".toList))) := .text rfl rfl (by decide +kernel)
    obtain ⟨rest, rfl⟩ := List.head?_eq_some_iff.mp (hhead rfl _ _ rfl hreads)
    obtain rfl := List.prefix_nil.mp (List.cons_prefix_cons.mp hprefix).2
    obtain ⟨r, more, hr, hmore, rfl⟩ := List.forall₂_cons_left_iff.mp hsent
    cases hmore
    exact ⟨r, hasked, hr⟩

/-- Line ends of a seed are unified before it is sent, and halves of a character in settings are
read as the one character. -/
theorem line_ends_and_halves_not_conveyed :
    (∃ input, ((loadSeeds {} [Sample.seedPath] "0.8.27" none).run Sample.silent
        (Sample.benchWithSeed "a\r\nb")).2.asked = [.parseSeed input "0.8.27" "."] ∧
      ¬ StandardCompiler.Conveys Json.maxDepth input "a\r\nb" none
        StandardCompiler.seedSelection) ∧
    ∃ r, ((StandardCompiler.compile {} (.text "x") "0.8.27" (some Sample.halves)).run Sample.silent
        (Sample.benchWithSeed "a")).2.asked = [r] ∧
      ¬ StandardCompiler.ConveysVariant Json.maxDepth {} "0.8.27" "x" (some Sample.halves) r := by
  constructor
  · refine ⟨(StandardCompiler.input "Seed.sol" (.text "a\nb") none
      StandardCompiler.seedSelection).print, rfl, fun h => ?_⟩
    have hempty : (Json.object ((none : Option Fields).getD [])).Legible :=
      .object (List.forall_mem_nil _) (List.forall_mem_nil _)
    have hfits : (Json.object ((none : Option Fields).getD [])).Fits 984 :=
      .object .nil (List.forall_mem_nil _)
    have hfeed : StandardCompiler.Conveys Json.maxDepth
        (StandardCompiler.input "Seed.sol" (.text "a\nb") none
          StandardCompiler.seedSelection).print "a\nb" none StandardCompiler.seedSelection :=
      StandardCompiler.conveys_input (by decide) hempty hfits
        StandardCompiler.legible_seedSelection (StandardCompiler.fits_selection "" ["ast"])
        (by decide) "Seed.sol"
    exact absurd (h.unique hfeed).1 (by decide)
  · refine ⟨_, StandardCompiler.asked_compile (StandardCompiler.run_ensureInstalled rfl), ?_⟩
    rintro ⟨input, hrequest, h⟩
    obtain rfl := (Request.compiler.inj hrequest).2.2
    have hlabel : Json.FieldReadsAs 983
        ("label", .text (String.ofList [Text.standIn 0xD83D, Text.standIn 0xDC80]))
        ("label", .text "💀") :=
      Json.readsAs_field (by decide) (Json.readsAs_text (Json.textReadsAs_paired _))
    have hselection : Json.FieldReadsAs 983
        ("outputSelection", StandardCompiler.variantSelection)
        ("outputSelection", StandardCompiler.variantSelection) :=
      Json.readsAs_field (by decide) (Json.readsAs_self StandardCompiler.legible_variantSelection
        ((StandardCompiler.fits_selection _ _).mono (by decide)))
    have hsettings : Json.ReadsAs 984
        (StandardCompiler.withSelection (some Sample.halves) StandardCompiler.variantSelection)
        (StandardCompiler.withSelection (some [("label", .text "💀")])
          StandardCompiler.variantSelection) :=
      Json.readsAs_object (.cons hlabel (.cons hselection .nil)) (by decide)
    have hread : StandardCompiler.Conveys Json.maxDepth
        (StandardCompiler.input variantFileName (.text "x") (some Sample.halves)
          StandardCompiler.variantSelection).print "x" (some [("label", .text "💀")])
        StandardCompiler.variantSelection :=
      StandardCompiler.conveys_of_readsAs hsettings (by decide) variantFileName
    have hsame := (h.unique hread).2 "label" (by decide)
    exact absurd (Json.text.inj (Option.some.inj hsame)) (by decide)

end BackendFuzz
