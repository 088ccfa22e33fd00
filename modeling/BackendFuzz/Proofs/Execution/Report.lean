import BackendFuzz.Proofs.Execution.Markers
import BackendFuzz.Proofs.Execution.Success
import BackendFuzz.Proofs.Session.Faults

/-!
# What a report says

The marker behind a label is a longest run of spaces and word characters, at the
first place where the label has one. A page in the layout of the driver has each
label once before its values, so its words and its output are read as they were
printed.
-/

namespace BackendFuzz

open Text

namespace Report

/-! ## The first marker -/

/-- A marker behind a label, as long as it can be, and none behind the label further to the left. -/
structure Marks (label cs before marker after : List Char) : Prop where
  split : cs = before ++ label ++ marker ++ after
  nonempty : marker ≠ []
  chars : ∀ c ∈ marker, isMarkerChar c = true
  ends : ∀ c ∈ after.head?, isMarkerChar c = false
  first : ∀ before' c after', cs = before' ++ label ++ c :: after' → isMarkerChar c = true →
    before.length ≤ before'.length

def FirstMarker (label cs marker : List Char) : Prop :=
  ∃ before after, Marks label cs before marker after

section
variable {label cs before before' marker marker' after after' : List Char}

theorem takeWhile_marker (hchars : ∀ c ∈ marker, isMarkerChar c = true)
    (hends : ∀ c ∈ after.head?, isMarkerChar c = false) :
    (marker ++ after).takeWhile isMarkerChar = marker := by
  rw [List.takeWhile_append_of_pos hchars]
  cases after with
  | nil => simp
  | cons c after => simp [hends c rfl]

theorem markerHere_eq_some (h : markerHere label cs = some marker) : ∃ after,
    cs = label ++ marker ++ after ∧ marker ≠ [] ∧ (∀ c ∈ marker, isMarkerChar c = true) ∧
      ∀ c ∈ after.head?, isMarkerChar c = false := by
  unfold markerHere at h
  cases ha : after? label cs with
  | none => simp [ha] at h
  | some rest =>
    simp only [ha, Option.bind_eq_bind, Option.bind_some] at h
    split at h
    · cases h
    · rename_i hne
      cases h
      refine ⟨rest.dropWhile isMarkerChar, ?_, by simpa using hne,
        fun c hc => List.mem_takeWhile_imp hc, ?_⟩
      · rw [List.append_assoc, List.takeWhile_append_dropWhile]
        exact after?_eq_some.mp ha
      · intro c hc
        have hnot := List.head?_dropWhile_not isMarkerChar rest
        rwa [Option.mem_def.mp hc] at hnot

theorem firstMarker_of_marker? (h : marker? label cs = some marker) :
    FirstMarker label cs marker := by
  induction cs with
  | nil =>
    obtain ⟨after, hsplit, hne, -⟩ := markerHere_eq_some h
    simp [hne] at hsplit
  | cons d cs ih =>
    rw [marker?] at h
    cases hm : markerHere label (d :: cs) with
    | some marker' =>
      rw [hm] at h
      cases h
      obtain ⟨after, hsplit, hne, hchars, hends⟩ := markerHere_eq_some hm
      exact ⟨[], after, by simpa using hsplit, hne, hchars, hends, fun _ _ _ _ _ => Nat.zero_le _⟩
    -- The label has no marker here, so the first one of the rest is the first.
    | none =>
      rw [hm] at h
      obtain ⟨before, after, hsplit, hne, hchars, hends, hfirst⟩ := ih h
      refine ⟨d :: before, after, by simp [hsplit], hne, hchars, hends, ?_⟩
      intro before' c after' hcs hc
      cases before' with
      | nil =>
        have hsome := markerHere_isSome_iff.mpr ⟨c, after', by simpa using hcs, hc⟩
        simp [hm] at hsome
      | cons b before' => simpa using hfirst before' c after' (List.cons.inj hcs).2 hc

theorem Marks.hasMarker (h : Marks label cs before marker after) : HasMarker label cs := by
  obtain ⟨c, marker, rfl⟩ := List.exists_cons_of_ne_nil h.nonempty
  exact ⟨before, c, marker ++ after, by simp [h.split], h.chars c (by simp)⟩

theorem Marks.length_le (h : Marks label cs before marker after)
    (h' : Marks label cs before' marker' after') : before.length ≤ before'.length := by
  obtain ⟨c, marker', rfl⟩ := List.exists_cons_of_ne_nil h'.nonempty
  exact h.first before' c (marker' ++ after') (by simp [h'.split]) (h'.chars c (by simp))

theorem Marks.unique (h : Marks label cs before marker after)
    (h' : Marks label cs before' marker' after') : marker = marker' := by
  have hlength := Nat.le_antisymm (h.length_le h') (h'.length_le h)
  have hsplit : before ++ (label ++ (marker ++ after)) =
      before' ++ (label ++ (marker' ++ after')) := by
    simpa using h.split.symm.trans h'.split
  have hrest := List.append_cancel_left (List.append_inj hsplit hlength).2
  rw [← takeWhile_marker h.chars h.ends, hrest, takeWhile_marker h'.chars h'.ends]

theorem marker?_eq_some_iff : marker? label cs = some marker ↔ FirstMarker label cs marker := by
  refine ⟨firstMarker_of_marker?, ?_⟩
  rintro ⟨before, after, hmarks⟩
  obtain ⟨marker', hmarker'⟩ :=
    Option.isSome_iff_exists.mp ((marker?_isSome_iff label cs).mpr hmarks.hasMarker)
  obtain ⟨before', after', hmarks'⟩ := firstMarker_of_marker? hmarker'
  rw [hmarker', hmarks'.unique hmarks]

theorem marker?_eq_none_iff : marker? label cs = none ↔ ¬ HasMarker label cs := by
  rw [← marker?_isSome_iff, Option.not_isSome_iff_eq_none]

end

/-! ## Labels in a text -/

section
variable {label before before' rest rest' : List Char}

theorem infix_around {c : Char} (hc : c ∉ label) {after : List Char}
    (h : label <:+: before ++ c :: after) : label <:+: before ∨ label <:+: after := by
  induction before with
  | nil =>
    rcases List.infix_cons_iff.mp h with h | h
    · cases label with
      | nil => exact .inl List.infix_rfl
      | cons l label =>
        obtain ⟨rfl, -⟩ := List.cons_prefix_cons.mp h
        exact absurd List.mem_cons_self hc
    · exact .inr h
  | cons b before ih =>
    rcases List.infix_cons_iff.mp h with h | h
    -- A label at the front either ends before the character or holds it.
    · by_cases hlength : label.length ≤ (b :: before).length
      · exact .inl (List.prefix_of_prefix_length_le h (List.prefix_append _ _) hlength).isInfix
      · have hlonger : (b :: before) ++ [c] <+: label :=
          List.prefix_of_prefix_length_le ⟨after, by simp⟩ h (by simp at hlength ⊢; omega)
        exact absurd (hlonger.subset (by simp)) hc
    · exact (ih h).imp_left fun h => List.infix_cons h

/-- The first character of a label does not come again in it, so the label cannot overlap itself. -/
def StartsOnce (label : List Char) : Prop := ∃ l ls, label = l :: ls ∧ l ∉ ls

theorem length_le_of_not_infix (hlabel : StartsOnce label) (hbefore : ¬ label <:+: before)
    (h : before ++ label ++ rest = before' ++ label ++ rest') :
    before.length ≤ before'.length := by
  by_contra hlt
  rw [List.append_assoc, List.append_assoc] at h
  obtain ⟨between, rfl, -⟩ | ⟨between, rfl, hmore⟩ := List.append_eq_append_iff.mp h
  · simp at hlt
  -- One further to the left ends in the text before, or its end is the start of the other.
  by_cases hlength : label.length ≤ between.length
  · have hinside : label <+: between :=
      List.prefix_of_prefix_length_le ⟨rest', hmore⟩ (List.prefix_append _ _) hlength
    exact hbefore (hinside.isInfix.trans (List.suffix_append _ _).isInfix)
  · obtain ⟨l, ls, rfl, hl⟩ := hlabel
    have hlonger : between ++ [l] <+: l :: ls :=
      List.prefix_of_prefix_length_le ⟨ls ++ rest, by simpa using hmore.symm⟩
        (List.prefix_append _ rest') (by simp at hlength ⊢; omega)
    cases between with
    | nil => simp at hlt
    | cons b between =>
      rw [List.cons_append, List.cons_prefix_cons] at hlonger
      exact hl (hlonger.2.subset (by simp))

/-- A label that is not in the text before it is the first. -/
theorem firstMarker_of_not_infix (hlabel : StartsOnce label) (hbefore : ¬ label <:+: before)
    {marker after : List Char} (hne : marker ≠ []) (hchars : ∀ c ∈ marker, isMarkerChar c = true)
    (hends : ∀ c ∈ after.head?, isMarkerChar c = false) :
    FirstMarker label (before ++ label ++ marker ++ after) marker := by
  refine ⟨before, after, rfl, hne, hchars, hends, fun before' c after' h _ => ?_⟩
  rw [List.append_assoc] at h
  exact length_le_of_not_infix hlabel hbefore h

end

/-! ## Blanks of a marker -/

theorem isBlank_of_isMarkerChar {c : Char} (h : isMarkerChar c = true) :
    isBlank c = (c == ' ') := by
  by_cases hc : c = ' '
  · subst hc
    decide
  · have hword : isWord c = true := by simpa [isMarkerChar, hc] using h
    simp [not_isBlank_of_isWord hword, hc]

theorem bare_marker_iff {marker core : List Char} (h : ∀ c ∈ marker, isMarkerChar c = true) :
    Bare (· == ' ') marker core ↔ core = trim marker := by
  rw [← bare_iff_trim]
  exact ⟨fun hbare => hbare.congr fun c hc => isBlank_of_isMarkerChar (h c hc),
    fun hbare => hbare.congr fun c hc => (isBlank_of_isMarkerChar (h c hc)).symm⟩

/-- The output that a report shows: the first marker behind its label, without the spaces around. -/
inductive Shows (cs : List Char) : List Char → Prop
  | marked {marker output : List Char} (h : FirstMarker "Output:".toList cs marker)
    (hbare : Bare (· == ' ') marker output) : Shows cs output
  | unmarked (h : ¬ HasMarker "Output:".toList cs) : Shows cs []

theorem shows_of_marker {cs marker output : List Char}
    (h : marker? "Output:".toList cs = some marker) : Shows cs output ↔ output = trim marker := by
  obtain ⟨before, after, hmarks⟩ := firstMarker_of_marker? h
  rw [← bare_marker_iff hmarks.chars]
  constructor
  · intro hshows
    cases hshows with
    | marked h' hbare =>
      rw [marker?_eq_some_iff.mpr h', Option.some.injEq] at h
      exact h ▸ hbare
    | unmarked h' => exact absurd hmarks.hasMarker h'
  · exact .marked ⟨before, after, hmarks⟩

theorem shows_of_none {cs output : List Char} (h : marker? "Output:".toList cs = none) :
    Shows cs output ↔ output = [] := by
  constructor
  · intro hshows
    cases hshows with
    | marked h' _ => cases h.symm.trans (marker?_eq_some_iff.mpr h')
    | unmarked _ => rfl
  · rintro rfl
    exact .unmarked (marker?_eq_none_iff.mp h)

/-! ## Pages -/

/-- A report in the layout of the driver. No label comes in what is printed before it. -/
structure Page where
  before : List Char
  gap : Nat
  word : List Char
  words : List (Nat × List Char)
  middle : List Char
  indent : Nat
  output : List Char
  after : List Char
  word_chars : word ≠ [] ∧ ∀ c ∈ word, isWord c = true
  words_chars : ∀ w ∈ words, 0 < w.1 ∧ w.2 ≠ [] ∧ ∀ c ∈ w.2, isWord c = true
  output_chars : ∀ c ∈ output, isWord c = true
  output_shown : 0 < indent ∨ output ≠ []
  after_ends : ∀ c ∈ after.head?, isMarkerChar c = false
  before_result : ¬ "Result:".toList <:+: before
  before_output : ¬ "Output:".toList <:+: before
  middle_output : ¬ "Output:".toList <:+: middle

namespace Page

def marker (page : Page) : List Char := spaced ((page.gap, page.word) :: page.words)

def statusWords (page : Page) : List String :=
  (page.word :: page.words.map Prod.snd).map fun w => String.ofList (lower w)

def shown (page : Page) : List Char := List.replicate page.indent ' ' ++ page.output

def text (page : Page) : String :=
  String.ofList (page.before ++ "Result:".toList ++ page.marker ++
    '\n' :: (page.middle ++ "Output:".toList ++ page.shown ++ page.after))

theorem isMarkerChar_of_isWord {c : Char} (h : isWord c = true) : isMarkerChar c = true := by
  simp [isMarkerChar, h]

theorem isMarkerChar_spaced {n : Nat} {w : List Char} (h : ∀ c ∈ w, isWord c = true) :
    ∀ c ∈ List.replicate n ' ' ++ w, isMarkerChar c = true := by
  refine List.forall_mem_append.mpr ⟨fun c hc => ?_, fun c hc => isMarkerChar_of_isWord (h c hc)⟩
  rw [List.eq_of_mem_replicate hc]
  rfl

theorem unbroken_of_isWord {w : List Char} (hne : w ≠ []) (h : ∀ c ∈ w, isWord c = true) :
    Unbroken w :=
  ⟨hne, fun c hc => not_isBlank_of_isWord (h c hc)⟩

section
variable (page : Page)

theorem unbroken_word : Unbroken page.word :=
  unbroken_of_isWord page.word_chars.1 page.word_chars.2

theorem separated_words : Separated page.words := fun w hw =>
  have ⟨hgap, hne, hchars⟩ := page.words_chars w hw
  ⟨hgap, unbroken_of_isWord hne hchars⟩

theorem marker_ne_nil : page.marker ≠ [] := by
  simp [marker, spaced, page.word_chars.1]

theorem marker_chars : ∀ c ∈ page.marker, isMarkerChar c = true := by
  rw [marker, spaced, List.forall_mem_flatMap, List.forall_mem_cons]
  exact ⟨isMarkerChar_spaced page.word_chars.2,
    fun w hw => isMarkerChar_spaced (page.words_chars w hw).2.2⟩

theorem shown_ne_nil : page.shown ≠ [] := by
  rcases page.output_shown with h | h
  · simp [shown, Nat.ne_of_gt h]
  · simp [shown, h]

theorem toList_text : page.text.toList = page.before ++ "Result:".toList ++ page.marker ++
    '\n' :: (page.middle ++ "Output:".toList ++ page.shown ++ page.after) :=
  String.toList_ofList

theorem firstMarker_result : FirstMarker "Result:".toList page.text.toList page.marker := by
  have hline : isMarkerChar '\n' = false := by decide +kernel
  rw [toList_text]
  refine firstMarker_of_not_infix ⟨'R', "esult:".toList, by decide, by decide⟩ page.before_result
    page.marker_ne_nil page.marker_chars fun c hc => ?_
  cases hc
  exact hline

theorem not_infix_output : ¬ "Output:".toList <:+:
    page.before ++ "Result:".toList ++ page.marker ++ '\n' :: page.middle := by
  have hplain : isMarkerChar ':' = false := by decide +kernel
  intro h
  -- The end of the line and the first character of the other label are not in this one, and the
  -- words have no colon.
  rcases infix_around (by decide) h with h | h
  · have hresult : page.before ++ "Result:".toList ++ page.marker =
      page.before ++ 'R' :: ("esult:".toList ++ page.marker) := by simp
    rw [hresult] at h
    rcases infix_around (by decide) h with h | h
    · exact page.before_output h
    · have hmarker : "Output:".toList <:+: page.marker := by
        simpa [List.infix_cons_iff, List.cons_prefix_cons] using h
      have hcolon : ':' ∈ page.marker := hmarker.subset (by decide)
      cases (page.marker_chars ':' hcolon).symm.trans hplain
  · exact page.middle_output h

theorem firstMarker_output : FirstMarker "Output:".toList page.text.toList page.shown := by
  have hsplit : page.text.toList = page.before ++ "Result:".toList ++ page.marker ++
      '\n' :: page.middle ++ "Output:".toList ++ page.shown ++ page.after := by
    rw [toList_text]
    simp only [List.append_assoc, List.cons_append]
  rw [hsplit]
  exact firstMarker_of_not_infix ⟨'O', "utput:".toList, by decide, by decide⟩ page.not_infix_output
    page.shown_ne_nil (isMarkerChar_spaced page.output_chars) page.after_ends

theorem trim_shown : trim page.shown = page.output := by
  have houtput : ∀ c ∈ page.output, isBlank c = false :=
    fun c hc => not_isBlank_of_isWord (page.output_chars c hc)
  refine (bare_iff_trim.mp ⟨⟨List.replicate page.indent ' ', [], by simp [shown], blank_of_mem_spaces,
      by simp⟩,
    fun c hc => houtput c (List.mem_of_mem_head? hc),
    fun c hc => houtput c (List.mem_of_getLast? hc)⟩).symm

theorem normalizeStatus_marker :
    normalizeStatus (String.ofList page.marker) = "-".intercalate page.statusWords := by
  rw [normalizeStatus_eq, String.toList_ofList, marker, spaced_cons,
    words_blanks_append blank_of_mem_spaces, words_spaced page.unbroken_word page.separated_words]
  simp [statusWords]

end

end Page

end Report

/-! ## Status and output -/

theorem readReport_eq_none_iff (text : String) :
    readReport text = none ↔ ¬ Report.HasMarker "Result:".toList text.toList := by
  rw [← readReport_isSome_iff, Option.not_isSome_iff_eq_none]

theorem readReport_eq_some_iff {text status output : String} :
    readReport text = some (status, output) ↔
      (∃ marker, Report.FirstMarker "Result:".toList text.toList marker ∧
        status = normalizeStatus (String.ofList marker)) ∧
      Report.Shows text.toList output.toList := by
  have houtput : ∀ cs : List Char, output = String.ofList cs ↔ output.toList = cs := fun cs =>
    ⟨fun h => by rw [h, String.toList_ofList], fun h => by rw [← h, String.ofList_toList]⟩
  simp only [← Report.marker?_eq_some_iff]
  rw [readReport]
  cases Report.marker? "Result:".toList text.toList with
  | none => simp
  | some status' =>
    cases hm : Report.marker? "Output:".toList text.toList with
    | some marker => rw [Report.shows_of_marker hm, ← houtput]; simp [eq_comm]
    | none => rw [Report.shows_of_none hm, ← houtput]; simp [eq_comm]

theorem Report.Page.readReport_text (page : Report.Page) : readReport page.text =
    some ("-".intercalate page.statusWords, String.ofList page.output) := by
  refine readReport_eq_some_iff.mpr
    ⟨⟨page.marker, page.firstMarker_result, page.normalizeStatus_marker.symm⟩, ?_⟩
  rw [Report.shows_of_marker (Report.marker?_eq_some_iff.mpr page.firstMarker_output),
    page.trim_shown, String.toList_ofList]

/-! ## Runs whose report has no status -/

namespace Machine

def withoutStatus (text : String) : Fault := .process { cause := .machineStatus, output := text }

section
variable {text : String}

theorem dumpOf_has_status (path : Path) (what : String) (dump : Option ByteArray) :
    ErrorWithin (· ≠ withoutStatus text) (dumpOf path what dump) := by
  unfold dumpOf
  split
  · exact errorWithin_error (by simp [withoutStatus])
  · split
    · exact errorWithin_error (by simp [withoutStatus])
    · refine errorWithin_mapError (fun fault => ?_) _
      cases fault <;> simp [Fault.ofParse, withoutStatus]

theorem outcomeOf_has_status (output status shown : String) (storage logs : Json) :
    ErrorWithin (· ≠ withoutStatus text) (outcomeOf output status shown storage logs) := by
  unfold outcomeOf
  split
  · refine errorWithin_bind (errorWithin_mapError (fun cause => ?_) _) fun _ => errorWithin_ok _
    simp [withoutStatus]
  · exact errorWithin_error (by simp [withoutStatus])

theorem verdict_without_status_iff {settings : Settings} {cmd : List Json} {reply : MachineReply}
    {e : Ended} (hreply : reply.reply = .ended e) (hcode : e.code = 0) :
    verdict settings cmd reply = .error (withoutStatus e.output) ↔ readReport e.output = none := by
  have hfull : reply = ⟨.ended e, reply.storage, reply.logs⟩ := by rw [← hreply]
  cases hreport : readReport e.output with
  | none =>
    simp [verdict, observed, endedOf, hreply, hcode, hreport, ok_bind, error_bind, withoutStatus]
  | some report =>
    rw [hfull, verdict_ended_zero settings cmd hcode hreport]
    have hstorage : ErrorWithin (· ≠ withoutStatus e.output)
      (dumpOf storageFile "storage" reply.storage) := dumpOf_has_status _ _ _
    have hstatus := errorWithin_bind hstorage fun storage =>
      errorWithin_bind (dumpOf_has_status logsFile "logs" reply.logs) fun logs =>
        outcomeOf_has_status e.output report.1 report.2 storage logs
    simpa using fun h => hstatus _ h rfl

end

end Machine

/-- A text is a report exactly if a marker stands behind its label for the status; its status is the
first of them, and its output the first behind the other label, if there is one. So the words and
the output of a page are read as they were printed, and a run fails for its report alone if that
has no status. -/
theorem reports_are_read_by_their_labels (text : String) :
    (readReport text = none ↔ ¬ Report.HasMarker "Result:".toList text.toList) ∧
    (∀ status output, readReport text = some (status, output) ↔
      (∃ marker, Report.FirstMarker "Result:".toList text.toList marker ∧
        status = normalizeStatus (String.ofList marker)) ∧
      Report.Shows text.toList output.toList) ∧
    (∀ page : Report.Page, text = page.text → readReport text =
      some ("-".intercalate page.statusWords, String.ofList page.output)) ∧
    ∀ (settings : Settings) (bytecode callData : String) (revision : Int) (o : Outside) (b : Bench),
      b.files.Unused Machine.scratchPlace → ∀ e : Ended,
      (o.machine b.asked (.text bytecode)).reply = .ended e → e.code = 0 → e.output = text →
      (((Machine.execute settings (.text bytecode) callData revision).run o b).1 =
          .error (.process { cause := .machineStatus, output := text }) ↔
        readReport text = none) := by
  refine ⟨readReport_eq_none_iff text, fun status output => readReport_eq_some_iff, ?_, ?_⟩
  · rintro page rfl
    exact page.readReport_text
  · rintro settings bytecode callData revision o b hu e hreply hcode rfl
    rw [Machine.result_eq_verdict settings bytecode callData revision o hu]
    exact Machine.verdict_without_status_iff hreply hcode

namespace Sample

def outOfGas : Report.Page where
  before := "Executing\n\n".toList
  gap := 3
  word := "Out".toList
  words := [(1, "of".toList), (2, "gas".toList)]
  middle := "Gas used: 21480\n".toList
  indent := 3
  output := "05".toList
  after := ['\n']
  word_chars := ⟨by decide, List.all_eq_true.mp (by decide +kernel)⟩
  words_chars := by
    rw [List.forall_mem_cons, List.forall_mem_singleton]
    exact ⟨⟨by decide, by decide, List.all_eq_true.mp (by decide +kernel)⟩,
      by decide, by decide, List.all_eq_true.mp (by decide +kernel)⟩
  output_chars := List.all_eq_true.mp (by decide +kernel)
  output_shown := .inl (by decide)
  after_ends := by
    rintro c ⟨⟩
    decide +kernel
  before_result := by decide +kernel
  before_output := by decide +kernel
  middle_output := by decide +kernel

def crashed : MachineReply where
  reply := .ended { output := "Segmentation fault\n" }
  storage := none
  logs := none

end Sample

theorem reports_are_read_by_their_labels_out_of_gas :
    readReport Sample.outOfGas.text = some ("out-of-gas", "05") ∧
    ((Machine.execute {} (.text "60") "0x" 13).run (Sample.replying Sample.crashed) {}).1 =
      .error (.process { cause := .machineStatus, output := "Segmentation fault\n" }) := by
  obtain ⟨-, -, hpage, -⟩ := reports_are_read_by_their_labels Sample.outOfGas.text
  obtain ⟨hnone, -, -, hrun⟩ := reports_are_read_by_their_labels "Segmentation fault\n"
  have hlabel : ¬ "Result:".toList <:+: "Segmentation fault\n".toList := by decide +kernel
  have hunread : readReport "Segmentation fault\n" = none :=
    hnone.mpr fun ⟨before, c, after, h, _⟩ => hlabel ⟨before, c :: after, h.symm⟩
  have hstatus := (hrun {} "60" "0x" 13 (Sample.replying Sample.crashed) {} (List.forall_mem_nil _)
    { output := "Segmentation fault\n" } rfl rfl rfl).mpr hunread
  refine ⟨?_, hstatus⟩
  have hwords : Sample.outOfGas.statusWords = ["out", "of", "gas"] := by decide +kernel
  have hjoined : "-".intercalate ["out", "of", "gas"] = "out-of-gas" := by decide +kernel
  have houtput : String.ofList Sample.outOfGas.output = "05" := by decide +kernel
  rw [hpage Sample.outOfGas rfl, hwords, hjoined, houtput]

end BackendFuzz
