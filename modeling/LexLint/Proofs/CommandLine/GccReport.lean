import LexLint.Proofs.Checker.Messages
import LexLint.Proofs.CommandLine.Check
import LexLint.Proofs.Files.Contents

/-!
# One line a finding

In the one-line form the results of a call are a text with one line for each finding, in the order
of the documents and of their findings, and nothing about a document without findings
(`gccText_eq`). No message breaks its line (`framesLines_gccReport`), and since numbers, names of
severities and codes do not hold the marks around them, equal lines have equal fields
(`Finding.fields_of_gccLine_eq`).
-/

namespace LexLint

/-! ### The fields of a line -/

theorem notMem_toDigits {c : Char} (h : c.isDigit = false) (n : Nat) : c ∉ Nat.toDigits 10 n := by
  intro member
  rw [Nat.isDigit_of_mem_toDigits (by decide) (by decide) member] at h
  cases h

theorem toDigits_injective {m n : Nat} (h : Nat.toDigits 10 m = Nat.toDigits 10 n) : m = n := by
  rw [← Nat.ofDigitChars_ten_toDigits (n := m), h, Nat.ofDigitChars_ten_toDigits]

theorem Severity.text_injective {a b : Severity} (h : a.text = b.text) : a = b :=
  Option.some.inj (by rw [← ofText?_text a, h, ofText?_text b])

theorem Severity.colon_notMem_text (s : Severity) : ':' ∉ s.text.toList := by
  cases s <;> decide

theorem Code.bracket_notMem_text (c : Code) : '[' ∉ c.text.toList := by
  cases c <;> decide

namespace Finding

theorem toList_gccLine (f : Finding) (path : String) (index : LineIndex) :
    (f.gccLine path index).toList = path.toList ++
      ':' :: (Nat.toDigits 10 ((index.position f.start).line + 1) ++
      ':' :: (Nat.toDigits 10 ((index.position f.start).column + 1) ++
      ':' :: ' ' :: (f.severity.text.toList ++
      ':' :: ' ' :: (f.message.toList ++ ' ' :: '[' :: (f.code.toList ++ [']']))))) := by
  simp [gccLine, toString]

theorem gccLine_ne_empty (f : Finding) (path : String) (index : LineIndex) :
    f.gccLine path index ≠ "" := by
  intro empty
  have chars := congrArg String.toList empty
  rw [toList_gccLine] at chars
  simp at chars

/-- Lines under one path are equal only if all their fields are. The fields are told apart from the
left as far as the message, and the code from the right: a message may hold any mark. -/
theorem fields_of_gccLine_eq {f g : Finding} {path : String} {i j : LineIndex} {c d : Code}
    (code : f.code = c.text) (code' : g.code = d.text)
    (same : f.gccLine path i = g.gccLine path j) :
    i.position f.start = j.position g.start ∧ f.severity = g.severity ∧ f.message = g.message ∧
      f.code = g.code := by
  have number (n : Nat) : ':' ∉ Nat.toDigits 10 n := notMem_toDigits (by decide) n
  have chars := congrArg String.toList same
  rw [toList_gccLine, toList_gccLine] at chars
  obtain ⟨line, chars⟩ := append_cons_inj_of_notMem_left (number _) (number _)
    (List.cons.inj (List.append_cancel_left chars)).2
  obtain ⟨column, chars⟩ := append_cons_inj_of_notMem_left (number _) (number _) chars
  obtain ⟨severity, chars⟩ := append_cons_inj_of_notMem_left f.severity.colon_notMem_text
    g.severity.colon_notMem_text (List.cons.inj chars).2
  have bracketless (e : Code) : '[' ∉ e.text.toList ++ [']'] := by
    rw [List.mem_append, not_or]
    exact ⟨e.bracket_notMem_text, by decide⟩
  have ends : (f.message.toList ++ [' ']) ++ '[' :: (f.code.toList ++ [']']) =
      (g.message.toList ++ [' ']) ++ '[' :: (g.code.toList ++ [']']) := by
    simpa using (List.cons.inj chars).2
  obtain ⟨message, text⟩ := append_cons_inj_of_notMem_right (code ▸ bracketless c)
    (code' ▸ bracketless d) ends
  have position : i.position f.start = j.position g.start := calc
    i.position f.start = ⟨(i.position f.start).line, (i.position f.start).column⟩ := rfl
    _ = ⟨(j.position g.start).line, (j.position g.start).column⟩ := by
      rw [Nat.succ.inj (toDigits_injective line), Nat.succ.inj (toDigits_injective column)]
  exact ⟨position, Severity.text_injective (String.toList_inj.mp severity),
    String.toList_inj.mp (List.append_cancel_right message),
    String.toList_inj.mp (List.append_cancel_right text)⟩

theorem OfBuiltin.newline_notMem_gccLine {source : Source} {f : Finding} (h : f.OfBuiltin source)
    {path : String} (name : '\n' ∉ path.toList) (index : LineIndex) :
    '\n' ∉ (f.gccLine path index).toList := by
  obtain ⟨code, text⟩ := h.exists_code
  have number (n : Nat) : '\n' ∉ Nat.toDigits 10 n := notMem_toDigits (by decide) n
  have severity : '\n' ∉ f.severity.text.toList := by
    cases f.severity <;> decide
  have codeText : '\n' ∉ f.code.toList := by
    rw [text]
    cases code <;> decide
  rw [toList_gccLine]
  simp [name, number, severity, newline_notMem_of_printable h.printable, codeText]

end Finding

/-! ### The lines of results -/

/-- The lines for the findings of results, in the order of the documents and of their findings. -/
def gccReport (results : List RunResult) : List String :=
  results.flatMap fun r => r.findings.map fun f => f.gccLine r.source.name r.source.index

/-- The lines for results, each with a newline at its end. -/
def gccText (results : List RunResult) : String :=
  String.join ((gccReport results).map (· ++ "\n"))

/-- Cut at its newlines, a text is the given lines and nothing behind the last; none of them is
empty. -/
structure FramesLines (text : String) (lines : List String) : Prop where
  cut : splitAtChar '\n' text.toList = lines.map String.toList ++ [[]]
  visible : "" ∉ lines

theorem empty_notMem_gccReport (results : List RunResult) : "" ∉ gccReport results := by
  intro member
  obtain ⟨r, -, inResult⟩ := List.mem_flatMap.mp member
  obtain ⟨f, -, empty⟩ := List.mem_map.mp inResult
  exact f.gccLine_ne_empty _ _ empty

theorem RunResult.gccLines_eq (r : RunResult) :
    r.gccLines "" = joinStrings "\n" (gccReport [r]) := by
  rw [gccReport, List.flatMap_singleton]
  rfl

theorem gccText_cons (r : RunResult) (rest : List RunResult) :
    gccText (r :: rest) = gccText [r] ++ gccText rest := by
  simp [gccText, gccReport]

theorem gccText_eq_empty_iff {results : List RunResult} :
    gccText results = "" ↔ gccReport results = [] := by
  constructor
  · intro empty
    by_contra some_line
    rw [gccText, ← joinStrings_newline_append_newline some_line] at empty
    simp at empty
  · intro none
    rw [gccText, none]
    rfl

/-- Documents without findings are left out of the text, and the texts of the others are joined as
their lines are. -/
theorem join_gccLines (results : List RunResult) :
    String.join (((results.map (·.gccLines "")).filter (!·.isEmpty)).map (· ++ "\n")) =
      gccText results := by
  induction results with
  | nil => rfl
  | cons r rest ih =>
    have empty := joinStrings_newline_eq_empty_iff (empty_notMem_gccReport [r])
    rw [← r.gccLines_eq, ← String.isEmpty_iff] at empty
    rw [gccText_cons, ← ih, List.map_cons]
    by_cases clean : gccReport [r] = []
    · rw [List.filter_cons_of_neg (by simpa using empty.mpr clean),
        gccText_eq_empty_iff.mpr clean, String.empty_append]
    · rw [List.filter_cons_of_pos (by simpa using mt empty.mp clean), List.map_cons,
        String.join_cons, r.gccLines_eq, joinStrings_newline_append_newline clean, ← gccText]

/-- What is written for results: their text with a newline at its end, or nothing. -/
theorem gccText_eq (results : List RunResult) :
    let text := joinStrings "\n" ((results.map (·.gccLines "")).filter (!·.isEmpty))
    gccText results = if text.isEmpty then "" else text ++ "\n" := by
  intro text
  rw [← join_gccLines]
  have visible : "" ∉ (results.map (·.gccLines "")).filter (!·.isEmpty) := by
    intro member
    exact absurd (List.mem_filter.mp member).2 (by decide)
  have empty := joinStrings_newline_eq_empty_iff visible
  rw [← String.isEmpty_iff] at empty
  split
  · rw [empty.mp ‹_›]
    rfl
  · exact (joinStrings_newline_append_newline (mt empty.mpr ‹_›)).symm

/-- The results of the checkers of the language make lines that nothing in a text breaks. -/
theorem framesLines_gccReport {results : List RunResult}
    (names : ∀ r ∈ results, '\n' ∉ r.source.name.toList)
    (builtin : ∀ r ∈ results, ∀ f ∈ r.findings, f.OfBuiltin r.source) :
    FramesLines (gccText results) (gccReport results) := by
  refine ⟨splitAtChar_join_newline fun line member => ?_, empty_notMem_gccReport results⟩
  obtain ⟨r, inResults, inResult⟩ := List.mem_flatMap.mp member
  obtain ⟨f, found, rfl⟩ := List.mem_map.mp inResult
  exact (builtin r inResults f found).newline_notMem_gccLine (names r inResults) _

/-- The runs of checkers on several documents. -/
theorem Runner.mapM_run {runner : Runner} {names : List String} {checkers : List Checker}
    (chosen : runner.registry.resolve (some names) = .ok checkers) (sources : List Source) :
    sources.mapM (runner.run · (some names)) =
      .ok (sources.map (runner.runCheckers · checkers)) := by
  induction sources with
  | nil => rfl
  | cons source rest ih =>
    rw [List.mapM_cons, ih, run, chosen]
    rfl

/-- Whatever the documents hold, the findings of the checkers of the language stand on lines of
their own. -/
theorem framesLines_of_resolve {runner : Runner} (registered : runner.registry.HasBuiltins)
    {names : List String} (known : ∀ name ∈ names, name ∈ Registry.builtin.names)
    {checkers : List Checker} (chosen : runner.registry.resolve (some names) = .ok checkers)
    {sources : List Source} (named : ∀ source ∈ sources, '\n' ∉ source.name.toList) :
    FramesLines (gccText (sources.map (runner.runCheckers · checkers)))
      (gccReport (sources.map (runner.runCheckers · checkers))) := by
  obtain ⟨builtin, rfl, builtins⟩ := Registry.exists_builtin_of_names known
  rw [Registry.resolve_map_name fun c hc => registered c (builtins c hc)] at chosen
  obtain rfl := Except.ok.inj chosen
  apply framesLines_gccReport
  · intro r member
    obtain ⟨source, inSources, rfl⟩ := List.mem_map.mp member
    exact named source inSources
  · intro r member f found
    obtain ⟨source, -, rfl⟩ := List.mem_map.mp member
    obtain ⟨turn, inTurns, inTurn⟩ := List.mem_flatMap.mp found
    exact ofBuiltin_of_mem_takeTurns builtins inTurns inTurn

/-! ### Writing the lines -/

/-- Writing nothing into a file that has just been opened changes nothing. -/
theorem FileTree.put_nil_of_create {t opened : FileTree} {path : String} {place : List String}
    (opens : t.create path = .ok (place, opened)) : opened.put place 0 [] = opened := by
  unfold create at opens
  split at opens
  · cases opens
  · split at opens
    · rename_i sink
      obtain ⟨rfl, rfl⟩ := Prod.mk.inj (Except.ok.inj opens)
      rw [put, sink]
    · obtain ⟨rfl, rfl⟩ := Prod.mk.inj (Except.ok.inj opens)
      rw [put, node?_store_self]
      exact store_store t _ _ _

namespace CommandLine

variable {world : World} {request : CheckRequest}

/-- Results in the one-line form are written as their lines, or not at all. -/
theorem outcome_writeResults_gcc (gcc : request.format = some .gcc) (results : List RunResult)
    (place : Option (List String)) (t : Transcript) :
    (writeResults world request results place).outcome t =
      if gccText results = "" then (.ok (), t)
      else (Session.writeTo world.output place (gccText results)).outcome t := by
  have formats : formatResults world t.files request.format results =
      .ok (joinStrings "\n" ((results.map (·.gccLines "")).filter (!·.isEmpty))) := by
    rw [gcc]
    rfl
  rw [writeResults, if_neg (by rw [gcc]; decide)]
  simp only [Session.outcome_bind, Session.outcome_get, formats, gccText_eq]
  generalize joinStrings "\n" ((results.map (·.gccLines "")).filter (!·.isEmpty)) = text
  cases empty : text.isEmpty with
  | true => rfl
  | false =>
    have ended : text ++ "\n" ≠ "" := by simp
    exact (if_neg ended).symm

/-- A document bears the name of its path. -/
theorem World.name_of_document? {inputRead : Bool} {path : String} {source : Source}
    (found : world.document? inputRead path = some source) :
    source.name = "<stdin>" ∨ source.name = path := by
  unfold document? at found
  split at found
  · left
    split at found
    · exact Option.some.inj found ▸ rfl
    · obtain ⟨octets, -, found⟩ := Option.bind_eq_some_iff.1 found
      obtain ⟨text, -, rfl⟩ := Option.map_eq_some_iff.1 found
      rfl
  · right
    split at found
    · cases found
    · obtain ⟨octets, -, found⟩ := Option.bind_eq_some_iff.1 found
      obtain ⟨text, -, rfl⟩ := Option.map_eq_some_iff.1 found
      rfl

theorem World.name_of_mem_documents? {inputRead : Bool} {paths : List String}
    {sources : List Source} (found : world.documents? inputRead paths = some sources) :
    ∀ source ∈ sources, source.name = "<stdin>" ∨ source.name ∈ paths := by
  induction paths generalizing inputRead sources with
  | nil =>
    obtain rfl := Option.some.inj found
    simp
  | cons path rest ih =>
    obtain ⟨first, here, others⟩ := Option.bind_eq_some_iff.1 found
    obtain ⟨later, behind, rfl⟩ := Option.map_eq_some_iff.1 others
    rw [List.forall_mem_cons]
    constructor
    · exact (name_of_document? here).imp_right fun same => List.mem_cons.2 (.inl same)
    · intro source member
      exact (ih behind source member).imp_right (List.mem_cons_of_mem path)

/-- Results in the one-line form are handed to standard output, which keeps what it had, whether or
not it takes them. -/
theorem exists_present_gcc_out (gcc : request.format = some .gcc)
    (unnamed : request.output.getD "" = "") (verbosity : Nat) (results : List RunResult)
    (t : Transcript) :
    ∃ result, (present world verbosity request results).outcome t =
      (result, { t with out := t.out ++ gccText results }) := by
  have writes : ∃ fault, (writeResults world request results none).outcome t =
      (Session.ending fault, { t with out := t.out ++ gccText results }) := by
    rw [outcome_writeResults_gcc gcc]
    split
    · rename_i nothing
      refine ⟨none, ?_⟩
      rw [nothing, String.append_empty]
      rfl
    · exact ⟨_, Session.outcome_writeOut world.output (gccText results) t⟩
  obtain ⟨fault, writes⟩ := writes
  unfold present
  extract_lets output conclude
  rw [if_pos (String.isEmpty_iff.2 unnamed), Session.outcome_bind, writes]
  cases fault with
  | none => exact ⟨_, rfl⟩
  | some fault => exact ⟨_, rfl⟩

/-- Results in the one-line form are the contents of the output file. -/
theorem outcome_present_gcc_file (gcc : request.format = some .gcc)
    (named : request.output.getD "" ≠ "") (clean : hasNul (request.output.getD "") = false)
    (verbosity : Nat) (results : List RunResult) {t : Transcript} {after : FileTree}
    (written : t.files.write (request.output.getD "")
      (gccText results).toUTF8.toList = .ok after) :
    ∃ err, (present world verbosity request results).outcome t =
      (.ok (if results.any (0 < ·.errorCount) then exitFindings else 0),
       { t with files := after, err := err }) := by
  unfold FileTree.write at written
  split at written
  · cases written
  rename_i place opened opens
  obtain rfl := Except.ok.inj written
  have writes : (writeResults world request results (some place)).outcome
      { t with files := opened } =
      (.ok (), { t with files := opened.put place 0 (gccText results).toUTF8.toList }) := by
    rw [outcome_writeResults_gcc gcc]
    split
    · rename_i nothing
      have unwritten : "".toUTF8.toList = [] := by simp
      rw [nothing, unwritten]
      exact congrArg (fun files => (Except.ok (), { t with files := files }))
        (FileTree.put_nil_of_create opens).symm
    · rfl
  have openedAt := outcome_openOutput clean opens
  unfold present
  extract_lets output conclude
  rw [if_neg (mt String.isEmpty_iff.1 named)]
  simp only [Session.outcome_bind, output, openedAt, writes, Session.log,
    Session.outcome_writeErr]
  exact ⟨_, rfl⟩

/-- What a call in the one-line form leaves behind. -/
structure GccOutcome (world : World) (request : CheckRequest) (results : List RunResult)
    (outcome : Outcome) : Prop where
  frames : FramesLines (gccText results) (gccReport results)
  /-- Without an output file, the lines are all that standard output gets. -/
  out : request.output.getD "" = "" → outcome.out = gccText results ∧ outcome.files = world.files
  /-- With one, the lines are its contents. -/
  file : ∀ after, request.output.getD "" ≠ "" → hasNul (request.output.getD "") = false →
    world.files.write (request.output.getD "") (gccText results).toUTF8.toList = .ok after →
    outcome.out = "" ∧ outcome.files = after

/-- A call in the one-line form writes the lines for its documents. -/
theorem exists_gccOutcome {arguments : List String} {call : Call}
    (parsed : parseCall world.dashes arguments = .ok call)
    (check : call.command = some (.check request))
    (gcc : request.format = some .gcc)
    (configured : ¬ request.selection.Misconfigured world.environment)
    (loaded : ¬ request.selection.Unloadable world)
    (named : ∀ path ∈ request.paths, '\n' ∉ path.toList) :
    ∃ options sources results,
      Options.load request.selection.overrides world.environment = .ok options ∧
      world.documents? false request.paths = some sources ∧
      sources.mapM ((request.selection.runner options).run · (some request.selection.chosen)) =
        .ok results ∧
      GccOutcome world request results (run world arguments) := by
  rcases runCheck_cases call.verbosity { files := world.files } rfl rfl with
    ⟨fails, -⟩ | ⟨-, -, _, err, read, @⟨options, sources, checkers, load, documents, chosen⟩,
      presents⟩
  · exact (fails.elim configured loaded).elim
  refine ⟨options, sources, _, load, documents, Runner.mapM_run chosen sources, ?_, ?_, ?_⟩
  · apply framesLines_of_resolve Registry.hasBuiltins_builtin
      (Registry.mem_names_of_resolve chosen) chosen
    intro source member
    rcases World.name_of_mem_documents? documents source member with input | path
    · rw [input]
      decide
    · exact named _ path
  · intro unnamed
    obtain ⟨result, ends⟩ := exists_present_gcc_out gcc unnamed call.verbosity _
      { files := world.files, err := err, inputRead := read }
    rw [run_of_parseCall parsed check, presents, ends]
    cases result with
    | ok exit => exact ⟨String.empty_append, rfl⟩
    | error abort => exact ⟨String.empty_append, rfl⟩
  · intro after given clean written
    obtain ⟨err', ends⟩ := outcome_present_gcc_file gcc given clean call.verbosity _
      (t := { files := world.files, err := err, inputRead := read }) written
    rw [run_of_parseCall parsed check, presents, ends]
    exact ⟨rfl, rfl⟩

/-- **One line a finding.** Runs of the checkers of the language on documents whose names hold no
newline are written, in the one-line form, as one line for each finding, in the order of the
documents and of their findings, and nothing is written if there is none. A whole call writes these
lines, to standard output or to its file. Messages hold no control character, whatever the text, and
lines under one path are equal only for findings with the same position, severity, message and
code. -/
theorem gcc_writes_one_decodable_line_per_finding :
    (∀ runner : Runner, runner.registry.HasBuiltins →
      ∀ (names : List String) (sources : List Source),
      (∀ name ∈ names, name ∈ Registry.builtin.names) →
      (∀ source ∈ sources, '\n' ∉ source.name.toList) →
      ∃ results, sources.mapM (runner.run · (some names)) = .ok results ∧
        FramesLines (gccText results) (gccReport results) ∧
        ∀ (world : World) (request : CheckRequest) (place : Option (List String))
          (t : Transcript), request.format = some .gcc →
          (writeResults world request results place).outcome t =
            if gccReport results = [] then (.ok (), t)
            else (Session.writeTo world.output place (gccText results)).outcome t) ∧
    (∀ (world : World) (arguments : List String) (call : Call) (request : CheckRequest),
      parseCall world.dashes arguments = .ok call → call.command = some (.check request) →
      request.format = some .gcc → ¬ request.selection.Misconfigured world.environment →
      ¬ request.selection.Unloadable world → (∀ path ∈ request.paths, '\n' ∉ path.toList) →
      ∃ options sources results,
        Options.load request.selection.overrides world.environment = .ok options ∧
        world.documents? false request.paths = some sources ∧
        sources.mapM ((request.selection.runner options).run · (some request.selection.chosen)) =
          .ok results ∧
        GccOutcome world request results (run world arguments)) ∧
    (∀ (source : Source) (f : Finding), f.OfBuiltin source → Printable f.message) ∧
    (∀ (path : String) (a b : Source) (f g : Finding), f.OfBuiltin a → g.OfBuiltin b →
      f.gccLine path a.index = g.gccLine path b.index →
      a.index.position f.start = b.index.position g.start ∧ f.severity = g.severity ∧
        f.message = g.message ∧ f.code = g.code) := by
  refine ⟨?_, ?_, fun source f found => found.printable, ?_⟩
  · intro runner registered names sources known named
    obtain ⟨checkers, rfl, builtins⟩ := Registry.exists_builtin_of_names known
    have chosen := Registry.resolve_map_name fun c hc => registered c (builtins c hc)
    refine ⟨_, Runner.mapM_run chosen sources,
      framesLines_of_resolve registered known chosen named, ?_⟩
    intro world request place t gcc
    rw [outcome_writeResults_gcc gcc]
    simp only [gccText_eq_empty_iff]
  · intro world arguments call request parsed check gcc configured loaded named
    exact exists_gccOutcome parsed check gcc configured loaded named
  · intro path a b f g found found' same
    obtain ⟨c, code⟩ := found.exists_code
    obtain ⟨d, code'⟩ := found'.exists_code
    exact Finding.fields_of_gccLine_eq code code' same

/-- A clean document comes before one that lacks its semicolon: there is one line, under the name of
the second. The same line comes from another text at that path, and two clean documents leave
nothing. -/
theorem gcc_writes_one_decodable_line_per_finding_one_document :
    let arguments := ["check", "-", "a.tes", "-f", "gcc", "--checkers", "semicolons"]
    let line := "a.tes:1:11: error: Missing semicolon at end of statement [missingSemicolon]"
    let f := Terminators.checker.placed
      (.at .missingSemicolon "Missing semicolon at end of statement" 10 10)
    let a : Source := .ofString "a.tes" "let$ x = 1"
    let b : Source := .ofString "a.tes" "call(y, 2)\n"
    ((run oneDocument arguments).out = line ++ "\n" ∧
      (run oneDocument arguments).files = oneDocument.files) ∧
    (f.OfBuiltin a ∧ f.OfBuiltin b ∧ f.gccLine "a.tes" a.index = line ∧
      f.gccLine "a.tes" b.index = line ∧ Printable f.message ∧
      a.index.position f.start = b.index.position f.start) ∧
    ∃ results, [a, b].mapM (({} : Runner).run · (some ["strings"])) = .ok results ∧
      gccReport results = [] ∧ ∀ t,
        (writeResults oneDocument { format := some .gcc } results none).outcome t =
          (.ok (), t) := by
  intro arguments line f a b
  obtain ⟨writes, calls, prints, decodes⟩ := gcc_writes_one_decodable_line_per_finding
  refine ⟨?_, ?_, ?_⟩
  · have parsed : parseCall oneDocument.dashes arguments = .ok { command := some (.check
        { paths := ["-", "a.tes"], format := some .gcc, checkers := [some "semicolons"] }) } := rfl
    obtain ⟨options, sources, results, load, loaded, ran, outcome⟩ :=
      calls oneDocument arguments _ _ parsed rfl rfl (by
        rintro (missing | refused | ⟨given, unknown⟩)
        · exact absurd missing (by decide)
        · exact refused Environment.accepted_nil
        · rw [List.mem_singleton.1 given] at unknown
          exact unknown (by decide)) (by
        rintro ⟨path, member, missing⟩
        have found : ∀ path ∈ ["-", "a.tes"], (oneDocument.document? false path).isSome := by
          decide +kernel
        have here := found path member
        rw [missing] at here
        cases here) (by decide)
    obtain rfl := Except.ok.inj (load.symm.trans (show Options.load _ _ = .ok {} from rfl))
    obtain rfl := Option.some.inj (loaded.symm.trans (show oneDocument.documents? _ _ =
      some [⟨"<stdin>", []⟩, ⟨"a.tes", "let$ x = 1\n".toList⟩] from rfl))
    have chosen : Registry.builtin.resolve (some ["semicolons"]) = .ok [Terminators.checker] := rfl
    obtain rfl := Except.ok.inj (ran.symm.trans (Runner.mapM_run chosen _))
    have text : gccText (List.map (({} : Runner).runCheckers · [Terminators.checker])
        [⟨"<stdin>", []⟩, ⟨"a.tes", "let$ x = 1\n".toList⟩]) = line ++ "\n" := by
      decide +kernel
    exact text ▸ outcome.out rfl
  · have emitted (source : Source) (sites : (Terminators.sites source {}).map
        (Terminators.checker.finding source.length) = [f]) : f.OfBuiltin source :=
      ⟨Terminators.checker, by simp [Registry.builtinCheckers], {}, [], [f],
        congrArg Except.ok sites, List.mem_singleton_self f⟩
    have inA : f.OfBuiltin a := emitted a (by decide +kernel)
    have inB : f.OfBuiltin b := emitted b (by decide +kernel)
    have lineA : f.gccLine "a.tes" a.index = line := by decide +kernel
    have lineB : f.gccLine "a.tes" b.index = line := by decide +kernel
    exact ⟨inA, inB, lineA, lineB, prints a f inA,
      (decodes "a.tes" a b f f inA inB (lineA.trans lineB.symm)).1⟩
  · obtain ⟨results, ran, frames, written⟩ := writes {} Registry.hasBuiltins_builtin ["strings"]
      [a, b] (by decide) (by decide)
    have clean : gccReport results = [] := by
      obtain rfl := Except.ok.inj (ran.symm.trans (Runner.mapM_run
        (show Registry.builtin.resolve _ = .ok [Strings.checker] from rfl) _))
      decide +kernel
    refine ⟨results, ran, clean, fun t => ?_⟩
    rw [written oneDocument _ none t rfl, if_pos clean]

end CommandLine

end LexLint
