import LexLint.CommandLine.Session
import LexLint.Proofs.Run.Turns

/-!
# Parts of a call that leave no trace

Reading documents, taking names from options and writing to the log change neither standard output
nor any file (`Session.Quietly`). The documents of a call are those that its paths had before it
(`World.documents?`), and they are read and checked quietly, all or up to the first that cannot be
read (`finds_mapM_checkPath`).
-/

namespace LexLint.CommandLine

/-- The exit code of an early end tells whether there was an interruption, or else a failure. -/
structure Abort.Tells (abort : Abort) (interrupted : Prop) : Prop where
  of_interrupted : interrupted → abort.exit = exitInterrupted
  of_calm : ¬ interrupted → abort.exit = exitFailure

theorem Abort.tells_failure (message : String) : (failure message).Tells False :=
  ⟨False.elim, fun _ => rfl⟩

theorem Abort.tells_crash (cause : Crash) : (crash cause).Tells False :=
  ⟨False.elim, fun _ => rfl⟩

theorem Abort.Tells.congr {abort : Abort} {p q : Prop} (h : abort.Tells p) (same : p ↔ q) :
    abort.Tells q :=
  propext same ▸ h

namespace Session

variable {α β : Type}

/-- What a part of a call comes to, and the transcript after it. -/
def outcome (s : Session α) (t : Transcript) : Except Abort α × Transcript :=
  StateT.run (ExceptT.run s) t

theorem outcome_bind (first : Session α) (second : α → Session β) (t : Transcript) :
    (first >>= second).outcome t =
      match first.outcome t with
      | (.ok a, after) => (second a).outcome after
      | (.error abort, after) => (.error abort, after) := by
  simp only [outcome, ExceptT.run_bind, StateT.run_bind]
  rcases StateT.run first.run t with ⟨failed | done, after⟩
  · rfl
  · rfl

theorem outcome_pure (a : α) (t : Transcript) : (pure a : Session α).outcome t = (.ok a, t) :=
  rfl

theorem outcome_throw (abort : Abort) (t : Transcript) :
    (throw abort : Session α).outcome t = (.error abort, t) :=
  rfl

theorem outcome_get (t : Transcript) : (get : Session Transcript).outcome t = (.ok t, t) :=
  rfl

theorem outcome_modify (change : Transcript → Transcript) (t : Transcript) :
    (modify change : Session PUnit).outcome t = (.ok PUnit.unit, change t) :=
  rfl

theorem outcome_writeErr (text : String) (t : Transcript) :
    (writeErr text).outcome t = (.ok (), { t with err := t.err ++ text }) :=
  rfl

/-- A part of a call comes to a result without a trace: afterwards standard output and all files
are as they were. -/
def Quietly (s : Session α) (t : Transcript) (result : Except Abort α) (inputRead : Bool) : Prop :=
  ∃ err, s.outcome t = (result, { t with err := err, inputRead := inputRead })

theorem quietly_pure (a : α) (t : Transcript) :
    (pure a : Session α).Quietly t (.ok a) t.inputRead :=
  ⟨t.err, rfl⟩

theorem quietly_throw (abort : Abort) (t : Transcript) :
    (throw abort : Session α).Quietly t (.error abort) t.inputRead :=
  ⟨t.err, rfl⟩

theorem quietly_writeErr (text : String) (t : Transcript) :
    (writeErr text).Quietly t (.ok ()) t.inputRead :=
  ⟨t.err ++ text, outcome_writeErr text t⟩

theorem quietly_log (verbosity : Nat) (level : LogLevel) (logger message : String)
    (t : Transcript) : (log verbosity level logger message).Quietly t (.ok ()) t.inputRead :=
  quietly_writeErr _ t

/-- What comes after a quiet part starts from the same output and files. -/
theorem Quietly.bind {first : Session α} {second : α → Session β} {t : Transcript} {a : α}
    {result : Except Abort β} {between after : Bool} (h : first.Quietly t (.ok a) between)
    (next : ∀ err, (second a).Quietly { t with err := err, inputRead := between } result after) :
    (first >>= second).Quietly t result after := by
  obtain ⟨err, done⟩ := h
  obtain ⟨err', done'⟩ := next err
  refine ⟨err', ?_⟩
  rw [outcome_bind, done]
  exact done'

theorem Quietly.abort {first : Session α} {second : α → Session β} {t : Transcript} {abort : Abort}
    {after : Bool} (h : first.Quietly t (.error abort) after) :
    (first >>= second).Quietly t (.error abort) after := by
  obtain ⟨err, done⟩ := h
  refine ⟨err, ?_⟩
  rw [outcome_bind, done]

/-- A part of a call quietly finds something, or quietly ends the call if there is nothing: as
interrupted, or as failed. -/
inductive Finds (s : Session α) (t : Transcript) (after : Bool) (interrupted : Prop) :
    Option α → Prop
  | found {a : α} (calm : ¬ interrupted) (quiet : s.Quietly t (.ok a) after) :
    Finds s t after interrupted (some a)
  | missing {abort : Abort} {read : Bool} (quiet : s.Quietly t (.error abort) read)
    (tells : abort.Tells interrupted) : Finds s t after interrupted none

theorem Finds.bind {first : Session α} {second : α → Session β} {t : Transcript} {a : α}
    {between after : Bool} {interrupted : Prop} {found : Option β}
    (h : first.Quietly t (.ok a) between)
    (next : ∀ err, (second a).Finds { t with err := err, inputRead := between } after interrupted
      found) :
    (first >>= second).Finds t after interrupted found := by
  obtain ⟨err, done⟩ := h
  have goesOn : (first >>= second).outcome t =
      (second a).outcome { t with err := err, inputRead := between } := by
    rw [outcome_bind, done]
  cases next err with
  | found calm quiet =>
    obtain ⟨err', done'⟩ := quiet
    exact .found calm ⟨err', goesOn.trans done'⟩
  | missing quiet tells =>
    obtain ⟨err', done'⟩ := quiet
    exact .missing ⟨err', goesOn.trans done'⟩ tells

theorem Finds.map {s : Session α} {t : Transcript} {after : Bool} {interrupted : Prop}
    {found : Option α} (h : s.Finds t after interrupted found) (f : α → β) :
    (s >>= fun a => pure (f a)).Finds t after interrupted (found.map f) := by
  cases h with
  | found calm quiet => exact .found calm (quiet.bind fun err => quietly_pure _ _)
  | missing quiet tells => exact .missing quiet.abort tells

/-- A line for each item of a list. -/
theorem quietly_forIn_log {items : List α} {write : α → Session PUnit}
    (quiet : ∀ item t, (write item).Quietly t (.ok ()) t.inputRead) (t : Transcript) :
    (forIn items PUnit.unit (fun item _ => do write item; pure (.yield PUnit.unit)) :
      Session PUnit).Quietly t (.ok ()) t.inputRead := by
  induction items generalizing t with
  | nil => exact quietly_pure _ t
  | cons item items ih =>
    have step : (do write item; pure (.yield PUnit.unit) : Session (ForInStep PUnit)).Quietly t
        (.ok (.yield PUnit.unit)) t.inputRead :=
      (quiet item t).bind fun err => quietly_pure _ _
    rw [List.forIn_cons]
    exact step.bind fun err => ih _

end Session

/-! ### Names -/

/-- The names in an option's texts. -/
def namesIn (texts : List (Option String)) : List String :=
  texts.flatMap fun text => commaNames (text.getD "")

/-- The names of further texts come after those that are there, and a text that is missing ends the
call. -/
theorem quietly_foldlM_names (texts : List (Option String)) (names : List String)
    (t : Transcript) :
    (texts.foldlM (fun names text => match text with
      | some s => pure (names ++ commaNames s)
      | none => throw (.crash .valueMissing)) names : Session (List String)).Quietly t
      (if none ∈ texts then .error (.crash .valueMissing) else .ok (names ++ namesIn texts))
      t.inputRead := by
  induction texts generalizing names t with
  | nil =>
    rw [if_neg List.not_mem_nil, namesIn, List.flatMap_nil, List.append_nil]
    exact Session.quietly_pure names t
  | cons text texts ih =>
    rw [List.foldlM_cons]
    cases text with
    | none =>
      rw [if_pos List.mem_cons_self]
      exact (Session.quietly_throw _ t).abort
    | some s =>
      have others := ih (names ++ commaNames s)
      simp only [namesIn, List.flatMap_cons, List.mem_cons, reduceCtorEq, false_or,
        Option.getD_some, List.append_assoc] at others ⊢
      exact (Session.quietly_pure _ t).bind fun err => others _

theorem quietly_allNames (texts : List (Option String)) (t : Transcript) :
    (allNames texts).Quietly t
      (if none ∈ texts then .error (.crash .valueMissing) else .ok (namesIn texts))
      t.inputRead :=
  quietly_foldlM_names texts [] t

/-! ### Documents -/

/-- The document at a path before a call. Standard input is empty once it has been read. -/
def World.document? (world : World) (inputRead : Bool) (path : String) : Option Source :=
  if path = "-" then
    if inputRead then some ⟨"<stdin>", []⟩
    else world.input.bind fun octets =>
      (Utf8.decode octets).toOption.map fun text => ⟨"<stdin>", normalizeNewlines text⟩
  else if hasNul path then none
  else (world.files.read path).toOption.bind fun octets =>
    (Utf8.decode octets).toOption.map fun text => ⟨path, text⟩

/-- The documents at paths, if there is one at each. -/
def World.documents? (world : World) : Bool → List String → Option (List Source)
  | _, [] => some []
  | inputRead, path :: rest =>
    (world.document? inputRead path).bind fun source =>
      (world.documents? (inputRead || path == "-") rest).map (source :: ·)

/-- Standard input was to be read, and reading it was interrupted; all documents before were
read. -/
def World.Interrupts (world : World) (paths : List String) : Prop :=
  world.input = none ∧ ∃ before after, paths = before ++ "-" :: after ∧
    ∀ path ∈ before, (world.document? false path).isSome

theorem World.document?_of_ne {world : World} {path : String} (h : path ≠ "-") (inputRead : Bool) :
    world.document? inputRead path = world.document? false path := by
  simp only [document?, h, if_false]

theorem outcome_requirePath {path : String} (noNul : hasNul path = false) (t : Transcript) :
    (requirePath path).outcome t = (.ok (), t) := by
  rw [requirePath, noNul]
  rfl

theorem finds_readFile {world : World} {path : String} {t : Transcript}
    (files : t.files = world.files) (named : path ≠ "-") :
    (readFile path).Finds t t.inputRead False (world.document? t.inputRead path) := by
  rw [World.document?, if_neg named, ← files]
  by_cases nul : hasNul path
  · have refused : (readFile path).outcome t = (.error (.crash .nulInPath), t) := by
      simp only [readFile, requirePath, nul, Session.outcome_bind, Session.outcome_throw, if_true]
    rw [if_pos nul]
    exact .missing ⟨t.err, refused⟩ (Abort.tells_crash _)
  · have opens := outcome_requirePath (Bool.eq_false_iff.2 nul) t
    rw [if_neg nul]
    cases contents : t.files.read path with
    | error e =>
      have refused : ∃ message, (readFile path).outcome t = (.error (.failure message), t) := by
        simp only [readFile, Session.outcome_bind, opens, Session.outcome_get, contents]
        cases e <;> exact ⟨_, rfl⟩
      obtain ⟨message, refused⟩ := refused
      exact .missing ⟨t.err, refused⟩ (Abort.tells_failure _)
    | ok octets =>
      simp only [Except.toOption, Option.bind_some]
      cases decoded : Utf8.decode octets with
      | error fault =>
        have refused : ∃ message, (readFile path).outcome t = (.error (.failure message), t) := by
          simp only [readFile, Session.outcome_bind, opens, Session.outcome_get, contents, decoded]
          exact ⟨_, rfl⟩
        obtain ⟨message, refused⟩ := refused
        exact .missing ⟨t.err, refused⟩ (Abort.tells_failure _)
      | ok text =>
        have reads : (readFile path).outcome t = (.ok ⟨path, text⟩, t) := by
          simp only [readFile, Session.outcome_bind, opens, Session.outcome_get, contents, decoded]
          rfl
        exact .found id ⟨t.err, reads⟩

theorem finds_readInput (world : World) (t : Transcript) :
    (readInput world).Finds t true (t.inputRead = false ∧ world.input = none)
      (world.document? t.inputRead "-") := by
  rw [World.document?, if_pos rfl]
  cases already : t.inputRead with
  | true =>
    have again : (readInput world).outcome t = (.ok ⟨"<stdin>", []⟩, t) := by
      simp only [readInput, Session.outcome_bind, Session.outcome_get, already, if_true,
        Session.outcome_pure]
    refine .found (by simp) ⟨t.err, again.trans ?_⟩
    rw [← already]
  | false =>
    rw [if_neg Bool.false_ne_true]
    cases input : world.input with
    | none =>
      have interrupted : (readInput world).outcome t = (.error .interrupted, t) := by
        simp only [readInput, Session.outcome_bind, Session.outcome_get, already, input]
        rfl
      exact .missing ⟨t.err, interrupted⟩ ⟨fun _ => rfl, fun calm => absurd ⟨rfl, rfl⟩ calm⟩
    | some octets =>
      rw [Option.bind_some]
      cases decoded : Utf8.decode octets with
      | error fault =>
        have refused : (readInput world).outcome t =
            (.error (.crash (.encoding fault)), { t with inputRead := true }) := by
          simp only [readInput, Session.outcome_bind, Session.outcome_get, already, input, decoded]
          rfl
        exact .missing ⟨t.err, refused⟩ ((Abort.tells_crash _).congr (by simp))
      | ok text =>
        have reads : (readInput world).outcome t =
            (.ok ⟨"<stdin>", normalizeNewlines text⟩, { t with inputRead := true }) := by
          simp only [readInput, Session.outcome_bind, Session.outcome_get, already, input, decoded]
          rfl
        exact .found (by simp) ⟨t.err, reads⟩

theorem finds_readSource {world : World} {t : Transcript} (files : t.files = world.files)
    (path : String) :
    (readSource world path).Finds t (t.inputRead || path == "-")
      (path = "-" ∧ t.inputRead = false ∧ world.input = none)
      (world.document? t.inputRead path) := by
  by_cases input : path = "-"
  · subst input
    have reads := finds_readInput world t
    simpa [readSource] using reads
  · have other : (path == "-") = false := beq_false_of_ne input
    have reads := finds_readFile files input
    simpa only [readSource, input, other, Bool.or_false, false_and, if_false] using reads

/-- A document that is found is checked. -/
theorem finds_checkPath {world : World} {runner : Runner} {names : List String}
    {checkers : List Checker} (chosen : runner.registry.resolve (some names) = .ok checkers)
    (verbosity : Nat) {t : Transcript} (files : t.files = world.files) (path : String) :
    (checkPath world verbosity runner names path).Finds t (t.inputRead || path == "-")
      (path = "-" ∧ t.inputRead = false ∧ world.input = none)
      ((world.document? t.inputRead path).map (runner.runCheckers · checkers)) := by
  have reads := finds_readSource files path
  cases document : world.document? t.inputRead path with
  | none =>
    rw [document] at reads
    cases reads with
    | missing quiet tells => exact .missing quiet.abort tells
  | some source =>
    rw [document] at reads
    cases reads with
    | found calm quiet =>
      refine .found calm (quiet.bind fun err => ?_)
      refine (Session.quietly_log _ _ _ _ _).bind fun err => ?_
      rw [Runner.run, chosen]
      refine (Session.quietly_forIn_log ?_ _).bind fun err => Session.quietly_pure _ _
      intro turn t
      exact Session.quietly_log _ _ _ _ t

/-- Whether there is a document does not depend on what was read before, as long as standard input
could be read. -/
theorem World.document?_eq_none_iff {world : World} {inputRead : Bool}
    (readable : inputRead = true → world.document? false "-" ≠ none) (path : String) :
    world.document? inputRead path = none ↔ world.document? false path = none := by
  cases inputRead with
  | false => rfl
  | true =>
    by_cases input : path = "-"
    · subst input
      constructor
      · intro none
        cases none
      · intro none
        exact absurd none (readable rfl)
    · rw [document?_of_ne input]

theorem World.documents?_eq_none_iff {world : World} {inputRead : Bool}
    (readable : inputRead = true → world.document? false "-" ≠ none) (paths : List String) :
    world.documents? inputRead paths = none ↔
      ∃ path ∈ paths, world.document? false path = none := by
  induction paths generalizing inputRead with
  | nil => simp [documents?]
  | cons path rest ih =>
    have first := document?_eq_none_iff readable path
    simp only [documents?, List.mem_cons, exists_eq_or_imp]
    rw [← first]
    cases found : world.document? inputRead path with
    | none => simp
    | some source =>
      have known : world.document? false path ≠ none := by
        rw [ne_eq, ← first, found]
        simp
      have readable' : (inputRead || path == "-") = true → world.document? false "-" ≠ none := by
        intro read
        rcases Bool.or_eq_true_iff.1 read with earlier | now
        · exact readable earlier
        · exact beq_iff_eq.1 now ▸ known
      simp only [Option.bind_some, Option.map_eq_none_iff, reduceCtorEq, false_or]
      exact ih readable'

theorem World.interrupts_cons {world : World} {path : String} {rest : List String} :
    world.Interrupts (path :: rest) ↔
      world.input = none ∧
        (path = "-" ∨ (world.document? false path).isSome ∧ world.Interrupts rest) := by
  constructor
  · rintro ⟨input, before, after, split, loaded⟩
    refine ⟨input, ?_⟩
    cases before with
    | nil => exact .inl (List.cons.inj split).1
    | cons first before =>
      obtain ⟨rfl, rfl⟩ := List.cons.inj split
      rw [List.forall_mem_cons] at loaded
      exact .inr ⟨loaded.1, input, before, after, rfl, loaded.2⟩
  · rintro ⟨input, rfl | ⟨first, -, before, after, rfl, loaded⟩⟩
    · exact ⟨input, [], rest, rfl, by simp⟩
    · exact ⟨input, path :: before, after, rfl, List.forall_mem_cons.2 ⟨first, loaded⟩⟩

/-- A document that is missing because of an interruption is the first that is. -/
theorem World.interrupts_cons_of_missing {world : World} {inputRead : Bool} {path : String}
    (missing : world.document? inputRead path = none) (rest : List String) :
    (inputRead = false ∧ world.Interrupts (path :: rest)) ↔
      path = "-" ∧ inputRead = false ∧ world.input = none := by
  rw [interrupts_cons]
  constructor
  · rintro ⟨rfl, input, rfl | ⟨found, -⟩⟩
    · exact ⟨rfl, rfl, input⟩
    · rw [missing] at found
      cases found
  · rintro ⟨rfl, unread, input⟩
    exact ⟨unread, input, .inl rfl⟩

/-- After a document that was read, an interruption is one among the others. -/
theorem World.interrupts_cons_of_found {world : World} {inputRead : Bool} {path : String}
    {source : Source} (found : world.document? inputRead path = some source)
    (calm : ¬ (path = "-" ∧ inputRead = false ∧ world.input = none)) (rest : List String) :
    (inputRead = false ∧ world.Interrupts (path :: rest)) ↔
      (inputRead || path == "-") = false ∧ world.Interrupts rest := by
  rw [interrupts_cons, Bool.or_eq_false_iff, beq_eq_false_iff_ne]
  constructor
  · rintro ⟨unread, input, rest⟩
    have other : path ≠ "-" := fun same => calm ⟨same, unread, input⟩
    exact ⟨⟨unread, other⟩, (rest.resolve_left other).2⟩
  · rintro ⟨⟨rfl, -⟩, interrupts⟩
    exact ⟨rfl, interrupts.1, .inr ⟨Option.isSome_of_eq_some found, interrupts⟩⟩

/-- The documents at the paths of a call are read and checked in their order, up to the first that
cannot be read. -/
theorem finds_mapM_checkPath {world : World} {runner : Runner} {names : List String}
    {checkers : List Checker} (chosen : runner.registry.resolve (some names) = .ok checkers)
    (verbosity : Nat) (paths : List String) {t : Transcript} (files : t.files = world.files) :
    (paths.mapM (checkPath world verbosity runner names)).Finds t
      (t.inputRead || paths.contains "-") (t.inputRead = false ∧ world.Interrupts paths)
      ((world.documents? t.inputRead paths).map (·.map (runner.runCheckers · checkers))) := by
  induction paths generalizing t with
  | nil =>
    have calm : ¬ (t.inputRead = false ∧ world.Interrupts []) := by
      rintro ⟨-, -, before, after, split, -⟩
      simp at split
    rw [List.mapM_nil]
    refine .found calm ?_
    simpa using Session.quietly_pure _ t
  | cons path rest ih =>
    rw [List.mapM_cons, World.documents?]
    have first := finds_checkPath chosen verbosity files path
    cases document : world.document? t.inputRead path with
    | none =>
      rw [document] at first
      rw [World.interrupts_cons_of_missing document]
      cases first with
      | missing quiet tells => exact .missing quiet.abort tells
    | some source =>
      rw [document] at first
      cases first with
      | found calm quiet =>
        have read : (t.inputRead || (path :: rest).contains "-") =
            ((t.inputRead || path == "-") || rest.contains "-") := by
          rw [List.contains_cons, Bool.or_assoc, Bool.beq_comm]
        rw [World.interrupts_cons_of_found document calm, read, Option.bind_some, Option.map_map]
        apply Session.Finds.bind quiet
        intro err
        have others := ih (t := { t with err := err, inputRead := t.inputRead || path == "-" })
          files
        have all := others.map (runner.runCheckers source checkers :: ·)
        rw [Option.map_map] at all
        exact all

end LexLint.CommandLine
