/-
What comes of a compiler run.

Whatever a compiler does, what goes wrong on the way from its run to an include tree ends alike:
there is no tree, and one error is noted.  But a run that cannot be carried out as it was asked
for ends in an exception that none of the stages catches, because its words cannot be handed over
or nobody can wait for as long as that.  The stages are taken one by one:

* `Ending.printed?`, `capture_eq_ok_iff` — a run gives a text to read exactly if it completed
  and printed something that is not blank;
* `familyOf?_tracing` — the options on the command line are those of the family by which the
  notices are read;
* `ofText_of_ok`, `ofText_of_error` — a text gives its tree, or one error;
* `ofRun_cases` — the ways in which the reading of a run can end, with all that is noted;
* `launched_eq_raised_iff` — which runs cannot be carried out;
* `ofSource_yields` — when a run gives a tree, which one, what is noted, and what is let through.
-/
import IncludeTrace.Proofs.TraceTree
import IncludeTrace.Surroundings

namespace IncludeTrace

/-! ### Errors in a journal -/

namespace Journal

/-- The messages that are noted as errors. -/
def errors (j : Journal) : List String :=
  (j.logged.filter (·.1 = .error)).map Prod.snd

theorem errors_append (j k : Journal) : errors (j ++ k) = errors j ++ errors k := by
  rw [errors, errors, errors, logged_append, List.filter_append, List.map_append]

/-- Where only details are noted, there is no error, and nothing is run. -/
theorem errors_and_started_of_debug {j : Journal}
    (h : ∀ entry ∈ j, ∃ message, entry = .log .debug message) :
    errors j = [] ∧ started j = [] := by
  have hlogged : ∀ line ∈ logged j, line.1 = .debug := by
    intro line hline
    obtain ⟨entry, hentry, hsome⟩ := List.mem_filterMap.1 hline
    obtain ⟨message, rfl⟩ := h entry hentry
    rw [← Option.some.inj hsome]
  constructor
  · rw [errors, List.map_eq_nil_iff, List.filter_eq_nil_iff]
    intro line hline
    rw [hlogged line hline]
    decide
  · rw [started, List.filterMap_eq_nil_iff]
    intro entry hentry
    obtain ⟨message, rfl⟩ := h entry hentry
    rfl

end Journal

namespace TraceReader

/-- Only details are noted while a text is read. -/
theorem debug_of_mem_log {r : TraceReader} {text : String} {entry : JournalEntry}
    (h : entry ∈ r.log text) : ∃ message, entry = .log .debug message := by
  have hremarks : ∀ ns : List Notice, entry ∈ ns.flatMap r.remark →
      ∃ message, entry = .log .debug message := by
    intro ns hentry
    obtain ⟨n, -, hn⟩ := List.mem_flatMap.1 hentry
    rw [remark] at hn
    split at hn
    · exact ⟨_, List.mem_singleton.1 hn⟩
    · exact absurd hn List.not_mem_nil
  simp only [log] at h
  split at h
  · rcases List.mem_append.1 h with h | h
    · exact hremarks _ h
    · exact ⟨_, List.mem_singleton.1 h⟩
  · exact hremarks _ h

end TraceReader

/-! ### What a run prints -/

namespace Compiler

/-- Everything that a completed run printed, the error channel behind the output channel. -/
def Ending.printed? : Ending → Option String
  | .completed output errors _ => some (output.getD "" ++ errors.getD "")
  | .notFound | .timedOut | .failed _ _ | .raised _ => none

/-- Not everything in a text is blank. -/
def Readable (text : String) : Prop :=
  ∃ c ∈ text.toList, Text.isBlank c = false

theorem readable_iff (text : String) :
    Readable text ↔ text.toList.all Text.isBlank = false := by
  rw [List.all_eq_false, Readable]
  simp only [Bool.not_eq_true]

theorem capture_eq_ok_iff {run : Invocation} {ending : Ending} {text : String} :
    capture run ending = .ok text ↔ ending.printed? = some text ∧ Readable text := by
  cases ending with
  | completed output errors status =>
    simp only [capture, Ending.printed?, Option.some.injEq, readable_iff]
    split
    · next hblank =>
      constructor
      · intro h
        exact absurd h (by simp)
      · rintro ⟨rfl, hreadable⟩
        exact absurd (hblank.symm.trans hreadable) Bool.noConfusion
    · next hblank =>
      constructor
      · intro h
        obtain rfl := Except.ok.inj h
        exact ⟨rfl, Bool.eq_false_iff.2 hblank⟩
      · rintro ⟨rfl, -⟩
        rfl
  | notFound =>
    simp only [capture, Ending.printed?]
    cases run.words <;> simp
  | timedOut => simp [capture, Ending.printed?]
  | failed number reason => simp [capture, Ending.printed?]
  | raised fault => simp [capture, Ending.printed?]

/-- An exception stays the exception that it is. -/
theorem capture_eq_raised_iff {run : Invocation} {ending : Ending} {fault : LaunchFault} :
    capture run ending = .error (.raised fault) ↔ ending = .raised fault := by
  cases ending with
  | completed output errors status =>
    simp only [capture]
    split <;> simp
  | notFound =>
    simp only [capture]
    cases run.words <;> simp
  | timedOut => simp [capture]
  | failed number reason => simp [capture]
  | raised other => simp [capture]

/-- A command with words always has a compiler that can be named. -/
theorem capture_ne_wordless {run : Invocation} (h : run.words ≠ []) (ending : Ending) :
    capture run ending ≠ .error .wordless := by
  cases ending with
  | completed output errors status =>
    simp only [capture]
    split <;> simp
  | notFound =>
    obtain ⟨word, words, hwords⟩ := List.exists_cons_of_ne_nil h
    simp [capture, hwords]
  | timedOut => simp [capture]
  | failed number reason => simp [capture]
  | raised fault => simp [capture]

/-- Of a run its start is noted, and never an error. -/
theorem errors_and_started_captureJournal (run : Invocation) (ending : Ending) :
    Journal.errors (captureJournal run ending) = [] ∧
      Journal.started (captureJournal run ending) = [run] := by
  cases ending with
  | completed output errors status =>
    by_cases hstatus : status = 0
    · simp only [captureJournal, if_pos hstatus]
      exact ⟨rfl, rfl⟩
    · simp only [captureJournal, if_neg hstatus]
      exact ⟨rfl, rfl⟩
  | notFound => exact ⟨rfl, rfl⟩
  | timedOut => exact ⟨rfl, rfl⟩
  | failed number reason => exact ⟨rfl, rfl⟩
  | raised fault => exact ⟨rfl, rfl⟩

/-! ### The family of a command -/

/-- The family whose options stand behind the compiler in a command. -/
def familyOf? (run : Invocation) : Option Family :=
  Family.all.find? fun f => (f.options.map some).isPrefixOf run.words.tail

/-- The options on the command line are those of the compiler's family. -/
theorem familyOf?_tracing (compiler source : String) (includeDirs : List String)
    (extra : List (Option String)) (timeout : Timeout) :
    familyOf? (.tracing compiler source includeDirs extra timeout) = some (family compiler) := by
  rw [familyOf?, Invocation.tracing, opening]
  cases family compiler with
  | msvc => rfl
  | gcc => rfl

end Compiler

/-! ### From a run to a tree -/

namespace Surroundings

open Compiler

variable {s : Surroundings} {r : Request} {text : String}

theorem ofText_of_ok {t : IncludeTree} (hsome : text ≠ "") (h : (s.reader r).tree text = .ok t) :
    s.ofText r (some text) = ⟨some t, (s.reader r).log text⟩ := by
  have hfilter : (some text).filter (· != "") = some text := by simp [hsome]
  simp only [ofText, hfilter, h]

theorem ofText_of_error {e : MalformedTrace} (hsome : text ≠ "")
    (h : (s.reader r).tree text = .error e) :
    s.ofText r (some text) = ⟨none, (s.reader r).log text
      ++ [.log .error ("Malformed include trace, discarding result: " ++ e.message)]⟩ := by
  have hfilter : (some text).filter (· != "") = some text := by simp [hsome]
  simp only [ofText, hfilter, h]

/-- The four ways in which the reading of a run can end: in an exception, or there is nothing to
read, or the notices cannot be nested, or there is a tree. -/
theorem ofRun_cases (s : Surroundings) (run : Invocation) (r : Request) :
    let noted := captureJournal run (s.compiler run)
    (∃ fault, s.compiler run = .raised fault ∧ s.ofRun run r = ⟨.error fault, noted⟩) ∨
    (∃ fault, capture run (s.compiler run) = .error fault ∧
      (∀ exception, s.compiler run ≠ .raised exception) ∧
      s.ofRun run r = ⟨.ok none, noted ++ [.log .error fault.message]⟩) ∨
    (∃ text e, capture run (s.compiler run) = .ok text ∧ (s.reader r).tree text = .error e ∧
      s.ofRun run r = ⟨.ok none, noted ++ ((s.reader r).log text
        ++ [.log .error ("Malformed include trace, discarding result: " ++ e.message)])⟩) ∨
    ∃ text t, capture run (s.compiler run) = .ok text ∧ (s.reader r).tree text = .ok t ∧
      s.ofRun run r = ⟨.ok (some t), noted ++ (s.reader r).log text⟩ := by
  intro noted
  cases hcapture : capture run (s.compiler run) with
  | error fault =>
    by_cases hraised : ∃ exception, fault = .raised exception
    · obtain ⟨exception, rfl⟩ := hraised
      refine .inl ⟨exception, capture_eq_raised_iff.1 hcapture, ?_⟩
      simp only [ofRun, printedBy, hcapture]
      rfl
    · refine .inr (.inl ⟨fault, rfl, fun exception h => ?_, ?_⟩)
      · rw [capture_eq_raised_iff.2 h] at hcapture
        exact hraised ⟨exception, (Except.error.inj hcapture).symm⟩
      · have hprinted : s.printedBy run = ⟨.ok none, noted ++ [.log .error fault.message]⟩ := by
          cases fault with
          | raised exception => exact absurd ⟨exception, rfl⟩ hraised
          | notFound compiler => simp only [printedBy, hcapture, noted]
          | timedOut limit => simp only [printedBy, hcapture, noted]
          | failed number reason => simp only [printedBy, hcapture, noted]
          | silent => simp only [printedBy, hcapture, noted]
          | wordless => simp only [printedBy, hcapture, noted]
        simp only [ofRun, hprinted]
  | ok text =>
    -- An empty text would not be traced at all, but it is not readable either.
    have hsome : text ≠ "" := by
      rintro rfl
      obtain ⟨c, hc, -⟩ := (capture_eq_ok_iff.1 hcapture).2
      exact absurd hc List.not_mem_nil
    cases htree : (s.reader r).tree text with
    | error e =>
      refine .inr (.inr (.inl ⟨text, e, rfl, htree, ?_⟩))
      simp only [ofRun, printedBy, hcapture, ofText_of_error hsome htree]
      rfl
    | ok t =>
      refine .inr (.inr (.inr ⟨text, t, rfl, htree, ?_⟩))
      simp only [ofRun, printedBy, hcapture, ofText_of_ok hsome htree]
      rfl

/-- What nobody catches comes out of the reading as it went in, and nothing else does. -/
theorem value_ofRun_eq_error_iff {run : Invocation} {fault : LaunchFault} :
    (s.ofRun run r).value = .error fault ↔ s.compiler run = .raised fault := by
  rw [← @capture_eq_raised_iff run]
  obtain ⟨exception, hraised, hrun⟩ | ⟨other, hcapture, hraised, hrun⟩ |
    ⟨text, e, hcapture, -, hrun⟩ | ⟨text, u, hcapture, -, hrun⟩ := s.ofRun_cases run r
  · simp [hrun, hraised, capture_eq_raised_iff]
  · simp [hrun, capture_eq_raised_iff, hraised]
  · simp [hrun, hcapture]
  · simp [hrun, hcapture]

theorem value_ofRun_eq_some_iff {run : Invocation} {t : IncludeTree} :
    (s.ofRun run r).value = .ok (some t) ↔
      ∃ text, (s.compiler run).printed? = some text ∧ Readable text ∧
        (s.reader r).tree text = .ok t := by
  have hread : (∃ text, (s.compiler run).printed? = some text ∧ Readable text ∧
      (s.reader r).tree text = .ok t) ↔
      ∃ text, capture run (s.compiler run) = .ok text ∧ (s.reader r).tree text = .ok t := by
    simp only [capture_eq_ok_iff, and_assoc]
  rw [hread]
  obtain ⟨exception, hraised, hrun⟩ | ⟨fault, hcapture, -, hrun⟩ |
    ⟨text, e, hcapture, htree, hrun⟩ | ⟨text, u, hcapture, htree, hrun⟩ := s.ofRun_cases run r
  · simp [hrun, hraised, capture]
  · simp [hrun, hcapture]
  · simp [hrun, hcapture, htree]
  · simp [hrun, hcapture, htree]

/-- How many errors are noted beside what comes of a run: one if that is no tree. -/
def errorsBeside : Except LaunchFault (Option IncludeTree) → Nat
  | .ok none => 1
  | .ok (some _) | .error _ => 0

/-- Without a tree one error is noted, and else none; and the run is all that is started. -/
theorem errors_and_started_ofRun (s : Surroundings) (run : Invocation) (r : Request) :
    (s.ofRun run r).journal.errors.length = errorsBeside (s.ofRun run r).value ∧
      (s.ofRun run r).journal.started = [run] := by
  obtain ⟨herrors, hstarted⟩ := errors_and_started_captureJournal run (s.compiler run)
  -- What is noted while a text is read counts for neither.
  have hlog (text : String) : Journal.errors ((s.reader r).log text) = [] ∧
      Journal.started ((s.reader r).log text) = [] :=
    Journal.errors_and_started_of_debug fun _ h => TraceReader.debug_of_mem_log h
  obtain ⟨exception, -, hrun⟩ | ⟨fault, -, -, hrun⟩ | ⟨text, e, -, -, hrun⟩ |
    ⟨text, u, -, -, hrun⟩ := s.ofRun_cases run r
  · rw [hrun]
    exact ⟨congrArg List.length herrors, hstarted⟩
  · simp only [hrun, Journal.errors_append, Journal.started_append, herrors, hstarted]
    exact ⟨rfl, rfl⟩
  · simp only [hrun, Journal.errors_append, Journal.started_append, herrors, hstarted,
      (hlog text).1, (hlog text).2]
    exact ⟨rfl, rfl⟩
  · simp only [hrun, Journal.errors_append, Journal.started_append, herrors, hstarted,
      (hlog text).1, (hlog text).2]
    exact ⟨rfl, rfl⟩

/-! ### Tracing a source file -/

/-- The reader of what a compiler prints about a source file, in the notices of a family. -/
def familyReader (s : Surroundings) (f : Family) (source : String) (includeDirs : List String)
    (mode : DisplayMode) : TraceReader where
  style := f.style NoticeStyle.usualMarker
  mode := mode
  bases := baseDirectories s.folder (some s.searchPath) (some source) includeDirs
  source := some source

/-- What comes of a run with a reader for its notices. -/
structure Yields (s : Surroundings) (run : Invocation) (reader : TraceReader)
    (found : Noted (Except LaunchFault (Option IncludeTree))) : Prop where
  started : found.journal.started = [run]
  /-- There is always a compiler that can be named. -/
  named : capture run (s.compiler run) ≠ .error .wordless
  /-- An exception comes out exactly if the run ended in it. -/
  raises_iff : ∀ fault, found.value = .error fault ↔ s.compiler run = .raised fault
  /-- There is a tree exactly if the run completed, something was printed, and the notices in
  it are nested. -/
  exists_tree_iff : (∃ t, found.value = .ok (some t)) ↔
    ∃ text, (s.compiler run).printed? = some text ∧ Readable text ∧
      NestedFrom 0 ((notices reader.style text).map Notice.depth)
  tree : ∀ t, found.value = .ok (some t) →
    ∃ text, (s.compiler run).printed? = some text ∧ reader.tree text = .ok t
  /-- One error is noted where there is neither a tree nor an exception, and else none. -/
  errors : found.journal.errors.length = errorsBeside found.value

theorem reader_compilerRequest (s : Surroundings) (compiler source : String)
    (includeDirs : List String) (mode : DisplayMode) :
    s.reader (compilerRequest compiler source includeDirs mode)
      = s.familyReader (family compiler) source includeDirs mode := by
  rw [reader, compilerRequest, familyReader]

theorem value_ofSource_eq_some_iff {compiler source : String} {includeDirs extra : List String}
    {mode : DisplayMode} {timeout : Timeout} {t : IncludeTree} :
    (s.ofSource compiler source includeDirs extra mode timeout).value = .ok (some t) ↔
      ∃ text, (s.compiler (.tracing compiler source includeDirs (extra.map some) timeout)).printed?
          = some text ∧ Readable text ∧
        (s.familyReader (family compiler) source includeDirs mode).tree text = .ok t := by
  rw [ofSource, value_ofRun_eq_some_iff, reader_compilerRequest]

theorem value_ofCompiler_eq_some_iff {compiler source : String} {includeDirs extra : List String}
    {mode : DisplayMode} {timeout : Timeout} {t : IncludeTree} :
    (s.ofCompiler compiler source includeDirs extra mode timeout).value = some t ↔
      ∃ text, (s.compiler (.tracing compiler source includeDirs (extra.map some) timeout)).printed?
          = some text ∧ Readable text ∧
        (s.familyReader (family compiler) source includeDirs mode).tree text = .ok t := by
  rw [← value_ofSource_eq_some_iff, ofCompiler]
  show (s.ofSource ..).value.toOption.join = some t ↔ _
  cases (s.ofSource compiler source includeDirs extra mode timeout).value with
  | error fault => simp [Except.toOption]
  | ok found => simp [Except.toOption]

/-- Notices are nested exactly if a reader finds a tree. -/
theorem nestedFrom_iff_exists_tree (reader : TraceReader) (text : String) :
    NestedFrom 0 ((notices reader.style text).map Notice.depth) ↔
      ∃ t, reader.tree text = .ok t := by
  constructor
  · intro h
    obtain ⟨f, -, htree⟩ := reader.tree_of_nested h
    exact ⟨_, htree⟩
  · rintro ⟨t, htree⟩
    have hlist := ((reader.tree_eq_ok_iff_preorder text t).1 htree).1
    have hnested := Forest.nestedFrom_preorder t.includes
    rw [hlist, List.map_map] at hnested
    exact hnested

/-! ### Runs that cannot be carried out -/

theorem launched_eq_raised_iff {run : Invocation} {ending : Ending} :
    (∃ fault, run.launched ending = .raised fault) ↔
      (∃ word ∈ run.words, Invocation.wordFault? word ≠ none) ∨
        ending.wasStarted = true ∧ run.timeout.fault? ≠ none ∨ ∃ fault, ending = .raised fault := by
  cases hwords : run.words.findSome? Invocation.wordFault? with
  | some fault =>
    obtain ⟨word, hword, hfault⟩ := List.exists_of_findSome?_eq_some hwords
    -- The words are looked at before anything is started, so here the timeout does not matter.
    refine iff_of_true ⟨fault, by simp only [Invocation.launched, hwords]⟩ (.inl ⟨word, hword, ?_⟩)
    rw [hfault]
    exact Option.some_ne_none fault
  | none =>
    rw [List.findSome?_eq_none_iff] at hwords
    rw [or_iff_right fun ⟨word, hword, hfault⟩ => hfault (hwords word hword)]
    rw [← List.findSome?_eq_none_iff] at hwords
    cases htimeout : run.timeout.fault? with
    | none => simp [Invocation.launched, hwords, htimeout]
    | some fault =>
      by_cases hstarted : ending.wasStarted = true
      · simp [Invocation.launched, hwords, htimeout, hstarted]
      · simp [Invocation.launched, hwords, htimeout, hstarted]

/-- The words of a run can be handed over exactly if none of the texts that it is made of holds a
null character. -/
theorem exists_wordFault_tracing_iff (compiler source : String) (includeDirs extra : List String)
    (timeout : Timeout) :
    (∃ word ∈ (Invocation.tracing compiler source includeDirs (extra.map some) timeout).words,
        Invocation.wordFault? word ≠ none) ↔
      ∃ word ∈ compiler :: source :: (includeDirs ++ extra), '\x00' ∈ word.toList := by
  have hfault : ∀ word, Invocation.wordFault? (some word) ≠ none ↔ '\x00' ∈ word.toList := by
    intro word
    rw [Invocation.wordFault?]
    simp
  -- What the library adds to the caller's words has no null character, so it changes nothing.
  have hoptions : ∀ f : Family, ∀ word ∈ f.options, '\x00' ∉ word.toList := by
    intro f
    cases f <;> decide
  have hoption : ∀ (f : Family) (d : String),
      '\x00' ∈ (f.includeOption d).toList ↔ '\x00' ∈ d.toList := by
    intro f d
    cases f <;> simp [Family.includeOption]
  rw [Invocation.words_tracing, command, opening]
  simp only [List.mem_map, List.mem_append, List.mem_cons, List.not_mem_nil, or_false]
  constructor
  · rintro ⟨-, ⟨word, hword, rfl⟩, hnull⟩
    rw [hfault] at hnull
    rcases hword with (((rfl | hword) | ⟨d, hd, rfl⟩) | hword) | rfl
    · exact ⟨word, .inl rfl, hnull⟩
    · exact absurd hnull (hoptions _ word hword)
    · exact ⟨d, .inr (.inr (.inl hd)), (hoption _ d).1 hnull⟩
    · exact ⟨word, .inr (.inr (.inr hword)), hnull⟩
    · exact ⟨word, .inr (.inl rfl), hnull⟩
  · rintro ⟨word, hword, hnull⟩
    rcases hword with rfl | rfl | hword | hword
    · exact ⟨_, ⟨word, .inl (.inl (.inl (.inl rfl))), rfl⟩, (hfault word).2 hnull⟩
    · exact ⟨_, ⟨word, .inr rfl, rfl⟩, (hfault word).2 hnull⟩
    · exact ⟨_, ⟨_, .inl (.inl (.inr ⟨word, hword, rfl⟩)), rfl⟩,
        (hfault _).2 ((hoption _ word).2 hnull)⟩
    · exact ⟨_, ⟨word, .inl (.inr hword), rfl⟩, (hfault word).2 hnull⟩

/-- **A compiler run gives a tree or one error, unless it cannot be carried out.**  The notices are
read in the form that the options on the command line ask for.  There is a tree exactly if the run
completed, printed something and its notices are nested, whatever the exit status; all else that
can go wrong leaves no tree and one error behind.  Only the exception of a run that cannot be
carried out is let through: whatever the compiler does by itself, that is one with a null character
in a word, or one that is started with a limit for which nobody can wait. -/
theorem ofSource_yields (s : Surroundings) (compiler source : String)
    (includeDirs extra : List String) (mode : DisplayMode) (timeout : Timeout) :
    let run := Invocation.tracing compiler source includeDirs (extra.map some) timeout
    let traced (s : Surroundings) := s.ofSource compiler source includeDirs extra mode timeout
    (∃ f, familyOf? run = some f ∧
      s.Yields run (s.familyReader f source includeDirs mode) (traced s)) ∧
    (∀ output errors status other,
      (traced { s with compiler := fun _ => .completed output errors status }).value
        = (traced { s with compiler := fun _ => .completed output errors other }).value) ∧
    ∀ behaviour : Invocation → Ending,
      (∃ fault, (traced { s with compiler := fun run => run.launched (behaviour run) }).value
          = .error fault) ↔
        (∃ word ∈ compiler :: source :: (includeDirs ++ extra), '\x00' ∈ word.toList) ∨
          (behaviour run).wasStarted = true ∧ timeout.fault? ≠ none ∨
            ∃ fault, behaviour run = .raised fault := by
  intro run traced
  refine ⟨⟨family compiler, familyOf?_tracing .., ?_⟩, ?_, fun behaviour => ?_⟩
  · obtain ⟨herrors, hstarted⟩ :=
      errors_and_started_ofRun s run (compilerRequest compiler source includeDirs mode)
    refine ⟨hstarted, ?_, fun fault => value_ofRun_eq_error_iff, ?_, fun t ht => ?_, herrors⟩
    · exact capture_ne_wordless (List.append_ne_nil_of_right_ne_nil _ (List.cons_ne_nil _ _)) _
    · simp only [traced, value_ofSource_eq_some_iff, nestedFrom_iff_exists_tree]
      constructor
      · rintro ⟨t, text, hprinted, hreadable, htree⟩
        exact ⟨text, hprinted, hreadable, t, htree⟩
      · rintro ⟨text, hprinted, hreadable, t, htree⟩
        exact ⟨t, text, hprinted, hreadable, htree⟩
    · obtain ⟨text, hprinted, -, htree⟩ := value_ofSource_eq_some_iff.1 ht
      exact ⟨text, hprinted, htree⟩
  · -- Neither what was printed nor how it is read tells the exit status.
    intro output errors status other
    by_cases hblank : (output.getD "" ++ errors.getD "").toList.all Text.isBlank = true
    · simp only [traced, ofSource, ofRun, printedBy, capture, if_pos hblank]
    · simp only [traced, ofSource, ofRun, printedBy, capture, if_neg hblank]
      rfl
  · rw [← exists_wordFault_tracing_iff compiler source includeDirs extra timeout]
    refine Iff.trans (exists_congr fun fault => ?_) launched_eq_raised_iff
    exact value_ofRun_eq_error_iff

/-- A null character in an argument ends in an exception, and no error is noted. -/
theorem ofSource_raises :
    let s : Surroundings :=
      { folder := "/work", searchPath := "", disk := .blank [] [], input := .text "",
        compiler := fun run => run.launched (.completed (some "") (some ". a.h\n") 0) }
    let traced := s.ofSource "gcc" "a.c" [] ["-DA=\x00"] .shortestAvoidingUp (.whole 300)
    traced.value = .error .nullCharacter ∧ traced.journal.errors = [] := by
  decide +kernel

end Surroundings

end IncludeTrace
