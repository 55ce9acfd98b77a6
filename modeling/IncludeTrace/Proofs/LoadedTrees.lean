/-
When the settings give a tree.

A load goes through many hands, and each of them can stop it.  In the end there are three
possibilities: a tree, a breakdown, or a word to the user and no tree.  The first two are
described here without the order in which the settings are looked at; where neither is the
case, there is no tree:

* `Surroundings.Prints`, `Surroundings.Offers` — the texts that a compiler run and the name
  of a trace stand for;
* `Settings.Supplies`, `Settings.Obtains` — the text that the settings ask for and how it is
  to be read, and the tree in it;
* `Settings.Stuck` — the ways in which a load breaks down;
* `Settings.load_eq_some_iff`, `Settings.load_eq_error_iff` — these are what a load comes to;
* `Settings.source_of_obtains` — the source file of a tree is the one that was named;
* `Settings.started_load` — one compiler run is started at most, and only for a file to
  compile that is there.
-/
import IncludeTrace.CommandLine.Loading
import IncludeTrace.Proofs.GraphFiles
import IncludeTrace.Proofs.TracedRuns

namespace IncludeTrace

/-! ### Faults with other names -/

section MapError

variable {ε δ α : Type} {f : ε → δ} {x : Except ε α}

theorem mapError_eq_ok_iff {a : α} : x.mapError f = .ok a ↔ x = .ok a := by
  cases x <;> simp [Except.mapError]

theorem mapError_eq_error_iff {d : δ} : x.mapError f = .error d ↔ ∃ e, x = .error e ∧ f e = d := by
  cases x <;> simp [Except.mapError]

end MapError

/-! ### Texts -/

namespace Disk

variable {d : Disk} {path : Location}

/-- A path leads to a file. -/
def HoldsFile (d : Disk) (path : Location) : Prop :=
  ∃ bytes, d.look path = .ok (some (.file bytes))

theorem not_holdsFile_of_tooLong (h : d.find path = .error .tooLong) : ¬ d.HoldsFile path := by
  rintro ⟨bytes, hbytes⟩
  exact nomatch (look_eq_error h).symm.trans hbytes

theorem find_eq_nullCharacter_iff :
    d.find path = .error .nullCharacter ↔ '\x00' ∈ path.text.toList := by
  constructor
  · intro h
    by_contra hclean
    exact d.find_ne_nullCharacter hclean h
  · intro h
    rw [find, if_pos (by simpa using h)]

theorem readText_eq_nullCharacter_iff (d : Disk) (path : Location) :
    d.readText path = .error .nullCharacter ↔ '\x00' ∈ path.text.toList := by
  rw [← find_eq_nullCharacter_iff (d := d), readText, read]
  cases hfind : d.find path with
  | error fault =>
    change (Except.error fault = Except.error DiskFault.nullCharacter) ↔ _
    simp only [Except.error.injEq]
  | ok place =>
    -- What stands at a place is no matter of how the path is spelled.
    dsimp only [bind, Except.bind]
    split <;> exact iff_of_false nofun nofun

end Disk

namespace Surroundings

variable {s : Surroundings} {r : Request} {text : String} {t : IncludeTree}

/-- A compiler run is completed, and it prints something to read. -/
def Prints (s : Surroundings) (run : Invocation) (text : String) : Prop :=
  (s.compiler run).printed? = some text ∧ Compiler.Readable text

/-- The name of a trace stands for a text: a dash for what is on the input channel, and
everything else for what is in a file. -/
def Offers (s : Surroundings) (trace text : String) : Prop :=
  if trace = "-" then
    ∃ input, s.input = .text input ∧ text = String.ofList (Text.universalNewlines input.toList)
  else s.disk.readText (.spelled trace) = .ok text

theorem Offers.unique {trace other : String} (h : s.Offers trace text)
    (h' : s.Offers trace other) : text = other := by
  rw [Offers] at h h'
  split at h
  · next hdash =>
    rw [if_pos hdash] at h'
    obtain ⟨input, hinput, rfl⟩ := h
    obtain ⟨other, hother, rfl⟩ := h'
    rw [Input.text.inj (hinput.symm.trans hother)]
  · next hdash =>
    rw [if_neg hdash] at h'
    exact Except.ok.inj (h.symm.trans h')

theorem not_offers_of_null (s : Surroundings) {trace : String} (hdash : trace ≠ "-")
    (hnull : '\x00' ∈ (Location.spelled trace).text.toList) (text : String) :
    ¬ s.Offers trace text := by
  rw [Offers, if_neg hdash, (s.disk.readText_eq_nullCharacter_iff _).2 hnull]
  exact nofun

theorem value_ofText_eq_some_iff :
    (s.ofText r (some text)).value = some t ↔ text ≠ "" ∧ (s.reader r).tree text = .ok t := by
  by_cases hsome : text = ""
  · subst hsome
    exact iff_of_false nofun fun h => h.1 rfl
  · cases htree : (s.reader r).tree text with
    | ok u => simp [ofText_of_ok hsome htree, hsome]
    | error e => simp [ofText_of_error hsome htree]

theorem value_printedBy_eq_some_iff (s : Surroundings) (run : Invocation) (text : String) :
    (s.printedBy run).value = .ok (some text) ↔ s.Prints run text := by
  rw [Prints, ← @Compiler.capture_eq_ok_iff run]
  cases hcapture : Compiler.capture run (s.compiler run) with
  | ok printed => simp [printedBy, hcapture]
  | error fault => cases fault <;> simp [printedBy, hcapture]

theorem value_printedBy_eq_error_iff (s : Surroundings) (run : Invocation) (fault : LaunchFault) :
    (s.printedBy run).value = .error fault ↔ s.compiler run = .raised fault := by
  rw [← @Compiler.capture_eq_raised_iff run]
  cases hcapture : Compiler.capture run (s.compiler run) with
  | ok printed => simp [printedBy, hcapture]
  | error other => cases other <;> simp [printedBy, hcapture]

theorem started_ofText (s : Surroundings) (r : Request) (text : String) :
    (s.ofText r (some text)).journal.started = [] := by
  by_cases hsome : text = ""
  · subst hsome
    rfl
  · have hlog := (Journal.errors_and_started_of_debug (j := (s.reader r).log text) fun _ h =>
      TraceReader.debug_of_mem_log h).2
    cases htree : (s.reader r).tree text with
    | ok t => rw [ofText_of_ok hsome htree, hlog]
    | error e =>
      rw [ofText_of_error hsome htree, Journal.started_append, hlog]
      rfl

theorem started_printedBy (s : Surroundings) (run : Invocation) :
    (s.printedBy run).journal.started = [run] := by
  have hnoted := (Compiler.errors_and_started_captureJournal run (s.compiler run)).2
  have herror : ∀ message, Journal.started (Compiler.captureJournal run (s.compiler run)
      ++ [.log .error message]) = [run] := by
    intro message
    rw [Journal.started_append, hnoted]
    rfl
  cases hcapture : Compiler.capture run (s.compiler run) with
  | ok text => simpa only [printedBy, hcapture] using hnoted
  | error fault =>
    cases fault with
    | raised exception => simpa only [printedBy, hcapture] using hnoted
    | notFound compiler => simpa only [printedBy, hcapture] using herror _
    | timedOut limit => simpa only [printedBy, hcapture] using herror _
    | failed number reason => simpa only [printedBy, hcapture] using herror _
    | silent => simpa only [printedBy, hcapture] using herror _
    | wordless => simpa only [printedBy, hcapture] using herror _

end Surroundings

namespace Settings

variable {x : Settings} {s : Surroundings} {mode : DisplayMode} {dialect : Compiler.Family}
  {compiler file trace text : String} {t : IncludeTree} {b : Breakdown}

/-! ### What is asked for -/

/-- The run in which a compiler goes through the file to be compiled. -/
def compilerRun (x : Settings) (compiler file : String) : Invocation :=
  .tracing compiler file (x.includeDirs.map (·.getD "[]")) x.compilerArgs x.timeout

/-- The settings lead to a text, and tell how it is to be read: a compiler prints it, or it is
a trace. -/
inductive Supplies (x : Settings) (s : Surroundings) : Request → String → Prop
  | printed {mode : DisplayMode} {file compiler : String} {directories : List String}
      {text : String} (hmode : x.mode = some mode) (hfile : x.compileFile = some file)
      (hthere : s.disk.HoldsFile (.spelled file)) (hcompiler : x.compiler = some compiler)
      (hdirectories : x.directories? = some directories)
      (hprints : s.Prints (x.compilerRun compiler file) text) :
      Supplies x s (Surroundings.compilerRequest compiler file directories mode) text
  | traced {mode : DisplayMode} {dialect : Compiler.Family} {trace : String} {r : Request}
      {text : String} (hmode : x.mode = some mode) (hfile : x.compileFile = none)
      (htrace : x.trace = some trace) (hdialect : x.dialect = some dialect)
      (hoffers : s.Offers trace text) (hsome : text ≠ "")
      (hrequest : x.request mode dialect = .ok r) : Supplies x s r text

/-- The settings lead to a tree. -/
def Obtains (x : Settings) (s : Surroundings) (t : IncludeTree) : Prop :=
  ∃ r text, x.Supplies s r text ∧ (s.reader r).tree text = .ok t

/-- A load breaks down: a name is too long or holds a null character, a switch was left blank
whose value is needed, the compiler run cannot be carried out, or the input is no text. -/
inductive Stuck (x : Settings) (s : Surroundings) : Breakdown → Prop
  | mode (hmode : x.mode = none) : Stuck x s (.blank .mode)
  | source {file : String} (hmode : x.mode.isSome) (hfile : x.compileFile = some file)
      (hlong : s.disk.find (.spelled file) = .error .tooLong) :
      Stuck x s (.notRead .tooLong (.spelled file))
  | compiler {file : String} (hmode : x.mode.isSome) (hfile : x.compileFile = some file)
      (hthere : s.disk.HoldsFile (.spelled file)) (hcompiler : x.compiler = none) :
      Stuck x s (.blank (.text .compiler))
  | ending {file compiler : String} {fault : LaunchFault} (hmode : x.mode.isSome)
      (hfile : x.compileFile = some file) (hthere : s.disk.HoldsFile (.spelled file))
      (hcompiler : x.compiler = some compiler)
      (hraised : s.compiler (x.compilerRun compiler file) = .raised fault) :
      Stuck x s (.blank (.ending fault))
  | directories {file compiler text : String} (hmode : x.mode.isSome)
      (hfile : x.compileFile = some file) (hthere : s.disk.HoldsFile (.spelled file))
      (hcompiler : x.compiler = some compiler) (hdirectories : x.directories? = none)
      (hprints : s.Prints (x.compilerRun compiler file) text) :
      Stuck x s (.blank (.text .includeDir))
  | dialect (hmode : x.mode.isSome) (hfile : x.compileFile = none) (htrace : x.trace.isSome)
      (hdialect : x.dialect = none) : Stuck x s (.blank .dialect)
  | trace {trace : String} (hmode : x.mode.isSome) (hfile : x.compileFile = none)
      (htrace : x.trace = some trace) (hdialect : x.dialect.isSome) (hdash : trace ≠ "-")
      (hnull : '\x00' ∈ (Location.spelled trace).text.toList) :
      Stuck x s (.notRead .nullCharacter (.spelled trace))
  | input {complaint : String} (hmode : x.mode.isSome) (hfile : x.compileFile = none)
      (htrace : x.trace = some "-") (hdialect : x.dialect.isSome)
      (hinput : s.input = .undecodable complaint) : Stuck x s (.blank (.input complaint))
  | request {mode : DisplayMode} {dialect : Compiler.Family} {trace text : String}
      {b : Breakdown} (hmode : x.mode = some mode) (hfile : x.compileFile = none)
      (htrace : x.trace = some trace) (hdialect : x.dialect = some dialect)
      (hoffers : s.Offers trace text) (hsome : text ≠ "")
      (hrequest : x.request mode dialect = .error b) : Stuck x s b

/-! ### The hands that a load goes through -/

theorem value_loadText_eq_some_iff :
    (x.loadText s mode dialect text).value = .ok (some t) ↔
      text ≠ "" ∧ ∃ r, x.request mode dialect = .ok r ∧ (s.reader r).tree text = .ok t := by
  rw [loadText]
  cases hrequest : x.request mode dialect with
  | ok r =>
    simp only [Noted.map, Except.ok.injEq, Surroundings.value_ofText_eq_some_iff,
      exists_eq_left']
  | error b =>
    by_cases hsome : text = ""
    · simp [hsome, Noted.map, Surroundings.withoutText]
    · simp [hsome, brokenBy]

theorem value_loadText_eq_error_iff :
    (x.loadText s mode dialect text).value = .error b ↔
      text ≠ "" ∧ x.request mode dialect = .error b := by
  rw [loadText]
  cases hrequest : x.request mode dialect with
  | ok r => simp [Noted.map]
  | error e =>
    by_cases hsome : text = ""
    · simp [hsome, Noted.map, Surroundings.withoutText]
    · simp [hsome, brokenBy]

/-- The four ways in which a trace is got hold of. -/
theorem loadTrace_cases (x : Settings) (s : Surroundings) (mode : DisplayMode)
    (dialect : Compiler.Family) (trace : String) :
    (∃ text, s.Offers trace text ∧
      x.loadTrace s mode dialect trace = x.loadText s mode dialect text) ∨
    (∃ complaint, trace = "-" ∧ s.input = .undecodable complaint ∧
      x.loadTrace s mode dialect trace = brokenBy (.blank (.input complaint))) ∨
    (trace ≠ "-" ∧ '\x00' ∈ (Location.spelled trace).text.toList ∧
      x.loadTrace s mode dialect trace = brokenBy (.notRead .nullCharacter (.spelled trace))) ∨
    (trace ≠ "-" ∧ '\x00' ∉ (Location.spelled trace).text.toList ∧
      (∀ text, ¬ s.Offers trace text) ∧ ∃ message,
        x.loadTrace s mode dialect trace = ⟨.ok none, [.log .error message]⟩) := by
  by_cases hdash : trace = "-"
  · cases hinput : s.input with
    | text input =>
      refine .inl ⟨_, by rw [Surroundings.Offers, if_pos hdash]; exact ⟨input, hinput, rfl⟩, ?_⟩
      simp only [loadTrace, if_pos hdash, hinput]
    | undecodable complaint =>
      refine .inr (.inl ⟨complaint, hdash, rfl, ?_⟩)
      simp only [loadTrace, if_pos hdash, hinput]
  · have hoffers : ∀ text, s.Offers trace text ↔
        s.disk.readText (.spelled trace) = .ok text := fun text => by
      rw [Surroundings.Offers, if_neg hdash]
    have hnull := s.disk.readText_eq_nullCharacter_iff (.spelled trace)
    cases hread : s.disk.readText (.spelled trace) with
    | ok text =>
      refine .inl ⟨text, (hoffers text).2 hread, ?_⟩
      simp only [loadTrace, if_neg hdash, Surroundings.textIn, hread]
    | error fault =>
      have hnone : ∀ text, ¬ s.Offers trace text := fun text h =>
        nomatch hread.symm.trans ((hoffers text).1 h)
      -- All other faults of the disk are answered with a message and no tree.
      by_cases hfault : fault = .nullCharacter
      · subst hfault
        refine .inr (.inr (.inl ⟨hdash, hnull.1 hread, ?_⟩))
        simp only [loadTrace, if_neg hdash, Surroundings.textIn, hread]
        rfl
      · refine .inr (.inr (.inr ⟨hdash, fun h => ?_, hnone, ?_⟩))
        · exact hfault (Except.error.inj (hread.symm.trans (hnull.2 h)))
        · simp only [loadTrace, if_neg hdash, Surroundings.textIn, hread]
          cases fault with
          | nullCharacter => exact absurd rfl hfault
          | _ => exact ⟨_, rfl⟩

theorem not_offers_of_undecodable {complaint : String} (hinput : s.input = .undecodable complaint)
    (text : String) : ¬ s.Offers "-" text := by
  rw [Surroundings.Offers, if_pos rfl]
  rintro ⟨input, htext, -⟩
  cases hinput.symm.trans htext

theorem value_loadTrace_eq_some_iff :
    (x.loadTrace s mode dialect trace).value = .ok (some t) ↔
      ∃ text, s.Offers trace text ∧ text ≠ "" ∧
        ∃ r, x.request mode dialect = .ok r ∧ (s.reader r).tree text = .ok t := by
  obtain ⟨text, hoffers, hload⟩ | ⟨complaint, rfl, hinput, hload⟩ | ⟨hdash, hnull, hload⟩ |
    ⟨-, -, hnone, message, hload⟩ := x.loadTrace_cases s mode dialect trace
  · rw [hload, value_loadText_eq_some_iff]
    refine ⟨fun h => ⟨text, hoffers, h⟩, ?_⟩
    rintro ⟨other, hother, h⟩
    rwa [hoffers.unique hother]
  · rw [hload]
    exact iff_of_false nofun fun ⟨text, h, _⟩ => not_offers_of_undecodable hinput text h
  · rw [hload]
    exact iff_of_false nofun fun ⟨text, h, _⟩ => s.not_offers_of_null hdash hnull text h
  · rw [hload]
    exact iff_of_false nofun fun ⟨text, h, _⟩ => hnone text h

theorem value_loadTrace_eq_error_iff :
    (x.loadTrace s mode dialect trace).value = .error b ↔
      (∃ complaint, trace = "-" ∧ s.input = .undecodable complaint ∧
        b = .blank (.input complaint)) ∨
      (trace ≠ "-" ∧ '\x00' ∈ (Location.spelled trace).text.toList ∧
        b = .notRead .nullCharacter (.spelled trace)) ∨
      ∃ text, s.Offers trace text ∧ text ≠ "" ∧ x.request mode dialect = .error b := by
  obtain ⟨text, hoffers, hload⟩ | ⟨complaint, rfl, hinput, hload⟩ | ⟨hdash, hnull, hload⟩ |
    ⟨hdash, hclean, hnone, message, hload⟩ := x.loadTrace_cases s mode dialect trace
  · rw [hload, value_loadText_eq_error_iff]
    refine ⟨fun h => .inr (.inr ⟨text, hoffers, h⟩), ?_⟩
    rintro (⟨complaint, rfl, hinput, -⟩ | ⟨hdash, hnull, -⟩ | ⟨other, hother, h⟩)
    · exact absurd hoffers (not_offers_of_undecodable hinput text)
    · exact absurd hoffers (s.not_offers_of_null hdash hnull text)
    · rwa [hoffers.unique hother]
  · rw [hload]
    constructor
    · intro h
      exact .inl ⟨complaint, rfl, hinput, (Except.error.inj h).symm⟩
    · rintro (⟨other, -, hother, rfl⟩ | ⟨hdash, -⟩ | ⟨text, h, -⟩)
      · rw [Input.undecodable.inj (hinput.symm.trans hother)]
        rfl
      · exact absurd rfl hdash
      · exact absurd h (not_offers_of_undecodable hinput text)
  · rw [hload]
    constructor
    · intro h
      exact .inr (.inl ⟨hdash, hnull, (Except.error.inj h).symm⟩)
    · rintro (⟨complaint, rfl, -⟩ | ⟨-, -, rfl⟩ | ⟨text, h, -⟩)
      · exact absurd rfl hdash
      · rfl
      · exact absurd h (s.not_offers_of_null hdash hnull text)
  · rw [hload]
    refine iff_of_false nofun ?_
    rintro (⟨complaint, rfl, -⟩ | ⟨-, hnull, -⟩ | ⟨text, h, -⟩)
    · exact hdash rfl
    · exact hclean hnull
    · exact hnone text h

theorem value_loadRun_eq_some_iff :
    (x.loadRun s mode compiler file).value = .ok (some t) ↔
      ∃ directories text, x.directories? = some directories ∧
        s.Prints (x.compilerRun compiler file) text ∧
        (s.reader (Surroundings.compilerRequest compiler file directories mode)).tree text
          = .ok t := by
  rw [loadRun]
  cases x.directories? with
  | some directories =>
    change Except.mapError _ (s.ofRun (x.compilerRun compiler file) _).value = _ ↔ _
    rw [mapError_eq_ok_iff, Surroundings.value_ofRun_eq_some_iff]
    constructor
    · rintro ⟨text, hprinted, hreadable, htree⟩
      exact ⟨directories, text, rfl, ⟨hprinted, hreadable⟩, htree⟩
    · rintro ⟨others, text, hothers, ⟨hprinted, hreadable⟩, htree⟩
      obtain rfl := Option.some.inj hothers
      exact ⟨text, hprinted, hreadable, htree⟩
  | none =>
    refine iff_of_false (fun h => ?_) nofun
    dsimp only [Noted.map] at h
    split at h <;> cases h

theorem value_loadRun_eq_error_iff :
    (x.loadRun s mode compiler file).value = .error b ↔
      (∃ fault, s.compiler (x.compilerRun compiler file) = .raised fault ∧
        b = .blank (.ending fault)) ∨
      b = .blank (.text .includeDir) ∧ x.directories? = none ∧
        ∃ text, s.Prints (x.compilerRun compiler file) text := by
  rw [loadRun]
  cases x.directories? with
  | some directories =>
    rw [or_iff_left fun h => nomatch h.2.1]
    change Except.mapError _ (s.ofRun (x.compilerRun compiler file) _).value = _ ↔ _
    simp only [mapError_eq_error_iff, Surroundings.value_ofRun_eq_error_iff, eq_comm (a := b)]
  | none =>
    have hprints := s.value_printedBy_eq_some_iff (x.compilerRun compiler file)
    have hraises := s.value_printedBy_eq_error_iff (x.compilerRun compiler file)
    dsimp only [Noted.map]
    rw [← compilerRun]
    cases hvalue : (s.printedBy (x.compilerRun compiler file)).value with
    | error fault =>
      have hraised := (hraises fault).1 hvalue
      constructor
      · intro h
        exact .inl ⟨fault, hraised, (Except.error.inj h).symm⟩
      · rintro (⟨other, hother, rfl⟩ | ⟨-, -, text, h⟩)
        · cases hraised.symm.trans hother
          rfl
        · exact nomatch hvalue.symm.trans ((hprints text).2 h)
    | ok found =>
      -- The blank directory is noticed only after the compiler has printed something.
      have hcaught : ∀ fault, s.compiler (x.compilerRun compiler file) ≠ .raised fault :=
        fun fault h => nomatch hvalue.symm.trans ((hraises fault).2 h)
      rw [or_iff_right fun ⟨fault, h, _⟩ => hcaught fault h]
      cases found with
      | none =>
        refine iff_of_false nofun ?_
        rintro ⟨-, -, text, h⟩
        exact nomatch hvalue.symm.trans ((hprints text).2 h)
      | some text =>
        constructor
        · intro h
          exact ⟨(Except.error.inj h).symm, rfl, text, (hprints text).1 hvalue⟩
        · rintro ⟨rfl, -⟩
          rfl

theorem loadSource_of_tooLong (x : Settings) (mode : DisplayMode)
    (h : s.disk.find (.spelled file) = .error .tooLong) :
    x.loadSource s mode file = brokenBy (.notRead .tooLong (.spelled file)) := by
  delta loadSource
  simp only [Disk.look_eq_error h]

theorem loadSource_of_blank (mode : DisplayMode) (h : s.disk.HoldsFile (.spelled file))
    (hcompiler : x.compiler = none) :
    x.loadSource s mode file = brokenBy (.blank (.text .compiler)) := by
  obtain ⟨bytes, hbytes⟩ := h
  delta loadSource
  simp only [hbytes, hcompiler]

theorem loadSource_of_holdsFile (mode : DisplayMode) (h : s.disk.HoldsFile (.spelled file))
    (hcompiler : x.compiler = some compiler) :
    x.loadSource s mode file = x.loadRun s mode compiler file := by
  obtain ⟨bytes, hbytes⟩ := h
  delta loadSource
  simp only [hbytes, hcompiler]

/-- The four ways in which a file to be compiled is got hold of. -/
theorem loadSource_cases (x : Settings) (s : Surroundings) (mode : DisplayMode) (file : String) :
    (s.disk.find (.spelled file) = .error .tooLong ∧ ¬ s.disk.HoldsFile (.spelled file) ∧
      x.loadSource s mode file = brokenBy (.notRead .tooLong (.spelled file))) ∨
    (s.disk.HoldsFile (.spelled file) ∧ x.compiler = none ∧
      x.loadSource s mode file = brokenBy (.blank (.text .compiler))) ∨
    (∃ compiler, s.disk.HoldsFile (.spelled file) ∧ x.compiler = some compiler ∧
      x.loadSource s mode file = x.loadRun s mode compiler file) ∨
    (¬ s.disk.HoldsFile (.spelled file) ∧
      x.loadSource s mode file
        = refused ("Can't trace includes, not a compilable file: " ++ file)) := by
  by_cases hlong : s.disk.find (.spelled file) = .error .tooLong
  · exact .inl ⟨hlong, Disk.not_holdsFile_of_tooLong hlong, x.loadSource_of_tooLong mode hlong⟩
  · obtain ⟨found, hfound⟩ := Disk.exists_look hlong
    -- Nothing or a directory stands there, or a file; only a file is compiled.
    rcases found with _ | _ | bytes
    · refine .inr (.inr (.inr ⟨?_, by delta loadSource; simp only [hfound]⟩))
      exact fun ⟨_, h⟩ => nomatch hfound.symm.trans h
    · refine .inr (.inr (.inr ⟨?_, by delta loadSource; simp only [hfound]⟩))
      exact fun ⟨_, h⟩ => nomatch hfound.symm.trans h
    · have hthere : s.disk.HoldsFile (.spelled file) := ⟨bytes, hfound⟩
      cases hcompiler : x.compiler with
      | none => exact .inr (.inl ⟨hthere, rfl, loadSource_of_blank mode hthere hcompiler⟩)
      | some compiler =>
        exact .inr (.inr (.inl
          ⟨compiler, hthere, rfl, loadSource_of_holdsFile mode hthere hcompiler⟩))

theorem value_loadSource_eq_some_iff :
    (x.loadSource s mode file).value = .ok (some t) ↔
      s.disk.HoldsFile (.spelled file) ∧ ∃ compiler, x.compiler = some compiler ∧
        (x.loadRun s mode compiler file).value = .ok (some t) := by
  obtain ⟨-, hnone, hload⟩ | ⟨-, hcompiler, hload⟩ | ⟨compiler, hthere, hcompiler, hload⟩ |
    ⟨hnone, hload⟩ := x.loadSource_cases s mode file
  · rw [hload]
    exact iff_of_false nofun fun h => hnone h.1
  · rw [hload]
    refine iff_of_false nofun ?_
    rintro ⟨-, compiler, h, -⟩
    exact nomatch hcompiler.symm.trans h
  · rw [hload]
    refine ⟨fun h => ⟨hthere, compiler, hcompiler, h⟩, ?_⟩
    rintro ⟨-, other, hother, h⟩
    obtain rfl := Option.some.inj (hcompiler.symm.trans hother)
    exact h
  · rw [hload]
    exact iff_of_false nofun fun h => hnone h.1

/-! ### What a load comes to -/

/-- **There is a tree exactly if the settings lead to one.** -/
theorem load_eq_some_iff : (x.load s).value = .ok (some t) ↔ x.Obtains s t := by
  constructor
  · intro h
    rw [load] at h
    split at h
    · cases h
    · next mode file hmode hfile =>
      obtain ⟨hthere, compiler, hcompiler, h⟩ := value_loadSource_eq_some_iff.1 h
      obtain ⟨directories, text, hdirectories, hprints, htree⟩ := value_loadRun_eq_some_iff.1 h
      exact ⟨_, text, .printed hmode hfile hthere hcompiler hdirectories hprints, htree⟩
    · cases h
    · cases h
    · next mode trace dialect hmode hfile htrace hdialect =>
      obtain ⟨text, hoffers, hsome, r, hrequest, htree⟩ := value_loadTrace_eq_some_iff.1 h
      exact ⟨r, text, .traced hmode hfile htrace hdialect hoffers hsome hrequest, htree⟩
  · rintro ⟨r, text, hsupplies, htree⟩
    cases hsupplies with
    | printed hmode hfile hthere hcompiler hdirectories hprints =>
      simp only [load, hmode, hfile]
      exact value_loadSource_eq_some_iff.2 ⟨hthere, _, hcompiler,
        value_loadRun_eq_some_iff.2 ⟨_, text, hdirectories, hprints, htree⟩⟩
    | traced hmode hfile htrace hdialect hoffers hsome hrequest =>
      simp only [load, hmode, hfile, htrace, hdialect]
      exact value_loadTrace_eq_some_iff.2 ⟨text, hoffers, hsome, r, hrequest, htree⟩

/-- A load that breaks down is stuck. -/
theorem stuck_of_load_eq_error (h : (x.load s).value = .error b) : x.Stuck s b := by
  rw [load] at h
  split at h
  · next hmode =>
    obtain rfl := Except.error.inj h
    exact .mode hmode
  · next mode file hmode hfile =>
    have hsome : x.mode.isSome := by rw [hmode]; rfl
    obtain ⟨hlong, -, hload⟩ | ⟨hthere, hcompiler, hload⟩ |
      ⟨compiler, hthere, hcompiler, hload⟩ | ⟨-, hload⟩ := x.loadSource_cases s mode file
    · rw [hload] at h
      obtain rfl := Except.error.inj h
      exact .source hsome hfile hlong
    · rw [hload] at h
      obtain rfl := Except.error.inj h
      exact .compiler hsome hfile hthere hcompiler
    · -- A run of the compiler can fail in two ways of its own.
      rw [hload] at h
      obtain ⟨fault, hraised, rfl⟩ | ⟨rfl, hdirectories, text, hprints⟩ :=
        value_loadRun_eq_error_iff.1 h
      · exact .ending hsome hfile hthere hcompiler hraised
      · exact .directories hsome hfile hthere hcompiler hdirectories hprints
    · rw [hload] at h
      cases h
  · cases h
  · next mode trace hmode hfile htrace hdialect =>
    obtain rfl := Except.error.inj h
    exact .dialect (by rw [hmode]; rfl) hfile (by rw [htrace]; rfl) hdialect
  · next mode trace dialect hmode hfile htrace hdialect =>
    obtain ⟨complaint, rfl, hinput, rfl⟩ | ⟨hdash, hnull, rfl⟩ |
      ⟨text, hoffers, hsome, hrequest⟩ := value_loadTrace_eq_error_iff.1 h
    · exact .input (by rw [hmode]; rfl) hfile htrace (by rw [hdialect]; rfl) hinput
    · exact .trace (by rw [hmode]; rfl) hfile htrace (by rw [hdialect]; rfl) hdash hnull
    · exact .request hmode hfile htrace hdialect hoffers hsome hrequest

/-- A load that is stuck breaks down. -/
theorem Stuck.load_eq_error (h : x.Stuck s b) : (x.load s).value = .error b := by
  cases h with
  | mode hmode => simp only [load, hmode, brokenBy]
  | source hmode hfile hlong =>
    obtain ⟨mode, hmode⟩ := Option.isSome_iff_exists.1 hmode
    simp only [load, hmode, hfile, loadSource_of_tooLong x mode hlong, brokenBy]
  | compiler hmode hfile hthere hcompiler =>
    obtain ⟨mode, hmode⟩ := Option.isSome_iff_exists.1 hmode
    simp only [load, hmode, hfile, loadSource_of_blank mode hthere hcompiler, brokenBy]
  | ending hmode hfile hthere hcompiler hraised =>
    obtain ⟨mode, hmode⟩ := Option.isSome_iff_exists.1 hmode
    simp only [load, hmode, hfile, loadSource_of_holdsFile mode hthere hcompiler]
    exact value_loadRun_eq_error_iff.2 (.inl ⟨_, hraised, rfl⟩)
  | directories hmode hfile hthere hcompiler hdirectories hprints =>
    obtain ⟨mode, hmode⟩ := Option.isSome_iff_exists.1 hmode
    simp only [load, hmode, hfile, loadSource_of_holdsFile mode hthere hcompiler]
    exact value_loadRun_eq_error_iff.2 (.inr ⟨rfl, hdirectories, _, hprints⟩)
  | dialect hmode hfile htrace hdialect =>
    obtain ⟨mode, hmode⟩ := Option.isSome_iff_exists.1 hmode
    obtain ⟨trace, htrace⟩ := Option.isSome_iff_exists.1 htrace
    simp only [load, hmode, hfile, htrace, hdialect, brokenBy]
  | trace hmode hfile htrace hdialect hdash hnull =>
    obtain ⟨mode, hmode⟩ := Option.isSome_iff_exists.1 hmode
    obtain ⟨dialect, hdialect⟩ := Option.isSome_iff_exists.1 hdialect
    simp only [load, hmode, hfile, htrace, hdialect]
    exact value_loadTrace_eq_error_iff.2 (.inr (.inl ⟨hdash, hnull, rfl⟩))
  | input hmode hfile htrace hdialect hinput =>
    obtain ⟨mode, hmode⟩ := Option.isSome_iff_exists.1 hmode
    obtain ⟨dialect, hdialect⟩ := Option.isSome_iff_exists.1 hdialect
    simp only [load, hmode, hfile, htrace, hdialect]
    exact value_loadTrace_eq_error_iff.2 (.inl ⟨_, rfl, hinput, rfl⟩)
  | request hmode hfile htrace hdialect hoffers hsome hrequest =>
    simp only [load, hmode, hfile, htrace, hdialect]
    exact value_loadTrace_eq_error_iff.2 (.inr (.inr ⟨_, hoffers, hsome, hrequest⟩))

/-- **A load breaks down exactly where it is stuck.** -/
theorem load_eq_error_iff : (x.load s).value = .error b ↔ x.Stuck s b :=
  ⟨stuck_of_load_eq_error, Stuck.load_eq_error⟩

theorem not_stuck_of_obtains (h : x.Obtains s t) (b : Breakdown) : ¬ x.Stuck s b := fun hstuck =>
  nomatch (load_eq_some_iff.2 h).symm.trans (load_eq_error_iff.2 hstuck)

theorem Obtains.unique {u : IncludeTree} (h : x.Obtains s t) (h' : x.Obtains s u) : t = u :=
  Option.some.inj (Except.ok.inj ((load_eq_some_iff.2 h).symm.trans (load_eq_some_iff.2 h')))

theorem Stuck.unique {c : Breakdown} (h : x.Stuck s b) (h' : x.Stuck s c) : b = c :=
  Except.error.inj ((load_eq_error_iff.2 h).symm.trans (load_eq_error_iff.2 h'))

/-- Where no file is compiled, the source file of a tree is the one that was named. -/
theorem source_of_obtains (hfile : x.compileFile = none) (h : x.Obtains s t) :
    t.source = x.source.join := by
  obtain ⟨r, text, hsupplies, htree⟩ := h
  rw [((s.reader r).tree_eq_ok_iff_preorder text t).1 htree |>.2.2]
  cases hsupplies with
  | printed _ hsome => exact nomatch hfile.symm.trans hsome
  | traced _ _ _ _ _ _ hrequest =>
    simp only [request] at hrequest
    split at hrequest
    · cases hrequest
    · cases hrequest
    · obtain rfl := Except.ok.inj hrequest
      rfl

/-! ### What a load starts -/

theorem started_loadText (x : Settings) (s : Surroundings) (mode : DisplayMode)
    (dialect : Compiler.Family) (text : String) :
    (x.loadText s mode dialect text).journal.started = [] := by
  rw [loadText]
  split
  · exact s.started_ofText _ text
  · split <;> rfl

theorem started_loadTrace (x : Settings) (s : Surroundings) (mode : DisplayMode)
    (dialect : Compiler.Family) (trace : String) :
    (x.loadTrace s mode dialect trace).journal.started = [] := by
  obtain ⟨text, -, hload⟩ | ⟨complaint, -, -, hload⟩ | ⟨-, -, hload⟩ | ⟨-, -, -, message, hload⟩ :=
    x.loadTrace_cases s mode dialect trace
  · rw [hload, started_loadText]
  · rw [hload]
    rfl
  · rw [hload]
    rfl
  · rw [hload]
    rfl

theorem started_loadRun (x : Settings) (s : Surroundings) (mode : DisplayMode)
    (compiler file : String) :
    (x.loadRun s mode compiler file).journal.started = [x.compilerRun compiler file] := by
  rw [loadRun]
  split
  · exact (s.errors_and_started_ofRun _ _).2
  · exact s.started_printedBy _

/-- One compiler run is started at most, and only for a file to compile that is there. -/
theorem started_load (x : Settings) (s : Surroundings) :
    (x.load s).journal.started = [] ∨
      ∃ compiler file, x.compileFile = some file ∧ s.disk.HoldsFile (.spelled file) ∧
        x.compiler = some compiler ∧
        (x.load s).journal.started = [x.compilerRun compiler file] := by
  rw [load]
  split
  · exact .inl rfl
  · next mode file hmode hfile =>
    obtain ⟨-, -, hload⟩ | ⟨-, -, hload⟩ | ⟨compiler, hthere, hcompiler, hload⟩ | ⟨-, hload⟩ :=
      x.loadSource_cases s mode file
    · exact .inl (by rw [hload]; rfl)
    · exact .inl (by rw [hload]; rfl)
    · exact .inr ⟨compiler, file, hfile, hthere, hcompiler, by rw [hload, started_loadRun]⟩
    · exact .inl (by rw [hload]; rfl)
  · exact .inl rfl
  · exact .inl rfl
  · exact .inl (x.started_loadTrace s _ _ _)

end Settings

end IncludeTrace
