import Interpolation.CommandLine.Session
import Interpolation.Proofs.CommandLineItems
import Interpolation.Proofs.ConfigurationMaps
import Interpolation.Proofs.NestingDepth

/-!
# Interpolation.Proofs.Sessions

What a session answers **is determined by its settings and its template**.

The settings are those of the configuration file, changed by the command line: an assignment
prevails over the file and over the assignments before it (`Options.get?_override`), a limit
prevails over that of the file. Either the settings and the template can be read, and then the exit
code and the output are those of the two passes, or of the check; or one of them cannot, and the
session fails without output. No other failure is possible but that of patterns nested too deep
(`Processor.exists_limit_of_processBoth`), and none comes with a part of an output.
-/

namespace Interpolation

/-! ### How processing fails -/

/-- Expanding fails only where the limit is exceeded. -/
theorem Processor.exists_limit_of_expand {p : Processor} {t : Text} {r : Resolver}
    {e : ProcessError} (h : (p.expand t r).result = .error e) :
    ∃ limit, p.maxDepth = some limit ∧ e = .depthExceeded limit := by
  obtain ⟨maxDepth⟩ := p
  rw [Processor.expand, Run.mapError] at h
  cases maxDepth with
  | none =>
    rw [Template.expandText_total] at h
    cases h
  | some limit =>
    have hcut := Template.cutOff_expandAt r limit (Template.ofText t) 0
    rcases Nat.lt_or_ge limit ((Template.ofText t).takenDepth r) with hlt | hle
    · have hresult : (expandText r.total (some limit) t).result = .error (.tooDeep limit) :=
        (hcut.stops hlt).1
      simp only [hresult] at h
      cases h
      exact ⟨limit, rfl, rfl⟩
    · obtain ⟨out, hout⟩ := hcut.succeeds_iff.2 hle
      have hresult : (expandText r.total (some limit) t).result = .ok out := hout
      simp only [hresult] at h
      cases h

theorem Processor.exists_limit_of_processBoth {p : Processor} {t : Text} {c : Option Configuration}
    {args : List Value} {e : ProcessError} (h : (p.processBoth t c args).result = .error e) :
    ∃ limit, p.maxDepth = some limit ∧ e = .depthExceeded limit := by
  unfold processBoth Run.bind at h
  cases hfirst : (p.processArguments t args).result with
  | error e' =>
    rw [hfirst] at h
    cases h
    exact exists_limit_of_expand hfirst
  | ok t' =>
    rw [hfirst] at h
    exact exists_limit_of_expand h

namespace CommandLine

/-! ### Settings -/

/-- The values of a configuration with the assignments stored over them. -/
def Options.override (o : Options) (values : Configuration) : Configuration :=
  o.assignments.foldl (fun c a => c.insert a.1 (some a.2)) values

/-- **The last assignment of a key prevails**, and every assignment over the file. -/
theorem Options.get?_override (o : Options) (values : Configuration) (key : Text) :
    (o.override values).get? key =
      ((o.assignments.reverse.lookup key).map some).or (values.get? key) := by
  unfold override
  induction o.assignments generalizing values with
  | nil => rfl
  | cons a rest ih =>
    rw [List.foldl_cons, ih, Configuration.get?_insert, List.reverse_cons, List.lookup_append,
      lookup_cons_ite, List.lookup_nil]
    by_cases hkey : key = a.1
    · rw [if_pos hkey, if_pos hkey]
      cases rest.reverse.lookup key <;> rfl
    · rw [if_neg hkey, if_neg hkey, Option.or_none]

/-- The configuration file that the command line names; without one, the empty file. -/
def configurationFile (s : Surroundings) (o : Options) : Except FileError ConfigurationFile :=
  match o.config with
  | none => .ok .empty
  | some path => (s.read path).mapError .unreadable >>= ConfigurationFile.ofBytes s.folder

/-- The text of the template, from the file that the command line names or from standard input. -/
def templateText (s : Surroundings) (o : Options) : Except ReadError Text :=
  match o.input with
  | some path => decodeSource (s.read path)
  | none => decodeSource (s.input.getD (.ok []))

variable {s : Surroundings} {o : Options}

theorem loadSettings_of_ok {file : ConfigurationFile} (h : configurationFile s o = .ok file) :
    ∃ log, loadSettings s o = .ok (⟨o.maxDepth.or file.maxDepth, o.override file.values⟩, log) := by
  cases hconfig : o.config with
  | none =>
    simp only [configurationFile, hconfig] at h
    cases h
    exact ⟨[], by simp only [loadSettings, hconfig]; rfl⟩
  | some path =>
    simp only [configurationFile, hconfig] at h
    exact ⟨[file.loadedRecord path], by simp only [loadSettings, hconfig, h]; rfl⟩

theorem loadSettings_of_error {e : FileError} (h : configurationFile s o = .error e) :
    ∃ failure, loadSettings s o = .error failure := by
  cases hconfig : o.config with
  | none =>
    simp only [configurationFile, hconfig] at h
    cases h
  | some path =>
    simp only [configurationFile, hconfig] at h
    simp only [loadSettings, hconfig, h]
    exact ⟨_, rfl⟩

theorem loadSource_of_ok {text : Text} (h : templateText s o = .ok text) :
    ∃ name, loadSource s o = .ok ⟨text, name⟩ := by
  cases hinput : o.input <;>
    · simp only [templateText, hinput] at h
      simp only [loadSource, hinput, h]
      exact ⟨_, rfl⟩

theorem loadSource_of_error {e : ReadError} (h : templateText s o = .error e) :
    ∃ message, loadSource s o = .error message := by
  cases hinput : o.input <;>
    · simp only [templateText, hinput] at h
      simp only [loadSource, hinput, h]
      exact ⟨_, rfl⟩

/-! ### Answers -/

section Perform

variable {limit : Option Nat} {settings : Configuration} {text name : Text} {log : List LogRecord}

theorem output_perform_of_check (hcheck : o.check) :
    (perform o ⟨limit, settings⟩ ⟨text, name⟩ log).output = [] := by
  rw [perform, if_pos hcheck]

theorem exit_perform_of_check (hcheck : o.check) :
    (perform o ⟨limit, settings⟩ ⟨text, name⟩ log).exit =
      if ∃ d ∈ (checkBoth text (some settings) (o.arguments.map Value.text)).map
          Finding.toDiagnostic, d.isError
      then 1 else 0 := by
  rw [perform, if_pos hcheck]
  simp only [List.any_eq_true]

theorem perform_of_ok {expansion : Text} (hcheck : ¬ o.check)
    (h : ((Processor.mk limit).processBoth text (some settings)
      (o.arguments.map Value.text)).result = .ok expansion) :
    (perform o ⟨limit, settings⟩ ⟨text, name⟩ log).exit = 0 ∧
      (perform o ⟨limit, settings⟩ ⟨text, name⟩ log).output = expansion := by
  rw [perform, if_neg hcheck]
  simp only [h, and_self]

theorem perform_of_error {e : ProcessError} (hcheck : ¬ o.check)
    (h : ((Processor.mk limit).processBoth text (some settings)
      (o.arguments.map Value.text)).result = .error e) :
    (perform o ⟨limit, settings⟩ ⟨text, name⟩ log).exit = 1 ∧
      (perform o ⟨limit, settings⟩ ⟨text, name⟩ log).output = [] := by
  rw [perform, if_neg hcheck]
  simp only [h, and_self]

end Perform

/-- Without a configuration file or a template that can be read, a session fails and
prints nothing. -/
theorem runOptions_of_unreadable (hinput : ¬ (o.input = none ∧ s.input = none))
    (h : (∃ e, configurationFile s o = .error e) ∨ ∃ e, templateText s o = .error e) :
    (runOptions s o).exit = 1 ∧ (runOptions s o).output = [] := by
  rw [runOptions, if_neg hinput]
  cases hfile : configurationFile s o with
  | error e =>
    obtain ⟨failure, hload⟩ := loadSettings_of_error hfile
    rw [hload]
    exact ⟨rfl, rfl⟩
  | ok file =>
    obtain ⟨log, hload⟩ := loadSettings_of_ok hfile
    rw [hload]
    rcases h with ⟨e, he⟩ | ⟨e, he⟩
    · rw [hfile] at he
      cases he
    · obtain ⟨message, hsource⟩ := loadSource_of_error he
      simp only [hsource, and_self]

/-- With both, a session works on the template with the settings in force. -/
theorem runOptions_of_readable (hinput : ¬ (o.input = none ∧ s.input = none))
    {file : ConfigurationFile} {text : Text} (hfile : configurationFile s o = .ok file)
    (htext : templateText s o = .ok text) :
    ∃ name log, runOptions s o =
      perform o ⟨o.maxDepth.or file.maxDepth, o.override file.values⟩ ⟨text, name⟩ log := by
  obtain ⟨log, hload⟩ := loadSettings_of_ok hfile
  obtain ⟨name, hsource⟩ := loadSource_of_ok htext
  rw [runOptions, if_neg hinput, hload]
  simp only [hsource]
  exact ⟨name, _, rfl⟩

/-- **An accepted command line determines the answer.** What the options hold stands in the
arguments, and an assignment is cut at its first `=`. If the configuration file and the template can
be read, the values of the file with the assignments over them, and the limit of the command line or
else of the file, are in force. Then a check fails exactly if it finds an error, and an expansion
prints all of the text that the two passes write, or it fails because patterns are nested too deep
and prints nothing. If one of the two cannot be read, the session fails and prints nothing. -/
theorem run_of_accepted (hparse : Options.parse s.arguments = .ok o)
    (hinput : ¬ (o.input = none ∧ s.input = none)) :
    o.Holds (items none false s.arguments) ∧
      (∀ t key value, parseAssignment t = .ok (key, value) ↔
        ∃ written, t = written ++ '=' :: value ∧ '=' ∉ written ∧ key = written.trim ∧
          ∃ c ∈ written, ¬ isBlank c) ∧
      (o.check → (run s).output = []) ∧
      match configurationFile s o, templateText s o with
      | .ok file, .ok text =>
        let settings := o.override file.values
        let limit := o.maxDepth.or file.maxDepth
        let args := o.arguments.map Value.text
        (∀ key, settings.get? key =
          ((o.assignments.reverse.lookup key).map some).or (file.values.get? key)) ∧
          if o.check then
            (run s).exit =
              if ∃ d ∈ (checkBoth text (some settings) args).map Finding.toDiagnostic,
                d.isError then 1 else 0
          else
            match ((Processor.mk limit).processBoth text (some settings) args).result with
            | .ok expansion => (run s).exit = 0 ∧ (run s).output = expansion
            | .error e =>
              (run s).exit = 1 ∧ (run s).output = [] ∧ ∃ n, limit = some n ∧ e = .depthExceeded n
      | _, _ => (run s).exit = 1 ∧ (run s).output = [] := by
  have hrun : run s = runOptions s o := by rw [run, hparse]
  rw [hrun]
  refine ⟨Options.holds_of_parse hparse, fun _ _ _ => parseAssignment_eq_ok_iff, ?_⟩
  cases hfile : configurationFile s o with
  | error e =>
    have hfails := runOptions_of_unreadable hinput (.inl ⟨e, hfile⟩)
    exact ⟨fun _ => hfails.2, hfails⟩
  | ok file =>
    cases htext : templateText s o with
    | error e =>
      have hfails := runOptions_of_unreadable hinput (.inr ⟨e, htext⟩)
      exact ⟨fun _ => hfails.2, hfails⟩
    | ok text =>
      obtain ⟨name, log, hperform⟩ := runOptions_of_readable hinput hfile htext
      rw [hperform]
      refine ⟨output_perform_of_check, o.get?_override file.values, ?_⟩
      split
      · rename_i hcheck
        exact exit_perform_of_check hcheck
      · rename_i hcheck
        split
        · rename_i expansion hresult
          exact perform_of_ok hcheck hresult
        · rename_i e hresult
          obtain ⟨hexit, houtput⟩ := perform_of_error hcheck hresult
          exact ⟨hexit, houtput, Processor.exists_limit_of_processBoth hresult⟩

/-- The file has two keys, one of which is assigned twice on the command line: the later assignment
counts, with its `=`, and its key is written with blanks around it. The template takes a pattern,
which the limit of the file does not allow, but that of the command line does. -/
theorem run_of_accepted_assignments :
    let template := "$\x7b0\x7d$\x7bk?$\x7bk\x7d\x7d$\x7bj\x7d".toList
    let s : Surroundings :=
      ⟨["-s".toList, "k=a".toList, "--set= k =b=c".toList, "-ax".toList, "--max-depth=1".toList,
          "-cf".toList, "t".toList], none, none,
        fun name =>
          if name = ['t'] then .ok (Text.toBytes template)
          else if name = ['f'] then
            .ok (Text.toBytes "[processor]\nmax_depth = 0\n[values]\nj = 'd'\nk = 'e'".toList)
          else .error .notFound⟩
    let o : Options :=
      ⟨some ['t'], some ['f'], [(['k'], ['a']), (['k'], ['b', '=', 'c'])], [['x']],
        some 1, false, false⟩
    let file : ConfigurationFile :=
      ⟨some 0, .ofValues none [(['j'], .text ['d']), (['k'], .text ['e'])]⟩
    Options.parse s.arguments = .ok o ∧ ¬ (o.input = none ∧ s.input = none) ∧
      configurationFile s o = .ok file ∧ (run s).exit = 0 ∧ (run s).output = "xb=cd".toList := by
  intro template s o file
  have hparse : Options.parse s.arguments = .ok o := by decide +kernel
  have hinput : ¬ (o.input = none ∧ s.input = none) := by decide
  obtain ⟨-, -, -, hanswer⟩ := run_of_accepted hparse hinput
  have hfile : configurationFile s o = .ok file := by decide +kernel
  have htext : templateText s o = .ok template := by decide +kernel
  have hresult : ((Processor.mk (o.maxDepth.or file.maxDepth)).processBoth template
      (some (o.override file.values)) (o.arguments.map Value.text)).result =
        .ok "xb=cd".toList := by
    decide +kernel
  rw [hfile, htext] at hanswer
  obtain ⟨-, hanswer⟩ := hanswer
  rw [if_neg (show ¬ o.check by decide), hresult] at hanswer
  exact ⟨hparse, hinput, hfile, hanswer⟩

end CommandLine

end Interpolation
